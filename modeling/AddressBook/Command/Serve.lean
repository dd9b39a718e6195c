import AddressBook.Command.Basic
import AddressBook.Command.Check
import AddressBook.Service.Basic
/-!
# Before serving

A service starts with the settings of a file, or the defaults, overridden by the command line. Its address
must be one that can be listened on; then its stores are prepared.
-/

namespace AddressBook

namespace Settings

/-- The settings in a file, or the defaults. -/
def load (read : Check.ReadFile) : Option String → Except CommandFailure Settings
  | none => .ok {}
  | some path => do
      let text ← Check.readText read path
      parse text

def start (read : Check.ReadFile) (config : Option String) (overrides : Overrides) :
    Except CommandFailure Settings := do
  let settings ← load read config
  pure (overrides.apply settings)

end Settings

/-- Makes a service ready; answers the address to listen on. -/
def Service.ready (settings : Settings) (files : FileTree) :
    Except CommandFailure (SocketAddress × Service) := do
  let address ← settings.address
  match Service.prepare settings files with
  | .ok service => pure (address, service)
  | .error fault => .error (.storage fault)

end AddressBook
