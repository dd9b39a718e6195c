import AddressBook.Proofs.Store.Uploads
import AddressBook.Proofs.Text.Utf8
import AddressBook.Service.Router
/-!
# Serving uploads by their names

The path of a name below the uploads is taken as it is if the name is bare and has no percent sign: it is then answered
with what stands at the place of the name in the folder of the uploads.
-/

namespace AddressBook

open Http (Request Response)
open Text (Bytes)

/-! ### Paths without percent signs -/

theorem Http.Percent.decodeBytes_eq_self {bytes : Bytes} (hbytes : (0x25 : UInt8) ∉ bytes) :
    Http.Percent.decodeBytes bytes = bytes := by
  induction bytes with
  | nil => rfl
  | cons b rest ih =>
      have hb : b ≠ 0x25 := Ne.symm (List.ne_of_not_mem_cons hbytes)
      have hrest := ih (List.not_mem_of_not_mem_cons hbytes)
      rw [Http.Percent.decodeBytes]
      · rw [hrest]
      · intro a c tail heq
        exact absurd heq hb

theorem Http.Percent.decode?_eq_self {cs : List Char} (hcs : '%' ∉ cs) : Http.Percent.decode? cs = some cs := by
  rw [Http.Percent.decode?, Http.Percent.decodeBytes_eq_self (fun hmem => hcs (Text.Utf8.mem_of_mem_encode hmem (by decide))),
    Text.Utf8.decode?_encode]

theorem Route.ofPath?_uploads (name : List Char) : Route.ofPath? ("/uploads/".toList ++ name) = some (.file ('/' :: name)) := rfl

namespace Service

variable {service : Service} {name : String}

/-- The content of a file, or nothing to be found. -/
def nodeResponse : Option FileNode → Response
  | some (.file content) => { status := 200, body := .file content }
  | some .folder | none => { status := 404 }

/-- A bare name is its own only component. -/
theorem servedComponents?_of_bare (hbare : UploadStore.isBareName name = true) (hpercent : '%' ∉ name.toList) :
    servedComponents? ('/' :: name.toList) = some [name] := by
  obtain ⟨⟨hempty, hpoint, hup⟩, hchars⟩ := UploadStore.isBareName_iff.1 hbare
  have hslash : '/' ∉ name.toList := fun hmem => absurd (hchars '/' hmem) (by decide)
  have hhead : name.toList.head? ≠ some '/' := fun hhead => hslash (List.mem_of_head? hhead)
  have hdrop : ('/' :: name.toList).dropWhile (· == '/') = name.toList := by
    rw [List.dropWhile_cons_of_pos rfl]
    cases hname : name.toList with
    | nil => rfl
    | cons c rest =>
        rw [hname] at hhead
        exact List.dropWhile_cons_of_neg fun hc => hhead (congrArg some (beq_iff_eq.1 hc))
  have hpieces : Path.pieces name = [name] := by
    rw [Path.pieces, Text.split_of_not_mem hslash, List.map_singleton, String.ofList_toList]
  have hcomponents : Path.components name = [name] := by
    have hcomponent : Path.isComponent name = true := by simp [Path.isComponent, hempty, hpoint]
    rw [Path.components, hpieces, List.filter_cons_of_pos hcomponent, List.filter_nil]
  rw [servedComponents?, hdrop, Http.Percent.decode?_eq_self hpercent]
  simp only [Option.bind_eq_bind, Option.bind_some, String.ofList_toList]
  rw [if_neg, hcomponents]
  rw [hpieces, List.mem_singleton]
  exact not_or.2 ⟨hhead, Ne.symm hup⟩

theorem serveFile_of_locate (hbare : UploadStore.isBareName name = true) (hpercent : '%' ∉ name.toList) {place : Place}
    (hlocate : service.files.locate (Path.join service.settings.uploadDir name) = .ok place)
    (hfolder : service.files.node? place ≠ some .folder) :
    service.serveFile ('/' :: name.toList) = nodeResponse (service.files.node? place) := by
  rw [serveFile, servedComponents?_of_bare hbare hpercent]
  have hfile : (!isFolder service.files ([name].foldl Path.join service.settings.uploadDir)) = true := by
    change (!isFolder service.files (Path.join service.settings.uploadDir name)) = true
    rw [isFolder, hlocate, Bool.not_eq_true']
    exact beq_eq_false_iff_ne.2 hfolder
  dsimp only
  rw [if_pos hfile]
  change fileResponse service.files (Path.join service.settings.uploadDir name) = _
  rw [fileResponse, FileTree.read_of_locate hlocate]
  cases hnode : service.files.node? place with
  | none => rfl
  | some node =>
      cases node with
      | file content => rfl
      | folder => exact absurd hnode hfolder

end Service

end AddressBook
