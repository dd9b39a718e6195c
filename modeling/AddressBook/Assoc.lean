/-!
# Association lists

Entries with keys, in order. Inserting at a key that is there keeps its place; a new key goes to the end.
A list built by insertions alone has pairwise distinct keys.
-/

namespace AddressBook

/-- Entries with keys, in order. -/
abbrev Assoc (κ α : Type) := List (κ × α)

namespace Assoc

variable {κ α : Type} [DecidableEq κ]

def get? : Assoc κ α → κ → Option α
  | [], _ => none
  | (k, a) :: rest, key => if k = key then some a else get? rest key

/-- Sets the value at a key: in its place if the key is there, as the last entry if not. -/
def insert : Assoc κ α → κ → α → Assoc κ α
  | [], key, value => [(key, value)]
  | (k, a) :: rest, key, value =>
      if k = key then (k, value) :: rest else (k, a) :: insert rest key value

/-- Inserts the entries of `changes`, in their order. -/
def extend (entries changes : Assoc κ α) : Assoc κ α :=
  changes.foldl (fun all change => all.insert change.1 change.2) entries

/-- The list with the given entries, a repeated key at its first place with its last value. -/
def ofList (entries : List (κ × α)) : Assoc κ α := extend [] entries

/-- Removes a key, leaving the order of the others. -/
def erase (entries : Assoc κ α) (key : κ) : Assoc κ α := entries.filter (·.1 ≠ key)

/-- Puts an entry in the place of the one with the key. -/
def replaceAt (key : κ) (entry : κ × α) : Assoc κ α → Assoc κ α
  | [] => []
  | (k, a) :: rest => if k = key then entry :: rest else (k, a) :: replaceAt key entry rest

/-- Removes a key; the last entry moves into the gap. -/
def swapErase (entries : Assoc κ α) (key : κ) : Assoc κ α :=
  match entries.getLast? with
  | none => []
  | some last =>
      if (entries.get? key).isNone then entries
      else if last.1 = key then entries.dropLast
      else replaceAt key last entries.dropLast

def keys (entries : Assoc κ α) : List κ := entries.map Prod.fst

/-! ### What a key holds afterwards -/

@[simp] theorem get?_nil (key : κ) : get? ([] : Assoc κ α) key = none := rfl

@[simp] theorem get?_insert_self (entries : Assoc κ α) (key : κ) (value : α) :
    (entries.insert key value).get? key = some value := by
  induction entries with
  | nil => simp [insert, get?]
  | cons entry rest ih =>
      obtain ⟨k, a⟩ := entry
      by_cases h : k = key <;> simp [insert, get?, h, ih]

theorem get?_insert_of_ne (entries : Assoc κ α) {key other : κ} (value : α) (h : other ≠ key) :
    (entries.insert key value).get? other = entries.get? other := by
  induction entries with
  | nil => simp [insert, get?, Ne.symm h]
  | cons entry rest ih =>
      obtain ⟨k, a⟩ := entry
      by_cases hk : k = key
      · subst hk
        simp [insert, get?, Ne.symm h]
      · by_cases ho : k = other
        · subst ho
          simp [insert, get?, hk]
        · simp [insert, get?, hk, ho, ih]

@[simp] theorem get?_erase_self (entries : Assoc κ α) (key : κ) :
    (entries.erase key).get? key = none := by
  induction entries with
  | nil => rfl
  | cons entry rest ih =>
      obtain ⟨k, a⟩ := entry
      by_cases h : k = key
      · simpa [erase, h] using ih
      · simpa [erase, get?, h] using ih

theorem get?_erase_of_ne (entries : Assoc κ α) {key other : κ} (h : other ≠ key) :
    (entries.erase key).get? other = entries.get? other := by
  induction entries with
  | nil => rfl
  | cons entry rest ih =>
      obtain ⟨k, a⟩ := entry
      by_cases hk : k = key
      · subst hk
        simpa [erase, get?, Ne.symm h] using ih
      · by_cases ho : k = other
        · simp [erase, get?, ho, h]
        · simpa [erase, get?, hk, ho] using ih

end Assoc

end AddressBook
