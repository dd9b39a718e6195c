import AddressBook.Proofs.Files.Path
import AddressBook.Proofs.Text.Lowercase
import AddressBook.Store.Uploads
/-!
# Uploads

A file is stored under the fresh name it is given, with letters and digits after a point at most. Such a name is bare if
the fresh name is, so its path leads to the place of that very name in a folder. Where the folder of the uploads is there,
storing a file writes it or changes nothing.
-/

namespace AddressBook

namespace UploadStore

/-- The characters that may stand in a bare name. -/
def isBareChar (c : Char) : Bool := c != '/' && c != '\\' && c != '\x00'

theorem isBareName_iff {name : String} :
    isBareName name = true ↔ (name ≠ "" ∧ name ≠ "." ∧ name ≠ "..") ∧ ∀ c ∈ name.toList, isBareChar c = true := by
  simp only [isBareName, isBareChar, Bool.and_eq_true, bne_iff_ne, List.all_eq_true, ne_eq, and_assoc]

theorem isBareChar_of_isAlphanum {c : Char} (hc : c.isAlphanum = true) : isBareChar c = true := by
  have hne : ∀ d : Char, d.isAlphanum = false → c ≠ d := by
    rintro d hd rfl
    exact absurd hc (by rw [hd]; decide)
  simp [isBareChar, hne '/' (by decide), hne '\\' (by decide), hne '\x00' (by decide)]

/-- What is kept is the extension of the file in lower case, if it has letters and digits of ASCII only, and at least one. -/
theorem keptExtension?_eq_some_iff {clientName kept : String} : keptExtension? clientName = some kept ↔
    ∃ own, Path.extension? clientName = some own ∧ own ≠ "" ∧ (∀ c ∈ own.toList, c.isAlphanum = true) ∧
      kept = Text.lowercase own := by
  rw [keptExtension?]
  cases Path.extension? clientName with
  | none => exact ⟨nofun, fun ⟨_, hown, _⟩ => nomatch hown⟩
  | some own =>
      have hchars : (!own.toList.isEmpty && own.toList.all Char.isAlphanum) = true ↔
          own ≠ "" ∧ ∀ c ∈ own.toList, c.isAlphanum = true := by
        rw [Bool.and_eq_true, Bool.not_eq_true', List.isEmpty_eq_false_iff, List.all_eq_true, ne_eq, String.toList_eq_nil_iff]
      dsimp only
      split
      · rename_i hown
        obtain ⟨hne, hletters⟩ := hchars.1 hown
        rw [← Text.lowercase_of_isAlphanum hletters, Option.some.injEq, eq_comm]
        constructor
        · exact fun heq => ⟨own, rfl, hne, hletters, heq⟩
        · rintro ⟨other, hother, -, -, heq⟩
          rw [Option.some.inj hother]
          exact heq
      · rename_i hown
        refine ⟨nofun, ?_⟩
        rintro ⟨other, hother, hne, hletters, -⟩
        obtain rfl := Option.some.inj hother
        exact absurd (hchars.2 ⟨hne, hletters⟩) hown

theorem isAlphanum_keptExtension {clientName extension : String} (hkept : keptExtension? clientName = some extension) :
    extension.toList ≠ [] ∧ ∀ c ∈ extension.toList, c.isAlphanum = true := by
  obtain ⟨own, -, hne, hletters, rfl⟩ := keptExtension?_eq_some_iff.1 hkept
  refine ⟨?_, Text.isAlphanum_lowercase hletters⟩
  rw [Text.lowercase_of_isAlphanum hletters, String.toList_ofList]
  exact fun hnil => hne (String.toList_eq_nil_iff.1 (List.map_eq_nil_iff.1 hnil))

/-- A stored name is the fresh name, with nothing after it or a point and letters and digits. -/
theorem exists_storedName (fresh clientName : String) :
    ∃ suffix : List Char, (storedName fresh clientName).toList = fresh.toList ++ suffix ∧
      (suffix = [] ∨ ∃ c rest, suffix = '.' :: c :: rest ∧ ∀ d ∈ c :: rest, d.isAlphanum = true) := by
  unfold storedName
  split
  · rename_i extension hkept
    obtain ⟨hne, hall⟩ := isAlphanum_keptExtension hkept
    obtain ⟨c, rest, hextension⟩ := List.exists_cons_of_ne_nil hne
    refine ⟨'.' :: c :: rest, ?_, .inr ⟨c, rest, rfl, hextension ▸ hall⟩⟩
    rw [String.toList_append, String.toList_append, hextension, List.append_assoc]
    rfl
  · exact ⟨[], (List.append_nil _).symm, .inl rfl⟩

theorem isBareName_storedName {fresh : String} (hfresh : isBareName fresh = true) (clientName : String) :
    isBareName (storedName fresh clientName) = true := by
  obtain ⟨suffix, hname, hsuffix⟩ := exists_storedName fresh clientName
  rcases hsuffix with rfl | ⟨c, rest, rfl, hall⟩
  · rw [List.append_nil, String.toList_inj] at hname
    rw [hname]
    exact hfresh
  · obtain ⟨⟨hempty, -, -⟩, hchars⟩ := isBareName_iff.1 hfresh
    have hlong : 3 ≤ (storedName fresh clientName).toList.length := by
      have hpos : 0 < fresh.toList.length := List.length_pos_iff.2 fun hnil => hempty (String.toList_eq_nil_iff.1 hnil)
      rw [hname, List.length_append, List.length_cons, List.length_cons]
      omega
    have hne : ∀ short : String, short.toList.length < 3 → storedName fresh clientName ≠ short := by
      rintro short hshort rfl
      omega
    refine isBareName_iff.2 ⟨⟨hne _ (by decide), hne _ (by decide), hne _ (by decide)⟩, fun d hd => ?_⟩
    rw [hname] at hd
    rcases List.mem_append.1 hd with hd | hd
    · exact hchars d hd
    · rcases List.mem_cons.1 hd with rfl | hd
      · decide
      · exact isBareChar_of_isAlphanum (hall d hd)

/-! ### Plain fresh names -/

/-- A name of letters, digits and hyphens. -/
def IsPlain (name : String) : Prop := name ≠ "" ∧ ∀ c ∈ name.toList, c.isAlphanum = true ∨ c = '-'

instance (name : String) : Decidable (IsPlain name) :=
  decidable_of_iff (name ≠ "" ∧ name.toList.all (fun c => c.isAlphanum || c == '-') = true) (by simp [IsPlain])

section Plain

variable {fresh : String} (hplain : IsPlain fresh)

include hplain

theorem isBareName_of_isPlain : isBareName fresh = true := by
  obtain ⟨hempty, hchars⟩ := hplain
  have hpoint : '.' ∉ fresh.toList := fun hmem => absurd (hchars '.' hmem) (by decide)
  have hne : ∀ name : String, '.' ∈ name.toList → fresh ≠ name := by
    rintro name hmem rfl
    exact hpoint hmem
  refine isBareName_iff.2 ⟨⟨hempty, hne "." (by decide), hne ".." (by decide)⟩, fun c hc => ?_⟩
  rcases hchars c hc with hletter | rfl
  · exact isBareChar_of_isAlphanum hletter
  · decide

theorem mem_storedName {clientName : String} {c : Char} (hc : c ∈ (storedName fresh clientName).toList) :
    c.isAlphanum = true ∨ c = '-' ∨ c = '.' := by
  obtain ⟨suffix, hname, hsuffix⟩ := exists_storedName fresh clientName
  rw [hname] at hc
  rcases List.mem_append.1 hc with hc | hc
  · exact (hplain.2 c hc).imp_right .inl
  · rcases hsuffix with rfl | ⟨first, rest, rfl, hall⟩
    · nomatch hc
    · rcases List.mem_cons.1 hc with rfl | hc
      · exact .inr (.inr rfl)
      · exact .inl (hall c hc)

theorem percent_not_mem_storedName (clientName : String) : '%' ∉ (storedName fresh clientName).toList := by
  intro hmem
  rcases mem_storedName hplain hmem with hletter | hhyphen | hpoint
  · exact absurd hletter (by decide)
  · exact absurd hhyphen (by decide)
  · exact absurd hpoint (by decide)

theorem takeWhile_storedName (clientName : String) :
    (storedName fresh clientName).toList.takeWhile (· != '.') = fresh.toList := by
  obtain ⟨suffix, hname, hsuffix⟩ := exists_storedName fresh clientName
  have hchars : ∀ c ∈ fresh.toList, (c != '.') = true := by
    intro c hc
    refine bne_iff_ne.2 ?_
    rintro rfl
    exact absurd (hplain.2 '.' hc) (by decide)
  rw [hname, List.takeWhile_append_of_pos hchars]
  rcases hsuffix with rfl | ⟨first, rest, rfl, -⟩ <;> exact List.append_nil _

end Plain

theorem fresh_eq_of_storedName {fresh other : String} (hplain : IsPlain fresh) (hother : IsPlain other)
    {clientName otherName : String} (heq : storedName fresh clientName = storedName other otherName) : fresh = other := by
  have hfresh := takeWhile_storedName hplain clientName
  rw [heq, takeWhile_storedName hother] at hfresh
  exact (String.toList_inj.1 hfresh).symm

/-! ### Places of uploads -/

theorem resolve_eq_ok_iff {store : UploadStore} {name path : String} :
    store.resolve name = .ok path ↔ isBareName name = true ∧ path = Path.join store.root name := by
  unfold resolve
  split
  · rename_i hname
    simp [hname, eq_comm]
  · rename_i hname
    simp [hname]

theorem exists_folder_of_locate (store : UploadStore) {tree : FileTree} {name : String} (hname : isBareName name = true)
    {place : Place} (hlocate : tree.locate (Path.join store.root name) = .ok place) :
    ∃ above, tree.node? above = some .folder ∧ place = above ++ [name] := by
  obtain ⟨⟨hempty, hpoint, hup⟩, hchars⟩ := isBareName_iff.1 hname
  have hslash : '/' ∉ name.toList := fun hmem => absurd (hchars '/' hmem) (by decide)
  have hcomponent : Path.isComponent name = true := by simp [Path.isComponent, hempty, hpoint]
  exact FileTree.exists_folder_of_locate_join hslash hcomponent hup hlocate

/-! ### Storing and removing -/

/-- A file is stored in a folder that is there by writing it, or else nothing changes. -/
theorem save_of_createFolders (store : UploadStore) {tree : FileTree}
    (hfolder : tree.createFolders store.root = (tree, .ok ())) (fresh clientName : String) (content : Text.Bytes) :
    (∃ fault, store.save tree fresh clientName content = (tree, .error fault)) ∨
      ∃ path written, store.resolve (storedName fresh clientName) = .ok path ∧ tree.write path content = .ok written ∧
        store.save tree fresh clientName content = (written, .ok (storedName fresh clientName)) := by
  have hprepare : store.prepare tree = (tree, .ok ()) := by
    rw [prepare, hfolder]
    rfl
  unfold save
  rw [hprepare]
  dsimp only
  cases hpath : store.resolve (storedName fresh clientName) with
  | error fault => exact .inl ⟨fault, rfl⟩
  | ok path =>
      dsimp only
      cases hwrite : tree.write path content with
      | error fault => exact .inl ⟨_, rfl⟩
      | ok written => exact .inr ⟨path, written, rfl, hwrite, rfl⟩

/-- What a removal does: it takes away the file of a bare name, or there is none and nothing changes. -/
theorem remove_eq (store : UploadStore) (tree : FileTree) (name : String) :
    (∃ place content, isBareName name = true ∧ tree.locate (Path.join store.root name) = .ok place ∧
      tree.node? place = some (.file content) ∧ (store.remove tree name).1 = tree.drop place) ∨
    ((store.remove tree name).1 = tree ∧ ∀ place content, isBareName name = true →
      tree.locate (Path.join store.root name) = .ok place → tree.node? place ≠ some (.file content)) := by
  unfold remove
  cases hresolve : store.resolve name with
  | error fault =>
      refine .inr ⟨rfl, fun place content hname => ?_⟩
      rw [resolve_eq_ok_iff.2 ⟨hname, rfl⟩] at hresolve
      nomatch hresolve
  | ok path =>
      obtain ⟨hname, rfl⟩ := resolve_eq_ok_iff.1 hresolve
      dsimp only
      cases hremove : tree.remove (Path.join store.root name) with
      | ok removed =>
          obtain ⟨place, hlocate, ⟨content, hfile⟩, rfl⟩ := FileTree.remove_eq_ok_iff.1 hremove
          exact .inl ⟨place, content, hname, hlocate, hfile, rfl⟩
      | error fault =>
          refine .inr ⟨by cases fault <;> rfl, fun place content _ hlocate hfile => ?_⟩
          rw [FileTree.remove_eq_ok_iff.2 ⟨place, hlocate, ⟨content, hfile⟩, rfl⟩] at hremove
          nomatch hremove

theorem remove_cases (store : UploadStore) (tree : FileTree) (name : String) :
    (store.remove tree name).1 = tree ∨ ∃ path, tree.remove path = .ok (store.remove tree name).1 := by
  rcases store.remove_eq tree name with ⟨place, content, -, hlocate, hfile, hdrop⟩ | ⟨hsame, -⟩
  · exact .inr ⟨_, FileTree.remove_eq_ok_iff.2 ⟨place, hlocate, ⟨content, hfile⟩, hdrop⟩⟩
  · exact .inl hsame

end UploadStore

end AddressBook
