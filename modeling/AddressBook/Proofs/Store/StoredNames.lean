import AddressBook.Proofs.Files.Extension
import AddressBook.Proofs.Schema.Kinds
import AddressBook.Proofs.Store.Uploads
import AddressBook.Proofs.Text.Lowercase
/-!
# Stored names in fields for images

A field for images takes a text for what stands after its last point, wherever that point is and whatever comes after it. An
upload keeps only what is the extension of a file and made of ASCII letters and digits. So a file can be put in a field by
the name that it is stored under, where its own name could be, exactly if its own name is such that the two notions agree:
letters and digits after a last point that neither begins a name nor the whole text.
-/

namespace AddressBook

/-! ### Extensions of files -/

namespace Path

variable {stem suffix last extension : String} {front : List String}

/-- A text is not empty, and its last character is no slash. -/
def EndsInName (stem : String) : Prop := ∃ c, stem.toList.getLast? = some c ∧ c ≠ '/'

theorem exists_pieces (path : String) : ∃ front last, pieces path = front ++ [last] := by
  have hne : pieces path ≠ [] := mt List.map_eq_nil_iff.1 (Text.split_ne_nil '/' path.toList)
  exact ⟨_, _, (List.dropLast_append_getLast hne).symm⟩

theorem pieces_append (hpieces : pieces stem = front ++ [last]) (hsuffix : '/' ∉ suffix.toList) :
    pieces (stem ++ suffix) = front ++ [last ++ suffix] := by
  have hpath : "/".intercalate (front ++ [last ++ suffix]) = stem ++ suffix := by
    rw [intercalate_concat_append, ← hpieces, intercalate_pieces]
  have hslash : ∀ piece ∈ front ++ [last], '/' ∉ piece.toList :=
    fun piece hmem => slash_not_mem_of_mem_pieces (hpieces ▸ hmem)
  rw [List.forall_mem_append, List.forall_mem_singleton] at hslash
  rw [← hpath]
  apply pieces_intercalate (by simp)
  rw [List.forall_mem_append, List.forall_mem_singleton, String.toList_append, List.mem_append, not_or]
  exact ⟨hslash.1, hslash.2, hsuffix⟩

theorem endsInName_iff (hpieces : pieces stem = front ++ [last]) : EndsInName stem ↔ last ≠ "" := by
  have hstem : stem = "/".intercalate (front ++ [""]) ++ last := eq_append_of_pieces hpieces
  constructor
  · rintro ⟨c, hlast, hc⟩ rfl
    rw [String.append_empty] at hstem
    cases front with
    | nil =>
        rw [hstem] at hlast
        nomatch hlast
    | cons piece rest =>
        rw [hstem, String.intercalate_append_of_ne_nil (List.cons_ne_nil piece rest) (List.cons_ne_nil _ _),
          String.intercalate_singleton, String.append_empty, String.toList_append] at hlast
        have hslash : (("/".intercalate (piece :: rest)).toList ++ "/".toList).getLast? = some '/' := List.getLast?_concat
        exact hc (Option.some.inj (hlast.symm.trans hslash))
  · intro hne
    have hchars : last.toList ≠ [] := mt String.toList_eq_nil_iff.1 hne
    have hslash : '/' ∉ last.toList := slash_not_mem_of_mem_pieces (hpieces ▸ List.mem_append_right _ List.mem_cons_self)
    refine ⟨last.toList.getLast hchars, ?_, fun heq => hslash (heq ▸ List.getLast_mem hchars)⟩
    rw [hstem, String.toList_append, List.getLast?_append_of_ne_nil _ hchars, List.getLast?_eq_getLast_of_ne_nil hchars]

theorem extension?_append (hextension : extension ≠ "") (hslash : '/' ∉ extension.toList) (hpoint : '.' ∉ extension.toList) :
    EndsInName stem ∧ extension? (stem ++ "." ++ extension) = some extension ∨
      ¬ EndsInName stem ∧ extension? (stem ++ "." ++ extension) = none := by
  obtain ⟨front, last, hpieces⟩ := exists_pieces stem
  have hsuffix : '/' ∉ ("." ++ extension).toList := by
    rw [String.toList_append, List.mem_append, not_or]
    exact ⟨by decide, hslash⟩
  have hname := pieces_append hpieces hsuffix
  rw [← String.append_assoc, ← String.append_assoc] at hname
  -- a name with another character than points in it is none of those that stand for folders
  obtain ⟨c, hc⟩ := List.exists_mem_of_ne_nil _ (mt String.toList_eq_nil_iff.1 hextension)
  have hother : ∀ points : String, (∀ d ∈ points.toList, d = '.') → last ++ "." ++ extension ≠ points := by
    rintro points hpoints rfl
    rw [String.toList_append] at hpoints
    exact hpoint (hpoints c (List.mem_append_right _ hc) ▸ hc)
  have hcomponent : isComponent (last ++ "." ++ extension) = true :=
    isComponent_iff.2 ⟨hother "" (by simp), hother "." (by simp)⟩
  have hparts : Parts _ front (last ++ "." ++ extension) [] := ⟨hname, hcomponent, List.forall_mem_nil _⟩
  rw [hparts.extension? (hother ".." (by simp)), endsInName_iff hpieces]
  by_cases hlast : last = ""
  · subst hlast
    refine .inr ⟨fun hne => hne rfl, ?_⟩
    have hcut : Text.cutLast? '.' ("" ++ "." ++ extension).toList = some ([], extension.toList) :=
      Text.cutLast?_eq_some_iff.2 ⟨by simp, hpoint⟩
    rw [cutName, hcut]
  · exact .inl ⟨hlast, by rw [cutName_append hlast hpoint]⟩

end Path

/-! ### Texts that fields for images take -/

namespace Kind

variable {constraints : Members} {policy : UntypedLists} {path extension own : String}

theorem check_image_iff : check constraints policy image (.str path) = .ok () ↔
    ∃ extension, extension? path = some extension ∧ ExtensionAccepted constraints extension := by
  have haccepts : Accepts constraints policy image (.str path) ↔ ImagePath constraints path := by
    constructor
    · intro haccepts
      cases haccepts with
      | text hkind => exact absurd hkind (by decide)
      | image hpath => exact hpath
    · exact .image
  rw [check_eq_ok_iff, haccepts]
  simp only [ImagePath, extension?_eq_some_iff]
  constructor
  · rintro ⟨stem, extension, heq, hpoint, haccepted⟩
    exact ⟨extension, ⟨stem, heq, hpoint⟩, haccepted⟩
  · rintro ⟨extension, ⟨stem, heq, hpoint⟩, haccepted⟩
    exact ⟨stem, extension, heq, hpoint, haccepted⟩

theorem extension?_of_point_mem (hpoint : '.' ∈ path.toList) : ∃ extension, extension? path = some extension := by
  cases hcut : Text.cutLast? '.' path.toList with
  | none => exact absurd hpoint (Text.cutLast?_eq_none_iff.1 hcut)
  | some parts => exact ⟨_, by rw [extension?, hcut]; rfl⟩

theorem extension?_of_point_not_mem (hpoint : '.' ∉ path.toList) : extension? path = none := by
  rw [extension?, Text.cutLast?_eq_none_iff.2 hpoint]
  rfl

theorem ExtensionAccepted.congr (hsame : Text.lowercase extension = Text.lowercase own) :
    ExtensionAccepted constraints extension ↔ ExtensionAccepted constraints own := by
  simp only [ExtensionAccepted, hsame]

/-- Constraints that admit one extension only. -/
def onlyExtension (extension : String) : Members := [(Constraint.acceptedTypes, .arr [.str extension])]

theorem extensionAccepted_onlyExtension_iff :
    ExtensionAccepted (onlyExtension own) extension ↔ Text.lowercase own = Text.lowercase extension := by
  constructor
  · intro haccepted
    obtain ⟨entry, hentry, hsame⟩ := haccepted _ rfl (List.cons_ne_nil _ _)
    obtain rfl := Json.str.inj (List.mem_singleton.1 hentry)
    exact hsame
  · intro hsame types htypes _
    obtain rfl := Json.arr.inj (Option.some.inj htypes)
    exact ⟨own, List.mem_singleton_self _, hsame⟩

end Kind

/-! ### Names that uploads are stored under -/

namespace UploadStore

variable {fresh name extension : String}

/-- A text has ASCII letters and digits after its last point, and that point does not begin the name of a file. -/
def LettersAfterPoint (name : String) : Prop :=
  ∃ stem extension, name = stem ++ "." ++ extension ∧ Path.EndsInName stem ∧ extension ≠ "" ∧
    ∀ c ∈ extension.toList, c.isAlphanum = true

theorem eq_storedName_of_save {store : UploadStore} {tree written : FileTree} {content : Text.Bytes} {stored : String}
    (hsaved : store.save tree fresh name content = (written, .ok stored)) : stored = storedName fresh name := by
  unfold save at hsaved
  split at hsaved
  · nomatch hsaved
  · dsimp only at hsaved
    split at hsaved
    · nomatch hsaved
    · split at hsaved
      · nomatch hsaved
      · exact (Except.ok.inj (Prod.mk.inj hsaved).2).symm

/-- If the extension that is kept is the one that a field sees, letter case apart, then it is letters after the last point. -/
theorem lettersAfterPoint_of_keptExtension {kept : String} (hkept : keptExtension? name = some kept)
    (hextension : Kind.extension? name = some extension) (hsame : Text.lowercase extension = Text.lowercase kept) :
    LettersAfterPoint name := by
  obtain ⟨own, hown, hne, hletters, rfl⟩ := keptExtension?_eq_some_iff.1 hkept
  obtain ⟨stem, rfl, hpoint⟩ := Kind.extension?_eq_some_iff.1 hextension
  rw [Text.lowercase_lowercase_of_isAlphanum hletters] at hsame
  have hslash : '/' ∉ extension.toList := by
    intro hmem
    have hlower := Text.slash_mem_lowercase hmem
    rw [hsame] at hlower
    exact absurd (Text.isAlphanum_lowercase hletters _ hlower) (by decide)
  have hextensionNe : extension ≠ "" := by
    rintro rfl
    have hempty := (isAlphanum_keptExtension hkept).1
    rw [← hsame] at hempty
    exact hempty rfl
  rcases Path.extension?_append hextensionNe hslash hpoint with ⟨hends, hfile⟩ | ⟨-, hnone⟩
  · obtain rfl := Option.some.inj (hfile.symm.trans hown)
    exact ⟨stem, _, rfl, hends, hne, hletters⟩
  · rw [hnone] at hown
    nomatch hown

theorem LettersAfterPoint.keptExtension (hname : LettersAfterPoint name) (hextension : Kind.extension? name = some extension) :
    keptExtension? name = some (Text.lowercase extension) ∧ ∀ c ∈ extension.toList, c.isAlphanum = true := by
  obtain ⟨stem, own, rfl, hends, hne, hletters⟩ := hname
  have hpoint : '.' ∉ own.toList := fun hmem => absurd (hletters '.' hmem) (by decide)
  have hslash : '/' ∉ own.toList := fun hmem => absurd (hletters '/' hmem) (by decide)
  obtain rfl := Option.some.inj ((Kind.extension?_eq_some_iff.2 ⟨stem, rfl, hpoint⟩).symm.trans hextension)
  rcases Path.extension?_append hne hslash hpoint with ⟨-, hfile⟩ | ⟨hnot, -⟩
  · exact ⟨keptExtension?_eq_some_iff.2 ⟨own, hfile, hne, hletters, rfl⟩, hletters⟩
  · exact absurd hends hnot

/-- The stored name is taken wherever the client's name is, exactly if letters and digits follow the last point, if any. -/
theorem stored_name_usable_iff (store : UploadStore) (tree written : FileTree) (fresh name stored : String)
    (content : Text.Bytes) (hfresh : IsPlain fresh)
    (hsaved : store.save tree fresh name content = (written, .ok stored)) :
    ((∀ constraints policy, Kind.check constraints policy .image (.str name) = .ok () →
      Kind.check constraints policy .image (.str stored) = .ok ()) ↔
    ('.' ∈ name.toList → LettersAfterPoint name)) ∧
    ('.' ∉ name.toList → ∀ constraints policy, Kind.check constraints policy .image (.str name) ≠ .ok ()) := by
  have hfreshPoint : '.' ∉ fresh.toList := fun hmem => absurd (hfresh.2 '.' hmem) (by decide)
  rw [eq_storedName_of_save hsaved]
  simp only [Kind.check_image_iff, ne_eq]
  refine ⟨⟨?_, ?_⟩, ?_⟩
  · intro hall hpoint
    obtain ⟨extension, hextension⟩ := Kind.extension?_of_point_mem hpoint
    obtain ⟨kept, hkept, haccepted⟩ := hall (Kind.onlyExtension extension) .reject
      ⟨extension, hextension, Kind.extensionAccepted_onlyExtension_iff.2 rfl⟩
    rw [storedName] at hkept
    split at hkept
    · rename_i own hown
      have hownPoint : '.' ∉ own.toList := fun hmem => absurd ((isAlphanum_keptExtension hown).2 '.' hmem) (by decide)
      obtain rfl := Option.some.inj ((Kind.extension?_eq_some_iff.2 ⟨fresh, rfl, hownPoint⟩).symm.trans hkept)
      exact lettersAfterPoint_of_keptExtension hown hextension (Kind.extensionAccepted_onlyExtension_iff.1 haccepted)
    · rw [Kind.extension?_of_point_not_mem hfreshPoint] at hkept
      nomatch hkept
  · rintro hletters constraints - ⟨extension, hextension, haccepted⟩
    obtain ⟨stem, hname, hpoint⟩ := Kind.extension?_eq_some_iff.1 hextension
    have hpointName : '.' ∈ name.toList := by
      rw [hname, String.toList_append, String.toList_append]
      exact List.mem_append_left _ (List.mem_append_right _ List.mem_cons_self)
    obtain ⟨hkept, hchars⟩ := (hletters hpointName).keptExtension hextension
    rw [storedName, hkept]
    refine ⟨Text.lowercase extension, Kind.extension?_eq_some_iff.2 ⟨fresh, rfl, ?_⟩, ?_⟩
    · exact mt Text.point_mem_lowercase_iff.1 hpoint
    · exact (Kind.ExtensionAccepted.congr (Text.lowercase_lowercase_of_isAlphanum hchars)).2 haccepted
  · rintro hpoint constraints - ⟨extension, hextension, -⟩
    rw [Kind.extension?_of_point_not_mem hpoint] at hextension
    nomatch hextension

def uploadFolder : UploadStore := { root := "uploads" }

/-- A fresh name. -/
def freshId : String := "0e9a8f0c-5d2b-4c1e-9f63-7a1d2b3c4d5e"

theorem stored_name_usable_iff_photo :
    (uploadFolder.save {} freshId "Photo.PNG" []).2 = .ok (freshId ++ ".png") ∧
      Kind.check (Kind.onlyExtension "Png") .reject .image (.str (freshId ++ ".png")) = .ok () := by
  have hsaved : (uploadFolder.save {} freshId "Photo.PNG" []).2 = .ok (freshId ++ ".png") := by decide +kernel
  have hletters : LettersAfterPoint "Photo.PNG" :=
    ⟨"Photo", "PNG", by decide, ⟨'o', by decide, by decide⟩, by decide, List.all_eq_true.1 (by decide)⟩
  have husable := stored_name_usable_iff uploadFolder {} (uploadFolder.save {} freshId "Photo.PNG" []).1 freshId "Photo.PNG"
    (freshId ++ ".png") [] (by decide) (Prod.ext rfl hsaved)
  exact ⟨hsaved, husable.1.2 (fun _ => hletters) _ _ (by decide +kernel)⟩

/-- A field without constraints takes the name of a file, and not the name that the file is stored under. -/
theorem spacedExtension_unusable :
    Kind.check [] .reject .image (.str "weird.p n g") = .ok () ∧
    (uploadFolder.save {} freshId "weird.p n g" []).2 = .ok freshId ∧
    Kind.check [] .reject .image (.str freshId) = .error ⟨.image⟩ := by
  decide +kernel

end UploadStore

end AddressBook
