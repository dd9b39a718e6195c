import AddressBook.Proofs.Files.Folder
import AddressBook.Proofs.Store.Uploads
/-!
# The folder of the uploads

Names come from clients, so what a call of the upload store can reach is settled by the place of its name: it is directly in
the folder of the uploads, or the name is refused before any path is made of it. Apart from that place, only folders that
the path of the uploads lacks are made. What a call answers depends on nothing else either, so two trees that differ outside
of the folder and of the way to it cannot be told apart by any sequence of calls.
-/

namespace AddressBook.UploadStore

open FileTree (AddsFolders FitsBelow HasFolders LeadsToFolder SameFolders)
open Text (Bytes)

variable {store : UploadStore} {start tree other made next : FileTree} {name fresh clientName : String} {content : Bytes}

/-! ### Names and places -/

/-- A name stands for no file in a folder: it is empty, it stands for a folder itself, or it has a character that ends a name. -/
def PathLike (name : String) : Prop :=
  name = "" ∨ name = "." ∨ name = ".." ∨ '/' ∈ name.toList ∨ '\\' ∈ name.toList ∨ '\x00' ∈ name.toList

/-- A name is a fresh name, with nothing after it or a point and ASCII digits and lower-case letters, at least one. -/
def Generated (fresh name : String) : Prop :=
  name = fresh ∨ ∃ extension, name = fresh ++ "." ++ extension ∧ extension ≠ "" ∧
    ∀ c ∈ extension.toList, c.isLower = true ∨ c.isDigit = true

/-- The place of a name in the folder of the uploads. -/
def placeOf (store : UploadStore) (tree : FileTree) (name : String) : Place := tree.target store.root ++ [name]

/-- The folder of the uploads is there, or can be made. -/
def Rooted (store : UploadStore) (tree : FileTree) : Prop :=
  ∃ made, tree.createFolders store.root = (made, .ok ()) ∧ made.LeadsToFolder store.root

theorem isBareName_iff_not_pathLike : isBareName name = true ↔ ¬ PathLike name := by
  have hchars : (∀ c ∈ name.toList, isBareChar c = true) ↔
      '/' ∉ name.toList ∧ '\\' ∉ name.toList ∧ '\x00' ∉ name.toList := by
    simp only [isBareChar, Bool.and_eq_true, bne_iff_ne]
    constructor
    · exact fun hall => ⟨fun hmem => (hall _ hmem).1.1 rfl, fun hmem => (hall _ hmem).1.2 rfl, fun hmem => (hall _ hmem).2 rfl⟩
    · rintro ⟨hslash, hback, hnul⟩ c hc
      exact ⟨⟨fun heq => hslash (heq ▸ hc), fun heq => hback (heq ▸ hc)⟩, fun heq => hnul (heq ▸ hc)⟩
  rw [isBareName_iff, hchars, PathLike]
  simp only [not_or, ne_eq, and_assoc]

theorem bare_of_isBareName (hname : isBareName name = true) : FileTree.Bare name := by
  obtain ⟨⟨hempty, hpoint, hup⟩, hchars⟩ := isBareName_iff.1 hname
  have hnot : ∀ c, isBareChar c = false → c ∉ name.toList := by
    intro c hc hmem
    rw [hchars c hmem] at hc
    nomatch hc
  exact ⟨hnot '/' (by decide), hnot '\x00' (by decide), Path.isComponent_iff.2 ⟨hempty, hpoint⟩, hup⟩

theorem placeOf_inj (heq : store.placeOf tree name = store.placeOf tree fresh) : name = fresh :=
  List.singleton_inj.1 (List.append_cancel_left heq)

theorem placeOf_eq (hhome : other.home = tree.home) (name : String) : store.placeOf other name = store.placeOf tree name := by
  rw [placeOf, placeOf, FileTree.target_eq hhome]

theorem generated_storedName (fresh clientName : String) : Generated fresh (storedName fresh clientName) := by
  unfold storedName
  split
  · rename_i extension hkept
    obtain ⟨hne, -⟩ := isAlphanum_keptExtension hkept
    refine .inr ⟨extension, rfl, mt String.toList_eq_nil_iff.2 hne, ?_⟩
    obtain ⟨own, -, -, hletters, rfl⟩ := keptExtension?_eq_some_iff.1 hkept
    rw [Text.lowercase_of_isAlphanum hletters, String.toList_ofList]
    exact List.forall_mem_map.2 fun c hc => Text.isLower_or_isDigit_toLower (hletters c hc)
  · exact .inl rfl

/-! ### Calls -/

/-- A call of the store, with the fresh name that a save is given. -/
inductive Call where
  | save (fresh clientName : String) (content : Bytes)
  | remove (name : String)
deriving DecidableEq

inductive Answer where
  | saved (result : Except StoreFault String)
  | removed (result : Except StoreFault Bool)

def perform (store : UploadStore) (tree : FileTree) : Call → FileTree × Answer
  | .save fresh clientName content =>
      ((store.save tree fresh clientName content).1, .saved (store.save tree fresh clientName content).2)
  | .remove name => ((store.remove tree name).1, .removed (store.remove tree name).2)

/-- The files after calls have been performed, one after the other. -/
def after (store : UploadStore) (tree : FileTree) (calls : List Call) : FileTree :=
  calls.foldl (fun tree call => (store.perform tree call).1) tree

def answers (store : UploadStore) (tree : FileTree) : List Call → List Answer
  | [] => []
  | call :: rest => (store.perform tree call).2 :: store.answers (store.perform tree call).1 rest

/-- What a call does to the files and what it answers. -/
inductive Outcome (store : UploadStore) (tree : FileTree) : Call → FileTree → Answer → Prop
  /-- The folder is there, or it has been made, and the file is new in it. -/
  | stored {made : FileTree} {fresh clientName : String} {content : Bytes}
      (generated : Generated fresh (storedName fresh clientName))
      (resolved : store.resolve (storedName fresh clientName) = .ok (Path.join store.root (storedName fresh clientName)))
      (adds : AddsFolders (tree.passed store.root) tree made) (leads : made.LeadsToFolder store.root)
      (fits : FitsBelow store.root (storedName fresh clientName))
      (free : made.node? (store.placeOf tree (storedName fresh clientName)) = none) :
      Outcome store tree (.save fresh clientName content)
        (made.put (store.placeOf tree (storedName fresh clientName)) (.file content))
        (.saved (.ok (storedName fresh clientName)))
  /-- The folder cannot be made, or the name is too long for it. -/
  | notStored {made : FileTree} {fresh clientName : String} {content : Bytes} {reason : String}
      (adds : AddsFolders (tree.passed store.root) tree made)
      (cause : store.Rooted tree → ¬ FitsBelow store.root (storedName fresh clientName)) :
      Outcome store tree (.save fresh clientName content) made (.saved (.error (.io reason)))
  | refused {name : String} (pathLike : PathLike name) :
      Outcome store tree (.remove name) tree (.removed (.error (.invalidName name)))
  | removed {name : String} {content : Bytes} (bare : ¬ PathLike name) (leads : tree.LeadsToFolder store.root)
      (fits : FitsBelow store.root name) (file : tree.node? (store.placeOf tree name) = some (.file content)) :
      Outcome store tree (.remove name) (tree.drop (store.placeOf tree name)) (.removed (.ok true))
  /-- Nothing stands at the place of the name, or there is no folder for it. -/
  | absent {name : String} (bare : ¬ PathLike name)
      (missing : tree.LeadsToFolder store.root →
        FitsBelow store.root name ∧ tree.node? (store.placeOf tree name) = none) :
      Outcome store tree (.remove name) tree (.removed (.ok false))
  /-- The name is too long for the folder, it is that of a folder itself, or the folder of the uploads is out of reach. -/
  | failed {name : String} {reason : String} (bare : ¬ PathLike name)
      (cause : tree.LeadsToFolder store.root ∧
          (FitsBelow store.root name → tree.node? (store.placeOf tree name) = some .folder) ∨
        ¬ tree.LeadsToFolder store.root ∧
          (store.Rooted tree → FileTree.longestPath < (Path.join store.root name).utf8ByteSize)) :
      Outcome store tree (.remove name) tree (.removed (.error (.io reason)))

theorem remove_of_isBareName (hname : isBareName name = true) :
    store.remove tree name =
      match tree.remove (Path.join store.root name) with
      | .ok tree => (tree, .ok true)
      | .error .notFound => (tree, .ok false)
      | .error fault => (tree, .error (.ofIo fault)) := by
  have hresolve : store.resolve name = .ok (Path.join store.root name) := resolve_eq_ok_iff.2 ⟨hname, rfl⟩
  cases hremove : tree.remove (Path.join store.root name) with
  | error fault => cases fault <;> simp only [remove, hresolve, hremove]
  | ok kept => simp only [remove, hresolve, hremove]

/-- A folder that could be made is missing so far, and only a path that is too long has another fault. -/
theorem longestPath_lt_of_fault {fault : IoFault} (hname : FileTree.Bare name) (hleads : ¬ tree.LeadsToFolder store.root)
    (hlocate : tree.locate (Path.join store.root name) = .error fault) (hfault : fault ≠ .notFound) (hrooted : store.Rooted tree) :
    FileTree.longestPath < (Path.join store.root name).utf8ByteSize := by
  obtain ⟨made, hmade, hmadeLeads⟩ := hrooted
  refine Nat.not_le.1 fun hshort => hfault ?_
  have hroot : store.root ≠ "" := by
    intro hempty
    rw [hempty] at hmade hmadeLeads hleads
    obtain rfl : tree = made := (Prod.mk.inj hmade).1
    exact hleads hmadeLeads
  rw [hname.locate_join_of_missing hmade hleads hroot hshort] at hlocate
  exact (Except.error.inj hlocate).symm

theorem outcome_remove (store : UploadStore) (tree : FileTree) (name : String) :
    store.Outcome tree (.remove name) (store.remove tree name).1 (.removed (store.remove tree name).2) := by
  by_cases hname : PathLike name
  · rw [remove, resolve, if_neg fun hbare => isBareName_iff_not_pathLike.1 hbare hname]
    exact .refused hname
  · have hisBare := isBareName_iff_not_pathLike.2 hname
    have hbare := bare_of_isBareName hisBare
    rw [remove_of_isBareName hisBare]
    by_cases hleads : tree.LeadsToFolder store.root
    · by_cases hfits : FitsBelow store.root name
      · rw [FileTree.remove_of_locate (hbare.locate_join_eq_ok_iff.2 ⟨hleads, hfits, rfl⟩)]
        cases hnode : tree.node? (tree.target store.root ++ [name]) with
        | none => exact .absent hname fun _ => ⟨hfits, hnode⟩
        | some node =>
            cases node with
            | file content => exact .removed hname hleads hfits hnode
            | folder => exact .failed hname (.inl ⟨hleads, fun _ => hnode⟩)
      · rw [FileTree.remove_of_locate_eq_error (hbare.locate_join_of_not_fits hleads hfits)]
        exact .failed hname (.inl ⟨hleads, fun hshort => absurd hshort hfits⟩)
    · cases hlocate : tree.locate (Path.join store.root name) with
      | ok place => exact absurd (hbare.locate_join_eq_ok_iff.1 hlocate).1 hleads
      | error fault =>
          rw [FileTree.remove_of_locate_eq_error hlocate]
          cases fault with
          | notFound => exact .absent hname fun hthere => absurd hthere hleads
          | _ => exact .failed hname (.inr ⟨hleads, longestPath_lt_of_fault hbare hleads hlocate nofun⟩)

theorem save_of_made (hmade : tree.createFolders store.root = (made, .ok ()))
    (hname : isBareName (storedName fresh clientName) = true) (content : Bytes) :
    store.save tree fresh clientName content =
      match made.write (Path.join store.root (storedName fresh clientName)) content with
      | .error fault => (made, .error (.ofIo fault))
      | .ok written => (written, .ok (storedName fresh clientName)) := by
  have hresolve : store.resolve (storedName fresh clientName) = .ok (Path.join store.root (storedName fresh clientName)) :=
    resolve_eq_ok_iff.2 ⟨hname, rfl⟩
  have hprepare : store.prepare tree = (made, .ok ()) := by
    rw [prepare, hmade]
    rfl
  cases hwrite : made.write (Path.join store.root (storedName fresh clientName)) content with
  | error fault => simp only [save, hprepare, hresolve, hwrite]
  | ok written => simp only [save, hprepare, hresolve, hwrite]

theorem save_of_not_made {fault : IoFault} (hmade : tree.createFolders store.root = (made, .error fault))
    (fresh clientName : String) (content : Bytes) :
    store.save tree fresh clientName content = (made, .error (.ofIo fault)) := by
  rw [save, prepare, hmade]
  rfl

theorem save_of_fits (hleads : tree.LeadsToFolder store.root) (hname : isBareName (storedName fresh clientName) = true)
    (hfits : FitsBelow store.root (storedName fresh clientName))
    (hnone : tree.node? (store.placeOf tree (storedName fresh clientName)) = none) (content : Bytes) :
    store.save tree fresh clientName content =
      (tree.put (store.placeOf tree (storedName fresh clientName)) (.file content), .ok (storedName fresh clientName)) := by
  have hlocate := (bare_of_isBareName hname).locate_join_eq_ok_iff.2 ⟨hleads, hfits, rfl⟩
  rw [save_of_made hleads.createFolders_eq hname, FileTree.write_of_locate hlocate, ← placeOf, hnone]

theorem save_of_not_fits (hleads : tree.LeadsToFolder store.root) (hname : isBareName (storedName fresh clientName) = true)
    (hlong : ¬ FitsBelow store.root (storedName fresh clientName)) (content : Bytes) :
    store.save tree fresh clientName content = (tree, .error (.ofIo .nameTooLong)) := by
  have hlocate := (bare_of_isBareName hname).locate_join_of_not_fits hleads hlong
  rw [save_of_made hleads.createFolders_eq hname, FileTree.write_of_locate_eq_error hlocate]

theorem write_join_eq_ok_iff (hname : FileTree.Bare name) (hnone : tree.node? (store.placeOf tree name) = none)
    {written : FileTree} :
    tree.write (Path.join store.root name) content = .ok written ↔
      tree.LeadsToFolder store.root ∧ FitsBelow store.root name ∧
        written = tree.put (store.placeOf tree name) (.file content) := by
  rw [FileTree.write_eq_ok_iff]
  simp only [hname.locate_join_eq_ok_iff]
  constructor
  · rintro ⟨place, ⟨hleads, hfits, rfl⟩, -, heq⟩
    exact ⟨hleads, hfits, heq⟩
  · rintro ⟨hleads, hfits, heq⟩
    exact ⟨_, ⟨hleads, hfits, rfl⟩, (fun hfolder => nomatch hnone.symm.trans hfolder), heq⟩

theorem outcome_save (store : UploadStore) (tree : FileTree) (content : Bytes) (hplain : IsPlain fresh)
    (hfree : tree.node? (store.placeOf tree (storedName fresh clientName)) = none)
    (hapart : store.placeOf tree (storedName fresh clientName) ∉ tree.passed store.root) :
    store.Outcome tree (.save fresh clientName content) (store.save tree fresh clientName content).1
      (.saved (store.save tree fresh clientName content).2) := by
  have hisBare := isBareName_storedName (isBareName_of_isPlain hplain) clientName
  have hbare := bare_of_isBareName hisBare
  have hadds := FileTree.addsFolders_createFolders tree store.root
  rcases hmade : tree.createFolders store.root with ⟨made, fault | done⟩
  · rw [hmade] at hadds
    rw [save_of_not_made hmade]
    refine .notStored hadds fun ⟨other, hother, _⟩ => ?_
    rw [hmade] at hother
    nomatch (Prod.mk.inj hother).2
  · rw [hmade] at hadds
    rw [save_of_made hmade hisBare]
    have hplace : store.placeOf made (storedName fresh clientName) = _ := placeOf_eq hadds.home _
    have hnode : made.node? (store.placeOf tree (storedName fresh clientName)) = none := by
      rcases hadds.node (store.placeOf tree (storedName fresh clientName)) with hkept | ⟨hpassed, -⟩
      · rw [hkept, hfree]
      · exact absurd hpassed hapart
    have hwrite : ∀ written, made.write (Path.join store.root (storedName fresh clientName)) content = .ok written ↔
        made.LeadsToFolder store.root ∧ FitsBelow store.root (storedName fresh clientName) ∧
          written = made.put (store.placeOf tree (storedName fresh clientName)) (.file content) :=
      fun written => hplace ▸ write_join_eq_ok_iff hbare (hplace.symm ▸ hnode)
    cases hwritten : made.write (Path.join store.root (storedName fresh clientName)) content with
    | ok written =>
        obtain ⟨hleads, hfits, rfl⟩ := (hwrite written).1 hwritten
        exact .stored (generated_storedName fresh clientName) (resolve_eq_ok_iff.2 ⟨hisBare, rfl⟩) hadds hleads hfits hnode
    | error fault =>
        refine .notStored hadds fun ⟨other, hother, hleads⟩ hfits => ?_
        obtain rfl : made = other := (Prod.mk.inj (hmade.symm.trans hother)).1
        rw [(hwrite _).2 ⟨hleads, hfits, rfl⟩] at hwritten
        nomatch hwritten

end AddressBook.UploadStore
