import AddressBook.Proofs.Files.Tree
import AddressBook.Proofs.Json.RoundTrip
import AddressBook.Proofs.Text.Utf8
import AddressBook.Store.Documents
/-!
# The document that a file holds

The file of a document is read back as the document, every double replaced by the one that its text is read as. A store
keeps a property of its document if the file, where there is one, always holds a document with the property: saving a
document with the property keeps it, and so does every change to the tree that touches no folder and leaves the file alone
or removes it.
-/

namespace AddressBook.DocumentStore

open FileTree (SameFolders)
open Json (depthLimit reread)
open Text (Bytes)

/-! ### The bytes of a document -/

theorem all_isBlank_encode {document : Json} (hdocument : document.WellFormed) :
    (encode document).all isBlank = false := by
  obtain ⟨c, tail, hcons, hstart⟩ := Json.exists_startsValue_pretty hdocument
  rw [encode, Text.Utf8.encodeString, hcons]
  cases hbytes : Text.Utf8.encode (c :: tail) with
  | nil => exact absurd hbytes (Text.Utf8.encode_ne_nil c tail)
  | cons b rest =>
      have hfirst : isBlank b = false := by
        by_contra hblank
        have hcases : b = 0x20 ∨ b = 0x09 ∨ b = 0x0A ∨ b = 0x0C ∨ b = 0x0D := by
          rw [Bool.not_eq_false] at hblank
          simpa only [isBlank, Bool.or_eq_true, beq_iff_eq, or_assoc] using hblank
        rcases hcases with rfl | rfl | rfl | rfl | rfl <;>
        · rw [Text.Utf8.eq_ofNat_of_encode hbytes (by decide)] at hstart
          exact absurd hstart (by decide)
      rw [List.all_cons, hfirst, Bool.false_and]

theorem decode_encode {document : Json} (hdocument : document.WellFormed) (hdepth : document.depth ≤ depthLimit) :
    decode (encode document) = .ok (document.withFloats reread) := by
  rw [decode, all_isBlank_encode hdocument, if_neg Bool.false_ne_true, encode, Text.Utf8.decode?_encodeString,
    Option.bind_some, Json.parse?_pretty hdocument, if_pos hdepth]

/-! ### A property of the document -/

/-- The file of a store, where there is one, holds a document with a property; without a file the empty one has it. -/
def Keeps (store : DocumentStore) (P : Json → Prop) (tree : FileTree) : Prop :=
  ∃ place, tree.locate store.path = .ok place ∧
    ((tree.node? place = none ∧ P (.obj [])) ∨
      ∃ content document, tree.node? place = some (.file content) ∧ decode content = .ok document ∧ P document)

variable {store : DocumentStore} {P : Json → Prop} {tree other : FileTree}

theorem exists_load_of_keeps (hkeeps : store.Keeps P tree) : ∃ document, store.load tree = .ok document ∧ P document := by
  obtain ⟨place, hlocate, ⟨hnone, hempty⟩ | ⟨content, document, hnode, hdecode, hdocument⟩⟩ := hkeeps
  · refine ⟨.obj [], ?_, hempty⟩
    rw [load, FileTree.read_of_locate hlocate, hnone]
  · refine ⟨document, ?_, hdocument⟩
    rw [load, FileTree.read_eq_ok_iff.2 ⟨place, hlocate, hnode⟩]
    exact hdecode

theorem keeps_of_load {place : Place} (hlocate : tree.locate store.path = .ok place) {document : Json}
    (hload : store.load tree = .ok document) (hdocument : P document) : store.Keeps P tree := by
  refine ⟨place, hlocate, ?_⟩
  rw [load, FileTree.read_of_locate hlocate] at hload
  cases hnode : tree.node? place with
  | none =>
      rw [hnode] at hload
      exact .inl ⟨rfl, Except.ok.inj hload ▸ hdocument⟩
  | some node =>
      rw [hnode] at hload
      cases node with
      | folder => nomatch hload
      | file content => exact .inr ⟨content, document, rfl, hload, hdocument⟩

theorem Keeps.of_node? (hkeeps : store.Keeps P tree) (hsame : SameFolders tree other)
    (hnode : ∀ place, tree.locate store.path = .ok place → other.node? place = tree.node? place) :
    store.Keeps P other := by
  obtain ⟨place, hlocate, hfile⟩ := hkeeps
  refine ⟨place, hsame.locate_eq_ok_iff.2 hlocate, ?_⟩
  rw [hnode place hlocate]
  exact hfile

theorem keeps_of_content (hsame : SameFolders tree other) {place : Place} (hlocate : tree.locate store.path = .ok place)
    {content : Bytes} {document : Json} (hnode : other.node? place = some (.file content))
    (hdecode : decode content = .ok document) (hdocument : P document) : store.Keeps P other :=
  ⟨place, hsame.locate_eq_ok_iff.2 hlocate, .inr ⟨content, document, hnode, hdecode, hdocument⟩⟩

theorem Keeps.write (hkeeps : store.Keeps P tree) {path : String} {content : Bytes} {written : FileTree}
    (hwrite : tree.write path content = .ok written) (haway : tree.locate path ≠ tree.locate store.path) :
    store.Keeps P written := by
  have hsame := FileTree.sameFolders_of_write hwrite
  obtain ⟨place, hlocate, hnode, rfl⟩ := FileTree.write_eq_ok_iff.1 hwrite
  refine hkeeps.of_node? hsame fun own hown => FileTree.node?_put_of_ne ?_ _
  rintro rfl
  exact haway (hlocate.trans hown.symm)

/-- Writing a document with the property keeps the property, wherever the document is written to. -/
theorem Keeps.write_document (hkeeps : store.Keeps P tree) {path : String} {content : Bytes} {written : FileTree}
    (hwrite : tree.write path content = .ok written) {document : Json} (hdecode : decode content = .ok document)
    (hdocument : P document) : store.Keeps P written := by
  by_cases haway : tree.locate path = tree.locate store.path
  · have hsame := FileTree.sameFolders_of_write hwrite
    obtain ⟨place, hlocate, hnode, rfl⟩ := FileTree.write_eq_ok_iff.1 hwrite
    have hput : (tree.put place (.file content)).node? place = some (.file content) :=
      FileTree.node?_put_self (FileTree.ne_nil_of_node? hnode) _
    exact keeps_of_content hsame (haway ▸ hlocate) hput hdecode hdocument
  · exact hkeeps.write hwrite haway

theorem keeps_of_rename {source : String} {moved : FileTree} (hmove : tree.rename source store.path = .ok moved)
    {document : Json} (hdocument : P document)
    (hsource : ∀ content, tree.read source = .ok content → decode content = .ok document) : store.Keeps P moved := by
  have hsame := FileTree.sameFolders_of_rename hmove
  obtain ⟨old, content, place, hold, hfile, hplace, hnode, rfl⟩ := FileTree.rename_eq_ok_iff.1 hmove
  have hdecode := hsource content (FileTree.read_eq_ok_iff.2 ⟨old, hold, hfile⟩)
  exact keeps_of_content hsame hplace (FileTree.node?_put_self (FileTree.ne_nil_of_node? hnode) _) hdecode hdocument

theorem Keeps.remove (hkeeps : store.Keeps P tree) (hempty : P (.obj [])) {path : String} {removed : FileTree}
    (hremove : tree.remove path = .ok removed) : store.Keeps P removed := by
  have hsame := FileTree.sameFolders_of_remove hremove
  obtain ⟨place, hlocate, ⟨content, hfile⟩, rfl⟩ := FileTree.remove_eq_ok_iff.1 hremove
  have hnode : tree.node? place ≠ some .folder := by
    rw [hfile]
    exact nofun
  obtain ⟨own, hown, -⟩ := id hkeeps
  by_cases heq : own = place
  · refine ⟨place, hsame.locate_eq_ok_iff.2 (heq ▸ hown), .inl ⟨?_, hempty⟩⟩
    exact FileTree.node?_drop_self (FileTree.ne_nil_of_node? hnode)
  · refine hkeeps.of_node? hsame fun other hother => FileTree.node?_drop_of_ne ?_
    rw [← Except.ok.inj (hown.symm.trans hother)]
    exact heq

/-! ### Preparing and saving -/

theorem exists_locate_of_prepare {prepared : FileTree} (hprepare : store.prepare tree = (prepared, .ok ())) :
    ∃ place, prepared.locate store.path = .ok place := by
  unfold prepare at hprepare
  split at hprepare
  · nomatch hprepare
  · rename_i hexists
    obtain rfl := (Prod.mk.inj hprepare).1
    unfold FileTree.exists? at hexists
    split at hexists
    · rename_i place hlocate
      exact ⟨place, hlocate⟩
    · nomatch hexists
    · nomatch hexists
  · split at hprepare
    · nomatch hprepare
    · rename_i made hmade
      split at hprepare
      · nomatch hprepare
      · rename_i written hwrite
        obtain rfl := (Prod.mk.inj hprepare).1
        obtain ⟨place, hlocate, -⟩ := FileTree.write_eq_ok_iff.1 hwrite
        exact ⟨place, (FileTree.sameFolders_of_write hwrite).locate_eq_ok_iff.2 hlocate⟩

/-- What saving does: nothing, or it gets as far as the second file, or it moves that over the first. -/
inductive Saves (store : DocumentStore) (tree : FileTree) (document : Json) : FileTree × Except StoreFault Unit → Prop
  | failed (fault : IoFault) : Saves store tree document (tree, .error (.ofIo fault))
  | drafted {drafted : FileTree} {fault : IoFault} (hwrite : store.writeDraft tree document = .ok drafted)
      (hcommit : store.commit drafted = .error fault) : Saves store tree document (drafted, .error (.ofIo fault))
  | saved {drafted saved : FileTree} (hwrite : store.writeDraft tree document = .ok drafted)
      (hcommit : store.commit drafted = .ok saved) : Saves store tree document (saved, .ok ())

theorem saves_save (store : DocumentStore) (tree : FileTree) (document : Json) :
    store.Saves tree document (store.save tree document) := by
  unfold save
  cases hwrite : store.writeDraft tree document with
  | error fault => exact .failed fault
  | ok drafted =>
      dsimp only
      cases hcommit : store.commit drafted with
      | error fault => exact .drafted hwrite hcommit
      | ok saved => exact .saved hwrite hcommit

theorem sameFolders_save (store : DocumentStore) (tree : FileTree) (document : Json) :
    SameFolders tree (store.save tree document).1 := by
  have hsaves := store.saves_save tree document
  generalize store.save tree document = outcome at hsaves ⊢
  cases hsaves with
  | failed => exact .refl tree
  | drafted hwrite => exact FileTree.sameFolders_of_write hwrite
  | saved hwrite hcommit =>
      exact (FileTree.sameFolders_of_write hwrite).trans (FileTree.sameFolders_of_rename hcommit)

/-- Saving changes nothing but the document and its draft. -/
theorem node?_save (store : DocumentStore) (tree : FileTree) (document : Json) {place : Place}
    (hdraft : tree.locate store.draftPath ≠ .ok place) (hown : tree.locate store.path ≠ .ok place) :
    (store.save tree document).1.node? place = tree.node? place := by
  have hwritten : ∀ {drafted : FileTree}, store.writeDraft tree document = .ok drafted →
      drafted.node? place = tree.node? place := by
    intro drafted hwrite
    obtain ⟨draft, hlocate, -, rfl⟩ := FileTree.write_eq_ok_iff.1 hwrite
    refine FileTree.node?_put_of_ne ?_ _
    rintro rfl
    exact hdraft hlocate
  have hsaves := store.saves_save tree document
  generalize store.save tree document = outcome at hsaves ⊢
  cases hsaves with
  | failed => rfl
  | drafted hwrite => exact hwritten hwrite
  | saved hwrite hcommit =>
      have hsame := FileTree.sameFolders_of_write hwrite
      obtain ⟨old, content, target, hold, -, htarget, -, rfl⟩ := FileTree.rename_eq_ok_iff.1 hcommit
      have htargetNe : place ≠ target := by
        rintro rfl
        exact hown (hsame.locate_eq_ok_iff.1 htarget)
      have holdNe : place ≠ old := by
        rintro rfl
        exact hdraft (hsame.locate_eq_ok_iff.1 hold)
      rw [FileTree.node?_put_of_ne htargetNe, FileTree.node?_drop_of_ne holdNe]
      exact hwritten hwrite

theorem Keeps.saving (hkeeps : store.Keeps P tree) {document : Json} (hdocument : document.WellFormed)
    (hdepth : document.depth ≤ depthLimit) (hreread : P (document.withFloats reread)) :
    store.Keeps P (store.save tree document).1 := by
  have hdecode := decode_encode hdocument hdepth
  have hsaves := store.saves_save tree document
  generalize store.save tree document = outcome at hsaves ⊢
  cases hsaves with
  | failed => exact hkeeps
  | drafted hwrite => exact hkeeps.write_document hwrite hdecode hreread
  | saved hwrite hcommit =>
      refine keeps_of_rename hcommit hreread fun content hread => ?_
      rw [FileTree.read_of_write hwrite] at hread
      rw [← Except.ok.inj hread]
      exact hdecode

/-- Nothing but a folder in the place of the document keeps a draft from being moved there. -/
theorem exists_commit {drafted : FileTree} {document : Json} {place : Place}
    (hwrite : store.writeDraft tree document = .ok drafted) (hlocate : tree.locate store.path = .ok place)
    (hplace : tree.node? place ≠ some .folder) : ∃ saved, store.commit drafted = .ok saved := by
  have hsame := FileTree.sameFolders_of_write hwrite
  obtain ⟨draft, hdraft, hnode, rfl⟩ := FileTree.write_eq_ok_iff.1 hwrite
  refine ⟨_, FileTree.rename_eq_ok_iff.2 ⟨draft, encode document, place, hsame.locate_eq_ok_iff.2 hdraft, ?_,
    hsame.locate_eq_ok_iff.2 hlocate, fun hfolder => hplace (hsame.left.folder place hfolder), rfl⟩⟩
  exact FileTree.node?_put_self (FileTree.ne_nil_of_node? hnode) _

theorem exists_saved {document : Json} {place draft : Place}
    (hlocate : tree.locate store.path = .ok place) (hplace : tree.node? place ≠ some .folder)
    (hdraft : tree.locate store.draftPath = .ok draft) (hnode : tree.node? draft ≠ some .folder)
    (hwell : document.WellFormed) (hdepth : document.depth ≤ depthLimit) :
    ∃ saved, store.save tree document = (saved, .ok ()) ∧ store.load saved = .ok (document.withFloats reread) := by
  obtain ⟨drafted, hwrite⟩ : ∃ drafted, store.writeDraft tree document = .ok drafted :=
    ⟨_, FileTree.write_eq_ok_iff.2 ⟨draft, hdraft, hnode, rfl⟩⟩
  obtain ⟨saved, hcommit⟩ := exists_commit hwrite hlocate hplace
  have hsave : store.save tree document = (saved, .ok ()) := by
    unfold save
    simp only [hwrite, hcommit]
  have hkeeps : store.Keeps (· = document.withFloats reread) saved := by
    refine keeps_of_rename hcommit rfl fun content hread => ?_
    rw [FileTree.read_of_write hwrite] at hread
    rw [← Except.ok.inj hread]
    exact decode_encode hwell hdepth
  obtain ⟨loaded, hload, rfl⟩ := exists_load_of_keeps hkeeps
  exact ⟨saved, hsave, hload⟩

end AddressBook.DocumentStore
