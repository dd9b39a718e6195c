import AddressBook.Proofs.Files.Beside
import AddressBook.Proofs.Store.Documents
/-!
# The last document that was saved

Preparing, saving and loading, one after the other and as often as wanted: what is loaded is the document of the last save
that succeeded, or what was loaded at the start if there is none. Whether saves succeed is settled by the path of the store.
A draft is written beside the document, so there has to be room for it, which there is beside most names. Only a name that
is too long with the extension of drafts, or that has two points before an extension without points, has no draft.
-/

namespace AddressBook.DocumentStore

open FileTree (SameFolders)
open Json (depthLimit reread)

/-- A document that is read back as it is: it nests no deeper than is read, and its doubles reprint. -/
structure Readable (document : Json) : Prop where
  wellFormed : document.WellFormed
  depth_le : document.depth ≤ depthLimit
  reprints : ∀ x ∈ document.floats, Json.Reprints x

/-- An operation of the store, with what it is given. -/
inductive Operation where
  | prepare
  | save (document : Json)
  | load
deriving DecidableEq

/-- The files, and the document that was saved last. -/
structure State where
  files : FileTree
  last : Json

def next (store : DocumentStore) (state : State) : Operation → State
  | .prepare => { state with files := (store.prepare state.files).1 }
  | .save document =>
      match store.save state.files document with
      | (saved, .ok ()) => { files := saved, last := document }
      | (left, .error _) => { state with files := left }
  | .load => state

def after (store : DocumentStore) (state : State) (operations : List Operation) : State := operations.foldl store.next state

variable {store : DocumentStore} {start tree : FileTree} {state : State} {document : Json} {above : Place} {name : String}
  {P : Json → Prop}

/-! ### One operation -/

theorem withFloats_reread (hreadable : Readable document) : document.withFloats reread = document :=
  Json.withFloats_eq_self fun x hx => Json.reread_eq_self (hreadable.reprints x hx)

theorem canWrite_of_keeps (hkeeps : store.Keeps P tree) : tree.CanWrite store.path := by
  obtain ⟨place, hlocate, ⟨hnone, -⟩ | ⟨content, _, hfile, -⟩⟩ := hkeeps
  · exact ⟨place, hlocate, by simp [hnone]⟩
  · exact ⟨place, hlocate, by simp [hfile]⟩

theorem exists_save (hpath : tree.CanWrite store.path) (hdraft : tree.CanWrite store.draftPath)
    (hreadable : Readable document) :
    ∃ saved, store.save tree document = (saved, .ok ()) ∧ store.load saved = .ok document := by
  obtain ⟨place, hlocate, hplace⟩ := hpath
  obtain ⟨draft, hdraftLocate, hnode⟩ := hdraft
  have hsaved := exists_saved hlocate hplace hdraftLocate hnode hreadable.wellFormed hreadable.depth_le
  rwa [withFloats_reread hreadable] at hsaved

theorem save_of_not_canWrite (hdraft : ¬ tree.CanWrite store.draftPath) (document : Json) :
    ∃ fault, store.save tree document = (tree, .error fault) := by
  cases hwrite : store.writeDraft tree document with
  | ok drafted =>
      obtain ⟨place, hlocate, hnode, -⟩ := FileTree.write_eq_ok_iff.1 hwrite
      exact absurd ⟨place, hlocate, hnode⟩ hdraft
  | error fault =>
      unfold save
      exact ⟨.ofIo fault, by simp only [hwrite]⟩

theorem save_eq_ok_iff (hpath : tree.CanWrite store.path) (hreadable : Readable document) :
    (∃ saved, store.save tree document = (saved, .ok ()) ∧ store.load saved = .ok document) ↔
      tree.CanWrite store.draftPath := by
  refine ⟨fun ⟨saved, hsave, _⟩ => ?_, fun hdraft => exists_save hpath hdraft hreadable⟩
  by_contra hdraft
  obtain ⟨fault, hfails⟩ := save_of_not_canWrite hdraft document
  rw [hsave] at hfails
  nomatch hfails

theorem prepare_of_keeps (hname : Path.fileName? store.path = some name) (hkeeps : store.Keeps P tree) :
    ∃ prepared, store.prepare tree = (prepared, .ok ()) ∧ SameFolders tree prepared ∧ store.Keeps P prepared := by
  obtain ⟨place, hlocate, ⟨hnone, hempty⟩ | hfile⟩ := id hkeeps
  · have hnode : tree.node? place ≠ some .folder := by simp [hnone]
    obtain ⟨front, above, -, hway⟩ := FileTree.exists_way hname hlocate hnode
    have hwrite : tree.write store.path [] = .ok (tree.put place (.file [])) :=
      FileTree.write_eq_ok_iff.2 ⟨place, hlocate, hnode, rfl⟩
    refine ⟨tree.put place (.file []), ?_, FileTree.sameFolders_put hnode [], ?_⟩
    · rw [prepare, FileTree.exists?, hlocate]
      dsimp only
      rw [hnone, hway.createFolders_parent]
      simp only [Option.isSome_none, hwrite]
    · exact hkeeps.write_document hwrite rfl hempty
  · obtain ⟨content, _, hfile, -⟩ := hfile
    refine ⟨tree, ?_, .refl tree, hkeeps⟩
    rw [prepare, FileTree.exists?, hlocate]
    dsimp only
    rw [hfile]
    rfl

/-! ### One after the other -/

/-- The folders are those of the start, and the file holds the document that was saved last. -/
structure Holds (store : DocumentStore) (start : FileTree) (state : State) : Prop where
  same : SameFolders start state.files
  keeps : store.Keeps (· = state.last) state.files

theorem Holds.load (hholds : store.Holds start state) : store.load state.files = .ok state.last := by
  obtain ⟨document, hload, rfl⟩ := exists_load_of_keeps hholds.keeps
  exact hload

theorem Holds.next (hname : Path.fileName? store.path = some name) (hholds : store.Holds start state) {operation : Operation}
    (hreadable : ∀ document, operation = .save document → Readable document) :
    store.Holds start (store.next state operation) := by
  cases operation with
  | prepare =>
      obtain ⟨prepared, hprepare, hsame, hkeeps⟩ := prepare_of_keeps hname hholds.keeps
      unfold DocumentStore.next
      rw [hprepare]
      exact ⟨hholds.same.trans hsame, hkeeps⟩
  | save document =>
      have hpath := canWrite_of_keeps hholds.keeps
      by_cases hdraft : state.files.CanWrite store.draftPath
      · obtain ⟨saved, hsave, hload⟩ := exists_save hpath hdraft (hreadable document rfl)
        have hsame := sameFolders_save store state.files document
        rw [hsave] at hsame
        obtain ⟨place, hlocate, -⟩ := hpath
        unfold DocumentStore.next
        simp only [hsave]
        exact ⟨hholds.same.trans hsame, keeps_of_load (hsame.locate_eq_ok_iff.2 hlocate) hload rfl⟩
      · obtain ⟨fault, hfails⟩ := save_of_not_canWrite hdraft document
        unfold DocumentStore.next
        simp only [hfails]
        exact hholds
  | load => exact hholds

theorem Holds.after (hname : Path.fileName? store.path = some name) {operations : List Operation}
    (hholds : store.Holds start state) (hreadable : ∀ document, .save document ∈ operations → Readable document) :
    store.Holds start (store.after state operations) := by
  induction operations generalizing state with
  | nil => exact hholds
  | cons operation rest ih =>
      refine ih (hholds.next hname fun document heq => ?_) fun document hmem => ?_
      · exact hreadable document (heq ▸ List.mem_cons_self)
      · exact hreadable document (List.mem_cons_of_mem _ hmem)

/-- What is loaded is the document of the last save that succeeded, and a save succeeds where a draft has room. -/
theorem last_saved_is_loaded (hclosed : tree.Closed) (hname : Path.fileName? store.path = some name)
    (hlocate : tree.locate store.path = .ok (above ++ [name])) (hnode : tree.node? (above ++ [name]) ≠ some .folder) :
    (∀ document, Readable document →
      ((∃ saved, store.save tree document = (saved, .ok ()) ∧ store.load saved = .ok document) ↔
        tree.RoomBeside store.path above name "json.tmp")) ∧
    ∀ first, store.load tree = .ok first → ∀ operations, (∀ document, .save document ∈ operations → Readable document) →
      ∃ state, store.after ⟨tree, first⟩ operations = state ∧ store.load state.files = .ok state.last ∧
        (∃ prepared, store.prepare state.files = (prepared, .ok ()) ∧ store.load prepared = .ok state.last) ∧
        ∀ document, Readable document →
          ((∃ saved, store.save state.files document = (saved, .ok ()) ∧ store.load saved = .ok document) ↔
            tree.RoomBeside store.path above name "json.tmp") := by
  have hpath : tree.CanWrite store.path := ⟨_, hlocate, hnode⟩
  have hdraft : tree.CanWrite store.draftPath ↔ tree.RoomBeside store.path above name "json.tmp" :=
    FileTree.canWrite_withExtension_iff hclosed hname hlocate hnode (by decide) (by decide) (by decide)
  refine ⟨fun document hreadable => (save_eq_ok_iff hpath hreadable).trans hdraft, ?_⟩
  intro first hload operations hreadable
  have hstart : store.Holds tree ⟨tree, first⟩ := ⟨.refl tree, keeps_of_load hlocate hload rfl⟩
  have hholds := hstart.after hname hreadable
  obtain ⟨prepared, hprepare, hsame, hkeeps⟩ := prepare_of_keeps hname hholds.keeps
  have hprepared : store.Holds tree ⟨prepared, _⟩ := ⟨hholds.same.trans hsame, hkeeps⟩
  refine ⟨_, rfl, hholds.load, ⟨prepared, hprepare, hprepared.load⟩, fun document hdocument => ?_⟩
  rw [save_eq_ok_iff (canWrite_of_keeps hholds.keeps) hdocument, hholds.same.canWrite_iff, hdraft]

/-- A document with one member. -/
def oneMember : Json := .obj [("a", .int 1)]

theorem readable_oneMember : Readable oneMember where
  wellFormed := .obj (by decide) (List.forall_mem_singleton.2 (.int ⟨by decide, by decide⟩))
  depth_le := by decide
  reprints := nofun

def dataFolder : FileTree := .around ["data"]

theorem closed_dataFolder : dataFolder.Closed := FileTree.closed_around ["data"]

theorem last_saved_is_loaded_config :
    (∃ state, after { path := "config.json" } ⟨dataFolder, .obj []⟩ [.prepare, .save oneMember, .prepare, .load] = state ∧
      load { path := "config.json" } state.files = .ok oneMember) ∧
    ∀ document, Readable document →
      ¬ ∃ saved, save { path := "..a" } dataFolder document = (saved, .ok ()) ∧
        load { path := "..a" } saved = .ok document := by
  constructor
  · have hconfig := @last_saved_is_loaded { path := "config.json" } dataFolder ["data"] "config.json" closed_dataFolder rfl
      rfl (by decide)
    obtain ⟨state, hstate, hload, -⟩ := hconfig.2 (.obj []) rfl [.prepare, .save oneMember, .prepare, .load]
      (by simpa using readable_oneMember)
    have hlast : state.last = oneMember := by
      rw [← hstate]
      rfl
    exact ⟨state, hstate, by rw [hload, hlast]⟩
  · have htwoPoints := @last_saved_is_loaded { path := "..a" } dataFolder ["data"] "..a" closed_dataFolder
      rfl rfl (by decide)
    exact fun document hreadable hsaved => ((htwoPoints.1 document hreadable).1 hsaved).stem rfl

/-- A path whose folder is there, and whose draft would be the folder above it. -/
theorem save_fails_twoPoints :
    dataFolder.locate "..a" = .ok ["data", "..a"] ∧ Readable oneMember ∧
    save { path := "..a" } dataFolder oneMember = (dataFolder, .error (.ofIo .isFolder)) ∧
    load { path := "..a" } dataFolder = .ok (.obj []) :=
  ⟨rfl, readable_oneMember, rfl, rfl⟩

end AddressBook.DocumentStore
