import AddressBook.Proofs.Files.Folder
import AddressBook.Proofs.Store.Saving
/-!
# Saves that are stopped

A document is saved by writing a draft and moving that over the file of the store, so the file is replaced at once or not at
all. This rests on the draft being another file. It is, whatever the name of the document: the extension of drafts has a
point in it, and what stands after the last point of a name has none. So a save that fails or is stopped before the draft is
moved leaves what is loaded as it was, however much of the draft is written by then, and a save that succeeds leaves no
draft and changes no other file.

The draft is a file of the same folder, but for one kind of names: of two points and an extension at the end of a path only
the way up is left. A folder stands there, so no draft is written, nothing is saved, and nothing is lost.
-/

namespace AddressBook.DocumentStore

open FileTree (SameFolders)
open Text (Bytes)

/-- The files while a draft is written: it is made empty, and then bytes of the document are added at its end. -/
inductive Drafting (store : DocumentStore) (document : Json) (start : FileTree) : FileTree → Bytes → Prop
  | opened {now : FileTree} (hopen : start.write store.draftPath [] = .ok now) : Drafting store document start now []
  | written {now next : FileTree} {part chunk : Bytes} (hdrafting : Drafting store document start now part)
      (hpart : part ++ chunk <+: encode document) (hwrite : now.write store.draftPath (part ++ chunk) = .ok next) :
      Drafting store document start next (part ++ chunk)

/-- The files that a save leaves if it does not come to moving its draft. -/
inductive Stopped (store : DocumentStore) (document : Json) (start : FileTree) : FileTree → Prop
  | before : Stopped store document start start
  | drafting {now : FileTree} {part : Bytes} (hdrafting : Drafting store document start now part) :
      Stopped store document start now

/-- A document is in the place of the one before, its draft is gone from the same folder, and the rest is as it was. -/
structure Replaces (store : DocumentStore) (document : Json) (tree saved : FileTree) (above : Place) (name draft : String) :
    Prop where
  path : tree.locate store.path = .ok (above ++ [name])
  draftPath : tree.locate store.draftPath = .ok (above ++ [draft])
  home : saved.home = tree.home
  content : saved.node? (above ++ [name]) = some (.file (encode document))
  noDraft : saved.node? (above ++ [draft]) = none
  others : ∀ place, place ≠ above ++ [name] → place ≠ above ++ [draft] → saved.node? place = tree.node? place

variable {store : DocumentStore} {start now tree saved : FileTree} {document : Json} {part : Bytes} {name : String}
  {front rest : List String}

/-! ### The path of the draft -/

theorem exists_draft (hparts : Path.Parts store.path front name rest) (hup : name ≠ "..") :
    ∃ draft, Path.Parts store.draftPath front draft [] ∧ draft ≠ name := by
  obtain ⟨draft, hdraft, hcases⟩ := hparts.exists_withExtension hup (show '/' ∉ "json.tmp".toList by decide)
  refine ⟨draft, hdraft, ?_⟩
  rcases hcases with ⟨rfl, -⟩ | ⟨rfl, -⟩
  · exact hup.symm
  · exact Path.newName_ne (by decide)

theorem draftPath_ne_path (hname : Path.fileName? store.path = some name) : store.draftPath ≠ store.path := by
  obtain ⟨hup, front, rest, hparts⟩ := Path.exists_parts hname
  obtain ⟨draft, hdraft, hne⟩ := exists_draft hparts hup
  intro hsame
  have hpieces := hdraft.pieces
  rw [hsame, hparts.pieces] at hpieces
  exact hne (List.cons.inj (List.append_cancel_left hpieces)).1.symm

/-! ### Writing the draft -/

/-- However it is written, the draft holds the first bytes of the document as if they were written at once. -/
theorem drafting_iff : store.Drafting document start now part ↔
    part <+: encode document ∧ start.write store.draftPath part = .ok now := by
  constructor
  · intro hdrafting
    induction hdrafting with
    | opened hopen => exact ⟨List.nil_prefix, hopen⟩
    | written _ hpart hwrite ih => exact ⟨hpart, (FileTree.write_write ih.2).symm.trans hwrite⟩
  · rintro ⟨hpart, hwrite⟩
    obtain ⟨place, hlocate, hnode, -⟩ := FileTree.write_eq_ok_iff.1 hwrite
    have hopen : start.write store.draftPath [] = .ok (start.put place (.file [])) :=
      FileTree.write_eq_ok_iff.2 ⟨place, hlocate, hnode, rfl⟩
    exact .written (.opened hopen) hpart ((FileTree.write_write hopen).trans hwrite)

theorem load_of_write_draft (hclosed : tree.Closed) (hname : Path.fileName? store.path = some name)
    (hwrite : tree.write store.draftPath part = .ok now) : store.load now = store.load tree := by
  obtain ⟨hup, front, rest, hparts⟩ := Path.exists_parts hname
  obtain ⟨draft, hdraft, hne⟩ := exists_draft hparts hup
  obtain ⟨place, hlocate, hnode, -⟩ := FileTree.write_eq_ok_iff.1 hwrite
  obtain ⟨above, -, hway⟩ := hclosed.exists_way hdraft hlocate hnode
  rw [load, load, FileTree.read_of_write_sibling hparts hup hway hne hwrite]

theorem Stopped.load (hclosed : start.Closed) (hname : Path.fileName? store.path = some name)
    (hstopped : store.Stopped document start now) : store.load now = store.load start := by
  cases hstopped with
  | before => rfl
  | drafting hdrafting => exact load_of_write_draft hclosed hname (drafting_iff.1 hdrafting).2

/-! ### Closed trees -/

theorem closed_save (hclosed : tree.Closed) (document : Json) : (store.save tree document).1.Closed :=
  (sameFolders_save store tree document).closed hclosed

theorem closed_prepare (hclosed : tree.Closed) : (store.prepare tree).1.Closed := by
  unfold prepare
  split
  · exact hclosed
  · exact hclosed
  · have hmade := hclosed.createFolders (Path.parent store.path)
    split
    · rename_i made fault hfolders
      rwa [hfolders] at hmade
    · rename_i made hfolders
      rw [hfolders] at hmade
      split
      · exact hmade
      · rename_i written hwrite
        exact (FileTree.sameFolders_of_write hwrite).closed hmade

theorem files_next_save (state : State) (document : Json) :
    (store.next state (.save document)).files = (store.save state.files document).1 := by
  obtain ⟨⟨left, answer⟩, hsave⟩ : ∃ outcome, store.save state.files document = outcome := ⟨_, rfl⟩
  unfold next
  simp only [hsave]
  cases answer with
  | error fault => rfl
  | ok _ => rfl

theorem closed_after {state : State} (hclosed : state.files.Closed) (operations : List Operation) :
    (store.after state operations).files.Closed := by
  induction operations generalizing state with
  | nil => exact hclosed
  | cons operation others ih =>
      refine ih ?_
      cases operation with
      | prepare => exact closed_prepare hclosed
      | save document =>
          rw [files_next_save]
          exact closed_save hclosed document
      | load => exact hclosed

/-! ### The outcome of a save -/

theorem stopped_of_save_eq_error {left : FileTree} {fault : StoreFault}
    (hsave : store.save tree document = (left, .error fault)) : store.Stopped document tree left := by
  have hsaves := store.saves_save tree document
  rw [hsave] at hsaves
  cases hsaves with
  | failed => exact .before
  | drafted hwrite => exact .drafting (drafting_iff.2 ⟨List.prefix_refl _, hwrite⟩)

theorem exists_replaces (hclosed : tree.Closed) (hname : Path.fileName? store.path = some name)
    (hsave : store.save tree document = (saved, .ok ())) : ∃ above draft, store.Replaces document tree saved above name draft := by
  have hother := fun place : Place => @node?_save store tree document place
  have hsaves := store.saves_save tree document
  rw [hsave] at hother hsaves
  cases hsaves with
  | saved hwrite hcommit =>
      have hsame := FileTree.sameFolders_of_write hwrite
      obtain ⟨place, hlocate, hnode, rfl⟩ := FileTree.write_eq_ok_iff.1 hwrite
      obtain ⟨old, content, own, hold, hfile, hown, hfree, rfl⟩ := FileTree.rename_eq_ok_iff.1 hcommit
      obtain rfl : place = old := Except.ok.inj (hlocate.symm.trans (hsame.locate_eq_ok_iff.1 hold))
      rw [FileTree.node?_put_self (FileTree.ne_nil_of_node? hnode)] at hfile
      obtain rfl : encode document = content := FileNode.file.inj (Option.some.inj hfile)
      have hpath := hsame.locate_eq_ok_iff.1 hown
      obtain ⟨front, above, rfl, hway⟩ :=
        FileTree.exists_way hname hpath fun hfolder => hfree (hsame.right.folder _ hfolder)
      obtain ⟨draft, hdraft, hne⟩ := exists_draft hway.toParts hway.notUp
      obtain ⟨beside, rfl, hbeside⟩ := hclosed.exists_way hdraft hlocate hnode
      obtain rfl := hway.above_eq hbeside
      have hplaces : beside ++ [draft] ≠ beside ++ [name] :=
        fun heq => hne (List.singleton_inj.1 (List.append_cancel_left heq))
      refine ⟨beside, draft, hpath, hlocate, rfl, ?_, ?_, fun place hplace hplaceDraft => hother place ?_ ?_⟩
      · exact FileTree.node?_put_self (FileTree.ne_nil_of_node? hfree) _
      · rw [FileTree.node?_put_of_ne hplaces]
        exact FileTree.node?_drop_self (FileTree.ne_nil_of_node? hnode)
      · rw [hlocate]
        exact fun heq => hplaceDraft (Except.ok.inj heq).symm
      · rw [hpath]
        exact fun heq => hplace (Except.ok.inj heq).symm

/-- A save that is stopped or fails leaves what is loaded; one that succeeds leaves the document and no draft. -/
theorem saved_entirely_or_not_at_all (hclosed : tree.Closed) (hname : Path.fileName? store.path = some name) :
    store.draftPath ≠ store.path ∧
    (Path.Siblings store.path store.draftPath ↔
      ¬ ((Path.cutName name).1 = "." ∧ (Path.pieces store.path).getLast? = some name)) ∧
    ∀ document,
      (∀ left, store.Stopped document tree left → store.load left = store.load tree) ∧
      (∀ left fault, store.save tree document = (left, .error fault) →
        store.Stopped document tree left ∧ store.load left = store.load tree) ∧
      ∀ saved, store.save tree document = (saved, .ok ()) →
        ∃ above draft, store.Replaces document tree saved above name draft := by
  refine ⟨draftPath_ne_path hname, Path.siblings_withExtension_iff hname (by decide) (by decide), fun document => ?_⟩
  refine ⟨fun left hstopped => hstopped.load hclosed hname, fun left fault hsave => ?_, fun saved hsave => ?_⟩
  · have hstopped := stopped_of_save_eq_error hsave
    exact ⟨hstopped, hstopped.load hclosed hname⟩
  · exact exists_replaces hclosed hname hsave

/-- A second document: its draft is made empty and not written, or it is saved. -/
theorem saved_entirely_or_not_at_all_config :
    ∃ state, after { path := "config.json" } ⟨dataFolder, .obj []⟩ [.prepare, .save oneMember] = state ∧
      (∃ left, Stopped { path := "config.json" } (.obj []) state.files left ∧
        left.node? ["data", "config.json.tmp"] = some (.file []) ∧
        load { path := "config.json" } left = load { path := "config.json" } state.files) ∧
      ∃ saved above draft, save { path := "config.json" } state.files (.obj []) = (saved, .ok ()) ∧
        Replaces { path := "config.json" } (.obj []) state.files saved above "config.json" draft := by
  have hclosed : (after { path := "config.json" } ⟨dataFolder, .obj []⟩ [.prepare, .save oneMember]).files.Closed :=
    closed_after closed_dataFolder _
  obtain ⟨state, hstate⟩ : ∃ state, after { path := "config.json" } ⟨dataFolder, .obj []⟩ [.prepare, .save oneMember] = state :=
    ⟨_, rfl⟩
  rw [hstate] at hclosed
  obtain ⟨-, -, hdocument⟩ := @saved_entirely_or_not_at_all { path := "config.json" } state.files "config.json" hclosed rfl
  obtain ⟨hstopped, -, hsaved⟩ := hdocument (.obj [])
  refine ⟨state, hstate, ?_, ?_⟩
  · have hopened : Stopped { path := "config.json" } (.obj []) state.files
        (state.files.put ["data", "config.json.tmp"] (.file [])) := by
      refine .drafting (.opened ?_)
      rw [← hstate]
      rfl
    exact ⟨_, hopened, FileTree.node?_put_self (List.cons_ne_nil _ _) _, hstopped _ hopened⟩
  · obtain ⟨saved, hsave⟩ : ∃ saved, save { path := "config.json" } state.files (.obj []) = (saved, .ok ()) := by
      rw [← hstate]
      exact ⟨_, rfl⟩
    obtain ⟨above, draft, hreplaces⟩ := hsaved saved hsave
    exact ⟨saved, above, draft, hsave, hreplaces⟩

/-- A file of its own, whose draft is the folder above the one that it is in. -/
theorem draft_not_beside_twoPoints :
    Path.fileName? "..a" = some "..a" ∧ dataFolder.locate "..a" = .ok ["data", "..a"] ∧
    draftPath { path := "..a" } = ".." ∧ dataFolder.locate (draftPath { path := "..a" }) = .ok [] ∧
    ¬ Path.Siblings "..a" (draftPath { path := "..a" }) :=
  ⟨rfl, rfl, rfl, rfl, fun hsiblings => hsiblings.named rfl⟩

end AddressBook.DocumentStore
