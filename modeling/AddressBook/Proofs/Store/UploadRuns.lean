import AddressBook.Proofs.Store.StoredNames
import AddressBook.Proofs.Store.UploadFolder
/-!
# Sequences of saves and removals

Calls of the upload store follow each other as often as wanted, with any names from clients. As long as the fresh names are
distinct and nothing has been put under them before, every save that succeeds adds a file, which is there until it is
removed by its name for the first time. What is directly in the folder of the uploads and on the way to it is all that a
call reads, and no file outside of the folder is ever changed.
-/

namespace AddressBook.UploadStore

open FileTree (AddsFolders FitsBelow HasFolders LeadsToFolder)

variable {store : UploadStore} {start tree other left : FileTree} {name : String} {call : Call} {calls before rest : List Call}
  {answer : Answer}

/-! ### One call -/

namespace Call

/-- The fresh name that a save is given. -/
def fresh? : Call → Option String
  | save fresh _ _ => some fresh
  | remove _ => none

/-- The name of the file that a call is about. -/
def fileName : Call → String
  | save fresh clientName _ => storedName fresh clientName
  | remove name => name

end Call

/-- Only the place of the name is changed, and folders are made that the way to the uploads lacks. -/
theorem Outcome.node?_cases (houtcome : store.Outcome tree call left answer) {place : Place}
    (hplace : place ≠ store.placeOf tree call.fileName) : left.node? place = tree.node? place ∨
      place ∈ tree.passed store.root ∧ tree.node? place = none ∧ left.node? place = some .folder := by
  cases houtcome with
  | stored generated resolved adds leads fits free =>
      rw [Call.fileName] at hplace
      rw [FileTree.node?_put_of_ne hplace]
      exact adds.node place
  | notStored adds cause => exact adds.node place
  | refused pathLike => exact .inl rfl
  | removed bare leads fits file => exact .inl (FileTree.node?_drop_of_ne hplace)
  | absent bare missing => exact .inl rfl
  | failed bare cause => exact .inl rfl

theorem Outcome.hasFolders (houtcome : store.Outcome tree call left answer) : HasFolders left tree := by
  cases houtcome with
  | stored generated resolved adds leads fits free =>
      exact (FileTree.sameFolders_put (FileTree.ne_folder_of_eq_none free) _).right.trans adds.hasFolders
  | notStored adds cause => exact adds.hasFolders
  | refused pathLike => exact ⟨rfl, fun _ => id⟩
  | removed bare leads fits file => exact (FileTree.sameFolders_drop_file file).right
  | absent bare missing => exact ⟨rfl, fun _ => id⟩
  | failed bare cause => exact ⟨rfl, fun _ => id⟩

theorem Outcome.node?_remove (houtcome : store.Outcome tree (.remove name) left answer)
    (hnone : tree.node? (store.placeOf tree name) = none) : left.node? (store.placeOf tree name) = none := by
  cases houtcome with
  | refused pathLike => exact hnone
  | removed bare leads fits file => exact FileTree.node?_drop_file file
  | absent bare missing => exact hnone
  | failed bare cause => exact hnone

/-! ### Fresh names -/

/--
The fresh names of the calls are distinct, and what is stored under them is new: nothing stands at its place, and the way to
the folder of the uploads does not pass there.
-/
structure FreshCalls (store : UploadStore) (tree : FileTree) (calls : List Call) : Prop where
  distinct : (calls.filterMap Call.fresh?).Nodup
  plain : ∀ fresh ∈ calls.filterMap Call.fresh?, IsPlain fresh
  free : ∀ fresh clientName content, .save fresh clientName content ∈ calls →
    tree.node? (store.placeOf tree (storedName fresh clientName)) = none ∧
      store.placeOf tree (storedName fresh clientName) ∉ tree.passed store.root

namespace FreshCalls

theorem plain_of_mem (hfresh : store.FreshCalls tree calls) {fresh clientName : String} {content : Text.Bytes}
    (hmem : .save fresh clientName content ∈ calls) : IsPlain fresh :=
  hfresh.plain fresh (List.mem_filterMap.2 ⟨_, hmem, rfl⟩)

theorem outcome (hfresh : store.FreshCalls tree (call :: rest)) :
    store.Outcome tree call (store.perform tree call).1 (store.perform tree call).2 := by
  cases call with
  | save fresh clientName content =>
      obtain ⟨hfree, hapart⟩ := hfresh.free fresh clientName content List.mem_cons_self
      exact store.outcome_save tree content (hfresh.plain_of_mem List.mem_cons_self) hfree hapart
  | remove name => exact store.outcome_remove tree name

theorem storedName_ne {fresh clientName other otherName : String} {content otherContent : Text.Bytes}
    (hfresh : store.FreshCalls tree (.save fresh clientName content :: rest))
    (hmem : .save other otherName otherContent ∈ rest) : storedName fresh clientName ≠ storedName other otherName := by
  intro hsame
  have hplain := hfresh.plain_of_mem List.mem_cons_self
  have hother := hfresh.plain_of_mem (List.mem_cons_of_mem _ hmem)
  have hdistinct := (List.nodup_cons.1 hfresh.distinct).1
  rw [fresh_eq_of_storedName hplain hother hsame] at hdistinct
  exact hdistinct (List.mem_filterMap.2 ⟨_, hmem, rfl⟩)

theorem of_sublist (hfresh : store.FreshCalls tree calls) (hsublist : rest.Sublist calls) : store.FreshCalls tree rest where
  distinct := hfresh.distinct.sublist (hsublist.filterMap _)
  plain fresh hmem := hfresh.plain fresh ((hsublist.filterMap _).subset hmem)
  free fresh clientName content hmem := hfresh.free fresh clientName content (hsublist.subset hmem)

theorem step (hfresh : store.FreshCalls tree (call :: rest)) : store.FreshCalls (store.perform tree call).1 rest where
  distinct := (hfresh.of_sublist (List.sublist_cons_self _ _)).distinct
  plain := (hfresh.of_sublist (List.sublist_cons_self _ _)).plain
  free fresh clientName content hmem := by
    have houtcome := hfresh.outcome
    obtain ⟨hfree, hapart⟩ := hfresh.free fresh clientName content (List.mem_cons_of_mem _ hmem)
    rw [placeOf_eq houtcome.hasFolders.home, FileTree.passed_eq houtcome.hasFolders.home]
    refine ⟨?_, hapart⟩
    by_cases hname : storedName fresh clientName = call.fileName
    · -- the call is no save of this name, so it takes away what stands there at most
      cases call with
      | save own ownName ownContent => exact absurd hname.symm (hfresh.storedName_ne hmem)
      | remove name =>
          rw [show storedName fresh clientName = name from hname] at hfree ⊢
          exact houtcome.node?_remove hfree
    · rcases houtcome.node?_cases (fun hplace => hname (placeOf_inj hplace)) with hkept | ⟨hpassed, -⟩
      · rw [hkept, hfree]
      · exact absurd hpassed hapart

theorem after (hfresh : store.FreshCalls tree (before ++ rest)) : store.FreshCalls (store.after tree before) rest := by
  induction before generalizing tree with
  | nil => exact hfresh
  | cons call before ih => exact ih hfresh.step

theorem hasFolders (hfresh : store.FreshCalls tree calls) : HasFolders (store.after tree calls) tree := by
  induction calls generalizing tree with
  | nil => exact ⟨rfl, fun _ => id⟩
  | cons call rest ih => exact (ih hfresh.step).trans hfresh.outcome.hasFolders

end FreshCalls

/-! ### Files that are there until they are removed -/

/-- A name can be removed: there is a folder for its file, and no folder stands in the place of the file. -/
structure Removable (store : UploadStore) (tree : FileTree) (name : String) : Prop where
  bare : ¬ PathLike name
  leads : tree.LeadsToFolder store.root
  fits : FitsBelow store.root name
  noFolder : tree.node? (store.placeOf tree name) ≠ some .folder

/-- No call of a sequence stores anything under a name. -/
def Spares (calls : List Call) (name : String) : Prop :=
  ∀ fresh clientName content, .save fresh clientName content ∈ calls → storedName fresh clientName ≠ name

namespace Removable

theorem remove (hremovable : store.Removable tree name) :
    (store.remove tree name).2 = .ok (tree.node? (store.placeOf tree name)).isSome := by
  have houtcome := store.outcome_remove tree name
  generalize (store.remove tree name).1 = left, (store.remove tree name).2 = result at houtcome
  cases houtcome with
  | refused pathLike => exact absurd pathLike hremovable.bare
  | removed bare leads fits file =>
      rw [file]
      rfl
  | absent bare missing =>
      rw [(missing hremovable.leads).2]
      rfl
  | failed bare cause =>
      rcases cause with ⟨-, hfolder⟩ | ⟨hlost, -⟩
      · exact absurd (hfolder hremovable.fits) hremovable.noFolder
      · exact absurd hremovable.leads hlost

theorem node?_next (hremovable : store.Removable tree name) (houtcome : store.Outcome tree call left answer)
    (hspares : Spares [call] name) : left.node? (store.placeOf tree name) =
      if call = .remove name then none else tree.node? (store.placeOf tree name) := by
  have hkept : call.fileName ≠ name → left.node? (store.placeOf tree name) = tree.node? (store.placeOf tree name) := by
    intro hne
    rcases houtcome.node?_cases fun hplace => hne (placeOf_inj hplace.symm) with hkept | ⟨hpassed, hnone, -⟩
    · exact hkept
    · rw [hremovable.leads.node?_passed hpassed] at hnone
      nomatch hnone
  split
  · rename_i hcall
    subst hcall
    cases houtcome with
    | refused pathLike => exact absurd pathLike hremovable.bare
    | removed bare leads fits file => exact FileTree.node?_drop_file file
    | absent bare missing => exact (missing hremovable.leads).2
    | failed bare cause =>
        rcases cause with ⟨-, hfolder⟩ | ⟨hlost, -⟩
        · exact absurd (hfolder hremovable.fits) hremovable.noFolder
        · exact absurd hremovable.leads hlost
  · rename_i hcall
    refine hkept fun hname => ?_
    cases call with
    | save fresh clientName content => exact hspares fresh clientName content List.mem_cons_self hname
    | remove other => exact hcall (congrArg Call.remove hname)

theorem next (hremovable : store.Removable tree name) (houtcome : store.Outcome tree call left answer)
    (hspares : Spares [call] name) : store.Removable left name where
  bare := hremovable.bare
  leads := hremovable.leads.mono houtcome.hasFolders
  fits := hremovable.fits
  noFolder := by
    rw [placeOf_eq houtcome.hasFolders.home, hremovable.node?_next houtcome hspares]
    split
    · exact nofun
    · exact hremovable.noFolder

theorem after (hremovable : store.Removable tree name) (hfresh : store.FreshCalls tree calls) (hspares : Spares calls name) :
    store.Removable (store.after tree calls) name ∧ (store.after tree calls).node? (store.placeOf tree name) =
      if .remove name ∈ calls then none else tree.node? (store.placeOf tree name) := by
  induction calls generalizing tree with
  | nil => exact ⟨hremovable, rfl⟩
  | cons call rest ih =>
      have houtcome := hfresh.outcome
      have hcall : Spares [call] name :=
        fun fresh clientName content hmem => hspares fresh clientName content (List.mem_cons.2 (.inl (List.mem_singleton.1 hmem)))
      have hrest : Spares rest name :=
        fun fresh clientName content hmem => hspares fresh clientName content (List.mem_cons_of_mem _ hmem)
      obtain ⟨hlast, hnode⟩ := ih (hremovable.next houtcome hcall) hfresh.step hrest
      refine ⟨hlast, ?_⟩
      rw [placeOf_eq houtcome.hasFolders.home, hremovable.node?_next houtcome hcall] at hnode
      refine hnode.trans ?_
      by_cases hfirst : call = .remove name
      · rw [if_pos hfirst, if_pos (List.mem_cons.2 (.inl hfirst.symm)), ite_self]
      · rw [if_neg hfirst]
        simp only [List.mem_cons, Ne.symm hfirst, false_or]

end Removable

theorem Outcome.removable {fresh clientName : String} {content : Text.Bytes}
    (houtcome : store.Outcome tree (.save fresh clientName content) left (.saved (.ok name))) :
    storedName fresh clientName = name ∧ store.Removable left name ∧
      left.node? (store.placeOf left name) = some (.file content) := by
  have hplace : ∀ name, store.placeOf left name = store.placeOf tree name := placeOf_eq houtcome.hasFolders.home
  cases houtcome with
  | @stored made _ _ _ generated resolved adds leads fits free =>
      have hfolders := FileTree.sameFolders_put (FileTree.ne_folder_of_eq_none free) content
      have hfile : (made.put (store.placeOf tree (storedName fresh clientName)) (.file content)).node? _ = _ :=
        FileTree.node?_put_self (FileTree.ne_nil_of_eq_none free) (.file content)
      rw [hplace]
      refine ⟨rfl, ⟨isBareName_iff_not_pathLike.1 (resolve_eq_ok_iff.1 resolved).1, leads.mono hfolders.right, fits, ?_⟩, hfile⟩
      rw [hplace, hfile]
      exact nofun

/-! ### What calls depend on -/

/-- Trees that do not differ on the way to the folder of the uploads and directly in it. -/
structure SameReach (store : UploadStore) (tree other : FileTree) : Prop where
  home : other.home = tree.home
  passed : ∀ place ∈ tree.passed store.root, other.node? place = tree.node? place
  inside : ∀ name, other.node? (store.placeOf tree name) = tree.node? (store.placeOf tree name)

/-- Changes that make no difference at a place where there was none leave the same reach. -/
theorem SameReach.congr {made otherMade : FileTree} (hsame : store.SameReach tree other) (hmade : made.home = tree.home)
    (hother : otherMade.home = other.home)
    (hnode : ∀ place, other.node? place = tree.node? place → otherMade.node? place = made.node? place) :
    store.SameReach made otherMade where
  home := (hother.trans hsame.home).trans hmade.symm
  passed place hplace := hnode place (hsame.passed place (FileTree.passed_eq hmade _ ▸ hplace))
  inside name := by
    rw [placeOf_eq hmade]
    exact hnode _ (hsame.inside name)

theorem SameReach.locate_join (hsame : store.SameReach tree other) (hbare : FileTree.Bare name) :
    other.locate (Path.join store.root name) = tree.locate (Path.join store.root name) ∧
      ∀ place, tree.locate (Path.join store.root name) = .ok place → other.node? place = tree.node? place := by
  refine ⟨hbare.locate_join_congr hsame.home hsame.passed, fun place hlocate => ?_⟩
  obtain ⟨-, -, rfl⟩ := hbare.locate_join_eq_ok_iff.1 hlocate
  exact hsame.inside name

theorem SameReach.save (hsame : store.SameReach tree other) (fresh clientName : String) (content : Text.Bytes) :
    (store.save other fresh clientName content).2 = (store.save tree fresh clientName content).2 ∧
      store.SameReach (store.save tree fresh clientName content).1 (store.save other fresh clientName content).1 := by
  have htree := FileTree.addsFolders_createFolders tree store.root
  have hother := FileTree.addsFolders_createFolders other store.root
  obtain ⟨hanswer, hnode⟩ := FileTree.createFolders_congr hsame.home hsame.passed
  have hmade := hsame.congr htree.home hother.home hnode
  unfold UploadStore.save prepare
  generalize tree.createFolders store.root = treeMade, other.createFolders store.root = otherMade at *
  obtain ⟨made, outcome⟩ := treeMade
  obtain ⟨otherMade, otherOutcome⟩ := otherMade
  obtain rfl : otherOutcome = outcome := hanswer
  dsimp only
  cases otherOutcome.mapError StoreFault.ofIo with
  | error fault => exact ⟨rfl, hmade⟩
  | ok done =>
      cases hresolve : store.resolve (storedName fresh clientName) with
      | error fault => exact ⟨rfl, hmade⟩
      | ok path =>
          obtain ⟨hname, rfl⟩ := resolve_eq_ok_iff.1 hresolve
          obtain ⟨hlocate, hplace⟩ := hmade.locate_join (bare_of_isBareName hname)
          dsimp only
          rcases FileTree.write_congr hlocate hplace content with ⟨fault, hother, htree⟩ | ⟨place, hother, htree⟩
          · rw [hother, htree]
            exact ⟨rfl, hmade⟩
          · rw [hother, htree]
            exact ⟨rfl, hmade.congr rfl rfl fun away => FileTree.node?_put_congr place _⟩

theorem SameReach.remove (hsame : store.SameReach tree other) (name : String) :
    (store.remove other name).2 = (store.remove tree name).2 ∧
      store.SameReach (store.remove tree name).1 (store.remove other name).1 := by
  unfold UploadStore.remove
  cases hresolve : store.resolve name with
  | error fault => exact ⟨rfl, hsame⟩
  | ok path =>
      obtain ⟨hname, rfl⟩ := resolve_eq_ok_iff.1 hresolve
      obtain ⟨hlocate, hnode⟩ := hsame.locate_join (bare_of_isBareName hname)
      dsimp only
      rcases FileTree.remove_congr hlocate hnode with ⟨fault, hother, htree⟩ | ⟨place, hother, htree⟩
      · rw [hother, htree]
        cases fault <;> exact ⟨rfl, hsame⟩
      · rw [hother, htree]
        exact ⟨rfl, hsame.congr rfl rfl fun away => FileTree.node?_drop_congr place⟩

theorem SameReach.after (hsame : store.SameReach tree other) (calls : List Call) :
    store.answers other calls = store.answers tree calls ∧
      store.SameReach (store.after tree calls) (store.after other calls) := by
  induction calls generalizing tree other with
  | nil => exact ⟨rfl, hsame⟩
  | cons call rest ih =>
      have hcall : (store.perform other call).2 = (store.perform tree call).2 ∧
          store.SameReach (store.perform tree call).1 (store.perform other call).1 := by
        cases call with
        | save fresh clientName content =>
            obtain ⟨hanswer, hnext⟩ := hsame.save fresh clientName content
            exact ⟨congrArg Answer.saved hanswer, hnext⟩
        | remove name =>
            obtain ⟨hanswer, hnext⟩ := hsame.remove name
            exact ⟨congrArg Answer.removed hanswer, hnext⟩
      obtain ⟨hanswers, hlast⟩ := ih hcall.2
      rw [answers, answers, hcall.1, hanswers]
      exact ⟨rfl, hlast⟩

/-! ### Sequences of calls -/

/-- What holds of a sequence of calls. -/
structure Confined (store : UploadStore) (start : FileTree) (calls : List Call) : Prop where
  outcome : ∀ before call rest, calls = before ++ call :: rest →
    store.Outcome (store.after start before) call (store.perform (store.after start before) call).1
      (store.perform (store.after start before) call).2
  /-- A file that has been stored is there when it is removed for the first time only. -/
  removedOnce : ∀ before fresh clientName content middle name rest,
    calls = before ++ .save fresh clientName content :: (middle ++ .remove name :: rest) →
    (store.save (store.after start before) fresh clientName content).2 = .ok name →
    (store.remove (store.after start (before ++ .save fresh clientName content :: middle)) name).2 =
      .ok (decide (.remove name ∉ middle))
  /-- Apart from the places of the names, only folders are made that the way to the uploads lacks. -/
  untouched : ∀ place, (∀ call ∈ calls, place ≠ store.placeOf start call.fileName) →
    (store.after start calls).node? place = start.node? place ∨
      place ∈ start.passed store.root ∧ start.node? place = none ∧ (store.after start calls).node? place = some .folder
  /-- What is neither directly in the folder of the uploads nor on the way to it makes no difference. -/
  unread : ∀ other, store.SameReach start other →
    store.answers other calls = store.answers start calls ∧
      store.SameReach (store.after start calls) (store.after other calls)

theorem after_append (store : UploadStore) (tree : FileTree) (before rest : List Call) :
    store.after tree (before ++ rest) = store.after (store.after tree before) rest := List.foldl_append

theorem FreshCalls.untouched (hfresh : store.FreshCalls tree calls) {place : Place}
    (haway : ∀ call ∈ calls, place ≠ store.placeOf tree call.fileName) :
    (store.after tree calls).node? place = tree.node? place ∨
      place ∈ tree.passed store.root ∧ tree.node? place = none ∧ (store.after tree calls).node? place = some .folder := by
  induction calls generalizing tree with
  | nil => exact .inl rfl
  | cons call rest ih =>
      obtain ⟨hcall, hrest⟩ := List.forall_mem_cons.1 haway
      have houtcome := hfresh.outcome
      have hhome := houtcome.hasFolders.home
      have hlast := ih hfresh.step fun other hmem => placeOf_eq hhome _ ▸ hrest other hmem
      rw [FileTree.passed_eq hhome] at hlast
      rcases houtcome.node?_cases hcall with hkept | ⟨hpassed, hnone, hfolder⟩
      · rw [hkept] at hlast
        exact hlast
      · refine .inr ⟨hpassed, hnone, ?_⟩
        rcases hlast with hkept | ⟨-, hmissing, -⟩
        · exact hkept.trans hfolder
        · nomatch hfolder.symm.trans hmissing

theorem FreshCalls.removedOnce {fresh clientName : String} {content : Text.Bytes} {middle : List Call}
    (hfresh : store.FreshCalls tree (.save fresh clientName content :: (middle ++ rest)))
    (hsaved : (store.save tree fresh clientName content).2 = .ok name) :
    (store.remove (store.after tree (.save fresh clientName content :: middle)) name).2 =
      .ok (decide (.remove name ∉ middle)) := by
  have houtcome : store.Outcome tree _ (store.save tree fresh clientName content).1
      (.saved (store.save tree fresh clientName content).2) := hfresh.outcome
  rw [hsaved] at houtcome
  obtain ⟨rfl, hremovable, hfile⟩ := houtcome.removable
  have hspares : Spares middle (storedName fresh clientName) :=
    fun other otherName otherContent hmem => (hfresh.storedName_ne (List.mem_append_left _ hmem)).symm
  have hmiddle : store.FreshCalls (store.save tree fresh clientName content).1 middle :=
    hfresh.step.of_sublist (List.sublist_append_left middle rest)
  obtain ⟨hlast, hnode⟩ := hremovable.after hmiddle hspares
  have hanswer := hlast.remove
  rw [placeOf_eq hmiddle.hasFolders.home, hnode, hfile] at hanswer
  refine hanswer.trans (congrArg Except.ok ?_)
  by_cases hmem : .remove (storedName fresh clientName) ∈ middle <;> simp [hmem]

/-- Saves and removals reach the files of their own names in the folder of the uploads, and nothing else. -/
theorem calls_confined (store : UploadStore) (start : FileTree) (calls : List Call) (hfresh : store.FreshCalls start calls) :
    store.Confined start calls where
  outcome := by
    rintro before call rest rfl
    exact hfresh.after.outcome
  removedOnce := by
    rintro before fresh clientName content middle name rest rfl hsaved
    rw [after_append]
    exact hfresh.after.removedOnce hsaved
  untouched place haway := hfresh.untouched haway
  unread other hsame := hsame.after calls

/-- A picture is stored, a path to it is tried out, and then the picture is removed twice. -/
def photoCalls : List Call :=
  [.save freshId "../Photo.PNG" [0x78], .remove "../uploads", .remove (freshId ++ ".png"), .remove (freshId ++ ".png")]

theorem calls_confined_photo : uploadFolder.FreshCalls {} photoCalls ∧
    (uploadFolder.save {} freshId "../Photo.PNG" [0x78]).2 = .ok (freshId ++ ".png") ∧
    (uploadFolder.remove (uploadFolder.after {} (photoCalls.take 2)) (freshId ++ ".png")).2 = .ok true ∧
    (uploadFolder.remove (uploadFolder.after {} (photoCalls.take 3)) (freshId ++ ".png")).2 = .ok false := by
  have hfresh : uploadFolder.FreshCalls {} photoCalls := by
    refine ⟨by decide, by decide, fun fresh clientName content hmem => ?_⟩
    obtain ⟨rfl, rfl, rfl⟩ : fresh = freshId ∧ clientName = "../Photo.PNG" ∧ content = [0x78] := by
      simpa [photoCalls] using hmem
    decide +kernel
  have hsaved : (uploadFolder.save {} freshId "../Photo.PNG" [0x78]).2 = .ok (freshId ++ ".png") := by decide +kernel
  have hconfined := calls_confined uploadFolder {} photoCalls hfresh
  have honce := hconfined.removedOnce [] freshId "../Photo.PNG" [0x78] [.remove "../uploads"] (freshId ++ ".png")
    [.remove (freshId ++ ".png")] rfl hsaved
  have htwice := hconfined.removedOnce [] freshId "../Photo.PNG" [0x78] [.remove "../uploads", .remove (freshId ++ ".png")]
    (freshId ++ ".png") [] rfl hsaved
  exact ⟨hfresh, hsaved, honce, htwice⟩

/-- A name that is too long for a file. -/
def longName : String := String.ofList (List.replicate 256 'a')

theorem isBareName_longName : isBareName longName = true := by
  have htext : longName.toList = List.replicate 256 'a' := String.toList_ofList
  have hne (other : String) (hshort : other.toList.length < 256) : longName ≠ other := by
    rintro rfl
    rw [htext, List.length_replicate] at hshort
    exact Nat.lt_irrefl _ hshort
  refine isBareName_iff.2 ⟨⟨hne "" (by decide), hne "." (by decide), hne ".." (by decide)⟩, fun c hc => ?_⟩
  rw [htext] at hc
  rw [List.eq_of_mem_replicate hc]
  decide

/-- Without the folder a name that is too long is only not there, and a save makes the folders above it too. -/
theorem missing_folder_effects :
    ¬ PathLike longName ∧ FileTree.longestName < longName.utf8ByteSize ∧
    uploadFolder.remove {} longName = ({}, .ok false) ∧
    (uploadFolder.remove (uploadFolder.prepare {}).1 longName).2 = .error (.io "File name too long (os error 36)") ∧
    (UploadStore.save { root := "deep/uploads" } {} freshId "x.png" []).1.node? ["deep"] = some .folder := by
  have hbare := bare_of_isBareName isBareName_longName
  have hlong : FileTree.longestName < longName.utf8ByteSize := by decide +kernel
  have hmade : ({} : FileTree).createFolders "uploads" = ((uploadFolder.prepare {}).1, .ok ()) := by decide +kernel
  have hmissing : ¬ ({} : FileTree).LeadsToFolder "uploads" := fun hleads => absurd hleads.folder (by decide)
  have hjoin : Path.join uploadFolder.root longName = "uploads/" ++ longName := by
    have hslash : uploadFolder.root ++ "/" = "uploads/" := by decide
    rw [Path.join, Path.isAbsolute_eq_false hbare.slash, if_neg Bool.false_ne_true, if_neg (by decide), hslash]
  have hlocate : ({} : FileTree).locate (Path.join uploadFolder.root longName) = .error .notFound :=
    hbare.locate_join_of_missing hmade hmissing (by decide) (by rw [hjoin]; decide +kernel)
  have hfault : (uploadFolder.prepare {}).1.locate (Path.join uploadFolder.root longName) = .error .nameTooLong :=
    hbare.locate_join_of_not_fits (FileTree.leadsToFolder_of_createFolders (by decide) hmade) fun hfits =>
      Nat.not_lt.2 hfits.nameFits hlong
  refine ⟨isBareName_iff_not_pathLike.1 isBareName_longName, hlong, ?_, ?_, by decide +kernel⟩
  · rw [remove_of_isBareName isBareName_longName, FileTree.remove_of_locate_eq_error hlocate]
  · rw [remove_of_isBareName isBareName_longName, FileTree.remove_of_locate_eq_error hfault]
    rfl

end AddressBook.UploadStore
