import AddressBook.Proofs.Files.Extension
/-!
# Files beside others

A path with a file name leads into the folder that its other pieces lead to. If the folder is there, making the folders of
the path does nothing, and a path with another last name leads into the same folder. So whether a file can be written beside
another one, under the same stem and another extension, is a matter of the new name alone: it must not be too long, it must
not be that of a folder, and the stem must not be a point. The last condition is there because folders stand in folders,
which making folders and writing files keep true, so the way up never leads to a place for a file.
-/

namespace AddressBook.FileTree

open AddressBook.Path (cutName isComponent pieces withExtension)

variable {tree : FileTree} {start above place : Place} {path name extension : String} {front : List String}

/-- A path leads somewhere, and no folder stands there. -/
def CanWrite (tree : FileTree) (path : String) : Prop :=
  ∃ place, tree.locate path = .ok place ∧ tree.node? place ≠ some .folder

theorem SameFolders.canWrite_iff {other : FileTree} (hsame : SameFolders tree other) :
    other.CanWrite path ↔ tree.CanWrite path := by
  refine exists_congr fun place => and_congr hsame.locate_eq_ok_iff (not_congr ?_)
  exact ⟨hsame.left.folder place, hsame.right.folder place⟩

/-! ### Folders in folders -/

/-- What a folder stands in is a folder. -/
def Closed (tree : FileTree) : Prop :=
  ∀ place, tree.node? place = some .folder → tree.node? place.dropLast = some .folder

theorem SameFolders.closed {other : FileTree} (hsame : SameFolders tree other) (hclosed : tree.Closed) : other.Closed :=
  fun place hfolder => hsame.right.folder _ (hclosed place (hsame.left.folder place hfolder))

theorem hasFolders_put_folder (tree : FileTree) (place : Place) : HasFolders (tree.put place .folder) tree where
  home := rfl
  folder away hfolder := by
    by_cases heq : away = place
    · subst heq
      by_cases hroot : away = []
      · rw [hroot, node?_nil]
      · rw [node?_put_self hroot]
    · rw [node?_put_of_ne heq, hfolder]

theorem Closed.put_folder (hclosed : tree.Closed) (hplace : tree.node? place.dropLast = some .folder) :
    (tree.put place .folder).Closed := by
  intro away hfolder
  refine (hasFolders_put_folder tree place).folder _ ?_
  by_cases heq : away = place
  · rw [heq, hplace]
  · rw [node?_put_of_ne heq] at hfolder
    exact hclosed away hfolder

theorem closed_around (home : Place) : (around home).Closed := by
  suffices hsteps : ∀ n ≤ home.length, ∀ made : FileTree,
      (List.range n).foldl (fun (tree : FileTree) n => tree.put (home.take (n + 1)) .folder) { home } = made →
        made.Closed ∧ made.node? (home.take n) = some .folder from
    (hsteps home.length (Nat.le_refl _) _ rfl).1
  intro n hn
  induction n with
  | zero =>
      rintro made rfl
      refine ⟨fun place hfolder => ?_, node?_nil _⟩
      have hroot : place = [] := by
        by_contra hroot
        rw [node?, if_neg hroot] at hfolder
        cases hfolder
      rw [hroot, List.dropLast_nil, node?_nil]
  | succ n ih =>
      rintro made rfl
      obtain ⟨hclosed, hlast⟩ := ih (Nat.le_of_succ_le hn) _ rfl
      rw [List.range_succ, List.foldl_append, List.foldl_cons, List.foldl_nil]
      have hne : home.take (n + 1) ≠ [] := List.ne_nil_of_length_eq_add_one (List.length_take_of_le hn)
      refine ⟨hclosed.put_folder ?_, node?_put_self hne _⟩
      rwa [← List.take_append_getElem hn, List.dropLast_concat]

theorem Closed.makeFolders (hclosed : tree.Closed) (place : Place) (pieces : List String) :
    (tree.makeFolders place pieces).1.Closed := by
  induction pieces generalizing tree place with
  | nil => exact hclosed
  | cons piece rest ih =>
      rw [FileTree.makeFolders]
      cases henter : tree.enter place piece with
      | error fault => exact hclosed
      | ok next =>
          dsimp only
          split
          · exact ih hclosed next
          · exact hclosed
          · refine ih (hclosed.put_folder ?_) next
            obtain ⟨hfolder, hnext⟩ := enter_eq_ok_iff.1 henter
            -- from a folder one gets up, down, or nowhere
            split at hnext
            · split at hnext
              · exact hclosed next (hnext ▸ hclosed place hfolder)
              · rw [hnext.2, List.dropLast_concat, hfolder]
            · exact hclosed next (hnext ▸ hfolder)

theorem Closed.createFolders (hclosed : tree.Closed) (path : String) : (tree.createFolders path).1.Closed := by
  unfold FileTree.createFolders
  split
  · exact hclosed
  · split
    · exact hclosed
    · exact hclosed.makeFolders _ _

/-! ### Ways to files -/

/--
Beside the file that a path leads to, a file can be written under another extension: its name and the path are not too
long, nothing but a file stands there, and the stem is not a point.
-/
structure RoomBeside (tree : FileTree) (path : String) (above : Place) (name extension : String) : Prop where
  stem : (cutName name).1 ≠ "."
  nameFits : ((cutName name).1 ++ "." ++ extension).utf8ByteSize ≤ longestName
  pathFits : (withExtension path extension).utf8ByteSize ≤ longestPath
  free : tree.node? (above ++ [(cutName name).1 ++ "." ++ extension]) ≠ some .folder

/-- The way of a path to a file of some name: its other pieces lead to a folder, and no piece follows the name. -/
structure Way (tree : FileTree) (path : String) (front : List String) (above : Place) (name : String) : Prop
    extends Path.Parts path front name [] where
  notUp : name ≠ ".."
  refusal : refusal? path = none
  follow : tree.follow (tree.start path) front = .ok above
  folder : tree.node? above = some .folder

theorem refusal?_eq_none_iff :
    refusal? path = none ↔ '\x00' ∉ path.toList ∧ path.utf8ByteSize ≤ longestPath := by
  unfold refusal?
  split
  · rename_i hnul
    simp [hnul]
  · rename_i hnul
    split
    · rename_i hlong
      simp [Nat.not_le.2 hlong]
    · rename_i hshort
      simp [hnul, Nat.not_lt.1 hshort]

theorem locate_eq_ok_iff_of_pieces (hpieces : pieces path = front ++ [name]) (hname : name ≠ "") :
    tree.locate path = .ok place ↔ refusal? path = none ∧
      ∃ above, tree.follow (tree.start path) front = .ok above ∧ tree.enter above name = .ok place := by
  have hpath : path ≠ "" := by
    rintro rfl
    have hlast := congrArg List.getLast? hpieces
    rw [List.getLast?_concat] at hlast
    exact hname (Option.some.inj hlast).symm
  rw [locate_eq_ok_iff, hpieces, follow_concat_eq_ok_iff, and_iff_right hpath]

theorem exists_way_of_parts (hparts : Path.Parts path front name []) (hup : name ≠ "..") (hlocate : tree.locate path = .ok place) :
    ∃ above, place = above ++ [name] ∧ tree.Way path front above name := by
  obtain ⟨hrefusal, above, hfront, henter⟩ := (locate_eq_ok_iff_of_pieces hparts.pieces hparts.name_ne_empty).1 hlocate
  obtain ⟨hfolder, -, hplace⟩ := (enter_component_eq_ok_iff hparts.component hup).1 henter
  exact ⟨above, hplace, hparts, hup, hrefusal, hfront, hfolder⟩

theorem exists_way (hname : Path.fileName? path = some name) (hlocate : tree.locate path = .ok place)
    (hnode : tree.node? place ≠ some .folder) : ∃ front above, place = above ++ [name] ∧ tree.Way path front above name := by
  obtain ⟨-, -, hfollow⟩ := locate_eq_ok_iff.1 hlocate
  have hpieces : pieces path ≠ [] := fun hnil => Text.split_ne_nil '/' path.toList (List.map_eq_nil_iff.1 hnil)
  obtain ⟨front, last, hlast⟩ := (List.eq_nil_or_concat (pieces path)).resolve_left hpieces
  rw [List.concat_eq_append] at hlast
  rw [hlast] at hfollow
  obtain ⟨above, -, henter⟩ := follow_concat_eq_ok_iff.1 hfollow
  have hcomponent : isComponent last = true := by
    cases hpassed : isComponent last with
    | true => rfl
    | false =>
        rw [enter_eq_ok_iff, hpassed] at henter
        exact absurd (henter.2 ▸ henter.1) hnode
  have hparts : Path.Parts path front last [] := ⟨hlast, hcomponent, List.forall_mem_nil _⟩
  rw [hparts.fileName?] at hname
  split at hname
  · nomatch hname
  · rename_i hup
    obtain rfl := Option.some.inj hname
    exact ⟨front, exists_way_of_parts hparts hup hlocate⟩

/-- In a closed tree the way up leads to a folder, so a path that leads to none does not end with it. -/
theorem Closed.exists_way (hclosed : tree.Closed) (hparts : Path.Parts path front name [])
    (hlocate : tree.locate path = .ok place) (hnode : tree.node? place ≠ some .folder) :
    ∃ above, place = above ++ [name] ∧ tree.Way path front above name := by
  refine exists_way_of_parts hparts ?_ hlocate
  rintro rfl
  obtain ⟨-, above, -, henter⟩ := (locate_eq_ok_iff_of_pieces hparts.pieces hparts.name_ne_empty).1 hlocate
  obtain ⟨hfolder, hplace⟩ := enter_eq_ok_iff.1 henter
  rw [if_pos hparts.component, if_pos rfl] at hplace
  rw [hplace] at hnode
  exact hnode (hclosed above hfolder)

namespace Way

variable (hway : tree.Way path front above name)

include hway

theorem locate_eq_ok_iff : tree.locate path = .ok place ↔
    name.utf8ByteSize ≤ longestName ∧ place = above ++ [name] := by
  rw [locate_eq_ok_iff_of_pieces hway.pieces hway.name_ne_empty, and_iff_right hway.refusal]
  simp only [hway.follow, Except.ok.injEq, exists_eq_left', enter_component_eq_ok_iff hway.component hway.notUp,
    and_iff_right hway.folder]

theorem slash_not_mem : (∀ piece ∈ front, '/' ∉ piece.toList) ∧ '/' ∉ name.toList := by
  have hall : ∀ piece ∈ front ++ [name], '/' ∉ piece.toList :=
    fun piece hmem => Path.slash_not_mem_of_mem_pieces (hway.pieces ▸ hmem)
  rwa [List.forall_mem_append, List.forall_mem_singleton] at hall

theorem nul_not_mem : '\x00' ∉ ("/".intercalate (front ++ [""])).toList ∧ '\x00' ∉ name.toList := by
  have hpath := (refusal?_eq_none_iff.1 hway.refusal).1
  rwa [Path.eq_append_of_pieces hway.pieces, String.toList_append, List.mem_append, not_or] at hpath

theorem above_eq {other file : String} {beside : Place} (hother : tree.Way other front beside file) : beside = above := by
  have hfollow := hother.follow
  rw [start, hother.isAbsolute, ← hway.isAbsolute, ← start, hway.follow] at hfollow
  exact (Except.ok.inj hfollow).symm

/-! ### Files beside others -/

/-- A path with a file of the same folder in the place of its last name. -/
theorem canWrite_sibling_iff {file : String} (hfile : file ≠ "") (hslash : '/' ∉ file.toList)
    (hnul : '\x00' ∉ file.toList) : tree.CanWrite ("/".intercalate (front ++ [file])) ↔
      ("/".intercalate (front ++ [file])).utf8ByteSize ≤ longestPath ∧
        ∃ place, tree.enter above file = .ok place ∧ tree.node? place ≠ some .folder := by
  have hpieces : Path.pieces ("/".intercalate (front ++ [file])) = front ++ [file] := by
    refine Path.pieces_intercalate (by simp) ?_
    rw [List.forall_mem_append, List.forall_mem_singleton]
    exact ⟨hway.slash_not_mem.1, hslash⟩
  have hstart : tree.start ("/".intercalate (front ++ [file])) = tree.start path := by
    rw [start, start, Path.eq_append_of_pieces hway.pieces, Path.intercalate_concat, Path.isAbsolute_append _ hslash,
      Path.isAbsolute_append _ hway.slash_not_mem.2]
  have hnewNul : '\x00' ∉ ("/".intercalate (front ++ [file])).toList := by
    rw [Path.intercalate_concat, String.toList_append, List.mem_append, not_or]
    exact ⟨hway.nul_not_mem.1, hnul⟩
  simp only [CanWrite, locate_eq_ok_iff_of_pieces hpieces hfile, refusal?_eq_none_iff, hstart, hway.follow,
    Except.ok.injEq, exists_eq_left', and_iff_right hnewNul]
  constructor
  · rintro ⟨place, ⟨hfits, henter⟩, hnode⟩
    exact ⟨hfits, place, henter, hnode⟩
  · rintro ⟨hfits, place, henter, hnode⟩
    exact ⟨place, ⟨hfits, henter⟩, hnode⟩

/-- A stem that is a point leaves the way up, which leads to a folder because the tree is closed. -/
theorem not_canWrite_withExtension (hclosed : tree.Closed) (hstem : (cutName name).1 = ".") (extension : String) :
    ¬ tree.CanWrite (withExtension path extension) := by
  rw [hway.withExtension hway.notUp, if_pos ⟨hstem, rfl⟩,
    hway.canWrite_sibling_iff (by decide) (by decide) (by decide)]
  rintro ⟨-, place, henter, hnode⟩
  rw [(enter_eq_ok_iff.1 henter).2] at hnode
  exact hnode (hclosed above hway.folder)

theorem canWrite_withExtension_iff (hextension : extension ≠ "") (hslash : '/' ∉ extension.toList)
    (hnul : '\x00' ∉ extension.toList) (hstem : (cutName name).1 ≠ ".") :
    tree.CanWrite (withExtension path extension) ↔ tree.RoomBeside path above name extension := by
  have hwith := hway.withExtension hway.notUp extension
  rw [if_neg fun hpoint => hstem hpoint.1] at hwith
  have hne : ∀ {other : String}, other.length ≤ 2 → (cutName name).1 ++ "." ++ extension ≠ other := by
    rintro other hshort rfl
    exact absurd (Path.two_lt_length_newName hway.name_ne_empty hextension) (Nat.not_lt.2 hshort)
  have hcomponent : isComponent ((cutName name).1 ++ "." ++ extension) = true :=
    Path.isComponent_iff.2 ⟨hne (by decide), hne (by decide)⟩
  have hnewSlash := Path.not_mem_newName (by decide) hway.slash_not_mem.2 hslash
  have hnewNul := Path.not_mem_newName (by decide) hway.nul_not_mem.2 hnul
  have hwrite := hway.canWrite_sibling_iff (hne (by decide)) hnewSlash hnewNul
  simp only [enter_component_eq_ok_iff hcomponent (hne (by decide)), and_iff_right hway.folder, ← hwith] at hwrite
  rw [hwrite]
  constructor
  · rintro ⟨hpathFits, place, ⟨hnameFits, rfl⟩, hfree⟩
    exact ⟨hstem, hnameFits, hpathFits, hfree⟩
  · exact fun hroom => ⟨hroom.pathFits, _, ⟨hroom.nameFits, rfl⟩, hroom.free⟩

end Way

/-- Under another extension a file can be written into the folder exactly if there is room for it. -/
theorem canWrite_withExtension_iff (hclosed : tree.Closed) (hname : Path.fileName? path = some name)
    (hlocate : tree.locate path = .ok (above ++ [name])) (hnode : tree.node? (above ++ [name]) ≠ some .folder)
    (hextension : extension ≠ "") (hslash : '/' ∉ extension.toList) (hnul : '\x00' ∉ extension.toList) :
    tree.CanWrite (withExtension path extension) ↔ tree.RoomBeside path above name extension := by
  obtain ⟨front, own, heq, hway⟩ := exists_way hname hlocate hnode
  obtain rfl : above = own := List.append_inj_left' heq rfl
  by_cases hstem : (cutName name).1 = "."
  · have hnot := hway.not_canWrite_withExtension hclosed hstem extension
    exact ⟨fun hwrite => absurd hwrite hnot, fun hroom => absurd hstem hroom.stem⟩
  · exact hway.canWrite_withExtension_iff hextension hslash hnul hstem

/-! ### The folder of a file -/

theorem folder_of_follow {pieces : List String} (hfollow : tree.follow start pieces = .ok place)
    (hfolder : tree.node? place = some .folder) : tree.node? start = some .folder := by
  cases pieces with
  | nil => exact Except.ok.inj hfollow ▸ hfolder
  | cons piece rest =>
      obtain ⟨next, henter, -⟩ := Except.bind_eq_ok_iff.1 hfollow
      exact (enter_eq_ok_iff.1 henter).1

theorem makeFolders_of_follow {pieces : List String} (hfollow : tree.follow start pieces = .ok place)
    (hfolder : tree.node? place = some .folder) : tree.makeFolders start pieces = (tree, .ok ()) := by
  induction pieces generalizing start with
  | nil => rfl
  | cons piece rest ih =>
      obtain ⟨next, henter, hrest⟩ := Except.bind_eq_ok_iff.1 hfollow
      rw [makeFolders, henter]
      dsimp only
      rw [folder_of_follow hrest hfolder]
      exact ih hrest

theorem Way.createFolders_parent (hway : tree.Way path front above name) :
    tree.createFolders (Path.parent path) = (tree, .ok ()) := by
  rw [hway.parent]
  by_cases hempty : "/".intercalate front = ""
  · rw [hempty]
    rfl
  · have hfront : front ≠ [] := by
      rintro rfl
      exact hempty rfl
    have hpath : path = "/".intercalate front ++ ("/" ++ name) := by
      rw [← Path.intercalate_pieces path, hway.pieces, String.intercalate_append_of_ne_nil hfront (by simp),
        String.intercalate_singleton, String.append_assoc]
    have hstart : tree.start ("/".intercalate front) = tree.start path := by
      obtain ⟨c, cs, hcs⟩ := List.exists_cons_of_ne_nil (mt String.toList_eq_nil_iff.1 hempty)
      rw [start, start, Path.isAbsolute, Path.isAbsolute, hpath, String.toList_append, hcs]
      rfl
    have hparent : refusal? ("/".intercalate front) = none := by
      obtain ⟨hnul, hfits⟩ := refusal?_eq_none_iff.1 hway.refusal
      rw [hpath, String.toList_append, List.mem_append, not_or] at hnul
      rw [hpath, String.utf8ByteSize_append] at hfits
      exact refusal?_eq_none_iff.2 ⟨hnul.1, Nat.le_trans (Nat.le_add_right _ _) hfits⟩
    rw [createFolders, hparent, if_neg hempty, Path.pieces_intercalate hfront hway.slash_not_mem.1, hstart]
    exact makeFolders_of_follow hway.follow hway.folder

end AddressBook.FileTree
