import AddressBook.Proofs.Files.Beside
/-!
# Folders that paths lead to

Where a path leads does not depend on the tree as long as there are folders on its way: every piece leads down, up or
nowhere. So following a path and making its folders look at the places on the way only, and all that is made is a folder at
one of them where nothing stood. Once a path leads to a folder, a bare name below it leads to the place of that very name in
the folder, unless the name or the whole path is too long. What is read in a folder does not depend on the other files of
the folder.
-/

namespace AddressBook

namespace Path

variable {folder name : String}

theorem isAbsolute_join (folder : String) (hname : '/' ∉ name.toList) : isAbsolute (join folder name) = isAbsolute folder := by
  rw [join, isAbsolute_eq_false hname, if_neg Bool.false_ne_true]
  split
  · exact isAbsolute_append folder hname
  · rename_i hfolder
    rw [Bool.or_eq_true, not_or, decide_eq_true_iff] at hfolder
    obtain ⟨c, rest, hchars⟩ := List.exists_cons_of_ne_nil (mt String.toList_eq_nil_iff.1 hfolder.1)
    rw [isAbsolute, isAbsolute, String.toList_append, String.toList_append, hchars]
    rfl

theorem exists_join_eq (folder : String) (hname : '/' ∉ name.toList) :
    ∃ separator, '\x00' ∉ separator.toList ∧ join folder name = folder ++ separator ++ name := by
  rw [join, isAbsolute_eq_false hname, if_neg Bool.false_ne_true]
  split
  · exact ⟨"", by decide, by rw [String.append_empty]⟩
  · exact ⟨"/", by decide, rfl⟩

end Path

namespace FileTree

open AddressBook.Path (isComponent pieces)

variable {tree other : FileTree} {place above next : Place} {path name piece : String} {front : List String}

theorem ne_folder_of_eq_none (hnone : tree.node? place = none) : tree.node? place ≠ some .folder := by
  rw [hnone]
  exact nofun

theorem ne_nil_of_eq_none (hnone : tree.node? place = none) : place ≠ [] := ne_nil_of_node? (ne_folder_of_eq_none hnone)

/-! ### The way of a path -/

/-- The place that a piece of a path leads to from a folder. -/
def below (place : Place) (piece : String) : Place :=
  if isComponent piece then if piece = ".." then place.dropLast else place ++ [piece] else place

/-- The places that pieces of a path pass through, if they are folders. -/
def way (place : Place) : List String → List Place
  | [] => [place]
  | piece :: rest => place :: way (below place piece) rest

/-- The place that a path leads to, if there are folders on the way. -/
def target (tree : FileTree) (path : String) : Place := (pieces path).foldl below (tree.start path)

theorem mem_way_self (place : Place) (names : List String) : place ∈ way place names := by
  cases names <;> exact List.mem_cons_self

theorem foldl_below_mem_way (place : Place) (names : List String) : names.foldl below place ∈ way place names := by
  induction names generalizing place with
  | nil => exact List.mem_cons_self
  | cons piece rest ih => exact List.mem_cons_of_mem _ (ih _)

theorem mem_way_append_iff {start : Place} {names rest : List String} :
    place ∈ way start (names ++ rest) ↔ place ∈ way start names ∨ place ∈ way (names.foldl below start) rest := by
  induction names generalizing start with
  | nil =>
      rw [List.nil_append, List.foldl_nil, way, List.mem_singleton]
      refine (or_iff_right_of_imp ?_).symm
      rintro rfl
      exact mem_way_self _ _
  | cons piece names ih => rw [List.cons_append, way, way, List.mem_cons, List.mem_cons, ih, or_assoc, List.foldl_cons]

theorem eq_of_mem_way {start : Place} {names : List String} (hpassed : ∀ piece ∈ names, isComponent piece = false)
    (hmem : place ∈ way start names) : place = start := by
  induction names with
  | nil => exact List.mem_singleton.1 hmem
  | cons piece rest ih =>
      obtain ⟨hpiece, hrest⟩ := List.forall_mem_cons.1 hpassed
      rcases List.mem_cons.1 hmem with rfl | hmem
      · rfl
      · rw [below, hpiece, if_neg Bool.false_ne_true] at hmem
        exact ih hrest hmem

theorem mem_passed_iff : place ∈ tree.passed path ↔ place ∈ way (tree.start path) (pieces path) := by
  rw [passed, List.mem_reverse, Path.components]
  -- the places so far, the last one first
  suffices hfold : ∀ (names : List String) (last : Place) (earlier : List Place),
      place ∈ (names.filter isComponent).foldl (fun places component =>
        (if component = ".." then (places.head?.getD []).dropLast else places.head?.getD [] ++ [component]) :: places)
        (last :: earlier) ↔ place ∈ way last names ∨ place ∈ earlier by
    exact (hfold _ _ _).trans (or_iff_left List.not_mem_nil)
  intro names last earlier
  induction names generalizing last earlier with
  | nil => rw [List.filter_nil, List.foldl_nil, way, List.mem_cons, List.mem_singleton]
  | cons piece rest ih =>
      rw [way, below, List.mem_cons]
      cases hpiece : isComponent piece with
      | true =>
          rw [List.filter_cons_of_pos hpiece, List.foldl_cons, ih, List.mem_cons, if_pos rfl]
          dsimp only [List.head?_cons, Option.getD_some]
          exact or_left_comm.trans or_assoc.symm
      | false =>
          rw [List.filter_cons_of_neg (by rw [hpiece]; decide), ih, if_neg Bool.false_ne_true]
          refine or_congr_left (Iff.symm (or_iff_right_of_imp ?_))
          rintro rfl
          exact mem_way_self _ _

theorem passed_eq (hhome : other.home = tree.home) (path : String) : other.passed path = tree.passed path := by
  rw [passed, passed, start_eq hhome]

theorem enter_eq_ok_iff_below : tree.enter place piece = .ok next ↔
    tree.node? place = some .folder ∧ (isComponent piece = true → piece ≠ ".." → piece.utf8ByteSize ≤ longestName) ∧
      next = below place piece := by
  rw [enter_eq_ok_iff, below]
  cases isComponent piece with
  | false => simp
  | true => by_cases hup : piece = ".." <;> simp [hup]

theorem enter_congr (hnode : other.node? place = tree.node? place) (piece : String) :
    other.enter place piece = tree.enter place piece := by
  rw [enter, enter, hnode]

theorem follow_congr {names : List String} (hnode : ∀ passed ∈ way place names, other.node? passed = tree.node? passed) :
    other.follow place names = tree.follow place names := by
  induction names generalizing place with
  | nil => rfl
  | cons piece rest ih =>
      obtain ⟨hplace, hrest⟩ := List.forall_mem_cons.1 hnode
      rw [follow, follow, enter_congr hplace]
      cases henter : tree.enter place piece with
      | error fault => rfl
      | ok next =>
          obtain ⟨-, -, rfl⟩ := enter_eq_ok_iff_below.1 henter
          exact ih hrest

theorem eq_of_follow {names : List String} (hfollow : tree.follow place names = .ok next) :
    next = names.foldl below place := by
  induction names generalizing place with
  | nil => exact (Except.ok.inj hfollow).symm
  | cons piece rest ih =>
      obtain ⟨entered, henter, hrest⟩ := Except.bind_eq_ok_iff.1 hfollow
      obtain ⟨-, -, rfl⟩ := enter_eq_ok_iff_below.1 henter
      exact ih hrest

theorem folder_of_mem_way {start : Place} {names : List String} (hfollow : tree.follow start names = .ok next)
    (hnext : tree.node? next = some .folder) (hmem : place ∈ way start names) : tree.node? place = some .folder := by
  induction names generalizing start with
  | nil =>
      rw [List.mem_singleton.1 hmem, Except.ok.inj hfollow]
      exact hnext
  | cons piece rest ih =>
      obtain ⟨entered, henter, hrest⟩ := Except.bind_eq_ok_iff.1 hfollow
      obtain ⟨hstart, -, rfl⟩ := enter_eq_ok_iff_below.1 henter
      rcases List.mem_cons.1 hmem with rfl | hmem
      · exact hstart
      · exact ih hrest hmem

theorem follow_concat (start : Place) (front : List String) (name : String) :
    tree.follow start (front ++ [name]) = tree.follow start front >>= fun above => tree.enter above name := by
  induction front generalizing start with
  | nil => exact bind_pure (tree.enter start name)
  | cons piece rest ih =>
      rw [List.cons_append, follow, follow, bind_assoc]
      exact bind_congr ih

/-- An empty piece leads nowhere, but only from a folder. -/
theorem enter_empty (above : Place) (name : String) :
    (tree.enter above "" >>= fun next => tree.enter next name) = tree.enter above name := by
  cases hnode : tree.node? above with
  | none => rw [enter, enter, hnode]; rfl
  | some node =>
      cases node with
      | file content => rw [enter, enter, hnode]; rfl
      | folder =>
          have hstay : tree.enter above "" = .ok above := enter_eq_ok_iff_below.2 ⟨hnode, (fun hempty => nomatch hempty), rfl⟩
          rw [hstay]
          rfl

/-! ### Making folders -/

/-- A tree differs from another one by folders only, at some of these places, where nothing stood. -/
structure AddsFolders (places : List Place) (tree made : FileTree) : Prop where
  home : made.home = tree.home
  node : ∀ place, made.node? place = tree.node? place ∨
    place ∈ places ∧ tree.node? place = none ∧ made.node? place = some .folder

theorem AddsFolders.refl (places : List Place) (tree : FileTree) : AddsFolders places tree tree := ⟨rfl, fun _ => .inl rfl⟩

theorem AddsFolders.trans {places : List Place} {made last : FileTree} (hfirst : AddsFolders places tree made)
    (hsecond : AddsFolders places made last) : AddsFolders places tree last where
  home := hsecond.home.trans hfirst.home
  node place := by
    rcases hfirst.node place with hkept | ⟨hmem, hnone, hfolder⟩
    · rw [← hkept]
      exact hsecond.node place
    · rcases hsecond.node place with hkept | ⟨-, hmissing, -⟩
      · exact .inr ⟨hmem, hnone, hkept.trans hfolder⟩
      · rw [hfolder] at hmissing
        nomatch hmissing

theorem AddsFolders.mono {places more : List Place} {made : FileTree} (hadds : AddsFolders places tree made)
    (hmem : ∀ place ∈ places, place ∈ more) : AddsFolders more tree made where
  home := hadds.home
  node place := (hadds.node place).imp_right fun ⟨hplace, hnone, hfolder⟩ => ⟨hmem place hplace, hnone, hfolder⟩

theorem AddsFolders.hasFolders {places : List Place} {made : FileTree} (hadds : AddsFolders places tree made) :
    HasFolders made tree where
  home := hadds.home
  folder place hfolder := by
    rcases hadds.node place with hkept | ⟨-, hnone, -⟩
    · rw [hkept, hfolder]
    · rw [hfolder] at hnone
      nomatch hnone

theorem addsFolders_put (hnone : tree.node? place = none) : AddsFolders [place] tree (tree.put place .folder) where
  home := rfl
  node away := by
    by_cases heq : away = place
    · subst heq
      exact .inr ⟨List.mem_singleton_self _, hnone, node?_put_self (ne_nil_of_eq_none hnone) _⟩
    · exact .inl (node?_put_of_ne heq _)

theorem addsFolders_makeFolders (tree : FileTree) (place : Place) (names : List String) :
    AddsFolders (way place names) tree (tree.makeFolders place names).1 := by
  induction names generalizing tree place with
  | nil => exact .refl _ tree
  | cons piece rest ih =>
      rw [makeFolders]
      cases henter : tree.enter place piece with
      | error fault => exact .refl _ tree
      | ok next =>
          obtain ⟨-, -, rfl⟩ := enter_eq_ok_iff_below.1 henter
          have hrest := fun start : FileTree => (ih start (below place piece)).mono fun _ => List.mem_cons_of_mem place
          dsimp only
          split
          · exact hrest tree
          · exact .refl _ tree
          · rename_i hnone
            refine AddsFolders.trans ((addsFolders_put hnone).mono fun place hmem => ?_) (hrest _)
            rw [List.mem_singleton.1 hmem]
            exact List.mem_cons_of_mem _ (mem_way_self _ rest)

theorem addsFolders_createFolders (tree : FileTree) (path : String) :
    AddsFolders (tree.passed path) tree (tree.createFolders path).1 := by
  unfold createFolders
  split
  · exact .refl _ tree
  · split
    · exact .refl _ tree
    · exact (addsFolders_makeFolders tree _ _).mono fun place => mem_passed_iff.2

theorem node?_put_congr (place : Place) (node : FileNode) {away : Place} (hsame : other.node? away = tree.node? away) :
    (other.put place node).node? away = (tree.put place node).node? away := by
  by_cases heq : away = place
  · subst heq
    by_cases hroot : away = []
    · rw [hroot, node?_nil, node?_nil]
    · rw [node?_put_self hroot, node?_put_self hroot]
  · rw [node?_put_of_ne heq, node?_put_of_ne heq, hsame]

theorem node?_drop_congr (place : Place) {away : Place} (hsame : other.node? away = tree.node? away) :
    (other.drop place).node? away = (tree.drop place).node? away := by
  by_cases heq : away = place
  · subst heq
    by_cases hroot : away = []
    · rw [hroot, node?_nil, node?_nil]
    · rw [node?_drop_self hroot, node?_drop_self hroot]
  · rw [node?_drop_of_ne heq, node?_drop_of_ne heq, hsame]

/-- Folders are made in the same way in trees that do not differ on the way, and what does not differ elsewhere still does not. -/
theorem makeFolders_congr {names : List String} (hnode : ∀ passed ∈ way place names, other.node? passed = tree.node? passed) :
    (other.makeFolders place names).2 = (tree.makeFolders place names).2 ∧
      ∀ away, other.node? away = tree.node? away →
        (other.makeFolders place names).1.node? away = (tree.makeFolders place names).1.node? away := by
  induction names generalizing tree other place with
  | nil => exact ⟨rfl, fun _ => id⟩
  | cons piece rest ih =>
      obtain ⟨hplace, hrest⟩ := List.forall_mem_cons.1 hnode
      rw [makeFolders, makeFolders, enter_congr hplace]
      cases henter : tree.enter place piece with
      | error fault => exact ⟨rfl, fun _ => id⟩
      | ok next =>
          obtain ⟨-, -, rfl⟩ := enter_eq_ok_iff_below.1 henter
          dsimp only
          rw [hrest _ (mem_way_self _ rest)]
          split
          · exact ih hrest
          · exact ⟨rfl, fun _ => id⟩
          · obtain ⟨hanswer, hsame⟩ := ih fun passed hmem => node?_put_congr _ .folder (hrest passed hmem)
            exact ⟨hanswer, fun away haway => hsame away (node?_put_congr _ .folder haway)⟩

theorem createFolders_congr (hhome : other.home = tree.home)
    (hnode : ∀ passed ∈ tree.passed path, other.node? passed = tree.node? passed) :
    (other.createFolders path).2 = (tree.createFolders path).2 ∧
      ∀ away, other.node? away = tree.node? away →
        (other.createFolders path).1.node? away = (tree.createFolders path).1.node? away := by
  unfold createFolders
  split
  · exact ⟨rfl, fun _ => id⟩
  · split
    · exact ⟨rfl, fun _ => id⟩
    · rw [start_eq hhome]
      exact makeFolders_congr fun passed hmem => hnode passed (mem_passed_iff.2 hmem)

/-! ### Folders that are there -/

/-- A path leads to a folder. -/
structure LeadsToFolder (tree : FileTree) (path : String) : Prop where
  refusal : refusal? path = none
  follow : tree.follow (tree.start path) (pieces path) = .ok (tree.target path)
  folder : tree.node? (tree.target path) = some .folder

theorem target_eq (hhome : other.home = tree.home) (path : String) : other.target path = tree.target path := by
  rw [target, target, start_eq hhome]

theorem LeadsToFolder.mono (hfolders : HasFolders other tree) (hleads : tree.LeadsToFolder path) :
    other.LeadsToFolder path where
  refusal := hleads.refusal
  follow := by
    rw [start_eq hfolders.home, target_eq hfolders.home]
    exact follow_eq_ok hfolders hleads.follow
  folder := by
    rw [target_eq hfolders.home]
    exact hfolders.folder _ hleads.folder

theorem leadsToFolder_iff : tree.LeadsToFolder path ↔
    refusal? path = none ∧
      ∃ above, tree.follow (tree.start path) (pieces path) = .ok above ∧ tree.node? above = some .folder := by
  constructor
  · exact fun hleads => ⟨hleads.refusal, _, hleads.follow, hleads.folder⟩
  · rintro ⟨hrefusal, above, hfollow, hfolder⟩
    obtain rfl : above = tree.target path := eq_of_follow hfollow
    exact ⟨hrefusal, hfollow, hfolder⟩

theorem LeadsToFolder.node?_passed (hleads : tree.LeadsToFolder path) (hpassed : place ∈ tree.passed path) :
    tree.node? place = some .folder :=
  folder_of_mem_way hleads.follow hleads.folder (mem_passed_iff.1 hpassed)

theorem LeadsToFolder.createFolders_eq (hleads : tree.LeadsToFolder path) : tree.createFolders path = (tree, .ok ()) := by
  rw [createFolders, hleads.refusal]
  dsimp only
  rw [makeFolders_of_follow hleads.follow hleads.folder, ite_self]

theorem createFolders_of_ne_empty {made : FileTree} (hpath : path ≠ "") (hmade : tree.createFolders path = (made, .ok ())) :
    refusal? path = none ∧ tree.makeFolders (tree.start path) (pieces path) = (made, .ok ()) ∧
      tree.node? (tree.start path) = some .folder := by
  unfold createFolders at hmade
  split at hmade
  · nomatch (Prod.mk.inj hmade).2
  · rename_i hrefusal
    rw [if_neg hpath] at hmade
    refine ⟨hrefusal, hmade, ?_⟩
    obtain ⟨piece, rest, hpieces⟩ := List.exists_cons_of_ne_nil (mt List.map_eq_nil_iff.1 (Text.split_ne_nil '/' path.toList))
    rw [pieces, hpieces, makeFolders] at hmade
    split at hmade
    · nomatch (Prod.mk.inj hmade).2
    · rename_i next henter
      exact (enter_eq_ok_iff.1 henter).1

theorem node?_of_makeFolders {made : FileTree} {names : List String} (hplace : tree.node? place = some .folder)
    (hmade : tree.makeFolders place names = (made, .ok ())) : made.node? (names.foldl below place) = some .folder := by
  induction names generalizing tree place with
  | nil => exact (Prod.mk.inj hmade).1 ▸ hplace
  | cons piece rest ih =>
      rw [makeFolders] at hmade
      cases henter : tree.enter place piece with
      | error fault => simp [henter] at hmade
      | ok next =>
          obtain ⟨-, -, rfl⟩ := enter_eq_ok_iff_below.1 henter
          simp only [henter] at hmade
          split at hmade
          · rename_i hnode
            exact ih hnode hmade
          · cases (Prod.mk.inj hmade).2
          · rename_i hnone
            exact ih (node?_put_self (ne_nil_of_eq_none hnone) _) hmade

theorem leadsToFolder_of_createFolders {made : FileTree} (hpath : path ≠ "")
    (hmade : tree.createFolders path = (made, .ok ())) : made.LeadsToFolder path := by
  obtain ⟨hrefusal, hfolders, hstart⟩ := createFolders_of_ne_empty hpath hmade
  obtain ⟨reached, hreached⟩ := exists_follow_of_makeFolders hfolders
  have hadds := addsFolders_createFolders tree path
  rw [hmade] at hadds
  rw [← start_eq hadds.home] at hfolders hreached hstart
  refine leadsToFolder_iff.2 ⟨hrefusal, reached, hreached, ?_⟩
  rw [eq_of_follow hreached]
  exact node?_of_makeFolders hstart hfolders

/-- The path leads to a folder, or a place on its way is free and nothing can be found below it. -/
theorem follow_of_makeFolders {made : FileTree} {names : List String} (hplace : tree.node? place = some .folder)
    (hmade : tree.makeFolders place names = (made, .ok ())) :
    (∃ above, tree.follow place names = .ok above ∧ tree.node? above = some .folder) ∨
      ∀ last, tree.follow place (names ++ [last]) = .error .notFound := by
  induction names generalizing tree place with
  | nil => exact .inl ⟨place, rfl, hplace⟩
  | cons piece rest ih =>
      rw [makeFolders] at hmade
      cases henter : tree.enter place piece with
      | error fault => simp [henter] at hmade
      | ok next =>
          have hfollow : ∀ names, tree.follow place (piece :: names) = tree.follow next names := by
            intro names
            rw [follow, henter]
            rfl
          simp only [List.cons_append, hfollow]
          simp only [henter] at hmade
          split at hmade
          · rename_i hnode
            exact ih hnode hmade
          · cases (Prod.mk.inj hmade).2
          · rename_i hnone
            refine .inr fun last => ?_
            obtain ⟨first, others, hnames⟩ : ∃ first others, rest ++ [last] = first :: others :=
              List.exists_cons_of_ne_nil (by simp)
            rw [hnames, follow, enter, hnone]
            rfl

/-! ### Bare names in folders -/

/-- A name of a place in a folder, which no path can lead away from. -/
structure Bare (name : String) : Prop where
  slash : '/' ∉ name.toList
  nul : '\x00' ∉ name.toList
  component : isComponent name = true
  notUp : name ≠ ".."

/-- A name is not too long, and neither is its path below a folder. -/
structure FitsBelow (path name : String) : Prop where
  nameFits : name.utf8ByteSize ≤ longestName
  pathFits : (Path.join path name).utf8ByteSize ≤ longestPath

namespace Bare

variable (hbare : Bare name)

include hbare

theorem ne_empty : name ≠ "" := (Path.isComponent_iff.1 hbare.component).1

theorem start_join (tree : FileTree) (path : String) : tree.start (Path.join path name) = tree.start path := by
  rw [start, start, Path.isAbsolute_join path hbare.slash]

theorem nul_mem_join_iff : '\x00' ∈ (Path.join path name).toList ↔ '\x00' ∈ path.toList := by
  obtain ⟨separator, hseparator, hjoin⟩ := Path.exists_join_eq path hbare.slash
  rw [hjoin, String.toList_append, String.toList_append, List.mem_append, List.mem_append]
  simp only [hseparator, hbare.nul, or_false]

theorem refusal?_join_eq_none_iff : refusal? (Path.join path name) = none ↔
    refusal? path = none ∧ (Path.join path name).utf8ByteSize ≤ longestPath := by
  obtain ⟨separator, -, hjoin⟩ := Path.exists_join_eq path hbare.slash
  have hlonger : path.utf8ByteSize ≤ (Path.join path name).utf8ByteSize := by
    rw [hjoin, String.utf8ByteSize_append, String.utf8ByteSize_append, Nat.add_assoc]
    exact Nat.le_add_right _ _
  rw [refusal?_eq_none_iff, refusal?_eq_none_iff, hbare.nul_mem_join_iff, and_assoc, and_congr_right_iff]
  exact fun _ => ⟨fun hfits => ⟨Nat.le_trans hlonger hfits, hfits⟩, And.right⟩

/-- A bare name is entered last: a slash before it changes nothing. -/
theorem locate_join (hrefusal : refusal? (Path.join path name) = none) :
    tree.locate (Path.join path name) = tree.follow (tree.start path) (pieces path ++ [name]) := by
  obtain ⟨front, hjoin, hpath⟩ := Path.exists_pieces_join path hbare.slash
  have hne : Path.join path name ≠ "" := by
    obtain ⟨separator, -, heq⟩ := Path.exists_join_eq path hbare.slash
    rw [heq]
    exact fun hempty => hbare.ne_empty (String.append_eq_empty_iff.1 hempty).2
  rw [locate, hrefusal]
  dsimp only
  rw [if_neg hne, hbare.start_join, hjoin]
  rcases hpath with hpath | hpath
  · rw [hpath]
  · rw [hpath, follow_concat, follow_concat, follow_concat, bind_assoc]
    refine bind_congr fun above => ?_
    exact (enter_empty above name).symm

theorem locate_join_eq_ok_iff : tree.locate (Path.join path name) = .ok place ↔
    tree.LeadsToFolder path ∧ FitsBelow path name ∧ place = tree.target path ++ [name] := by
  constructor
  · intro hlocate
    have hrefusal := (locate_eq_ok_iff.1 hlocate).1
    rw [hbare.locate_join hrefusal, follow_concat_eq_ok_iff] at hlocate
    obtain ⟨above, hfollow, henter⟩ := hlocate
    obtain ⟨hfolder, hname, rfl⟩ := (enter_component_eq_ok_iff hbare.component hbare.notUp).1 henter
    obtain ⟨hpath, hfits⟩ := hbare.refusal?_join_eq_none_iff.1 hrefusal
    rw [eq_of_follow hfollow]
    exact ⟨leadsToFolder_iff.2 ⟨hpath, above, hfollow, hfolder⟩, ⟨hname, hfits⟩, rfl⟩
  · rintro ⟨hleads, hfits, rfl⟩
    rw [hbare.locate_join (hbare.refusal?_join_eq_none_iff.2 ⟨hleads.refusal, hfits.pathFits⟩), follow_concat_eq_ok_iff]
    exact ⟨_, hleads.follow, (enter_component_eq_ok_iff hbare.component hbare.notUp).2 ⟨hleads.folder, hfits.nameFits, rfl⟩⟩

/-- In a folder that is there, nothing but the length of a name or of its path is a fault. -/
theorem locate_join_of_not_fits (hleads : tree.LeadsToFolder path) (hlong : ¬ FitsBelow path name) :
    tree.locate (Path.join path name) = .error .nameTooLong := by
  cases hrefusal : refusal? (Path.join path name) with
  | none =>
      have hfits := (hbare.refusal?_join_eq_none_iff.1 hrefusal).2
      have hname : longestName < name.utf8ByteSize := Nat.not_le.1 fun hshort => hlong ⟨hshort, hfits⟩
      rw [hbare.locate_join hrefusal, follow_concat, hleads.follow]
      change tree.enter (tree.target path) name = _
      rw [enter, hleads.folder, hbare.component]
      dsimp only
      rw [Bool.not_true, if_neg Bool.false_ne_true, if_neg hbare.notUp, if_pos hname]
  | some fault =>
      rw [locate, hrefusal]
      dsimp only
      rw [refusal?, if_neg (mt hbare.nul_mem_join_iff.1 (refusal?_eq_none_iff.1 hleads.refusal).1)] at hrefusal
      split at hrefusal
      · rw [Option.some.inj hrefusal]
      · nomatch hrefusal

/-- Where folders could be made but have not been, a file is missing. -/
theorem locate_join_of_missing {made : FileTree} (hmade : tree.createFolders path = (made, .ok ()))
    (hmissing : ¬ tree.LeadsToFolder path) (hpath : path ≠ "") (hfits : (Path.join path name).utf8ByteSize ≤ longestPath) :
    tree.locate (Path.join path name) = .error .notFound := by
  obtain ⟨hrefusal, hfolders, hstart⟩ := createFolders_of_ne_empty hpath hmade
  rw [hbare.locate_join (hbare.refusal?_join_eq_none_iff.2 ⟨hrefusal, hfits⟩)]
  rcases follow_of_makeFolders hstart hfolders with hfound | hnothing
  · exact absurd (leadsToFolder_iff.2 ⟨hrefusal, hfound⟩) hmissing
  · exact hnothing name

theorem locate_join_congr (hhome : other.home = tree.home)
    (hnode : ∀ passed ∈ tree.passed path, other.node? passed = tree.node? passed) :
    other.locate (Path.join path name) = tree.locate (Path.join path name) := by
  cases hrefusal : refusal? (Path.join path name) with
  | some fault => rw [locate, locate, hrefusal]
  | none =>
      have hway : ∀ passed ∈ way (tree.start path) (pieces path), other.node? passed = tree.node? passed :=
        fun passed hmem => hnode passed (mem_passed_iff.2 hmem)
      rw [hbare.locate_join hrefusal, hbare.locate_join hrefusal, start_eq hhome, follow_concat, follow_concat, follow_congr hway]
      cases hfollow : tree.follow (tree.start path) (pieces path) with
      | error fault => rfl
      | ok above =>
          obtain rfl := eq_of_follow hfollow
          exact enter_congr (hway _ (foldl_below_mem_way _ _)) name

end Bare

/-! ### Files in folders -/

theorem remove_of_locate (hlocate : tree.locate path = .ok place) :
    tree.remove path =
      match tree.node? place with
      | none => .error .notFound
      | some .folder => .error .isFolder
      | some (.file _) => .ok (tree.drop place) := by
  rw [remove, hlocate]
  rfl

theorem remove_of_locate_eq_error {fault : IoFault} (hlocate : tree.locate path = .error fault) :
    tree.remove path = .error fault := by
  rw [remove, hlocate]
  rfl

theorem write_of_locate {content : Text.Bytes} (hlocate : tree.locate path = .ok place) :
    tree.write path content =
      match tree.node? place with
      | some .folder => .error .isFolder
      | _ => .ok (tree.put place (.file content)) := by
  rw [write, hlocate]
  rfl

theorem write_of_locate_eq_error {fault : IoFault} (hlocate : tree.locate path = .error fault) (content : Text.Bytes) :
    tree.write path content = .error fault := by
  rw [write, hlocate]
  rfl

section Congr

variable (hlocate : other.locate path = tree.locate path)
  (hnode : ∀ place, tree.locate path = .ok place → other.node? place = tree.node? place)

include hlocate hnode

theorem write_congr (content : Text.Bytes) :
    (∃ fault, other.write path content = .error fault ∧ tree.write path content = .error fault) ∨
      ∃ place, other.write path content = .ok (other.put place (.file content)) ∧
        tree.write path content = .ok (tree.put place (.file content)) := by
  cases hplace : tree.locate path with
  | error fault =>
      exact .inl ⟨fault, write_of_locate_eq_error (hlocate.trans hplace) content, write_of_locate_eq_error hplace content⟩
  | ok place =>
      rw [write_of_locate (hlocate.trans hplace), write_of_locate hplace, hnode place hplace]
      split
      · exact .inl ⟨_, rfl, rfl⟩
      · exact .inr ⟨place, rfl, rfl⟩

theorem remove_congr :
    (∃ fault, other.remove path = .error fault ∧ tree.remove path = .error fault) ∨
      ∃ place, other.remove path = .ok (other.drop place) ∧ tree.remove path = .ok (tree.drop place) := by
  cases hplace : tree.locate path with
  | error fault =>
      exact .inl ⟨fault, remove_of_locate_eq_error (hlocate.trans hplace), remove_of_locate_eq_error hplace⟩
  | ok place =>
      rw [remove_of_locate (hlocate.trans hplace), remove_of_locate hplace, hnode place hplace]
      split
      · exact .inl ⟨_, rfl, rfl⟩
      · exact .inl ⟨_, rfl, rfl⟩
      · exact .inr ⟨place, rfl, rfl⟩

theorem read_congr : other.read path = tree.read path := by
  cases hplace : tree.locate path with
  | error fault =>
      rw [read, read, hlocate, hplace]
      rfl
  | ok place => rw [read_of_locate (hlocate.trans hplace), read_of_locate hplace, hnode place hplace]

end Congr

theorem locate_congr (hhome : other.home = tree.home)
    (hnode : ∀ passed ∈ tree.passed path, other.node? passed = tree.node? passed) : other.locate path = tree.locate path := by
  rw [locate, locate, start_eq hhome, follow_congr fun passed hmem => hnode passed (mem_passed_iff.2 hmem)]

theorem locate_mem_passed (hlocate : tree.locate path = .ok place) : place ∈ tree.passed path := by
  obtain ⟨-, -, hfollow⟩ := locate_eq_ok_iff.1 hlocate
  rw [mem_passed_iff, eq_of_follow hfollow]
  exact foldl_below_mem_way _ _

/-! ### Files of one folder -/

theorem mem_passed_of_parts {rest : List String} (hparts : Path.Parts path front name rest) (hup : name ≠ "..")
    (hpassed : place ∈ tree.passed path) :
    place ∈ way (tree.start path) front ∨ place = front.foldl below (tree.start path) ++ [name] := by
  rw [mem_passed_iff, hparts.pieces, mem_way_append_iff, way, List.mem_cons, below, if_pos hparts.component, if_neg hup] at hpassed
  rcases hpassed with hfront | rfl | hrest
  · exact .inl hfront
  · exact .inl (foldl_below_mem_way _ front)
  · exact .inr (eq_of_mem_way hparts.passed hrest)

theorem read_of_write_sibling {sibling file : String} {rest : List String} {content : Text.Bytes} {written : FileTree}
    (hparts : Path.Parts path front name rest) (hup : name ≠ "..") (hway : tree.Way sibling front above file) (hne : file ≠ name)
    (hwrite : tree.write sibling content = .ok written) : written.read path = tree.read path := by
  obtain ⟨place, hlocate, hnode, rfl⟩ := write_eq_ok_iff.1 hwrite
  obtain rfl : place = above ++ [file] := (hway.locate_eq_ok_iff.1 hlocate).2
  have hstart : tree.start path = tree.start sibling := by
    rw [start, start, hparts.isAbsolute, hway.isAbsolute]
  have hpassed : ∀ passed ∈ tree.passed path, passed ≠ above ++ [file] := by
    rintro passed hmem rfl
    rcases mem_passed_of_parts hparts hup hmem with hfront | hname
    · rw [hstart] at hfront
      exact hnode (folder_of_mem_way hway.follow hway.folder hfront)
    · rw [hstart, ← eq_of_follow hway.follow] at hname
      exact hne (List.singleton_inj.1 (List.append_cancel_left hname))
  have hkept : ∀ passed ∈ tree.passed path, (tree.put (above ++ [file]) (.file content)).node? passed = tree.node? passed :=
    fun passed hmem => node?_put_of_ne (hpassed passed hmem) _
  exact read_congr (locate_congr rfl hkept) fun passed hplace => hkept passed (locate_mem_passed hplace)

end FileTree

end AddressBook
