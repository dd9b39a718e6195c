import AddressBook.Files.Tree
import AddressBook.Proofs.Assoc.Order
import AddressBook.Proofs.Outcome
/-!
# What file operations change

Writing, moving and removing files neither makes nor takes away a folder, so a path leads to the same place afterwards.
Making folders adds folders where nothing stood and changes nothing else; once all folders of a path are there, making
them again does nothing.
-/

namespace AddressBook.FileTree

open Text (Bytes)

variable {tree other : FileTree} {place : Place} {path : String}

/-! ### Places -/

@[simp] theorem node?_nil (tree : FileTree) : tree.node? [] = some .folder := if_pos rfl

theorem node?_put_self (hplace : place ≠ []) (node : FileNode) : (tree.put place node).node? place = some node := by
  rw [node?, if_neg hplace, put, Assoc.get?_insert_self]

theorem node?_put_of_ne {away : Place} (hne : away ≠ place) (node : FileNode) :
    (tree.put place node).node? away = tree.node? away := by
  rw [node?, node?, put, Assoc.get?_insert_of_ne _ _ fun heq => hne (key_inj.1 heq)]

theorem put_put (tree : FileTree) (place : Place) (first second : FileNode) :
    (tree.put place first).put place second = tree.put place second :=
  congrArg (FileTree.mk tree.home) (Assoc.insert_insert_self tree.nodes (key place) first second)

theorem node?_drop_self (hplace : place ≠ []) : (tree.drop place).node? place = none := by
  rw [node?, if_neg hplace, drop, Assoc.get?_erase_self]

theorem node?_drop_of_ne {away : Place} (hne : away ≠ place) : (tree.drop place).node? away = tree.node? away := by
  rw [node?, node?, drop, Assoc.get?_erase_of_ne _ fun heq => hne (key_inj.1 heq)]

theorem ne_nil_of_node? (hnode : tree.node? place ≠ some .folder) : place ≠ [] := by
  rintro rfl
  exact hnode (node?_nil tree)

theorem node?_drop_file {content : Bytes} (hfile : tree.node? place = some (.file content)) :
    (tree.drop place).node? place = none := by
  have hnode : tree.node? place ≠ some .folder := by simp [hfile]
  exact node?_drop_self (ne_nil_of_node? hnode)

/-! ### Following paths -/

theorem enter_eq_ok_iff {above : Place} {piece : String} : tree.enter above piece = .ok place ↔
    tree.node? above = some .folder ∧
      if Path.isComponent piece then
        if piece = ".." then place = above.dropLast
        else piece.utf8ByteSize ≤ longestName ∧ place = above ++ [piece]
      else place = above := by
  unfold enter
  cases tree.node? above with
  | none => simp
  | some node =>
      cases node with
      | file content => simp
      | folder =>
          cases Path.isComponent piece with
          | false => simp [eq_comm]
          | true =>
              by_cases hup : piece = ".."
              · simp [hup, eq_comm]
              · by_cases hlong : longestName < piece.utf8ByteSize
                · simp [hup, hlong, Nat.not_le.2 hlong]
                · simp [hup, hlong, Nat.not_lt.1 hlong, eq_comm]

theorem enter_component_eq_ok_iff {above : Place} {name : String} (hcomponent : Path.isComponent name = true)
    (hup : name ≠ "..") : tree.enter above name = .ok place ↔
      tree.node? above = some .folder ∧ name.utf8ByteSize ≤ longestName ∧ place = above ++ [name] := by
  rw [enter_eq_ok_iff, if_pos hcomponent, if_neg hup]

theorem follow_concat_eq_ok_iff {start : Place} {front : List String} {name : String} :
    tree.follow start (front ++ [name]) = .ok place ↔
    ∃ above, tree.follow start front = .ok above ∧ tree.enter above name = .ok place := by
  induction front generalizing start with
  | nil =>
      simp only [List.nil_append, follow, Except.bind_eq_ok_iff, Except.ok.injEq, exists_eq_left', exists_eq_right]
  | cons piece rest ih =>
      simp only [List.cons_append, follow, Except.bind_eq_ok_iff, ih]
      constructor
      · rintro ⟨next, hnext, above, hrest, hlast⟩
        exact ⟨above, ⟨next, hnext, hrest⟩, hlast⟩
      · rintro ⟨above, ⟨next, hnext, hrest⟩, hlast⟩
        exact ⟨next, hnext, above, hrest, hlast⟩

theorem locate_eq_ok_iff : tree.locate path = .ok place ↔
    refusal? path = none ∧ path ≠ "" ∧ tree.follow (tree.start path) (Path.pieces path) = .ok place := by
  unfold locate
  cases refusal? path with
  | some fault => simp
  | none =>
      by_cases hpath : path = ""
      · simp [hpath]
      · simp [hpath]

/-! ### Trees with the same folders -/

/-- Every folder of a tree is one of another tree, which has the same working folder. -/
structure HasFolders (other tree : FileTree) : Prop where
  home : other.home = tree.home
  folder : ∀ place, tree.node? place = some .folder → other.node? place = some .folder

theorem HasFolders.trans {last : FileTree} (hsecond : HasFolders last other) (hfirst : HasFolders other tree) :
    HasFolders last tree where
  home := hsecond.home.trans hfirst.home
  folder place hnode := hsecond.folder place (hfirst.folder place hnode)

theorem enter_eq_ok (hfolders : HasFolders other tree) {piece : String} {next : Place}
    (henter : tree.enter place piece = .ok next) : other.enter place piece = .ok next := by
  rw [enter_eq_ok_iff] at henter ⊢
  exact ⟨hfolders.folder place henter.1, henter.2⟩

theorem follow_eq_ok (hfolders : HasFolders other tree) {pieces : List String} {reached : Place}
    (hfollow : tree.follow place pieces = .ok reached) : other.follow place pieces = .ok reached := by
  induction pieces generalizing place with
  | nil => exact hfollow
  | cons piece rest ih =>
      obtain ⟨next, henter, hrest⟩ := Except.bind_eq_ok_iff.1 hfollow
      exact Except.bind_eq_ok_iff.2 ⟨next, enter_eq_ok hfolders henter, ih hrest⟩

theorem start_eq (hhome : other.home = tree.home) (path : String) : other.start path = tree.start path := by
  rw [start, start, hhome]

theorem locate_eq_ok (hfolders : HasFolders other tree) (hlocate : tree.locate path = .ok place) :
    other.locate path = .ok place := by
  rw [locate_eq_ok_iff] at hlocate ⊢
  rw [start_eq hfolders.home]
  exact ⟨hlocate.1, hlocate.2.1, follow_eq_ok hfolders hlocate.2.2⟩

structure SameFolders (tree other : FileTree) : Prop where
  right : HasFolders other tree
  left : HasFolders tree other

theorem SameFolders.refl (tree : FileTree) : SameFolders tree tree := ⟨⟨rfl, fun _ => id⟩, ⟨rfl, fun _ => id⟩⟩

theorem SameFolders.trans {last : FileTree} (hfirst : SameFolders tree other) (hsecond : SameFolders other last) :
    SameFolders tree last :=
  ⟨hsecond.right.trans hfirst.right, hfirst.left.trans hsecond.left⟩

theorem SameFolders.locate_eq_ok_iff (hsame : SameFolders tree other) :
    other.locate path = .ok place ↔ tree.locate path = .ok place :=
  ⟨locate_eq_ok hsame.left, locate_eq_ok hsame.right⟩

/-- Trees that differ at one place only, where neither has a folder, have the same folders. -/
theorem sameFolders_of_node? (hhome : other.home = tree.home) (hplace : tree.node? place ≠ some .folder)
    (hother : other.node? place ≠ some .folder)
    (hnode : ∀ away, away ≠ place → other.node? away = tree.node? away) : SameFolders tree other := by
  constructor
  · refine ⟨hhome, fun away hfolder => ?_⟩
    have hne : away ≠ place := fun heq => hplace (heq ▸ hfolder)
    rw [hnode away hne]
    exact hfolder
  · refine ⟨hhome.symm, fun away hfolder => ?_⟩
    have hne : away ≠ place := fun heq => hother (heq ▸ hfolder)
    rw [← hnode away hne]
    exact hfolder

theorem sameFolders_put (hplace : tree.node? place ≠ some .folder) (content : Bytes) :
    SameFolders tree (tree.put place (.file content)) := by
  refine sameFolders_of_node? rfl hplace ?_ fun away hne => node?_put_of_ne hne _
  rw [node?_put_self (ne_nil_of_node? hplace)]
  simp

theorem sameFolders_drop (hplace : tree.node? place ≠ some .folder) : SameFolders tree (tree.drop place) := by
  refine sameFolders_of_node? rfl hplace ?_ fun away hne => node?_drop_of_ne hne
  rw [node?_drop_self (ne_nil_of_node? hplace)]
  simp

/-! ### Operations on files -/

theorem read_of_locate (hlocate : tree.locate path = .ok place) :
    tree.read path =
      match tree.node? place with
      | none => .error .notFound
      | some .folder => .error .isFolder
      | some (.file content) => .ok content := by
  rw [read, hlocate]
  rfl

theorem read_of_folder (hlocate : tree.locate path = .ok place) (hfolder : tree.node? place = some .folder) :
    tree.read path = .error .isFolder := by
  rw [read_of_locate hlocate, hfolder]

theorem read_eq_ok_iff {content : Bytes} :
    tree.read path = .ok content ↔ ∃ place, tree.locate path = .ok place ∧ tree.node? place = some (.file content) := by
  rw [read, Except.bind_eq_ok_iff]
  refine exists_congr fun place => and_congr_right fun _ => ?_
  cases tree.node? place with
  | none => simp
  | some node => cases node <;> simp

theorem write_eq_ok_iff {content : Bytes} {written : FileTree} :
    tree.write path content = .ok written ↔
      ∃ place, tree.locate path = .ok place ∧ tree.node? place ≠ some .folder ∧
        written = tree.put place (.file content) := by
  rw [write, Except.bind_eq_ok_iff]
  refine exists_congr fun place => and_congr_right fun _ => ?_
  cases tree.node? place with
  | none => simp [eq_comm]
  | some node => cases node <;> simp [eq_comm]

theorem read_of_write {content : Bytes} {written : FileTree} (hwrite : tree.write path content = .ok written) :
    written.read path = .ok content := by
  obtain ⟨place, hlocate, hnode, rfl⟩ := write_eq_ok_iff.1 hwrite
  have hsame := sameFolders_put hnode content
  exact read_eq_ok_iff.2 ⟨place, hsame.locate_eq_ok_iff.2 hlocate, node?_put_self (ne_nil_of_node? hnode) _⟩

theorem write_write {first second : Bytes} {written : FileTree} (hwrite : tree.write path first = .ok written) :
    written.write path second = tree.write path second := by
  obtain ⟨place, hlocate, hnode, rfl⟩ := write_eq_ok_iff.1 hwrite
  have hsame := sameFolders_put hnode first
  have hlast : tree.write path second = .ok (tree.put place (.file second)) := write_eq_ok_iff.2 ⟨place, hlocate, hnode, rfl⟩
  rw [hlast, ← put_put tree place (.file first) (.file second)]
  exact write_eq_ok_iff.2
    ⟨place, hsame.locate_eq_ok_iff.2 hlocate, fun hfolder => hnode (hsame.left.folder place hfolder), rfl⟩

theorem remove_eq_ok_iff {removed : FileTree} :
    tree.remove path = .ok removed ↔
      ∃ place, tree.locate path = .ok place ∧ (∃ content, tree.node? place = some (.file content)) ∧
        removed = tree.drop place := by
  rw [remove, Except.bind_eq_ok_iff]
  refine exists_congr fun place => and_congr_right fun _ => ?_
  cases tree.node? place with
  | none => simp
  | some node => cases node <;> simp [eq_comm]

theorem rename_eq_ok_iff {source target : String} {moved : FileTree} :
    tree.rename source target = .ok moved ↔
      ∃ old content place, tree.locate source = .ok old ∧ tree.node? old = some (.file content) ∧
        tree.locate target = .ok place ∧ tree.node? place ≠ some .folder ∧
        moved = (tree.drop old).put place (.file content) := by
  rw [rename, Except.bind_eq_ok_iff]
  refine exists_congr fun old => ?_
  cases hold : tree.node? old with
  | none => simp
  | some node =>
      cases node with
      | folder => simp
      | file content =>
          dsimp only
          rw [Except.bind_eq_ok_iff]
          constructor
          · rintro ⟨hsource, place, htarget, hmoved⟩
            cases hplace : tree.node? place with
            | none => exact ⟨content, place, hsource, rfl, htarget, by simp [hplace], by simp_all⟩
            | some node => cases node <;> simp_all
          · rintro ⟨_, place, hsource, hcontent, htarget, hplace, rfl⟩
            obtain rfl : content = _ := by simpa using hcontent
            refine ⟨hsource, place, htarget, ?_⟩
            split
            · contradiction
            · rfl

theorem sameFolders_of_write {content : Bytes} {written : FileTree} (hwrite : tree.write path content = .ok written) :
    SameFolders tree written := by
  obtain ⟨place, -, hnode, rfl⟩ := write_eq_ok_iff.1 hwrite
  exact sameFolders_put hnode content

theorem sameFolders_drop_file {content : Bytes} (hfile : tree.node? place = some (.file content)) :
    SameFolders tree (tree.drop place) := by
  refine sameFolders_drop ?_
  rw [hfile]
  exact nofun

theorem sameFolders_of_remove {removed : FileTree} (hremove : tree.remove path = .ok removed) :
    SameFolders tree removed := by
  obtain ⟨place, -, ⟨content, hfile⟩, rfl⟩ := remove_eq_ok_iff.1 hremove
  exact sameFolders_drop_file hfile

theorem sameFolders_of_rename {source target : String} {moved : FileTree}
    (hmove : tree.rename source target = .ok moved) : SameFolders tree moved := by
  obtain ⟨old, content, place, -, hfile, -, hnode, rfl⟩ := rename_eq_ok_iff.1 hmove
  have hdrop := sameFolders_drop_file hfile
  exact hdrop.trans (sameFolders_put (fun hfolder => hnode (hdrop.left.folder place hfolder)) content)

/-! ### Making folders -/

/-- Whatever stands in a tree stands in another one, which has the same working folder. -/
structure Extends (other tree : FileTree) : Prop where
  home : other.home = tree.home
  node : ∀ place node, tree.node? place = some node → other.node? place = some node

theorem Extends.refl (tree : FileTree) : Extends tree tree := ⟨rfl, fun _ _ => id⟩

theorem Extends.trans {last : FileTree} (hsecond : Extends last other) (hfirst : Extends other tree) :
    Extends last tree where
  home := hsecond.home.trans hfirst.home
  node place node hnode := hsecond.node place node (hfirst.node place node hnode)

theorem Extends.hasFolders (hextends : Extends other tree) : HasFolders other tree :=
  ⟨hextends.home, fun place => hextends.node place .folder⟩

theorem extends_put (hplace : tree.node? place = none) (node : FileNode) : Extends (tree.put place node) tree := by
  refine ⟨rfl, fun away found hnode => ?_⟩
  have hne : away ≠ place := by
    rintro rfl
    rw [hplace] at hnode
    simp at hnode
  rw [node?_put_of_ne hne]
  exact hnode

theorem extends_makeFolders (tree : FileTree) (place : Place) (pieces : List String) :
    Extends (tree.makeFolders place pieces).1 tree := by
  induction pieces generalizing tree place with
  | nil => exact .refl tree
  | cons piece rest ih =>
      rw [makeFolders]
      split
      · exact .refl tree
      · rename_i next henter
        split
        · exact ih tree next
        · exact .refl tree
        · rename_i hnode
          exact (ih _ next).trans (extends_put hnode .folder)

theorem extends_createFolders (tree : FileTree) (path : String) : Extends (tree.createFolders path).1 tree := by
  unfold createFolders
  split
  · exact .refl tree
  · split
    · exact .refl tree
    · exact extends_makeFolders tree _ _

theorem makeFolders_again {made : FileTree} {pieces : List String}
    (hmade : tree.makeFolders place pieces = (made, .ok ())) (hfolders : HasFolders other made) :
    other.makeFolders place pieces = (other, .ok ()) := by
  induction pieces generalizing tree place with
  | nil => rfl
  | cons piece rest ih =>
      rw [makeFolders] at hmade ⊢
      cases henter : tree.enter place piece with
      | error fault => simp [henter] at hmade
      | ok next =>
          simp only [henter] at hmade
          have hrest : ∃ start : FileTree, start.node? next = some .folder ∧ HasFolders start tree ∧
              start.makeFolders next rest = (made, .ok ()) := by
            split at hmade
            · rename_i hnode
              exact ⟨tree, hnode, (Extends.refl tree).hasFolders, hmade⟩
            · simp at hmade
            · rename_i hnode
              have hnoFolder : tree.node? next ≠ some .folder := by simp [hnode]
              exact ⟨_, node?_put_self (ne_nil_of_node? hnoFolder) _, (extends_put hnode .folder).hasFolders, hmade⟩
          obtain ⟨start, hnext, hstart, hrest⟩ := hrest
          have hkept := extends_makeFolders start next rest
          rw [hrest] at hkept
          have hboth : HasFolders other start := hfolders.trans hkept.hasFolders
          have hall : HasFolders other tree := hboth.trans hstart
          rw [enter_eq_ok hall henter]
          dsimp only
          rw [hboth.folder next hnext]
          exact ih hrest

/-- Folders that are made are those on the way to the last of them. -/
theorem exists_follow_of_makeFolders {made : FileTree} {pieces : List String}
    (hmade : tree.makeFolders place pieces = (made, .ok ())) : ∃ reached, made.follow place pieces = .ok reached := by
  induction pieces generalizing tree place with
  | nil => exact ⟨place, rfl⟩
  | cons piece rest ih =>
      have hextends := extends_makeFolders tree place (piece :: rest)
      rw [hmade] at hextends
      rw [makeFolders] at hmade
      cases henter : tree.enter place piece with
      | error fault => simp [henter] at hmade
      | ok next =>
          have hrest : ∃ reached, made.follow next rest = .ok reached := by
            simp only [henter] at hmade
            split at hmade
            · exact ih hmade
            · simp at hmade
            · exact ih hmade
          obtain ⟨reached, hreached⟩ := hrest
          exact ⟨reached, Except.bind_eq_ok_iff.2 ⟨next, enter_eq_ok hextends.hasFolders henter, hreached⟩⟩

theorem createFolders_again {made : FileTree} (hmade : tree.createFolders path = (made, .ok ()))
    (hfolders : HasFolders other made) : other.createFolders path = (other, .ok ()) := by
  unfold createFolders at hmade ⊢
  split at hmade
  · simp at hmade
  · split at hmade
    · rename_i hempty
      rw [if_pos hempty]
    · rename_i hpath
      have hkept := extends_makeFolders tree (tree.start path) (Path.pieces path)
      rw [hmade] at hkept
      rw [if_neg hpath, start_eq (hfolders.home.trans hkept.home)]
      exact makeFolders_again hmade hfolders

end AddressBook.FileTree
