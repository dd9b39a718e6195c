import AddressBook.Proofs.Files.Tree
import AddressBook.Proofs.Text.Split
/-!
# Paths of bare names

A name without slashes that is put below a folder is the last piece of the path. If the name is neither a point nor two
of them, a path that leads somewhere leads to the place of the name in a folder.
-/

namespace AddressBook

namespace Path

variable {name : String}

theorem isAbsolute_eq_false (hname : '/' ∉ name.toList) : isAbsolute name = false := by
  rw [isAbsolute, beq_eq_false_iff_ne]
  exact fun hhead => hname (List.mem_of_head? hhead)

theorem pieces_below (front : List Char) (hname : '/' ∉ name.toList) :
    (Text.split '/' (front ++ '/' :: name.toList)).map String.ofList =
      (Text.split '/' front).map String.ofList ++ [name] := by
  rw [Text.split_append, Text.split_of_not_mem hname, List.map_append, List.map_singleton, String.ofList_toList]

/-- A name without slashes is the last piece of its path below a folder, after the pieces of the folder's own path. -/
theorem exists_pieces_join (folder : String) (hname : '/' ∉ name.toList) :
    ∃ front, pieces (join folder name) = front ++ [name] ∧ (pieces folder = front ∨ pieces folder = front ++ [""]) := by
  rw [join, isAbsolute_eq_false hname, if_neg Bool.false_ne_true]
  split
  · rename_i hfolder
    rcases Bool.or_eq_true_iff.1 hfolder with hempty | hslash
    · refine ⟨[], ?_, .inr ?_⟩
      · rw [of_decide_eq_true hempty, String.empty_append, pieces, Text.split_of_not_mem hname, List.map_singleton,
          String.ofList_toList]
        rfl
      · rw [of_decide_eq_true hempty]
        rfl
    · obtain ⟨front, hfront⟩ := List.getLast?_eq_some_iff.1 (beq_iff_eq.1 hslash)
      refine ⟨(Text.split '/' front).map String.ofList, ?_, .inr ?_⟩
      · rw [pieces, String.toList_append, hfront, List.append_assoc, List.singleton_append]
        exact pieces_below front hname
      · rw [pieces, hfront]
        exact @pieces_below "" front List.not_mem_nil
  · refine ⟨(Text.split '/' folder.toList).map String.ofList, ?_, .inl rfl⟩
    rw [pieces, String.toList_append, String.toList_append, List.append_assoc]
    exact pieces_below folder.toList hname

end Path

namespace FileTree

variable {tree : FileTree} {place : Place} {name : String}

theorem exists_folder_of_locate_join {folder : String} (hslash : '/' ∉ name.toList)
    (hcomponent : Path.isComponent name = true) (hup : name ≠ "..")
    (hlocate : tree.locate (Path.join folder name) = .ok place) :
    ∃ above, tree.node? above = some .folder ∧ place = above ++ [name] := by
  obtain ⟨front, hpieces, -⟩ := Path.exists_pieces_join folder hslash
  obtain ⟨-, -, hfollow⟩ := locate_eq_ok_iff.1 hlocate
  rw [hpieces] at hfollow
  obtain ⟨above, -, henter⟩ := follow_concat_eq_ok_iff.1 hfollow
  obtain ⟨hfolder, -, hplace⟩ := (enter_component_eq_ok_iff hcomponent hup).1 henter
  exact ⟨above, hfolder, hplace⟩

end FileTree

end AddressBook
