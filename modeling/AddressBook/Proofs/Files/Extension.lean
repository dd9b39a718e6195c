import AddressBook.Proofs.Files.Path
/-!
# Paths with another extension

A path is its pieces with slashes between them, and the last one that is a component names a file. Another extension
replaces what stands after the last point of that name, so the path leads into the same folder. The exception are the names
of two points and an extension at the end of a path: without the extension the two points are left, which are the way up,
and so the path leads to the folder above. Pieces behind the name that are passed over are dropped, and as they lose the
first characters, they save such a name.
-/

namespace AddressBook.Path

variable {path name extension : String} {front rest names : List String}

/-! ### Pieces -/

theorem slash_not_mem_of_mem_pieces (hmem : name ∈ pieces path) : '/' ∉ name.toList := by
  obtain ⟨piece, hpiece, rfl⟩ := List.mem_map.1 hmem
  rw [String.toList_ofList]
  exact Text.not_mem_of_mem_split hpiece

theorem intercalate_pieces (path : String) : "/".intercalate (pieces path) = path := by
  have hsame : String.toList ∘ String.ofList = id := funext fun cs => String.toList_ofList
  rw [← String.toList_inj, String.toList_intercalate, pieces, List.map_map, hsame, List.map_id]
  exact Text.intercalate_split '/' path.toList

theorem pieces_intercalate (hne : names ≠ []) (hslash : ∀ name ∈ names, '/' ∉ name.toList) :
    pieces ("/".intercalate names) = names := by
  induction names with
  | nil => exact absurd rfl hne
  | cons name rest ih =>
      obtain ⟨hname, hrest⟩ := List.forall_mem_cons.1 hslash
      cases rest with
      | nil =>
          rw [String.intercalate_singleton, pieces, Text.split_of_not_mem hname, List.map_singleton, String.ofList_toList]
      | cons second others =>
          have hsplit : ("/".intercalate (name :: second :: others)).toList =
              name.toList ++ '/' :: ("/".intercalate (second :: others)).toList := by
            rw [String.intercalate_cons_cons]
            simp
          rw [pieces, hsplit, Text.split_append, Text.split_of_not_mem hname, List.map_append, List.map_singleton,
            String.ofList_toList]
          exact congrArg (name :: ·) (ih (List.cons_ne_nil _ _) hrest)

theorem isComponent_iff : isComponent name = true ↔ name ≠ "" ∧ name ≠ "." := by
  rw [isComponent, Bool.and_eq_true, bne_iff_ne, bne_iff_ne]

theorem exists_pieces_append (first second : String) : ∃ before last next others,
    pieces first = before ++ [last] ∧ pieces second = next :: others ∧
      pieces (first ++ second) = before ++ (last ++ next) :: others := by
  obtain ⟨before, last, next, others, hfirst, hsecond, hboth⟩ := Text.exists_split_append '/' first.toList second.toList
  refine ⟨before.map String.ofList, String.ofList last, String.ofList next, others.map String.ofList, ?_, ?_, ?_⟩
  · rw [pieces, hfirst, List.map_append, List.map_singleton]
  · rw [pieces, hsecond, List.map_cons]
  · rw [pieces, String.toList_append, hboth, List.map_append, List.map_cons, String.ofList_append]

theorem length_pieces (path : String) :
    ((pieces path).flatMap String.toList).length + (pieces path).length = path.length + 1 := by
  have hsame : (fun cs => (String.ofList cs).toList) = id := funext fun cs => String.toList_ofList
  rw [pieces, List.flatMap_map, hsame, List.flatMap_id, List.length_map, Text.length_split, String.length_toList]

/-- What a path with a file name is made of: the pieces before the name, the name, and pieces that are passed over. -/
structure Parts (path : String) (front : List String) (name : String) (rest : List String) : Prop where
  pieces : pieces path = front ++ name :: rest
  component : isComponent name = true
  passed : ∀ piece ∈ rest, isComponent piece = false

section Parts

variable (hparts : Parts path front name rest)

include hparts

theorem Parts.upToLast : upToLast path = name :: front.reverse := by
  have hpassed : ∀ piece ∈ rest.reverse, (!isComponent piece) = true := by
    intro piece hmem
    rw [hparts.passed piece (List.mem_reverse.1 hmem), Bool.not_false]
  rw [Path.upToLast, hparts.pieces, List.reverse_append, List.reverse_cons, List.append_assoc, List.singleton_append,
    List.dropWhile_append_of_pos hpassed, List.dropWhile_cons_of_neg (by rw [hparts.component]; decide)]

theorem Parts.parent : parent path = "/".intercalate front := by
  rw [Path.parent, hparts.upToLast, List.drop_one, List.tail_cons, List.reverse_reverse]

theorem Parts.components : components path = front.filter isComponent ++ [name] := by
  have hpassed : rest.filter isComponent = [] := List.filter_eq_nil_iff.2 fun piece hmem => by simp [hparts.passed piece hmem]
  rw [Path.components, hparts.pieces, List.filter_append, List.filter_cons_of_pos hparts.component, hpassed]

theorem Parts.fileName? : fileName? path = if name = ".." then none else some name := by
  rw [Path.fileName?, hparts.components, List.getLast?_concat, Option.filter_some]
  by_cases hup : name = ".."
  · rw [if_pos hup, hup]
    rfl
  · rw [if_neg hup, if_pos (bne_iff_ne.2 hup)]

theorem Parts.name_ne_empty : name ≠ "" := (isComponent_iff.1 hparts.component).1

end Parts

theorem exists_parts (hname : fileName? path = some name) : name ≠ ".." ∧ ∃ front rest, Parts path front name rest := by
  obtain ⟨hlast, hup⟩ := Option.filter_eq_some_iff.1 hname
  obtain ⟨before, hcomponents⟩ := List.getLast?_eq_some_iff.1 hlast
  obtain ⟨front, back, hpieces, -, hback⟩ := List.filter_eq_append_iff.1 hcomponents
  obtain ⟨skipped, rest, rfl, -, hcomponent, hrest⟩ := List.filter_eq_cons_iff.1 hback
  refine ⟨bne_iff_ne.1 hup, front ++ skipped, rest, ?_, hcomponent, ?_⟩
  · rw [hpieces, List.append_assoc]
  · exact fun piece hmem => Bool.eq_false_iff.2 (List.filter_eq_nil_iff.1 hrest piece hmem)

/-! ### Names -/

theorem cutName_append {stem : String} (hstem : stem ≠ "") (hextension : '.' ∉ extension.toList) :
    cutName (stem ++ "." ++ extension) = (stem, some extension) := by
  have hcut : Text.cutLast? '.' (stem ++ "." ++ extension).toList = some (stem.toList, extension.toList) := by
    rw [Text.cutLast?_eq_some_iff]
    exact ⟨by simp, hextension⟩
  obtain ⟨c, cs, hcs⟩ := List.exists_cons_of_ne_nil (mt String.toList_eq_nil_iff.1 hstem)
  rw [cutName, hcut, hcs]
  dsimp only
  rw [← hcs, String.ofList_toList, String.ofList_toList]

theorem cutName_cases (name : String) :
    cutName name = (name, none) ∨
    ∃ stem extension, stem ≠ "" ∧ '.' ∉ extension.toList ∧ name = stem ++ "." ++ extension ∧
      cutName name = (stem, some extension) := by
  cases hcut : Text.cutLast? '.' name.toList with
  | none => exact .inl (by rw [cutName, hcut])
  | some parts =>
      obtain ⟨stem, extension⟩ := parts
      cases stem with
      | nil => exact .inl (by rw [cutName, hcut])
      | cons c stem =>
          obtain ⟨hname, hextension⟩ := Text.cutLast?_eq_some_iff.1 hcut
          refine .inr ⟨String.ofList (c :: stem), String.ofList extension, ?_, ?_, ?_, by rw [cutName, hcut]⟩
          · exact fun hempty => by simpa using congrArg String.toList hempty
          · rwa [String.toList_ofList]
          · rw [← String.toList_inj, hname]
            simp

theorem cutName_fst_ne_empty (hname : name ≠ "") : (cutName name).1 ≠ "" := by
  rcases cutName_cases name with hcut | ⟨stem, old, hstem, -, -, hcut⟩
  · rwa [hcut]
  · rwa [hcut]

theorem mem_of_mem_cutName_fst {c : Char} (hmem : c ∈ (cutName name).1.toList) : c ∈ name.toList := by
  rcases cutName_cases name with hcut | ⟨stem, old, -, -, heq, hcut⟩
  · rwa [hcut] at hmem
  · rw [hcut] at hmem
    rw [heq, String.toList_append, String.toList_append]
    exact List.mem_append_left _ (List.mem_append_left _ hmem)

theorem two_lt_length_newName (hname : name ≠ "") (hextension : extension ≠ "") :
    2 < ((cutName name).1 ++ "." ++ extension).length := by
  have hfirst := Nat.pos_of_ne_zero (mt String.length_eq_zero_iff.1 (cutName_fst_ne_empty hname))
  have hlast := Nat.pos_of_ne_zero (mt String.length_eq_zero_iff.1 hextension)
  simp only [String.length_append]
  change 2 < _ + 1 + _
  omega

theorem not_mem_newName {c : Char} (hc : c ≠ '.') (hname : c ∉ name.toList) (hextension : c ∉ extension.toList) :
    c ∉ ((cutName name).1 ++ "." ++ extension).toList := by
  rw [String.toList_append, String.toList_append, List.mem_append, List.mem_append, not_or, not_or]
  exact ⟨⟨mt mem_of_mem_cutName_fst hname, by simpa using hc⟩, hextension⟩

/-! ### The new extension -/

theorem intercalate_concat_append (front : List String) (first second : String) :
    "/".intercalate (front ++ [first ++ second]) = "/".intercalate (front ++ [first]) ++ second := by
  cases front with
  | nil => simp
  | cons piece rest =>
      have hne : piece :: rest ≠ [] := List.cons_ne_nil piece rest
      rw [String.intercalate_append_of_ne_nil hne (by simp), String.intercalate_append_of_ne_nil hne (by simp),
        String.intercalate_singleton, String.intercalate_singleton, ← String.append_assoc]

theorem intercalate_concat (front : List String) (last : String) :
    "/".intercalate (front ++ [last]) = "/".intercalate (front ++ [""]) ++ last := by
  rw [← intercalate_concat_append, String.empty_append]

theorem eq_append_of_pieces (hpieces : pieces path = front ++ [name]) :
    path = "/".intercalate (front ++ [""]) ++ name := by
  rw [← intercalate_concat, ← hpieces, intercalate_pieces]

theorem isAbsolute_append (path : String) (hname : '/' ∉ name.toList) : isAbsolute (path ++ name) = isAbsolute path := by
  rw [isAbsolute, isAbsolute, String.toList_append]
  cases path.toList with
  | nil =>
      rw [List.nil_append, List.head?_nil]
      exact beq_eq_false_iff_ne.2 fun hhead => hname (List.mem_of_head? hhead)
  | cons c rest => rfl

theorem Parts.appendExtension (hparts : Parts path front name rest) (hup : name ≠ "..") (new : String) :
    appendExtension path new = "/".intercalate (front ++ [(cutName name).1 ++ "." ++ new]) := by
  rw [Path.appendExtension, hparts.fileName?, if_neg hup]
  dsimp only
  rw [hparts.upToLast, List.drop_one, List.tail_cons, List.reverse_reverse]

theorem Parts.extension? (hparts : Parts path front name rest) (hup : name ≠ "..") :
    extension? path = (cutName name).2 := by
  rw [Path.extension?, hparts.fileName?, if_neg hup]
  rfl

theorem isComponent_append (hname : isComponent name = true) (next : String) : isComponent (name ++ next) = true := by
  obtain ⟨hempty, hpoint⟩ := isComponent_iff.1 hname
  refine isComponent_iff.2 ⟨fun hsame => hempty (String.append_eq_empty_iff.1 hsame).1, fun hsame => hpoint ?_⟩
  have hlength := congrArg String.length hsame
  have hfirst := Nat.pos_of_ne_zero (mt String.length_eq_zero_iff.1 hempty)
  rw [String.length_append] at hlength
  change _ = 1 at hlength
  have hnext : next = "" := String.length_eq_zero_iff.1 (by omega)
  rwa [hnext, String.append_empty] at hsame

theorem isComponent_append_point {stem : String} (hstem : stem ≠ "") : isComponent (stem ++ ".") = true := by
  rw [isComponent_iff]
  refine ⟨fun hempty => ?_, fun hsame => hstem ?_⟩
  · simpa using congrArg String.toList hempty
  · simpa using hsame

theorem exists_dropped (hparts : Parts path front name rest) (hup : name ≠ "..") {stem old : String} (hstem : stem ≠ "")
    (hold : '.' ∉ old.toList) (heq : name = stem ++ "." ++ old) :
    ∃ dropped, path = cutExtension path ++ dropped ∧ dropped.length = old.length := by
  have hfits : old.length ≤ path.length := by
    have hlength := length_pieces path
    rw [hparts.pieces, heq] at hlength
    simp only [List.flatMap_append, List.flatMap_cons, String.toList_append, List.length_append, List.length_cons,
      String.length_toList] at hlength
    omega
  refine ⟨String.ofList (path.toList.drop (path.length - old.length)), ?_, ?_⟩
  · rw [cutExtension, hparts.extension? hup, heq, cutName_append hstem hold]
    dsimp only
    rw [← String.ofList_append, List.take_append_drop, String.ofList_toList]
  · rw [String.length_ofList, List.length_drop, String.length_toList]
    omega

/-- Two lists with a marked element are the same: the marks are in one place, or the one is before the other. -/
theorem marks_cases {α : Type} {front back front' back' : List α} {mark mark' : α}
    (heq : front ++ mark :: back = front' ++ mark' :: back') :
    (front' = front ∧ mark' = mark ∧ back' = back) ∨ (∃ between, front' = front ++ mark :: between ∧
      back = between ++ mark' :: back') ∨ ∃ between, back' = between ++ mark :: back := by
  rcases List.append_eq_append_iff.1 heq with ⟨between, hfront, hback⟩ | ⟨between, hfront, hback⟩
  · cases between with
    | nil =>
        obtain ⟨rfl, rfl⟩ := List.cons.inj hback
        exact .inl ⟨by rw [hfront, List.append_nil], rfl, rfl⟩
    | cons first between =>
        obtain ⟨rfl, rfl⟩ := List.cons.inj hback
        exact .inr (.inl ⟨between, hfront, rfl⟩)
  · cases between with
    | nil =>
        obtain ⟨rfl, rfl⟩ := List.cons.inj hback
        exact .inl ⟨by rw [hfront, List.append_nil], rfl, rfl⟩
    | cons first between => exact .inr (.inr ⟨between, (List.cons.inj hback).2⟩)

/-- What is cut off takes the pieces behind the name first, and of the extension what they do not make up for. -/
theorem exists_cutExtension (hparts : Parts path front name rest) (hup : name ≠ "..") {stem old : String} (hstem : stem ≠ "")
    (hold : '.' ∉ old.toList) (heq : name = stem ++ "." ++ old) :
    ∃ kept left, Parts (cutExtension path) front (stem ++ "." ++ kept) left ∧ '.' ∉ kept.toList ∧
      (kept = "" ↔ old = "" ∨ rest = []) ∧ (rest = [] → left = []) := by
  obtain ⟨dropped, hpath, hlength⟩ := exists_dropped hparts hup hstem hold heq
  obtain ⟨before, last, next, others, hcut, hdropped, hboth⟩ := exists_pieces_append (cutExtension path) dropped
  rw [← hpath, hparts.pieces] at hboth
  have hall := length_pieces dropped
  rw [hdropped] at hall
  simp only [List.flatMap_cons, List.length_append, List.length_cons, String.length_toList] at hall
  have hpassed := hparts.passed
  rcases marks_cases hboth with ⟨rfl, hname, rfl⟩ | ⟨between, rfl, hrest⟩ | ⟨between, rfl⟩
  · -- the cut goes through the name, and what is left of it ends in the extension
    rw [heq] at hname
    have hsuffix : next.toList <:+ old.toList := by
      refine List.suffix_of_suffix_length_le ⟨last.toList, ?_⟩ ⟨(stem ++ ".").toList, String.toList_append.symm⟩ ?_
      · rw [← String.toList_append, hname]
      · rw [String.length_toList, String.length_toList]
        omega
    obtain ⟨kept, hkept⟩ := hsuffix
    obtain rfl : old = String.ofList kept ++ next := by
      rw [← String.toList_inj, ← hkept]
      simp
    rw [← String.append_assoc, String.append_left_inj] at hname
    rw [hname] at hcut
    have hcomponent := isComponent_append (isComponent_append_point hstem) (String.ofList kept)
    refine ⟨String.ofList kept, [], ⟨hcut, hcomponent, List.forall_mem_nil _⟩, fun hmem => hold ?_, ?_, fun _ => rfl⟩
    · rw [String.toList_append]
      exact List.mem_append_left _ hmem
    · rw [← String.length_eq_zero_iff, ← String.length_eq_zero_iff, ← List.length_eq_zero_iff]
      rw [String.length_append] at hlength ⊢
      have hnone : others.length = 0 → (others.flatMap String.toList).length = 0 := by
        intro hempty
        rw [List.length_eq_zero_iff.1 hempty]
        rfl
      constructor
      · exact fun _ => .inr (by omega)
      · rintro (hold | hothers)
        · omega
        · have hsum := hnone hothers
          omega
  · -- the cut goes through a piece that is passed over, and so does what is left of it
    have hcomponent := isComponent_append (isComponent_append_point hstem) old
    refine ⟨old, between ++ [last], ⟨?_, hcomponent, ?_⟩, hold, by simp [hrest], by simp [hrest]⟩
    · rw [hcut, heq, List.append_assoc, List.cons_append]
    · rw [hrest, List.forall_mem_append, List.forall_mem_cons] at hpassed
      rw [List.forall_mem_append, List.forall_mem_singleton]
      refine ⟨hpassed.1, Bool.eq_false_iff.2 fun hlast => ?_⟩
      exact Bool.eq_false_iff.1 hpassed.2.1 (isComponent_append hlast next)
  · -- it can not go before the name, which is longer than its extension
    rw [heq] at hall
    simp only [List.flatMap_append, List.flatMap_cons, String.toList_append, List.length_append, List.length_cons,
      String.length_toList] at hall
    omega

/-- The new extension stands after the stem; a stem that is a point and ends the path leaves the way up. -/
theorem Parts.withExtension (hparts : Parts path front name rest) (hup : name ≠ "..") (new : String) :
    withExtension path new =
      "/".intercalate (front ++ [if (cutName name).1 = "." ∧ rest = [] then ".." else (cutName name).1 ++ "." ++ new]) := by
  rcases cutName_cases name with hcut | ⟨stem, old, hstem, hold, heq, hcut⟩
  · have hsame : cutExtension path = path := by
      rw [cutExtension, hparts.extension? hup, hcut]
    have hpoint : ¬ (name = "." ∧ rest = []) := fun hboth => (isComponent_iff.1 hparts.component).2 hboth.1
    rw [Path.withExtension, hsame, hparts.appendExtension hup, hcut, if_neg hpoint]
  · obtain ⟨kept, left, hleft, hkept, hempty, hend⟩ := exists_cutExtension hparts hup hstem hold heq
    rw [Path.withExtension, hcut]
    by_cases hway : stem = "." ∧ rest = []
    · obtain rfl := hempty.2 (.inr hway.2)
      obtain rfl := hend hway.2
      have hcutUp : stem ++ "." ++ "" = ".." := by rw [hway.1]; rfl
      rw [if_pos hway, Path.appendExtension, hleft.fileName?, if_pos hcutUp, ← hcutUp, ← hleft.pieces, intercalate_pieces]
    · have hcutUp : stem ++ "." ++ kept ≠ ".." := by
        intro hsame
        have hparted := cutName_append hstem hkept
        rw [hsame] at hparted
        obtain ⟨rfl, hnone⟩ := Prod.mk.inj (hparted.symm.trans (show cutName ".." = (".", some "") from rfl))
        rcases hempty.1 (Option.some.inj hnone) with rfl | hrest
        · exact hup heq
        · exact hway ⟨rfl, hrest⟩
      rw [hleft.appendExtension hcutUp, cutName_append hstem hkept, if_neg hway]

theorem Parts.exists_withExtension (hparts : Parts path front name rest) (hup : name ≠ "..") {new : String}
    (hslash : '/' ∉ new.toList) : ∃ file, Parts (Path.withExtension path new) front file [] ∧
      ((file = ".." ∧ (cutName name).1 = "." ∧ rest = []) ∨
        (file = (cutName name).1 ++ "." ++ new ∧ ¬ ((cutName name).1 = "." ∧ rest = []))) := by
  have hown : ∀ piece ∈ front ++ name :: rest, '/' ∉ piece.toList :=
    fun piece hmem => slash_not_mem_of_mem_pieces (hparts.pieces ▸ hmem)
  rw [List.forall_mem_append, List.forall_mem_cons] at hown
  have hpieces : ∀ file : String, '/' ∉ file.toList → Path.pieces ("/".intercalate (front ++ [file])) = front ++ [file] := by
    intro file hfile
    refine pieces_intercalate (List.append_ne_nil_of_right_ne_nil _ (List.cons_ne_nil file [])) ?_
    rw [List.forall_mem_append, List.forall_mem_singleton]
    exact ⟨hown.1, hfile⟩
  have hwith := hparts.withExtension hup new
  by_cases hway : (cutName name).1 = "." ∧ rest = []
  · rw [if_pos hway] at hwith
    refine ⟨"..", ⟨?_, rfl, List.forall_mem_nil _⟩, .inl ⟨rfl, hway⟩⟩
    rw [hwith, hpieces _ (by decide)]
  · rw [if_neg hway] at hwith
    have hcomponent := isComponent_append (isComponent_append_point (cutName_fst_ne_empty hparts.name_ne_empty)) new
    refine ⟨_, ⟨?_, hcomponent, List.forall_mem_nil _⟩, .inr ⟨rfl, hway⟩⟩
    rw [hwith, hpieces _ (not_mem_newName (by decide) hown.2.1 hslash)]

/-- No name has a new extension with a point in it: what stands after its last point has none. -/
theorem newName_ne {new : String} (hnew : '.' ∈ new.toList) : (cutName name).1 ++ "." ++ new ≠ name := by
  intro hsame
  rcases cutName_cases name with hcut | ⟨stem, old, -, hold, heq, hcut⟩
  · rw [hcut, String.append_assoc] at hsame
    have hlength := congrArg String.length hsame
    rw [String.length_append, String.length_append] at hlength
    change name.length + (1 + new.length) = name.length at hlength
    omega
  · rw [hcut, heq] at hsame
    exact hold ((String.append_right_inj _).1 hsame ▸ hnew)

/-! ### Files of one folder -/

/-- Two paths lead into one folder: they start at the same place, only their last components differ, and the other's is a name. -/
structure Siblings (path other : String) : Prop where
  absolute : isAbsolute other = isAbsolute path
  folder : (components other).dropLast = (components path).dropLast
  named : fileName? other ≠ none

theorem isAbsolute_iff (hpath : path ≠ "") : isAbsolute path = true ↔ (pieces path).head? = some "" := by
  obtain ⟨c, rest, hchars⟩ := List.exists_cons_of_ne_nil (mt String.toList_eq_nil_iff.1 hpath)
  rw [isAbsolute, pieces, hchars, Text.split]
  by_cases hc : c = '/'
  · simp [hc]
  · rw [if_neg hc]
    obtain ⟨first, others, hrest⟩ := List.exists_cons_of_ne_nil (Text.split_ne_nil '/' rest)
    rw [hrest]
    simp [hc, ← String.toList_inj]

theorem Parts.isAbsolute (hparts : Parts path front name rest) : Path.isAbsolute path = (front.head? == some "") := by
  have hpath : path ≠ "" := by
    rintro rfl
    have hmem : name ∈ Path.pieces "" := hparts.pieces ▸ List.mem_append_right _ List.mem_cons_self
    exact hparts.name_ne_empty (List.mem_singleton.1 hmem)
  rw [Bool.eq_iff_iff, isAbsolute_iff hpath, hparts.pieces, beq_iff_eq]
  cases front with
  | nil => simp [hparts.name_ne_empty]
  | cons first others => rfl

/-- A path with the same pieces before its name leads to a file of the same folder, unless its name is the way up. -/
theorem Parts.siblings_iff (hparts : Parts path front name rest) {other file : String} (hother : Parts other front file []) :
    Siblings path other ↔ file ≠ ".." := by
  constructor
  · rintro hsiblings rfl
    exact hsiblings.named (hother.fileName?.trans (if_pos rfl))
  · intro hfile
    refine ⟨?_, ?_, ?_⟩
    · rw [hother.isAbsolute, hparts.isAbsolute]
    · rw [hother.components, hparts.components, List.dropLast_concat, List.dropLast_concat]
    · rw [hother.fileName?, if_neg hfile]
      exact Option.some_ne_none file

theorem Parts.getLast?_pieces (hparts : Parts path front name rest) :
    (Path.pieces path).getLast? = some name ↔ rest = [] := by
  rw [hparts.pieces]
  rcases List.eq_nil_or_concat rest with rfl | ⟨others, last, rfl⟩
  · simp
  · have hlast := hparts.passed last (by simp)
    refine iff_of_false (fun hsame => ?_) (by simp)
    rw [List.concat_eq_append, ← List.cons_append, ← List.append_assoc, List.getLast?_concat] at hsame
    rw [Option.some.inj hsame, hparts.component] at hlast
    nomatch hlast

/-- The path with the new extension leads into the same folder, unless only the way up is left of it. -/
theorem siblings_withExtension_iff (hname : fileName? path = some name) {new : String} (hnew : new ≠ "")
    (hslash : '/' ∉ new.toList) : Siblings path (withExtension path new) ↔
      ¬ ((cutName name).1 = "." ∧ (pieces path).getLast? = some name) := by
  obtain ⟨hup, front, rest, hparts⟩ := exists_parts hname
  obtain ⟨file, hfile, hcases⟩ := hparts.exists_withExtension hup hslash
  rw [hparts.siblings_iff hfile, hparts.getLast?_pieces]
  rcases hcases with ⟨rfl, hway⟩ | ⟨rfl, hway⟩
  · exact iff_of_false (not_not_intro rfl) (not_not_intro hway)
  · refine iff_of_true (fun hsame => ?_) hway
    have hlong := two_lt_length_newName hparts.name_ne_empty hnew
    rw [hsame] at hlong
    exact absurd hlong (by decide)

end AddressBook.Path
