import AddressBook.Text.Split
/-!
# Texts and their pieces

A text is cut at its last separator, if it has one: what stands before and after it makes up the text, and
what stands after it has no further one. Cut at all its separators, a text is what its pieces make up with
separators between them, and the pieces have none.
-/

namespace AddressBook.Text

variable {separator : Char} {cs before after piece : List Char}

/-! ### The last separator -/

theorem cutLast?_eq_none_iff : cutLast? separator cs = none ↔ separator ∉ cs := by
  induction cs with
  | nil => simp [cutLast?]
  | cons c rest ih =>
      rw [cutLast?, List.mem_cons, not_or]
      cases hrest : cutLast? separator rest with
      | some pieces =>
          have hmem : separator ∈ rest := Decidable.of_not_not fun hnot => by simp [ih.2 hnot] at hrest
          simp [hmem]
      | none => simp [ih.1 hrest, eq_comm]

theorem cutLast?_eq_some_iff :
    cutLast? separator cs = some (before, after) ↔ cs = before ++ separator :: after ∧ separator ∉ after := by
  constructor
  · intro hcut
    induction cs generalizing before with
    | nil => nomatch hcut
    | cons c rest ih =>
        rw [cutLast?] at hcut
        cases hrest : cutLast? separator rest with
        | some pieces =>
            rw [hrest] at hcut
            obtain ⟨rfl, rfl⟩ := Prod.mk.inj (Option.some.inj hcut)
            obtain ⟨hjoined, hafter⟩ := ih hrest
            exact ⟨by rw [hjoined, List.cons_append], hafter⟩
        | none =>
            rw [hrest] at hcut
            dsimp only at hcut
            split at hcut
            · rename_i hc
              obtain ⟨rfl, rfl⟩ := Prod.mk.inj (Option.some.inj hcut)
              exact ⟨by rw [hc, List.nil_append], cutLast?_eq_none_iff.1 hrest⟩
            · nomatch hcut
  · rintro ⟨rfl, hafter⟩
    induction before with
    | nil =>
        rw [List.nil_append, cutLast?, cutLast?_eq_none_iff.2 hafter]
        exact if_pos rfl
    | cons c rest ih => rw [List.cons_append, cutLast?, ih]

/-! ### All separators -/

theorem split_of_not_mem (hcs : separator ∉ cs) : split separator cs = [cs] := by
  induction cs with
  | nil => rfl
  | cons c rest ih =>
      have hc : separator ≠ c := List.ne_of_not_mem_cons hcs
      have hrest : separator ∉ rest := List.not_mem_of_not_mem_cons hcs
      rw [split, if_neg (Ne.symm hc), ih hrest]

theorem split_ne_nil (separator : Char) (cs : List Char) : split separator cs ≠ [] := by
  cases cs with
  | nil => exact nofun
  | cons c rest =>
      rw [split]
      split
      · exact nofun
      · split
        · exact nofun
        · exact nofun

theorem split_append (separator : Char) (front back : List Char) :
    split separator (front ++ separator :: back) = split separator front ++ split separator back := by
  induction front with
  | nil =>
      rw [List.nil_append]
      exact if_pos rfl
  | cons c rest ih =>
      rw [List.cons_append, split, split, ih]
      by_cases hc : c = separator
      · rw [if_pos hc, if_pos hc, List.cons_append]
      · rw [if_neg hc, if_neg hc]
        cases hrest : split separator rest with
        | nil => exact absurd hrest (split_ne_nil separator rest)
        | cons piece pieces => rfl

theorem not_mem_of_mem_split (hmem : piece ∈ split separator cs) : separator ∉ piece := by
  induction cs generalizing piece with
  | nil =>
      rw [List.mem_singleton.1 hmem]
      exact List.not_mem_nil
  | cons c rest ih =>
      rw [split] at hmem
      split at hmem
      · rcases List.mem_cons.1 hmem with rfl | hmem
        · exact List.not_mem_nil
        · exact ih hmem
      · rename_i hc
        cases hrest : split separator rest with
        | nil => exact absurd hrest (split_ne_nil separator rest)
        | cons first others =>
            rw [hrest] at hmem
            rcases List.mem_cons.1 hmem with rfl | hmem
            · have hfirst : separator ∉ first := ih (hrest ▸ List.mem_cons_self)
              exact List.not_mem_cons_of_ne_of_not_mem (Ne.symm hc) hfirst
            · exact ih (hrest ▸ List.mem_cons_of_mem _ hmem)

theorem intercalate_split (separator : Char) (cs : List Char) : [separator].intercalate (split separator cs) = cs := by
  induction cs with
  | nil => rfl
  | cons c rest ih =>
      obtain ⟨first, others, hrest⟩ := List.exists_cons_of_ne_nil (split_ne_nil separator rest)
      rw [hrest] at ih
      rw [split, hrest]
      split
      · rename_i hc
        rw [List.intercalate_cons_cons, ih, hc]
        rfl
      · dsimp only
        rw [← ih]
        cases others <;> simp

/-- A text cut anywhere: the piece that is cut has one part in each half. -/
theorem exists_split_append (separator : Char) (front back : List Char) : ∃ pieces last first others,
    split separator front = pieces ++ [last] ∧ split separator back = first :: others ∧
      split separator (front ++ back) = pieces ++ (last ++ first) :: others := by
  induction front with
  | nil =>
      obtain ⟨first, others, hback⟩ := List.exists_cons_of_ne_nil (split_ne_nil separator back)
      exact ⟨[], [], first, others, rfl, hback, hback⟩
  | cons c rest ih =>
      obtain ⟨pieces, last, first, others, hrest, hback, hboth⟩ := ih
      by_cases hc : c = separator
      · refine ⟨[] :: pieces, last, first, others, ?_, hback, ?_⟩
        · rw [split, if_pos hc, hrest, List.cons_append]
        · rw [List.cons_append, split, if_pos hc, hboth, List.cons_append]
      · cases pieces with
        | nil =>
            refine ⟨[], c :: last, first, others, ?_, hback, ?_⟩
            · rw [split, if_neg hc, hrest]
              rfl
            · rw [List.cons_append, split, if_neg hc, hboth]
              rfl
        | cons piece pieces =>
            refine ⟨(c :: piece) :: pieces, last, first, others, ?_, hback, ?_⟩
            · rw [split, if_neg hc, hrest]
              rfl
            · rw [List.cons_append, split, if_neg hc, hboth]
              rfl

theorem length_split (separator : Char) (cs : List Char) :
    (split separator cs).flatten.length + (split separator cs).length = cs.length + 1 := by
  induction cs with
  | nil => rfl
  | cons c rest ih =>
      obtain ⟨first, others, hrest⟩ := List.exists_cons_of_ne_nil (split_ne_nil separator rest)
      rw [hrest] at ih
      rw [split, hrest]
      split
      · simp only [List.flatten_cons, List.length_append, List.length_cons, List.length_nil] at ih ⊢
        omega
      · simp only [List.flatten_cons, List.length_append, List.length_cons] at ih ⊢
        omega

end AddressBook.Text
