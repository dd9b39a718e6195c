import AddressBook.Text.Lowercase
/-!
# What lower case leaves alone

A point is its own lower-case form, and no other character has a point in its lower-case form. So a text has a point
exactly if it has one in lower case. A slash stays a slash, and the letters and digits of ASCII go to lower case one by
one, whatever stands around them.
-/

namespace AddressBook.Text

theorem ofNat_ne_point {n : Nat} (hn : n ≠ 0x2E) : Char.ofNat n ≠ '.' := by
  intro hpoint
  by_cases hvalid : n.isValidChar
  · have hnumber : (Char.ofNat n).toNat = n := by
      rw [Char.ofNat, dif_pos hvalid]
      rfl
    exact hn (hnumber.symm.trans (congrArg Char.toNat hpoint))
  · rw [Char.ofNat, dif_neg hvalid] at hpoint
    nomatch hpoint

theorem toLower_ofNat_eq_point : ∀ n ∈ List.range 0x80, (Char.ofNat n).toLower = '.' → n = 0x2E := by decide +kernel

/-- The lower-case letters of the table come after the point. -/
theorem point_lt_of_mem_lowercaseRuns : ∀ run ∈ lowercaseRuns, 0x2E < run.first + run.shift := by decide +kernel

theorem CaseRun.lower?_ne_point {run : CaseRun} (hrun : run ∈ lowercaseRuns) (c : Char) : run.lower? c ≠ some '.' := by
  rw [lower?]
  split
  · rename_i hin
    have hafter := point_lt_of_mem_lowercaseRuns run hrun
    exact fun heq => ofNat_ne_point (by omega) (Option.some.inj heq)
  · exact nofun

theorem lowerChar_eq_point_iff {c : Char} : lowerChar c = '.' ↔ c = '.' := by
  constructor
  · intro hlower
    rw [lowerChar] at hlower
    split at hlower
    · rename_i hascii
      have hc : Char.ofNat c.toNat = c := Char.ofNat_toNat c
      have hnumber := toLower_ofNat_eq_point c.toNat (List.mem_range.2 hascii) (hc.symm ▸ hlower)
      rw [← hc, hnumber]
    · cases hrun : lowercaseRuns.findSome? (·.lower? c) with
      | none =>
          rw [hrun] at hlower
          exact hlower
      | some lower =>
          rw [hrun] at hlower
          obtain ⟨run, hmem, hletter⟩ := List.exists_of_findSome?_eq_some hrun
          exact absurd (hletter.trans (congrArg some hlower)) (CaseRun.lower?_ne_point hmem c)
  · rintro rfl
    rfl

theorem point_mem_lowerAfter_iff {before cs : List Char} : '.' ∈ lowerAfter before cs ↔ '.' ∈ cs := by
  induction cs generalizing before with
  | nil => rfl
  | cons c rest ih =>
      rw [lowerAfter, List.mem_append, ih, List.mem_cons]
      refine or_congr_left ?_
      split
      · rename_i hsigma
        subst hsigma
        split <;> decide
      · split
        · rename_i hdotted
          subst hdotted
          decide
        · rw [List.mem_singleton, eq_comm, lowerChar_eq_point_iff, eq_comm]

theorem point_mem_lowercase_iff {s : String} : '.' ∈ (lowercase s).toList ↔ '.' ∈ s.toList := by
  rw [lowercase, String.toList_ofList, point_mem_lowerAfter_iff]

/-! ### Letters and digits -/

theorem toNat_lt_of_isAlphanum {c : Char} (hc : c.isAlphanum = true) : c.toNat < 0x80 := by
  have hbelow : ∀ d : Char, d.toNat < 0x80 → c ≤ d → c.toNat < 0x80 := fun d hd hle => Nat.lt_of_le_of_lt hle hd
  rcases Bool.or_eq_true_iff.1 hc with hletter | hdigit
  · rcases Bool.or_eq_true_iff.1 hletter with hupper | hlower
    · exact hbelow 'Z' (by decide) (of_decide_eq_true hupper).2
    · exact hbelow 'z' (by decide) (of_decide_eq_true (Bool.and_eq_true_iff.1 hlower).2)
  · exact hbelow '9' (by decide) (of_decide_eq_true (Bool.and_eq_true_iff.1 hdigit).2)

theorem isAlphanum_toLower {c : Char} (hc : c.isAlphanum = true) : c.toLower.isAlphanum = true := by
  unfold Char.toLower
  split
  · rename_i hupper
    have hge : 65 ≤ c.toNat := UInt32.le_iff_toNat_le.1 hupper.1
    have hle : c.toNat ≤ 90 := UInt32.le_iff_toNat_le.1 hupper.2
    have hlower : (c.val + ('a'.val - 'A'.val)).toNat = c.toNat + 32 := by
      rw [UInt32.toNat_add, Nat.mod_eq_of_lt]
      · rfl
      · change c.toNat + 32 < 2 ^ 32
        omega
    have hletter : 97 ≤ (c.val + ('a'.val - 'A'.val)).toNat ∧ (c.val + ('a'.val - 'A'.val)).toNat ≤ 122 := by omega
    refine Bool.or_eq_true_iff.2 (.inl (Bool.or_eq_true_iff.2 (.inr (Bool.and_eq_true_iff.2 ⟨?_, ?_⟩))))
    · exact decide_eq_true (UInt32.le_iff_toNat_le.2 hletter.1)
    · exact decide_eq_true (UInt32.le_iff_toNat_le.2 hletter.2)
  · exact hc

theorem toLower_toLower_ofNat : ∀ n ∈ List.range 0x80, (Char.ofNat n).toLower.toLower = (Char.ofNat n).toLower := by
  decide +kernel

/-- Letters and digits go to lower case one by one. -/
theorem lowerAfter_of_isAlphanum {cs : List Char} (hcs : ∀ c ∈ cs, c.isAlphanum = true) (before : List Char) :
    lowerAfter before cs = cs.map Char.toLower := by
  induction cs generalizing before with
  | nil => rfl
  | cons c rest ih =>
      obtain ⟨hc, hrest⟩ := List.forall_mem_cons.1 hcs
      have hascii := toNat_lt_of_isAlphanum hc
      have hne : ∀ d : Char, 0x80 ≤ d.toNat → c ≠ d := by
        rintro d hd rfl
        omega
      rw [lowerAfter, if_neg (hne 'Σ' (by decide)), if_neg (hne 'İ' (by decide)), lowerChar, if_pos hascii, ih hrest]
      rfl

theorem lowercase_of_isAlphanum {s : String} (hs : ∀ c ∈ s.toList, c.isAlphanum = true) :
    lowercase s = String.ofList (s.toList.map Char.toLower) := by
  rw [lowercase, lowerAfter_of_isAlphanum hs]

theorem isAlphanum_lowercase {s : String} (hs : ∀ c ∈ s.toList, c.isAlphanum = true) :
    ∀ c ∈ (lowercase s).toList, c.isAlphanum = true := by
  rw [lowercase_of_isAlphanum hs, String.toList_ofList]
  exact List.forall_mem_map.2 fun c hc => isAlphanum_toLower (hs c hc)

theorem lowercase_lowercase_of_isAlphanum {s : String} (hs : ∀ c ∈ s.toList, c.isAlphanum = true) :
    lowercase (lowercase s) = lowercase s := by
  rw [lowercase_of_isAlphanum (isAlphanum_lowercase hs), lowercase_of_isAlphanum hs, String.toList_ofList, List.map_map]
  refine congrArg String.ofList (List.map_congr_left fun c hc => ?_)
  have hsame := toLower_toLower_ofNat c.toNat (List.mem_range.2 (toNat_lt_of_isAlphanum (hs c hc)))
  rw [Char.ofNat_toNat] at hsame
  exact hsame

theorem toLower_ofNat_isLower_or_isDigit : ∀ n ∈ List.range 0x80, (Char.ofNat n).isAlphanum = true →
    (Char.ofNat n).toLower.isLower = true ∨ (Char.ofNat n).toLower.isDigit = true := by
  decide +kernel

theorem isLower_or_isDigit_toLower {c : Char} (hc : c.isAlphanum = true) :
    c.toLower.isLower = true ∨ c.toLower.isDigit = true := by
  have hcase := toLower_ofNat_isLower_or_isDigit c.toNat (List.mem_range.2 (toNat_lt_of_isAlphanum hc))
  rw [Char.ofNat_toNat] at hcase
  exact hcase hc

theorem slash_mem_lowercase {s : String} (hs : '/' ∈ s.toList) : '/' ∈ (lowercase s).toList := by
  have hafter : ∀ (cs before : List Char), '/' ∈ cs → '/' ∈ lowerAfter before cs := by
    intro cs
    induction cs with
    | nil => exact fun _ hmem => nomatch hmem
    | cons c rest ih =>
        intro before hmem
        rw [lowerAfter, List.mem_append]
        rcases List.mem_cons.1 hmem with rfl | hmem
        · rw [if_neg (by decide), if_neg (by decide)]
          exact .inl (List.mem_singleton.2 rfl)
        · exact .inr (ih _ hmem)
  rw [lowercase, String.toList_ofList]
  exact hafter _ _ hs

end AddressBook.Text
