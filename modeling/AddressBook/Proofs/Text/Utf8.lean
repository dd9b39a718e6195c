import AddressBook.Text.Utf8
/-!
# UTF-8 there and back

The bytes of a text are sound and decode to the text. A character is one of four forms by its number, and each form
is read by one branch of `pieces`, so there is one lemma for each of them about the bytes at the start of a text.
-/

namespace AddressBook.Text.Utf8

/-! ### Bytes as numbers -/

theorem toNat_ofNat_of_lt {n : Nat} (hn : n < 256) : (UInt8.ofNat n).toNat = n := by
  rw [UInt8.toNat_ofNat', Nat.mod_eq_of_lt hn]

theorem low_continuation {n : Nat} (hn : n < 64) : low (UInt8.ofNat (n + 0x80)) = n := by
  rw [low, toNat_ofNat_of_lt (by omega)]
  omega

theorem isContinuation_continuation {n : Nat} (hn : n < 64) : isContinuation (UInt8.ofNat (n + 0x80)) = true := by
  have hbyte : (UInt8.ofNat (n + 0x80)).toNat = n + 0x80 := toNat_ofNat_of_lt (by omega)
  simp only [isContinuation, Bool.and_eq_true, decide_eq_true_eq, UInt8.le_iff_toNat_le, UInt8.lt_iff_toNat_lt, hbyte,
    UInt8.reduceToNat]
  omega

/-- Which bytes may follow a leading byte, in numbers. -/
theorem isSecond_continuation {lead n : Nat} (hlead : lead < 256) (hn : n < 64) (hlong : lead = 0xE0 → 0x20 ≤ n)
    (hsurrogate : lead = 0xED → n < 0x20) (hplanes : lead = 0xF0 → 0x10 ≤ n) (hlast : lead = 0xF4 → n < 0x10) :
    isSecond (UInt8.ofNat lead) (UInt8.ofNat (n + 0x80)) = true := by
  have hbyte : (UInt8.ofNat (n + 0x80)).toNat = n + 0x80 := toNat_ofNat_of_lt (by omega)
  rw [isSecond, isContinuation_continuation hn, Bool.true_and]
  simp only [← UInt8.toNat_inj, UInt8.le_iff_toNat_le, UInt8.lt_iff_toNat_lt, hbyte, toNat_ofNat_of_lt hlead,
    UInt8.reduceToNat]
  have hgoal : (lead = 0xE0 → 0xA0 ≤ n + 0x80) ∧ (lead = 0xED → n + 0x80 < 0xA0) ∧ (lead = 0xF0 → 0x90 ≤ n + 0x80) ∧
      (lead = 0xF4 → n + 0x80 < 0x90) := by omega
  split <;> simp_all

/-! ### The four forms -/

theorem pieces_one {n : Nat} (rest : Bytes) (hn : n < 0x80) :
    pieces (UInt8.ofNat n :: rest) = some (Char.ofNat n) :: pieces rest := by
  have hbyte : (UInt8.ofNat n).toNat = n := toNat_ofNat_of_lt (by omega)
  have hfirst : UInt8.ofNat n < 0x80 := by
    rw [UInt8.lt_iff_toNat_lt, hbyte]
    exact hn
  rw [pieces.eq_def (_ :: _)]
  dsimp only
  rw [if_pos hfirst, hbyte]

theorem pieces_two {n m : Nat} (rest : Bytes) (hn : 2 ≤ n) (hn' : n < 0x20) (hm : m < 64) :
    pieces (UInt8.ofNat (n + 0xC0) :: UInt8.ofNat (m + 0x80) :: rest) = some (Char.ofNat (n * 64 + m)) :: pieces rest := by
  have hbyte : (UInt8.ofNat (n + 0xC0)).toNat = n + 0xC0 := toNat_ofNat_of_lt (by omega)
  have hfirst : ¬ UInt8.ofNat (n + 0xC0) < 0x80 := by
    simp only [UInt8.lt_iff_toNat_lt, hbyte, UInt8.reduceToNat]
    omega
  have hlead : 0xC2 ≤ UInt8.ofNat (n + 0xC0) ∧ UInt8.ofNat (n + 0xC0) < 0xE0 := by
    simp only [UInt8.le_iff_toNat_le, UInt8.lt_iff_toNat_lt, hbyte, UInt8.reduceToNat]
    omega
  rw [pieces.eq_def (_ :: _)]
  dsimp only
  rw [if_neg hfirst, if_pos hlead]
  simp only [isContinuation_continuation hm, if_true, low_continuation hm, hbyte, Nat.add_sub_cancel]

theorem pieces_three {n m k : Nat} (rest : Bytes) (hn : n < 0x10) (hm : m < 64) (hk : k < 64)
    (hlong : n = 0 → 0x20 ≤ m) (hsurrogate : n = 0xD → m < 0x20) :
    pieces (UInt8.ofNat (n + 0xE0) :: UInt8.ofNat (m + 0x80) :: UInt8.ofNat (k + 0x80) :: rest) =
      some (Char.ofNat ((n * 64 + m) * 64 + k)) :: pieces rest := by
  have hbyte : (UInt8.ofNat (n + 0xE0)).toNat = n + 0xE0 := toNat_ofNat_of_lt (by omega)
  have hfirst : ¬ UInt8.ofNat (n + 0xE0) < 0x80 := by
    simp only [UInt8.lt_iff_toNat_lt, hbyte, UInt8.reduceToNat]
    omega
  have htwo : ¬ (0xC2 ≤ UInt8.ofNat (n + 0xE0) ∧ UInt8.ofNat (n + 0xE0) < 0xE0) := by
    simp only [UInt8.le_iff_toNat_le, UInt8.lt_iff_toNat_lt, hbyte, UInt8.reduceToNat]
    omega
  have hlead : 0xE0 ≤ UInt8.ofNat (n + 0xE0) ∧ UInt8.ofNat (n + 0xE0) < 0xF0 := by
    simp only [UInt8.le_iff_toNat_le, UInt8.lt_iff_toNat_lt, hbyte, UInt8.reduceToNat]
    omega
  have hsecond := @isSecond_continuation (n + 0xE0) m (by omega) hm (by omega) (by omega) (by omega) (by omega)
  rw [pieces.eq_def (_ :: _)]
  dsimp only
  rw [if_neg hfirst, if_neg htwo, if_pos hlead]
  simp only [hsecond, isContinuation_continuation hk, if_true, low_continuation hm, low_continuation hk, hbyte,
    Nat.add_sub_cancel]

theorem pieces_four {n m k l : Nat} (rest : Bytes) (hn : n < 5) (hm : m < 64) (hk : k < 64) (hl : l < 64)
    (hplanes : n = 0 → 0x10 ≤ m) (hlast : n = 4 → m < 0x10) :
    pieces (UInt8.ofNat (n + 0xF0) :: UInt8.ofNat (m + 0x80) :: UInt8.ofNat (k + 0x80) :: UInt8.ofNat (l + 0x80) ::
      rest) = some (Char.ofNat (((n * 64 + m) * 64 + k) * 64 + l)) :: pieces rest := by
  have hbyte : (UInt8.ofNat (n + 0xF0)).toNat = n + 0xF0 := toNat_ofNat_of_lt (by omega)
  have hfirst : ¬ UInt8.ofNat (n + 0xF0) < 0x80 := by
    simp only [UInt8.lt_iff_toNat_lt, hbyte, UInt8.reduceToNat]
    omega
  have htwo : ¬ (0xC2 ≤ UInt8.ofNat (n + 0xF0) ∧ UInt8.ofNat (n + 0xF0) < 0xE0) := by
    simp only [UInt8.le_iff_toNat_le, UInt8.lt_iff_toNat_lt, hbyte, UInt8.reduceToNat]
    omega
  have hthree : ¬ (0xE0 ≤ UInt8.ofNat (n + 0xF0) ∧ UInt8.ofNat (n + 0xF0) < 0xF0) := by
    simp only [UInt8.le_iff_toNat_le, UInt8.lt_iff_toNat_lt, hbyte, UInt8.reduceToNat]
    omega
  have hlead : 0xF0 ≤ UInt8.ofNat (n + 0xF0) ∧ UInt8.ofNat (n + 0xF0) < 0xF5 := by
    simp only [UInt8.le_iff_toNat_le, UInt8.lt_iff_toNat_lt, hbyte, UInt8.reduceToNat]
    omega
  have hsecond := @isSecond_continuation (n + 0xF0) m (by omega) hm (by omega) (by omega) (by omega) (by omega)
  rw [pieces.eq_def (_ :: _)]
  dsimp only
  rw [if_neg hfirst, if_neg htwo, if_neg hthree, if_pos hlead]
  simp only [hsecond, isContinuation_continuation hk, isContinuation_continuation hl, if_true, low_continuation hm,
    low_continuation hk, low_continuation hl, hbyte, Nat.add_sub_cancel]

/-! ### Texts -/

/-- The bytes of a character are one piece, whatever follows them. -/
theorem pieces_utf8EncodeChar_append (c : Char) (rest : Bytes) :
    pieces (String.utf8EncodeChar c ++ rest) = some c :: pieces rest := by
  have hchar : Char.ofNat c.val.toNat = c := Char.ofNat_toNat c
  have hvalid : c.val.toNat < 0xD800 ∨ 0xDFFF < c.val.toNat ∧ c.val.toNat < 0x110000 := c.valid
  unfold String.utf8EncodeChar
  generalize c.val.toNat = v at hchar hvalid
  dsimp only
  by_cases hone : v ≤ 0x7f
  · rw [if_pos hone, List.cons_append, List.nil_append, pieces_one rest (by omega), hchar]
  rw [if_neg hone]
  by_cases htwo : v ≤ 0x7ff
  · rw [if_pos htwo, List.cons_append, List.cons_append, List.nil_append,
      pieces_two rest (by omega) (by omega) (by omega), show v / 64 % 0x20 * 64 + v % 0x40 = v by omega, hchar]
  rw [if_neg htwo]
  by_cases hthree : v ≤ 0xffff
  · rw [if_pos hthree, List.cons_append, List.cons_append, List.cons_append, List.nil_append,
      pieces_three rest (by omega) (by omega) (by omega) (by omega) (by omega),
      show (v / 4096 % 0x10 * 64 + v / 64 % 0x40) * 64 + v % 0x40 = v by omega, hchar]
  · rw [if_neg hthree, List.cons_append, List.cons_append, List.cons_append, List.cons_append, List.nil_append,
      pieces_four rest (by omega) (by omega) (by omega) (by omega) (by omega) (by omega),
      show ((v / 262144 % 0x08 * 64 + v / 4096 % 0x40) * 64 + v / 64 % 0x40) * 64 + v % 0x40 = v by omega, hchar]

/-- A byte below 128 is the whole of a character. -/
theorem eq_ofNat_of_mem_utf8EncodeChar {c : Char} {b : UInt8} (hmem : b ∈ String.utf8EncodeChar c) (hb : b.toNat < 0x80) :
    c = Char.ofNat b.toNat := by
  have hchar : Char.ofNat c.val.toNat = c := Char.ofNat_toNat c
  have hlow : ∀ n lead : Nat, 0x80 ≤ lead → n + lead < 256 → b ≠ UInt8.ofNat (n + lead) := by
    rintro n lead hlead hlt rfl
    rw [toNat_ofNat_of_lt hlt] at hb
    omega
  unfold String.utf8EncodeChar at hmem
  generalize c.val.toNat = v at hchar hmem
  dsimp only at hmem
  split at hmem
  · rename_i hone
    rw [List.mem_singleton.1 hmem, toNat_ofNat_of_lt (by omega), hchar]
  · exfalso
    split at hmem
    · simp only [List.mem_cons, List.not_mem_nil, or_false] at hmem
      rcases hmem with heq | heq <;> exact hlow _ _ (by omega) (by omega) heq
    · split at hmem
      · simp only [List.mem_cons, List.not_mem_nil, or_false] at hmem
        rcases hmem with heq | heq | heq <;> exact hlow _ _ (by omega) (by omega) heq
      · simp only [List.mem_cons, List.not_mem_nil, or_false] at hmem
        rcases hmem with heq | heq | heq | heq <;> exact hlow _ _ (by omega) (by omega) heq

theorem mem_of_mem_encode {cs : List Char} {b : UInt8} (hmem : b ∈ encode cs) (hb : b.toNat < 0x80) :
    Char.ofNat b.toNat ∈ cs := by
  obtain ⟨c, hc, hbyte⟩ := List.mem_flatMap.1 hmem
  exact eq_ofNat_of_mem_utf8EncodeChar hbyte hb ▸ hc

theorem pieces_encode (cs : List Char) : pieces (encode cs) = cs.map some := by
  induction cs with
  | nil => simp [encode, pieces]
  | cons c cs ih =>
      rw [encode, List.flatMap_cons, pieces_utf8EncodeChar_append, List.map_cons]
      exact congrArg _ ih

theorem eq_ofNat_of_encode {c : Char} {cs : List Char} {b : UInt8} {rest : Bytes} (hencode : encode (c :: cs) = b :: rest)
    (hb : b.toNat < 0x80) : c = Char.ofNat b.toNat := by
  have hpieces := pieces_encode (c :: cs)
  have hbyte : b = UInt8.ofNat b.toNat := UInt8.ofNat_toNat.symm
  rw [hencode, hbyte, pieces_one rest hb, List.map_cons] at hpieces
  exact (Option.some.inj (List.cons.inj hpieces).1).symm

theorem encode_ne_nil (c : Char) (cs : List Char) : encode (c :: cs) ≠ [] := by
  intro hnil
  have hpieces := pieces_encode (c :: cs)
  rw [hnil] at hpieces
  simp [pieces] at hpieces

theorem decode?_encode (cs : List Char) : decode? (encode cs) = some cs := by
  rw [decode?, pieces_encode]
  induction cs with
  | nil => rfl
  | cons c cs ih => simp [ih]

/-- A text that is sound throughout is its own sound start. -/
theorem decodeStart_of_decode? {bytes : Bytes} {cs : List Char} (hdecode : decode? bytes = some cs) :
    decodeStart bytes = cs := by
  have hpieces : ∀ {pieces : List (Option Char)} {cs : List Char}, pieces.mapM id = some cs → pieces = cs.map some := by
    intro pieces
    induction pieces with
    | nil =>
        intro cs hcs
        rw [List.mapM_nil, Option.pure_def, Option.some.injEq] at hcs
        rw [← hcs, List.map_nil]
    | cons piece rest ih =>
        intro cs hcs
        simp only [List.mapM_cons, id, Option.pure_def, Option.bind_eq_bind, Option.bind_eq_some_iff,
          Option.some.injEq] at hcs
        obtain ⟨c, rfl, others, hothers, rfl⟩ := hcs
        rw [ih hothers, List.map_cons]
  have hsound : ∀ cs : List Char, ((cs.map some).takeWhile Option.isSome).filterMap id = cs := by
    intro cs
    induction cs with
    | nil => rfl
    | cons c cs ih => exact congrArg (c :: ·) ih
  rw [decodeStart, hpieces hdecode, hsound]

theorem decode?_encodeString (s : String) : decode? (encodeString s) = some s.toList := decode?_encode s.toList

end AddressBook.Text.Utf8
