import AddressBook.Proofs.Assoc
import Mathlib.Data.List.Nodup
import Mathlib.Data.List.Perm.Basic
import Mathlib.Data.List.TakeWhile
/-!
# The order of entries

Merging changes into a list leaves every key where it is and puts the new ones at the end, so merging twice is merging what
the changes make of each other. Removing a key by moving the last entry into the gap keeps the others, but not their order:
that stays only if at most one entry comes after the key.
-/

namespace AddressBook.Assoc

variable {κ α : Type} [DecidableEq κ] {entries first second changes before after : Assoc κ α} {key : κ} {value : α}

/-! ### Merging -/

/-- Lists with the same keys in the same order, each once, differ in what they hold if they differ. -/
theorem ext_get? (hkeys : first.keys = second.keys) (hnodup : first.keys.Nodup)
    (hget : ∀ key, first.get? key = second.get? key) : first = second := by
  induction first generalizing second with
  | nil => exact (List.map_eq_nil_iff.1 hkeys.symm).symm
  | cons entry rest ih =>
      obtain ⟨k, a⟩ := entry
      cases second with
      | nil => nomatch hkeys
      | cons other others =>
          obtain ⟨k', b⟩ := other
          obtain ⟨rfl, hrest⟩ : k = k' ∧ keys rest = keys others := List.cons.inj hkeys
          obtain ⟨hnot, hnodup⟩ : k ∉ keys rest ∧ (keys rest).Nodup := List.nodup_cons.1 hnodup
          have hvalue := hget k
          rw [get?, get?, if_pos rfl, if_pos rfl] at hvalue
          have hothers : ∀ key, get? rest key = get? others key := by
            intro key
            by_cases hkey : k = key
            · subst hkey
              rw [get?_eq_none_iff.2 hnot, get?_eq_none_iff.2 (hrest ▸ hnot)]
            · have hsame := hget key
              rw [get?, get?, if_neg hkey, if_neg hkey] at hsame
              exact hsame
          rw [Option.some.inj hvalue, ih hrest hnodup hothers]

theorem insert_insert_self (entries : Assoc κ α) (key : κ) (first second : α) :
    (entries.insert key first).insert key second = entries.insert key second := by
  induction entries with
  | nil => exact if_pos rfl
  | cons entry rest ih =>
      obtain ⟨k, a⟩ := entry
      by_cases hk : k = key
      · rw [insert, if_pos hk, insert, if_pos hk, insert, if_pos hk]
      · rw [insert, if_neg hk, insert, if_neg hk, insert, if_neg hk, ih]

theorem mem_insert_of_ne {entry : κ × α} (hmem : entry ∈ entries) (hne : entry.1 ≠ key) : entry ∈ entries.insert key value := by
  induction entries with
  | nil => nomatch hmem
  | cons first rest ih =>
      obtain ⟨k, a⟩ := first
      rw [insert]
      split
      · rename_i hk
        rcases List.mem_cons.1 hmem with rfl | hmem
        · exact absurd hk hne
        · exact List.mem_cons_of_mem _ hmem
      · rcases List.mem_cons.1 hmem with rfl | hmem
        · exact List.mem_cons_self
        · exact List.mem_cons_of_mem _ (ih hmem)

theorem not_mem_keys_extend (hentries : key ∉ entries.keys) (hchanges : key ∉ changes.keys) :
    key ∉ (entries.extend changes).keys := by
  intro hmem
  obtain ⟨entry, hentry, rfl⟩ := List.mem_map.1 hmem
  rcases mem_extend hentry with hentry | hentry
  · exact hchanges (List.mem_map_of_mem hentry)
  · exact hentries (List.mem_map_of_mem hentry)

theorem get?_extend (entries : Assoc κ α) (hchanges : changes.keys.Nodup) (key : κ) :
    (entries.extend changes).get? key = (changes.get? key).or (entries.get? key) := by
  cases hget : changes.get? key with
  | none => exact get?_extend_of_not_mem entries (get?_eq_none_iff.1 hget)
  | some value => exact get?_extend_of_mem entries hchanges (mem_of_get?_eq_some hget)

/-- Keys that are there keep their places, and the others come after them in the order of the changes. -/
theorem keys_extend (entries : Assoc κ α) (hchanges : changes.keys.Nodup) :
    (entries.extend changes).keys = entries.keys ++ changes.keys.filter (· ∉ entries.keys) := by
  induction changes generalizing entries with
  | nil => exact (List.append_nil _).symm
  | cons change rest ih =>
      obtain ⟨key, value⟩ := change
      obtain ⟨hnot, hrest⟩ := List.nodup_cons.1 hchanges
      change _ = _ ++ List.filter _ (key :: keys rest)
      rw [extend_cons, ih _ hrest]
      by_cases hkey : key ∈ entries.keys
      · rw [keys_insert_of_mem value hkey, List.filter_cons_of_neg (by simpa using hkey)]
      · have hkeys : (entries.insert key value).keys = entries.keys ++ [key] := by
          rw [insert_of_not_mem value hkey, keys, List.map_append]
          rfl
        have hothers : (keys rest).filter (· ∉ entries.keys ++ [key]) = (keys rest).filter (· ∉ entries.keys) := by
          refine List.filter_congr fun other hother => ?_
          have hne : other ≠ key := fun heq => hnot (heq ▸ hother)
          simp [hne]
        rw [hkeys, hothers, List.filter_cons_of_pos (by simpa using hkey), List.append_assoc]
        rfl

theorem extend_extend (hentries : entries.keys.Nodup) (hfirst : first.keys.Nodup) (hsecond : second.keys.Nodup) :
    (entries.extend first).extend second = entries.extend (first.extend second) := by
  have hboth : (first.extend second).keys.Nodup := nodup_keys_extend hfirst second
  refine ext_get? ?_ (nodup_keys_extend (nodup_keys_extend hentries first) second) fun key => ?_
  · rw [keys_extend _ hsecond, keys_extend entries hfirst, keys_extend entries hboth, keys_extend first hsecond,
      List.filter_append, List.filter_filter, List.append_assoc]
    have hnew : second.keys.filter (· ∉ entries.keys ++ first.keys.filter (· ∉ entries.keys)) =
        second.keys.filter fun key => key ∉ entries.keys && key ∉ first.keys := by
      refine List.filter_congr fun key _ => ?_
      by_cases hentry : key ∈ entries.keys <;> simp [hentry]
    rw [hnew]
  · rw [get?_extend _ hsecond, get?_extend _ hfirst, get?_extend _ hboth, get?_extend _ hsecond, Option.or_assoc]

theorem extend_self (hchanges : changes.keys.Nodup) : changes.extend changes = changes := by
  refine ext_get? ?_ (nodup_keys_extend hchanges changes) fun key => ?_
  · rw [keys_extend _ hchanges, List.filter_eq_nil_iff.2 (by simp), List.append_nil]
  · rw [get?_extend _ hchanges, Option.or_self]

theorem extend_extend_self (hentries : entries.keys.Nodup) (hchanges : changes.keys.Nodup) :
    (entries.extend changes).extend changes = entries.extend changes := by
  rw [extend_extend hentries hchanges hchanges, extend_self hchanges]

/-! ### Removing -/

/-- The entries from a key on; none if the key is not there. -/
def fromKey (entries : Assoc κ α) (key : κ) : Assoc κ α := entries.dropWhile (·.1 ≠ key)

theorem fromKey_of_not_mem (hkey : key ∉ entries.keys) : entries.fromKey key = [] := by
  refine List.dropWhile_eq_nil_iff.2 fun entry hmem => decide_eq_true ?_
  rintro rfl
  exact hkey (List.mem_map_of_mem hmem)

theorem fromKey_append (hbefore : key ∉ before.keys) : fromKey (before ++ (key, value) :: after) key = (key, value) :: after := by
  have hnone : (before.fromKey key).isEmpty = true := List.isEmpty_iff.2 (fromKey_of_not_mem hbefore)
  rw [fromKey] at hnone ⊢
  rw [List.dropWhile_append, if_pos hnone, List.dropWhile_cons_of_neg (by simp)]

theorem erase_append (hbefore : key ∉ before.keys) (hafter : key ∉ after.keys) :
    erase (before ++ (key, value) :: after) key = before ++ after := by
  rw [erase, List.filter_append, List.filter_cons_of_neg (by simp)]
  exact congrArg₂ _ (erase_of_not_mem hbefore) (erase_of_not_mem hafter)

theorem replaceAt_append (hbefore : key ∉ before.keys) (entry : κ × α) :
    replaceAt key entry (before ++ (key, value) :: after) = before ++ entry :: after := by
  induction before with
  | nil => exact if_pos rfl
  | cons other rest ih =>
      obtain ⟨hne, hrest⟩ := not_or.1 (mt List.mem_cons.2 hbefore)
      rw [List.cons_append, replaceAt, if_neg (Ne.symm hne), ih hrest, List.cons_append]

theorem swapErase_of_not_mem (hkey : key ∉ entries.keys) : entries.swapErase key = entries := by
  unfold swapErase
  split
  · rename_i hnone
    exact (List.getLast?_eq_none_iff.1 hnone).symm
  · rw [get?_eq_none_iff.2 hkey]
    rfl

theorem swapErase_concat (before : Assoc κ α) (key : κ) (value : α) : swapErase (before ++ [(key, value)]) key = before := by
  have hthere : (get? (before ++ [(key, value)]) key).isNone = false := by
    rw [Option.isNone_eq_false_iff, Option.isSome_iff_ne_none, Ne, get?_eq_none_iff]
    simp [keys]
  unfold swapErase
  rw [List.getLast?_concat]
  dsimp only
  rw [hthere, if_neg (by decide), if_pos rfl, List.dropLast_concat]

theorem swapErase_append_concat (hbefore : key ∉ before.keys) {last : κ × α} (hlast : last.1 ≠ key) :
    swapErase (before ++ (key, value) :: (after ++ [last])) key = before ++ last :: after := by
  have hlist : before ++ (key, value) :: (after ++ [last]) = (before ++ (key, value) :: after) ++ [last] := by simp
  have hthere : (get? (before ++ (key, value) :: (after ++ [last])) key).isNone = false := by
    rw [Option.isNone_eq_false_iff, Option.isSome_iff_ne_none, Ne, get?_eq_none_iff]
    simp [keys]
  unfold swapErase
  rw [hlist, List.getLast?_concat]
  dsimp only
  rw [← hlist, hthere, if_neg (by decide), if_neg hlast, hlist, List.dropLast_concat, replaceAt_append hbefore]

/-- Where a key can stand in a list: nowhere, at its end, or before its last entry. -/
theorem key_cases (hnodup : entries.keys.Nodup) (key : κ) :
    key ∉ entries.keys ∨
    (∃ (before : Assoc κ α) (value : α), entries = before ++ [(key, value)] ∧ key ∉ before.keys) ∨
    ∃ (before : Assoc κ α) (value : α) (after : Assoc κ α) (last : κ × α),
      entries = before ++ (key, value) :: (after ++ [last]) ∧ key ∉ before.keys ∧ key ∉ keys (after ++ [last]) ∧
        last ∉ after := by
  by_cases hkey : key ∈ entries.keys
  · obtain ⟨entry, hmem, rfl⟩ := List.mem_map.1 hkey
    obtain ⟨before, after, rfl⟩ := List.append_of_mem hmem
    rw [keys, List.map_append, List.map_cons, List.nodup_middle, List.nodup_cons, List.mem_append, not_or] at hnodup
    obtain ⟨⟨hbefore, hafter⟩, hothers⟩ := hnodup
    have hafterNodup : (keys after).Nodup := (List.nodup_append.1 hothers).2.1
    rcases List.eq_nil_or_concat after with rfl | ⟨front, last, rfl⟩
    · exact .inr (.inl ⟨before, entry.2, rfl, hbefore⟩)
    · rw [List.concat_eq_append] at hafter hafterNodup ⊢
      have hlast : last.1 ∉ keys front := (nodup_keys_concat_iff.1 hafterNodup).2
      exact .inr (.inr ⟨before, entry.2, front, last, rfl, hbefore, hafter, mt List.mem_map_of_mem hlast⟩)
  · exact .inl hkey

theorem swapErase_perm_erase (hnodup : entries.keys.Nodup) (key : κ) : (entries.swapErase key).Perm (entries.erase key) := by
  rcases key_cases hnodup key with hkey | ⟨before, value, rfl, hbefore⟩ | ⟨before, value, after, last, rfl, hbefore, hafter, -⟩
  · rw [swapErase_of_not_mem hkey, erase_of_not_mem hkey]
  · rw [swapErase_concat, erase_append hbefore List.not_mem_nil, List.append_nil]
  · have hlast : last.1 ≠ key := fun heq => hafter (by simp [keys, heq])
    rw [swapErase_append_concat hbefore hlast, erase_append hbefore hafter]
    exact (List.perm_append_singleton last after).symm.append_left before

/-- The others keep their order if no more than one of them comes after the key. -/
theorem swapErase_eq_erase_iff (hnodup : entries.keys.Nodup) (key : κ) :
    entries.swapErase key = entries.erase key ↔ (entries.fromKey key).length ≤ 2 := by
  rcases key_cases hnodup key with hkey | ⟨before, value, rfl, hbefore⟩ |
    ⟨before, value, after, last, rfl, hbefore, hafter, hlastAfter⟩
  · rw [swapErase_of_not_mem hkey, erase_of_not_mem hkey, fromKey_of_not_mem hkey]
    exact iff_of_true rfl (Nat.zero_le 2)
  · rw [swapErase_concat, erase_append hbefore List.not_mem_nil, fromKey_append hbefore, List.append_nil]
    exact iff_of_true rfl (Nat.le_succ 1)
  · have hlast : last.1 ≠ key := fun heq => hafter (by simp [keys, heq])
    rw [swapErase_append_concat hbefore hlast, erase_append hbefore hafter, fromKey_append hbefore, List.append_cancel_left_eq]
    cases after with
    | nil => exact iff_of_true rfl (Nat.le_refl 2)
    | cons next rest =>
        refine iff_of_false (fun heq => ?_) (by simp)
        exact hlastAfter ((List.cons.inj heq).1 ▸ List.mem_cons_self)

end AddressBook.Assoc
