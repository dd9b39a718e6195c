import AddressBook.Assoc
/-!
# Keys of association lists

Every operation on association lists keeps the keys pairwise distinct, and no operation makes up an entry. With
distinct keys a list is determined by its look-ups, and building it from its own entries gives it back.
-/

namespace AddressBook.Assoc

variable {κ α : Type}

theorem nodup_keys_concat_iff {entries : Assoc κ α} {entry : κ × α} :
    (keys (entries ++ [entry])).Nodup ↔ entries.keys.Nodup ∧ entry.1 ∉ entries.keys := by
  rw [keys, List.map_append, List.nodup_append]
  constructor
  · rintro ⟨hentries, -, hdisjoint⟩
    exact ⟨hentries, fun hmem => hdisjoint _ hmem _ (List.mem_singleton_self _) rfl⟩
  · rintro ⟨hentries, hentry⟩
    refine ⟨hentries, List.pairwise_singleton _ _, fun key hkey other hother heq => hentry ?_⟩
    rw [← List.mem_singleton.1 hother, ← heq]
    exact hkey

variable [DecidableEq κ]

/-! ### Look-ups and entries -/

theorem get?_eq_none_iff {entries : Assoc κ α} {key : κ} : entries.get? key = none ↔ key ∉ entries.keys := by
  induction entries with
  | nil => simp [keys]
  | cons entry rest ih =>
      obtain ⟨k, a⟩ := entry
      by_cases hk : k = key
      · simp [get?, keys, hk]
      · rw [get?, if_neg hk, ih]
        simp [keys, Ne.symm hk]

theorem mem_of_get?_eq_some {entries : Assoc κ α} {key : κ} {value : α} (hget : entries.get? key = some value) :
    (key, value) ∈ entries := by
  induction entries with
  | nil => simp at hget
  | cons entry rest ih =>
      obtain ⟨k, a⟩ := entry
      by_cases hk : k = key
      · rw [get?, if_pos hk, Option.some.injEq] at hget
        simp [hk, hget]
      · rw [get?, if_neg hk] at hget
        exact List.mem_cons_of_mem _ (ih hget)

theorem get?_eq_some_iff_mem {entries : Assoc κ α} (hnodup : entries.keys.Nodup) {key : κ} {value : α} :
    entries.get? key = some value ↔ (key, value) ∈ entries := by
  refine ⟨mem_of_get?_eq_some, fun hmem => ?_⟩
  induction entries with
  | nil => simp at hmem
  | cons entry rest ih =>
      obtain ⟨k, a⟩ := entry
      obtain ⟨hk, hrest⟩ := List.nodup_cons.1 hnodup
      rcases List.mem_cons.1 hmem with heq | hmem
      · obtain ⟨rfl, rfl⟩ := Prod.mk.inj heq
        rw [get?, if_pos rfl]
      · have hkey : key ∈ rest.map Prod.fst := List.mem_map.2 ⟨_, hmem, rfl⟩
        have hne : k ≠ key := fun heq => hk (heq ▸ hkey)
        rw [get?, if_neg hne]
        exact ih hrest hmem

/-- With distinct keys the order of the entries makes no difference to the look-ups. -/
theorem get?_of_perm {entries entries' : Assoc κ α} (hperm : entries'.Perm entries) (hnodup : entries.keys.Nodup)
    (key : κ) : entries'.get? key = entries.get? key := by
  have hnodup' : entries'.keys.Nodup := (hperm.map Prod.fst).nodup_iff.2 hnodup
  refine Option.ext fun value => ?_
  rw [get?_eq_some_iff_mem hnodup', get?_eq_some_iff_mem hnodup]
  exact hperm.mem_iff

theorem get?_append (first second : Assoc κ α) (key : κ) :
    get? (first ++ second) key = (first.get? key).or (second.get? key) := by
  induction first with
  | nil => rfl
  | cons entry rest ih =>
      obtain ⟨k, a⟩ := entry
      by_cases hk : k = key
      · simp [get?, hk]
      · simp [get?, hk, ih]

/-- Among the entries whose values are kept, a key has the value that it had, if that is one of them. -/
theorem get?_filter {entries : Assoc κ α} (hnodup : entries.keys.Nodup) (kept : α → Bool) (key : κ) :
    get? (entries.filter fun entry => kept entry.2) key = (entries.get? key).filter kept := by
  have hkeys : (keys (entries.filter fun entry => kept entry.2)).Nodup := hnodup.sublist (List.filter_sublist.map _)
  refine Option.ext fun value => ?_
  rw [get?_eq_some_iff_mem hkeys, List.mem_filter, ← get?_eq_some_iff_mem hnodup, Option.filter_eq_some_iff]

/-! ### Inserting -/

theorem insert_of_not_mem {entries : Assoc κ α} {key : κ} (value : α) (hkey : key ∉ entries.keys) :
    entries.insert key value = entries ++ [(key, value)] := by
  induction entries with
  | nil => rfl
  | cons entry rest ih =>
      obtain ⟨k, a⟩ := entry
      have hne : k ≠ key := fun heq => hkey (heq ▸ List.mem_cons_self)
      have hrest : key ∉ keys rest := fun hmem => hkey (List.mem_cons_of_mem _ hmem)
      rw [insert, if_neg hne, ih hrest, List.cons_append]

theorem keys_insert_of_mem {entries : Assoc κ α} {key : κ} (value : α) (hkey : key ∈ entries.keys) :
    (entries.insert key value).keys = entries.keys := by
  induction entries with
  | nil => simp [keys] at hkey
  | cons entry rest ih =>
      obtain ⟨k, a⟩ := entry
      by_cases hk : k = key
      · simp [insert, keys, hk]
      · have hrest : key ∈ keys rest := (List.mem_cons.1 hkey).resolve_left (Ne.symm hk)
        rw [insert, if_neg hk]
        exact congrArg (k :: ·) (ih hrest)

theorem mem_insert {entries : Assoc κ α} {key : κ} {value : α} {entry : κ × α}
    (hmem : entry ∈ entries.insert key value) : entry = (key, value) ∨ entry ∈ entries := by
  induction entries with
  | nil => exact .inl (List.mem_singleton.1 hmem)
  | cons first rest ih =>
      obtain ⟨k, a⟩ := first
      by_cases hk : k = key
      · rw [insert, if_pos hk] at hmem
        rcases List.mem_cons.1 hmem with rfl | hmem
        · exact .inl (by rw [hk])
        · exact .inr (List.mem_cons_of_mem _ hmem)
      · rw [insert, if_neg hk] at hmem
        rcases List.mem_cons.1 hmem with rfl | hmem
        · exact .inr List.mem_cons_self
        · exact (ih hmem).imp_right (List.mem_cons_of_mem _)

theorem nodup_keys_insert {entries : Assoc κ α} (hnodup : entries.keys.Nodup) (key : κ) (value : α) :
    (entries.insert key value).keys.Nodup := by
  by_cases hkey : key ∈ entries.keys
  · rw [keys_insert_of_mem value hkey]
    exact hnodup
  · rw [insert_of_not_mem value hkey, keys, List.map_append]
    refine List.nodup_append.2 ⟨hnodup, by simp, ?_⟩
    intro k hk other hother heq
    obtain rfl : other = key := by simpa using hother
    exact hkey (heq ▸ hk)

theorem extend_cons (entries : Assoc κ α) (key : κ) (value : α) (changes : Assoc κ α) :
    entries.extend ((key, value) :: changes) = (entries.insert key value).extend changes := rfl

theorem insert_ne_nil (entries : Assoc κ α) (key : κ) (value : α) : entries.insert key value ≠ [] := by
  cases entries with
  | nil => exact List.cons_ne_nil _ _
  | cons entry rest =>
      obtain ⟨k, a⟩ := entry
      rw [insert]
      split
      · exact List.cons_ne_nil _ _
      · exact List.cons_ne_nil _ _

theorem extend_ne_nil {entries : Assoc κ α} (hentries : entries ≠ []) (changes : Assoc κ α) :
    entries.extend changes ≠ [] := by
  induction changes generalizing entries with
  | nil => exact hentries
  | cons change rest ih => exact ih (insert_ne_nil entries change.1 change.2)

theorem nodup_keys_extend {entries : Assoc κ α} (hnodup : entries.keys.Nodup) (changes : Assoc κ α) :
    (entries.extend changes).keys.Nodup := by
  induction changes generalizing entries with
  | nil => exact hnodup
  | cons change rest ih => exact ih (nodup_keys_insert hnodup change.1 change.2)

theorem mem_extend {entries changes : Assoc κ α} {entry : κ × α} (hmem : entry ∈ entries.extend changes) :
    entry ∈ changes ∨ entry ∈ entries := by
  induction changes generalizing entries with
  | nil => exact .inr hmem
  | cons change rest ih =>
      rcases ih hmem with hmem | hmem
      · exact .inl (List.mem_cons_of_mem _ hmem)
      · rcases mem_insert hmem with rfl | hmem
        · exact .inl List.mem_cons_self
        · exact .inr hmem

theorem get?_extend_of_not_mem (entries : Assoc κ α) {changes : Assoc κ α} {key : κ} (hkey : key ∉ changes.keys) :
    (entries.extend changes).get? key = entries.get? key := by
  induction changes generalizing entries with
  | nil => rfl
  | cons change rest ih =>
      obtain ⟨hne, hrest⟩ := not_or.1 (mt List.mem_cons.2 hkey)
      rw [extend_cons, ih _ hrest, get?_insert_of_ne entries change.2 hne]

theorem get?_extend_of_mem (entries : Assoc κ α) {changes : Assoc κ α} (hnodup : changes.keys.Nodup) {entry : κ × α}
    (hmem : entry ∈ changes) : (entries.extend changes).get? entry.1 = some entry.2 := by
  induction changes generalizing entries with
  | nil => nomatch hmem
  | cons change rest ih =>
      obtain ⟨hnot, hnodup⟩ := List.nodup_cons.1 hnodup
      rw [extend_cons]
      rcases List.mem_cons.1 hmem with rfl | hmem
      · rw [get?_extend_of_not_mem _ hnot, get?_insert_self]
      · exact ih _ hnodup hmem

theorem extend_of_disjoint {entries changes : Assoc κ α} (hnodup : (entries ++ changes).keys.Nodup) :
    entries.extend changes = entries ++ changes := by
  induction changes generalizing entries with
  | nil => exact (List.append_nil entries).symm
  | cons change rest ih =>
      obtain ⟨key, value⟩ := change
      have hkey : key ∉ entries.keys := by
        rw [keys, List.map_append] at hnodup
        exact fun hmem => (List.nodup_append.1 hnodup).2.2 key hmem key List.mem_cons_self rfl
      have happend : entries ++ [(key, value)] ++ rest = entries ++ (key, value) :: rest := by simp
      rw [extend_cons, insert_of_not_mem value hkey, ih (happend ▸ hnodup), happend]

/-! ### Building -/

theorem nodup_keys_ofList (entries : List (κ × α)) : (Assoc.ofList entries).keys.Nodup :=
  @nodup_keys_extend κ α _ [] List.nodup_nil entries

theorem mem_of_mem_ofList {entries : List (κ × α)} {entry : κ × α} (hmem : entry ∈ Assoc.ofList entries) :
    entry ∈ entries :=
  (mem_extend hmem).resolve_right List.not_mem_nil

theorem ofList_eq_self {entries : List (κ × α)} (hnodup : (Assoc.keys entries).Nodup) :
    Assoc.ofList entries = entries :=
  @extend_of_disjoint κ α _ [] entries hnodup

/-! ### Removing -/

theorem keys_erase (entries : Assoc κ α) (key : κ) : (entries.erase key).keys = entries.keys.filter (· ≠ key) := by
  rw [keys, erase, keys, List.filter_map]
  rfl

theorem erase_of_not_mem {entries : Assoc κ α} {key : κ} (hkey : key ∉ entries.keys) : entries.erase key = entries := by
  refine List.filter_eq_self.2 fun entry hmem => ?_
  have hne : entry.1 ≠ key := by
    rintro rfl
    exact hkey (List.mem_map_of_mem hmem)
  exact decide_eq_true hne

theorem mem_replaceAt {key : κ} {entry other : κ × α} {entries : Assoc κ α}
    (hmem : other ∈ replaceAt key entry entries) : other = entry ∨ other ∈ entries := by
  induction entries with
  | nil => simp [replaceAt] at hmem
  | cons first rest ih =>
      obtain ⟨k, a⟩ := first
      by_cases hk : k = key
      · rw [replaceAt, if_pos hk] at hmem
        exact (List.mem_cons.1 hmem).imp_right (List.mem_cons_of_mem _)
      · rw [replaceAt, if_neg hk] at hmem
        rcases List.mem_cons.1 hmem with rfl | hmem
        · exact .inr List.mem_cons_self
        · exact (ih hmem).imp_right (List.mem_cons_of_mem _)

theorem nodup_keys_replaceAt {key : κ} {entry : κ × α} {entries : Assoc κ α} (hnodup : entries.keys.Nodup)
    (hentry : entry.1 ∉ entries.keys) : (keys (replaceAt key entry entries)).Nodup := by
  induction entries with
  | nil => exact List.nodup_nil
  | cons first rest ih =>
      obtain ⟨k, a⟩ := first
      obtain ⟨hk, hrest⟩ := List.nodup_cons.1 hnodup
      have hentryRest : entry.1 ∉ keys rest := fun hmem => hentry (List.mem_cons_of_mem _ hmem)
      by_cases heq : k = key
      · rw [replaceAt, if_pos heq]
        exact List.nodup_cons.2 ⟨hentryRest, hrest⟩
      · rw [replaceAt, if_neg heq]
        refine List.nodup_cons.2 ⟨fun hmem => ?_, ih hrest hentryRest⟩
        obtain ⟨other, hother, hsame⟩ := List.mem_map.1 hmem
        rcases mem_replaceAt hother with rfl | hother
        · exact hentry (hsame ▸ List.mem_cons_self)
        · exact hk (hsame ▸ List.mem_map_of_mem hother)

theorem not_mem_keys_replaceAt {key : κ} {entry : κ × α} {entries : Assoc κ α} (hnodup : entries.keys.Nodup)
    (hentry : entry.1 ≠ key) : key ∉ keys (replaceAt key entry entries) := by
  induction entries with
  | nil => simp [replaceAt, keys]
  | cons first rest ih =>
      obtain ⟨k, a⟩ := first
      obtain ⟨hk, hrest⟩ := List.nodup_cons.1 hnodup
      by_cases heq : k = key
      · rw [replaceAt, if_pos heq]
        exact List.not_mem_cons_of_ne_of_not_mem (Ne.symm hentry) (heq ▸ hk)
      · rw [replaceAt, if_neg heq]
        exact List.not_mem_cons_of_ne_of_not_mem (Ne.symm heq) (ih hrest)

theorem mem_swapErase {entries : Assoc κ α} {key : κ} {entry : κ × α} (hmem : entry ∈ entries.swapErase key) :
    entry ∈ entries := by
  unfold swapErase at hmem
  split at hmem
  · simp at hmem
  · rename_i last hlast
    split at hmem
    · exact hmem
    · split at hmem
      · exact List.dropLast_subset entries hmem
      · rcases mem_replaceAt hmem with rfl | hmem
        · exact List.mem_of_getLast? hlast
        · exact List.dropLast_subset entries hmem

theorem nodup_keys_swapErase {entries : Assoc κ α} (hnodup : entries.keys.Nodup) (key : κ) :
    (entries.swapErase key).keys.Nodup := by
  unfold swapErase
  split
  · exact List.nodup_nil
  · rename_i last hlast
    obtain ⟨before, rfl⟩ := List.getLast?_eq_some_iff.1 hlast
    rw [List.dropLast_concat]
    obtain ⟨hbefore, hlastKey⟩ := nodup_keys_concat_iff.1 hnodup
    split
    · exact hnodup
    · split
      · exact hbefore
      · exact nodup_keys_replaceAt hbefore hlastKey

theorem not_mem_keys_swapErase {entries : Assoc κ α} (hnodup : entries.keys.Nodup) (key : κ) :
    key ∉ (entries.swapErase key).keys := by
  unfold swapErase
  split
  · exact List.not_mem_nil
  · rename_i last hlast
    obtain ⟨before, rfl⟩ := List.getLast?_eq_some_iff.1 hlast
    rw [List.dropLast_concat]
    obtain ⟨hbefore, hlastKey⟩ := nodup_keys_concat_iff.1 hnodup
    split
    · rename_i hnone
      exact get?_eq_none_iff.1 (Option.isNone_iff_eq_none.1 hnone)
    · split
      · rename_i heq
        exact heq ▸ hlastKey
      · rename_i hne
        exact not_mem_keys_replaceAt hbefore hne

theorem mem_replaceAt_of_ne {key : κ} {entry other : κ × α} {entries : Assoc κ α} (hmem : other ∈ entries)
    (hne : other.1 ≠ key) : other ∈ replaceAt key entry entries := by
  induction entries with
  | nil => exact hmem
  | cons first rest ih =>
      obtain ⟨k, a⟩ := first
      rw [replaceAt]
      split
      · rename_i hk
        rcases List.mem_cons.1 hmem with rfl | hmem
        · exact absurd hk hne
        · exact List.mem_cons_of_mem _ hmem
      · rcases List.mem_cons.1 hmem with rfl | hmem
        · exact List.mem_cons_self
        · exact List.mem_cons_of_mem _ (ih hmem)

theorem mem_replaceAt_self {key : κ} (entry : κ × α) {entries : Assoc κ α} (hkey : key ∈ entries.keys) :
    entry ∈ replaceAt key entry entries := by
  induction entries with
  | nil => simp [keys] at hkey
  | cons first rest ih =>
      obtain ⟨k, a⟩ := first
      rw [replaceAt]
      split
      · exact List.mem_cons_self
      · rename_i hk
        exact List.mem_cons_of_mem _ (ih ((List.mem_cons.1 hkey).resolve_left (Ne.symm hk)))

theorem mem_swapErase_of_ne {entries : Assoc κ α} {key : κ} {entry : κ × α} (hmem : entry ∈ entries) (hne : entry.1 ≠ key) :
    entry ∈ entries.swapErase key := by
  unfold swapErase
  split
  · rename_i hnone
    rw [List.getLast?_eq_none_iff.1 hnone] at hmem
    exact hmem
  · rename_i last hlast
    obtain ⟨before, rfl⟩ := List.getLast?_eq_some_iff.1 hlast
    rw [List.dropLast_concat]
    split
    · exact hmem
    · rename_i hsome
      have hkey : key ∈ keys (before ++ [last]) := by
        refine Decidable.not_not.1 fun habsent => hsome ?_
        exact Option.isNone_iff_eq_none.2 (get?_eq_none_iff.2 habsent)
      split
      · rename_i hlastKey
        rcases List.mem_append.1 hmem with hmem | hmem
        · exact hmem
        · rw [List.mem_singleton.1 hmem] at hne
          exact absurd hlastKey hne
      · rename_i hlastKey
        rcases List.mem_append.1 hmem with hmem | hmem
        · exact mem_replaceAt_of_ne hmem hne
        · rw [List.mem_singleton.1 hmem]
          refine mem_replaceAt_self last ?_
          rw [keys, List.map_append, List.mem_append] at hkey
          exact hkey.resolve_right fun hlast => hlastKey (List.mem_singleton.1 hlast).symm

theorem get?_swapErase_of_ne {entries : Assoc κ α} (hnodup : entries.keys.Nodup) {key other : κ} (hne : other ≠ key) :
    (entries.swapErase key).get? other = entries.get? other := by
  refine Option.ext fun value => ?_
  rw [get?_eq_some_iff_mem hnodup, get?_eq_some_iff_mem (nodup_keys_swapErase hnodup key)]
  exact ⟨mem_swapErase, fun hmem => mem_swapErase_of_ne hmem hne⟩

end AddressBook.Assoc
