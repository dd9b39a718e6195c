/-!
# Outcomes

A computation that may fail ends well exactly when every part of it does, and fails as its first part that
fails. The lemmas read the outcome of a sequence and of a translated failure off the parts, so that no later
proof has to take the computations of the library apart.
-/

namespace Except

variable {ε δ α β : Type}

theorem bind_eq_ok_iff {x : Except ε α} {f : α → Except ε β} {b : β} :
    x >>= f = .ok b ↔ ∃ a, x = .ok a ∧ f a = .ok b := by
  cases x <;> simp [bind, Except.bind]

theorem bind_eq_error_iff {x : Except ε α} {f : α → Except ε β} {e : ε} :
    x >>= f = .error e ↔ x = .error e ∨ ∃ a, x = .ok a ∧ f a = .error e := by
  cases x <;> simp [bind, Except.bind]

/-- A step without a result counts for its success only. -/
theorem then_eq_ok_iff {x : Except ε Unit} {y : Except ε β} {b : β} :
    (x >>= fun _ => y) = .ok b ↔ x = .ok () ∧ y = .ok b := by
  rw [bind_eq_ok_iff]
  exact ⟨fun ⟨(), hx, hy⟩ => ⟨hx, hy⟩, fun ⟨hx, hy⟩ => ⟨(), hx, hy⟩⟩

theorem pure_eq_ok_iff {a b : α} : (pure a : Except ε α) = .ok b ↔ a = b := by
  simp [pure, Except.pure]

theorem map_eq_ok_iff {x : Except ε α} {f : α → β} {b : β} :
    x.map f = .ok b ↔ ∃ a, x = .ok a ∧ f a = b := by
  cases x <;> simp [Except.map]

theorem map_eq_error_iff {x : Except ε α} {f : α → β} {e : ε} : x.map f = .error e ↔ x = .error e := by
  cases x <;> simp [Except.map]

theorem mapError_eq_ok_iff {x : Except ε α} {f : ε → δ} {a : α} : x.mapError f = .ok a ↔ x = .ok a := by
  cases x with
  | error fault => exact ⟨nofun, nofun⟩
  | ok value => exact ⟨fun heq => congrArg _ (Except.ok.inj heq), fun heq => congrArg _ (Except.ok.inj heq)⟩

/-! ### Checks of all elements of a list -/

section ForM

variable {check : α → Except ε Unit} {elements : List α}

theorem forM_eq_ok_iff : forM elements check = .ok () ↔ ∀ element ∈ elements, check element = .ok () := by
  induction elements with
  | nil => simp [pure_eq_ok_iff]
  | cons first rest ih => rw [List.forM_cons, then_eq_ok_iff, ih, List.forall_mem_cons]

theorem forM_eq_error_iff {e : ε} :
    forM elements check = .error e ↔ ∃ before element after, elements = before ++ element :: after ∧
      (∀ earlier ∈ before, check earlier = .ok ()) ∧ check element = .error e := by
  constructor
  · intro hfails
    induction elements with
    | nil => nomatch hfails
    | cons first rest ih =>
        rw [List.forM_cons, bind_eq_error_iff] at hfails
        rcases hfails with hfirst | ⟨⟨⟩, hpass, hrest⟩
        · exact ⟨[], first, rest, rfl, List.forall_mem_nil _, hfirst⟩
        · obtain ⟨before, element, after, rfl, hbefore, helement⟩ := ih hrest
          exact ⟨first :: before, element, after, rfl, List.forall_mem_cons.2 ⟨hpass, hbefore⟩, helement⟩
  · rintro ⟨before, element, after, rfl, hbefore, helement⟩
    induction before with
    | nil =>
        rw [List.nil_append, List.forM_cons, bind_eq_error_iff]
        exact .inl helement
    | cons first rest ih =>
        obtain ⟨hfirst, hrest⟩ := List.forall_mem_cons.1 hbefore
        rw [List.cons_append, List.forM_cons, bind_eq_error_iff]
        exact .inr ⟨(), hfirst, ih hrest⟩

end ForM

end Except
