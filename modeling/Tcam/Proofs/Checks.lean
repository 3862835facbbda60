import Tcam.Error

/-!
# Chains of checks

A chain of checks gives a value exactly when every check in it does, and the
error of the first that does not.  The checks of arguments refuse them.  Steps that
change a state chain in the same way.
-/

namespace Tcam

/-- The argument is refused. -/
def Error.IsRefusal (e : Error) : Prop :=
  ∃ cause, e = .invalidArgument cause

theorem Error.IsRefusal.not_retryable {e : Error} (h : e.IsRefusal) : e.isRetryable = false := by
  obtain ⟨cause, rfl⟩ := h
  rfl

namespace Checks

variable {ε α β : Type}

theorem bind_eq_ok_iff {x : Except ε α} {f : α → Except ε β} {b : β} :
    (x >>= f) = .ok b ↔ ∃ a, x = .ok a ∧ f a = .ok b := by
  cases x with
  | ok a => simp [bind, Except.bind]
  | error e => simp [bind, Except.bind]

theorem bind_eq_error_iff {x : Except ε α} {f : α → Except ε β} {e : ε} :
    (x >>= f) = .error e ↔ x = .error e ∨ ∃ a, x = .ok a ∧ f a = .error e := by
  cases x with
  | ok a => simp [bind, Except.bind]
  | error e => simp [bind, Except.bind]

theorem map_eq_ok_iff.{u} {β : Type u} {x : Except ε α} {f : α → β} {b : β} :
    x.map f = .ok b ↔ ∃ a, x = .ok a ∧ f a = b := by
  cases x with
  | ok a => simp [Except.map]
  | error e => simp [Except.map]

theorem map_eq_error_iff.{u} {β : Type u} {x : Except ε α} {f : α → β} {e : ε} :
    x.map f = .error e ↔ x = .error e := by
  cases x with
  | ok a => simp [Except.map]
  | error e => simp [Except.map]

theorem throw_bind (e : ε) (f : α → Except ε β) : (throw e >>= f) = .error e := rfl

theorem refuse_eq_ok_iff {c : Prop} [Decidable c] {e : ε} {x : Except ε α} {a : α} :
    (if c then .error e else x) = .ok a ↔ ¬c ∧ x = .ok a := by
  by_cases hc : c
  · simp [hc]
  · simp [hc]

theorem refuse_eq_error_iff {c : Prop} [Decidable c] {e e' : ε} {x : Except ε α} :
    (if c then .error e else x) = .error e' ↔ c ∧ e = e' ∨ ¬c ∧ x = .error e' := by
  by_cases hc : c
  · simp [hc]
  · simp [hc]

theorem throw_eq_error (e : ε) : (throw e : Except ε α) = .error e := rfl

theorem pure_eq_ok (a : α) : (pure a : Except ε α) = .ok a := rfl

end Checks

section Steps

variable {ε σ α β : Type} {m : EStateM ε σ α} {f : α → EStateM ε σ β} {s s' : σ}

theorem bind_of_ok {a : α} {s₁ : σ} (h : m s = .ok a s₁) : (m >>= f) s = f a s₁ := by
  change EStateM.bind m f s = _
  unfold EStateM.bind
  rw [h]

theorem bind_of_error {e : ε} (h : m s = .error e s') : (m >>= f) s = .error e s' := by
  change EStateM.bind m f s = _
  unfold EStateM.bind
  rw [h]

/-- Two steps have a result if both steps have. -/
theorem of_bind_eq_ok {b : β} (h : (m >>= f) s = .ok b s') :
    ∃ a s₁, m s = .ok a s₁ ∧ f a s₁ = .ok b s' := by
  change EStateM.bind m f s = _ at h
  unfold EStateM.bind at h
  cases hm : m s with
  | ok a s₁ =>
      rw [hm] at h
      exact ⟨a, s₁, rfl, h⟩
  | error e s₁ =>
      rw [hm] at h
      cases h

/-- They break off if one of them does. -/
theorem of_bind_eq_error {e : ε} (h : (m >>= f) s = .error e s') :
    m s = .error e s' ∨ ∃ a s₁, m s = .ok a s₁ ∧ f a s₁ = .error e s' := by
  change EStateM.bind m f s = _ at h
  unfold EStateM.bind at h
  cases hm : m s with
  | ok a s₁ =>
      rw [hm] at h
      exact Or.inr ⟨a, s₁, rfl, h⟩
  | error e' s₁ =>
      rw [hm] at h
      obtain ⟨rfl, rfl⟩ := EStateM.Result.error.inj h
      exact Or.inl rfl

end Steps

end Tcam
