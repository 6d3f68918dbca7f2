/-!
# Chains of steps that may fail

A chain of steps succeeds when each of them does. The laws take a successful chain apart.
-/

namespace FencedCode

universe u v

variable {ε δ : Type u} {α β : Type v}

/-- A computation goes on with the value of a success. -/
@[simp] theorem ok_bind (a : α) (f : α → Except ε β) : (Except.ok a >>= f) = f a := rfl

/-- A failure ends a computation. -/
@[simp] theorem error_bind (e : ε) (f : α → Except ε β) : (Except.error e >>= f) = .error e := rfl

/-- A pure value is a success. -/
@[simp] theorem pure_eq_ok (a : α) : (pure a : Except ε α) = .ok a := rfl

/-- A success has no error to change. -/
@[simp] theorem mapError_ok (f : ε → δ) (a : α) : (Except.ok a).mapError f = .ok a := rfl

/-- A failure stays one, with its error changed. -/
@[simp] theorem mapError_error (f : ε → δ) (e : ε) :
    (Except.error e : Except ε α).mapError f = .error (f e) := rfl

/-- A step followed by others succeeds when it does and the others do after it. -/
theorem bind_eq_ok_iff {x : Except ε α} {f : α → Except ε β} {b : β} :
    x >>= f = .ok b ↔ ∃ a, x = .ok a ∧ f a = .ok b := by
  cases x with
  | error e => simp
  | ok a => simp

/-- Steps whose result is needed later may fail before it is used. -/
theorem bind_bind_eq_error {γ : Type v} {x : Except ε α} {f : α → Except ε β}
    {g : α → β → Except ε γ} {e : ε} (h : x >>= f = .error e) :
    (x >>= fun a ↦ f a >>= g a) = .error e := by
  cases x with
  | error e' => exact congrArg Except.error (Except.error.inj h)
  | ok a =>
    rw [ok_bind] at h ⊢
    rw [h, error_bind]

/-- Steps that differ in a part of their result that is left out may follow the same step. -/
theorem map_bind_congr {γ : Type v} {x : Except ε α} {f g : α → Except ε β} {p : β → γ}
    (h : ∀ a, (f a).map p = (g a).map p) : (x >>= f).map p = (x >>= g).map p := by
  cases x with
  | error e => rfl
  | ok a => exact h a

/-- Rewording an error makes nothing succeed. -/
theorem mapError_eq_ok_iff {x : Except ε α} {f : ε → δ} {a : α} :
    x.mapError f = .ok a ↔ x = .ok a := by
  cases x with
  | error e => simp
  | ok b => simp

/-- A chain whose result passes a test has a result. -/
theorem exists_of_any_toOption {x : Except ε α} {p : α → Bool} (h : x.toOption.any p = true) :
    ∃ a, x = .ok a ∧ p a = true := by
  cases x with
  | error e => cases h
  | ok a => exact ⟨a, rfl, h⟩

end FencedCode
