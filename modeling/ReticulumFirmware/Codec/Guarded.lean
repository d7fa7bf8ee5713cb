import Mathlib.Logic.Basic

/-!
# Computations with a guard

A computation that returns one value exactly under a condition, and otherwise fails in a given
way. A sequence of guarded steps is guarded by the conjunction of their conditions.
-/

namespace Codec

variable {ε α β : Type} {failure : ε → Prop} {p q : Prop}

/-- The computation returns `a` under the condition `p` and otherwise fails with an error of the
given kind. -/
structure Guarded (failure : ε → Prop) (p : Prop) (x : Except ε α) (a : α) : Prop where
  ok : p → x = .ok a
  error : ¬ p → ∃ e, failure e ∧ x = .error e

namespace Guarded

/-- A computation that only returns needs no condition. -/
theorem pure (a : α) : Guarded failure True (Pure.pure a : Except ε α) a where
  ok _ := rfl
  error h := absurd trivial h

/-- The condition of a computation may be replaced by an equivalent one. -/
theorem congr {x : Except ε α} {a : α} (h : Guarded failure p x a) (hpq : p ↔ q) :
    Guarded failure q x a where
  ok hq := h.ok (hpq.mpr hq)
  error hq := h.error fun hp => hq (hpq.mp hp)

/-- A sequence returns under the conditions of both of its parts. -/
theorem bind {x : Except ε α} {a : α} {f : α → Except ε β} {b : β} (hx : Guarded failure p x a)
    (hf : Guarded failure q (f a) b) : Guarded failure (p ∧ q) (x >>= f) b where
  ok h := by
    rw [hx.ok h.1]
    exact hf.ok h.2
  error h := by
    by_cases hp : p
    · rw [hx.ok hp]
      exact hf.error fun hq => h ⟨hp, hq⟩
    · obtain ⟨e, he, hfail⟩ := hx.error hp
      exact ⟨e, he, by rw [hfail]; rfl⟩

/-- A last step that cannot fail adds no condition. -/
theorem map {x : Except ε α} {a : α} {f : α → Except ε β} {b : β} (hx : Guarded failure p x a)
    (hf : f a = .ok b) : Guarded failure p (x >>= f) b :=
  (hx.bind (q := True) ⟨fun _ => hf, fun h => absurd trivial h⟩).congr (and_iff_left trivial)

/-- What a guarded computation returns when it succeeds. -/
theorem of_ok {x : Except ε α} {a b : α} (h : Guarded failure p x a) (hx : x = .ok b) :
    p ∧ b = a := by
  by_cases hp : p
  · rw [h.ok hp] at hx
    exact ⟨hp, (Except.ok.inj hx).symm⟩
  · obtain ⟨e, -, he⟩ := h.error hp
    rw [he] at hx
    cases hx

end Guarded

/-- What follows a value runs on it. -/
theorem ok_bind (a : α) (f : α → Except ε β) : (Except.ok a >>= f) = f a := rfl

/-- A sequence succeeds when its two steps do. -/
theorem bind_ok {x : Except ε α} {f : α → Except ε β} {b : β} :
    (x >>= f) = .ok b ↔ ∃ a, x = .ok a ∧ f a = .ok b := by
  constructor
  · intro h
    cases x with
    | error e => cases h
    | ok a => exact ⟨a, rfl, h⟩
  · rintro ⟨a, rfl, hb⟩
    exact hb

end Codec
