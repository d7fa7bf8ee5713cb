import Mathlib.Data.Nat.Notation
import ReticulumFirmware.Codec.Guarded

/-!
# Metered computations

A computation that may fail, with the number of its visits also where it fails. Without the number
it is a computation in `Except`. A budget that a computation checks before each visit bounds their
number, whatever the computation returns.
-/

namespace Codec

variable {ε α β : Type}

/-- A result, and the number of visits that were made for it. -/
structure Metered (ε α : Type) where
  visits : ℕ
  result : Except ε α

namespace Metered

/-- A computation that visits nothing. -/
def free (x : Except ε α) : Metered ε α := ⟨0, x⟩

/-- One visit, if the computation before it succeeds. -/
def visit (x : Except ε α) : Metered ε α :=
  ⟨match x with | .ok _ => 1 | .error _ => 0, x⟩

/-- The second computation goes on with what the first one leaves, and their visits add up. -/
def bind (x : Metered ε α) (f : α → Metered ε β) : Metered ε β :=
  match x.result with
  | .ok a => ⟨x.visits + (f a).visits, (f a).result⟩
  | .error error => ⟨x.visits, .error error⟩

/-- Metered computations in sequence. -/
instance : Monad (Metered ε) where
  pure a := free (.ok a)
  bind := bind

/-- A step that is free has its own result. -/
@[simp] theorem result_free (x : Except ε α) : (free x).result = x := rfl

/-- A step that counts has its own result. -/
@[simp] theorem result_visit (x : Except ε α) : (visit x).result = x := rfl

/-- A value is its own result. -/
@[simp] theorem result_pure (a : α) : (pure a : Metered ε α).result = pure a := rfl

/-- The result of a sequence is the sequence of the results. -/
@[simp] theorem result_bind (x : Metered ε α) (f : α → Metered ε β) :
    (x >>= f).result = x.result >>= fun a => (f a).result := by
  change (x.bind f).result = _
  unfold bind
  cases x.result <;> rfl

/-- Within a budget, where `before` was spent: the visits stay within the budget, and after a
success the visits are all that was spent. -/
def Spends (budget before : ℕ) (x : Metered ε α) (after : α → ℕ) : Prop :=
  before ≤ budget → before + x.visits ≤ budget ∧
    ∀ a, x.result = .ok a → after a = before + x.visits

variable {budget before : ℕ}

/-- A free step spends nothing. -/
theorem spends_free {x : Except ε α} {after : α → ℕ} (h : ∀ a, x = .ok a → after a = before) :
    Spends budget before (free x) after :=
  fun hbefore => ⟨hbefore, h⟩

/-- A step that counts spends one of what is left. -/
theorem spends_visit {x : Except ε α} {after : α → ℕ}
    (h : ∀ a, x = .ok a → before < budget ∧ after a = before + 1) :
    Spends budget before (visit x) after := by
  intro hbefore
  cases x with
  | error error => exact ⟨hbefore, nofun⟩
  | ok a =>
    obtain ⟨hroom, hafter⟩ := h a rfl
    refine ⟨hroom, fun b hb => ?_⟩
    cases hb
    exact hafter

/-- What two steps spend adds up. -/
theorem Spends.bind {x : Metered ε α} {f : α → Metered ε β} {middle : α → ℕ} {after : β → ℕ}
    (h : Spends budget before x middle)
    (hf : ∀ a, x.result = .ok a → Spends budget (middle a) (f a) after) :
    Spends budget before (x >>= f) after := by
  intro hbefore
  obtain ⟨hroom, hmiddle⟩ := h hbefore
  cases hresult : x.result with
  | error error =>
    have hbind : x >>= f = ⟨x.visits, .error error⟩ := by
      change x.bind f = _
      rw [Metered.bind, hresult]
    rw [hbind]
    exact ⟨hroom, nofun⟩
  | ok a =>
    have hbind : x >>= f = ⟨x.visits + (f a).visits, (f a).result⟩ := by
      change x.bind f = _
      rw [Metered.bind, hresult]
    have hspent := hmiddle a hresult
    obtain ⟨hrest, hafter⟩ := hf a hresult (by omega)
    rw [hbind]
    dsimp only
    refine ⟨by omega, fun b hb => ?_⟩
    rw [hafter b hb]
    omega

/-- Within a budget, where `before` was spent: the visits stay within the budget. -/
def Within (budget before : ℕ) (x : Metered ε α) : Prop :=
  before ≤ budget → before + x.visits ≤ budget

/-- A free step keeps within every budget. -/
theorem within_free (x : Except ε α) : Within budget before (free x) := id

/-- A computation that tells what it spends keeps within the budget. -/
theorem Spends.within {x : Metered ε α} {after : α → ℕ} (h : Spends budget before x after) :
    Within budget before x := fun hbefore => (h hbefore).1

/-- A computation keeps within the budget when its second part does. -/
theorem Spends.within_bind {x : Metered ε α} {f : α → Metered ε β} {middle : α → ℕ}
    (h : Spends budget before x middle)
    (hf : ∀ a, x.result = .ok a → Within budget (middle a) (f a)) :
    Within budget before (x >>= f) := by
  intro hbefore
  obtain ⟨hroom, hmiddle⟩ := h hbefore
  change before + (x.bind f).visits ≤ budget
  unfold Metered.bind
  cases hresult : x.result with
  | error error => exact hroom
  | ok a =>
    have hspent := hmiddle a hresult
    have hrest := hf a hresult (by omega)
    dsimp only
    omega

/-- What follows for free keeps within the budget. -/
theorem Within.bind_free {x : Metered ε α} (h : Within budget before x) (f : α → Except ε β) :
    Within budget before (x >>= fun a => free (f a)) := by
  intro hbefore
  have hroom := h hbefore
  change before + (x.bind _).visits ≤ budget
  unfold Metered.bind
  cases x.result with
  | error error => exact hroom
  | ok a => exact hroom

end Metered

end Codec
