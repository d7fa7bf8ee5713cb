import Mathlib.Data.List.Basic

/-!
# Since

An event of one kind happened and none of another kind has happened after it.
-/

namespace List

variable {α : Type} {start stop : α → Prop} {history : List α} {event : α}

/-- The history has a start with no stop after it. -/
def Since (start stop : α → Prop) (history : List α) : Prop :=
  ∃ before event after, history = before ++ event :: after ∧ start event ∧
    ∀ later ∈ after, ¬ stop later

/-- A start that just happened. -/
theorem since_start (h : start event) : Since start stop (history ++ [event]) :=
  ⟨history, event, [], rfl, h, by simp⟩

/-- What no stop ended goes on. -/
theorem Since.snoc (h : Since start stop history) (hstop : ¬ stop event) :
    Since start stop (history ++ [event]) := by
  obtain ⟨before, first, after, rfl, hstart, hafter⟩ := h
  refine ⟨before, first, after ++ [event], by simp, hstart, ?_⟩
  intro later hlater
  rcases mem_append.mp hlater with hold | hnew
  · exact hafter later hold
  · rw [mem_singleton.mp hnew]
    exact hstop

end List
