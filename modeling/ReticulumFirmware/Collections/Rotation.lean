import Mathlib.Data.Finset.Card
import Mathlib.Order.Interval.Finset.Nat

/-!
# Rotations

A turn serves one position of a ring, and the turns that succeed move on to the next one. Over
one turn for each position, the whole ring is served exactly when no turn but the last one fails.
-/

namespace Rotation

/-- The positions, counted without wrapping, that turns serve. -/
def positions : ℕ → List Bool → List ℕ
  | _, [] => []
  | offset, succeeds :: turns => offset :: positions (offset + succeeds.toNat) turns

/-- Every turn has its position. -/
@[simp] theorem length_positions (offset : ℕ) (turns : List Bool) :
    (positions offset turns).length = turns.length := by
  induction turns generalizing offset with
  | nil => rfl
  | cons succeeds turns ih => simp [positions, ih]

/-- The last turn does not count for the positions. -/
theorem mem_positions {offset position : ℕ} {turns : List Bool}
    (h : position ∈ positions offset turns) :
    offset ≤ position ∧ position ≤ offset + turns.dropLast.count true := by
  induction turns generalizing offset with
  | nil => cases h
  | cons succeeds turns ih =>
    rcases List.mem_cons.mp h with rfl | hlater
    · exact ⟨le_rfl, Nat.le_add_right _ _⟩
    · cases turns with
      | nil => cases hlater
      | cons next turns =>
        obtain ⟨hlow, hhigh⟩ := ih hlater
        rw [List.dropLast_cons_cons, List.count_cons]
        cases succeeds with
        | false => simp_all
        | true =>
          simp only [Bool.toNat_true, beq_self_eq_true, if_true] at hlow hhigh ⊢
          omega

/-- Turns that succeed visit one position after the other. -/
theorem positions_of_success {offset : ℕ} {turns : List Bool}
    (h : ∀ succeeds ∈ turns.dropLast, succeeds = true) :
    positions offset turns = List.range' offset turns.length := by
  induction turns generalizing offset with
  | nil => rfl
  | cons succeeds turns ih =>
    cases turns with
    | nil => rfl
    | cons next turns =>
      rw [List.dropLast_cons_cons, List.forall_mem_cons] at h
      rw [positions, h.1, ih h.2]
      rfl

/-- A full round serves the ring exactly when no turn but the last one fails. -/
theorem covers_iff {n : ℕ} (hn : 0 < n) (offset : ℕ) {turns : List Bool}
    (hlength : turns.length = n) :
    (∀ i < n, ∃ position ∈ positions offset turns, position % n = i) ↔
      ∀ succeeds ∈ turns.dropLast, succeeds = true := by
  constructor
  · intro hcovers
    -- the ring has no more positions than the interval that the turns reach
    have hsubset : Finset.range n ⊆
        (Finset.Icc offset (offset + turns.dropLast.count true)).image (· % n) := by
      intro i hi
      obtain ⟨position, hposition, rfl⟩ := hcovers i (Finset.mem_range.mp hi)
      exact Finset.mem_image_of_mem _ (Finset.mem_Icc.mpr (mem_positions hposition))
    have hcard := (Finset.card_le_card hsubset).trans Finset.card_image_le
    rw [Finset.card_range, Nat.card_Icc] at hcard
    have hcount := List.count_le_length (a := true) (l := turns.dropLast)
    have hall : turns.dropLast.count true = turns.dropLast.length := by
      rw [List.length_dropLast] at hcount ⊢
      omega
    exact fun succeeds hmem => (List.count_eq_length.mp hall succeeds hmem).symm
  · intro hsuccess i hi
    rw [positions_of_success hsuccess, hlength]
    have hlt := Nat.mod_lt offset hn
    have hdiv := Nat.div_add_mod offset n
    rcases Nat.lt_or_ge i (offset % n) with hbefore | hafter
    · refine ⟨i + n * (offset / n + 1), ?_, ?_⟩
      · rw [List.mem_range'_1, Nat.mul_add]
        omega
      · rw [Nat.add_mul_mod_self_left, Nat.mod_eq_of_lt hi]
    · refine ⟨i + n * (offset / n), ?_, ?_⟩
      · rw [List.mem_range'_1]
        omega
      · rw [Nat.add_mul_mod_self_left, Nat.mod_eq_of_lt hi]

end Rotation
