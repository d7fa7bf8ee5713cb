import Mathlib.Data.List.ReduceOption

/-!
# Tables of optional entries

A fixed table of slots is a list of optional entries. Its operations find the first slot
with a property and overwrite it; the entries of the table are the occupied slots in order.
-/

namespace List

variable {α : Type}

/-- Overwrite the first entry that satisfies `p`, if there is one. -/
def assignFirst (p : α → Bool) (value : α) : List α → Option (List α)
  | [] => none
  | x :: xs => if p x then some (value :: xs) else (assignFirst p value xs).map (x :: ·)

/-- What an overwrite found: the first entry with the property. -/
theorem assignFirst_split {p : α → Bool} {value : α} {xs ys : List α}
    (h : assignFirst p value xs = some ys) :
    ∃ before x after, xs = before ++ x :: after ∧ p x = true ∧
      ys = before ++ value :: after := by
  induction xs generalizing ys with
  | nil => cases h
  | cons x xs ih =>
    unfold assignFirst at h
    split at h
    · next hx =>
      cases h
      exact ⟨[], x, xs, rfl, hx, rfl⟩
    · obtain ⟨zs, hzs, rfl⟩ := Option.map_eq_some_iff.mp h
      obtain ⟨before, y, after, rfl, hy, rfl⟩ := ih hzs
      exact ⟨x :: before, y, after, rfl, hy, rfl⟩

/-- Without an entry that satisfies `p` there is nothing to overwrite. -/
theorem assignFirst_eq_none {p : α → Bool} {value : α} {xs : List α} :
    assignFirst p value xs = none ↔ ∀ x ∈ xs, p x = false := by
  induction xs with
  | nil => simp [assignFirst]
  | cons x xs ih =>
    unfold assignFirst
    split
    · next hx => simp [hx]
    · next hx => simp [ih, Bool.eq_false_iff.mpr hx]

/-- An overwrite keeps the size of the table. -/
theorem length_assignFirst {p : α → Bool} {value : α} {xs ys : List α}
    (h : assignFirst p value xs = some ys) : ys.length = xs.length := by
  obtain ⟨before, x, after, rfl, -, rfl⟩ := assignFirst_split h
  simp

/-- Overwriting skips a prefix without the property. -/
theorem assignFirst_append {p : α → Bool} {value : α} {xs ys : List α}
    (h : ∀ x ∈ xs, p x = false) :
    assignFirst p value (xs ++ ys) = (assignFirst p value ys).map (xs ++ ·) := by
  induction xs with
  | nil => simp
  | cons x xs ih =>
    have hx : p x = false := h x mem_cons_self
    rw [cons_append, assignFirst, if_neg (by simp [hx]), ih fun y hy => h y (mem_cons_of_mem x hy),
      Option.map_map]
    rfl

/-- Overwriting entries with what they already are changes nothing. -/
theorem assignFirst_self {p : α → Bool} {value : α} {xs ys : List α}
    (h : assignFirst p value xs = some ys) (hsame : ∀ x ∈ xs, p x = true → x = value) :
    ys = xs := by
  obtain ⟨before, x, after, rfl, hx, rfl⟩ := assignFirst_split h
  rw [hsame x (mem_append_right _ mem_cons_self) hx]

end List
