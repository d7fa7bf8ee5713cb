import Mathlib.Data.List.Induction
import Mathlib.Data.List.Perm.Basic
import ReticulumFirmware.Collections.BTreeMap

/-!
# Grouping by key

Items are folded into a map of accumulators, one for each key. The accumulator of a key has seen
exactly the items with that key, and the greatest of them is the last one of the sorted group.
-/

namespace BTreeMap

variable {α κ ν : Type} [LinearOrder κ]

/-- Change the value of a key, which starts as `vacant` when it has none. -/
def upsert (m : BTreeMap κ ν) (key : κ) (vacant : ν) (change : ν → ν) : BTreeMap κ ν :=
  m.insert key (change ((m.get? key).getD vacant))

variable {key : α → κ} {vacant : ν} {change : ν → α → ν}

/-- A value has been changed by the items of its key. -/
theorem get?_foldl_upsert (items : List α) (m : BTreeMap κ ν) (k : κ) :
    (items.foldl (fun m item => m.upsert (key item) vacant (change · item)) m).get? k =
      if items.filter (fun item => key item = k) = [] then m.get? k
      else some ((items.filter fun item => key item = k).foldl change
        ((m.get? k).getD vacant)) := by
  induction items generalizing m with
  | nil => rfl
  | cons item rest ih =>
    rw [List.foldl_cons, ih, upsert, get?_insert]
    by_cases hkey : key item = k
    · rw [List.filter_cons_of_pos (by simpa using hkey), if_pos hkey.symm,
        if_neg (List.cons_ne_nil _ _), List.foldl_cons, Option.getD_some, hkey]
      split_ifs with hnil
      · rw [hnil, List.foldl_nil]
      · rfl
    · rw [List.filter_cons_of_neg (by simpa using hkey), if_neg (Ne.symm hkey)]

/-- Items told apart by their keys are all found again. -/
theorem induced_foldl_insert {value : α → ν} (items : List α)
    (hkeys : items.Pairwise fun a b => key a ≠ key b) :
    Induced (items.foldl (fun m item => m.insert (key item) (value item)) empty)
      (fun item => some (key item)) value items := by
  induction items using List.reverseRecOn with
  | nil => exact induced_empty
  | append_singleton front item ih =>
    obtain ⟨hfront, -, hitem⟩ := List.pairwise_append.mp hkeys
    rw [List.foldl_append, List.foldl_cons, List.foldl_nil]
    exact (ih hfront).insert rfl fun other hother hsame =>
      hitem other hother item (List.mem_singleton_self _) (Option.some.inj hsame)

end BTreeMap

namespace Groups

variable {α κ : Type} [LinearOrder κ] {key : α → κ}

/-- Items sorted by a key are in ascending order of the key. -/
theorem pairwise_mergeSort (items : List α) :
    (items.mergeSort fun a b => decide (key a ≤ key b)).Pairwise fun a b => key a ≤ key b := by
  refine (List.pairwise_mergeSort (fun a b c hab hbc => ?_) (fun a b => ?_) items).imp
    of_decide_eq_true
  · exact decide_eq_true ((of_decide_eq_true hab).trans (of_decide_eq_true hbc))
  · rw [Bool.or_eq_true, decide_eq_true_eq, decide_eq_true_eq]
    exact le_total (key a) (key b)

/-- The later of two items, the first one unless the second is beyond it. -/
def newest (key : α → κ) (last : Option α) (item : α) : Option α :=
  if last.all fun last => decide (key last < key item) then some item else last

/-- The fold keeps one of the items, and no other is beyond it. -/
theorem foldl_newest_max (items : List α) {last item : α}
    (h : items.foldl (newest key) (some last) = some item) :
    (item = last ∨ item ∈ items) ∧ key last ≤ key item ∧
      ∀ other ∈ items, key other ≤ key item := by
  induction items generalizing last with
  | nil =>
    cases h
    exact ⟨Or.inl rfl, le_refl _, fun other hother => absurd hother List.not_mem_nil⟩
  | cons first rest ih =>
    rw [List.foldl_cons] at h
    by_cases hlt : key last < key first
    · rw [newest, Option.all_some, if_pos (decide_eq_true hlt)] at h
      obtain ⟨hmem, hle, hall⟩ := ih h
      exact ⟨Or.inr (List.mem_cons.mpr hmem), hlt.le.trans hle,
        List.forall_mem_cons.mpr ⟨hle, hall⟩⟩
    · rw [newest, Option.all_some, if_neg (by simpa using hlt)] at h
      obtain ⟨hmem, hle, hall⟩ := ih h
      exact ⟨hmem.imp_right (List.mem_cons_of_mem _), hle,
        List.forall_mem_cons.mpr ⟨(not_lt.mp hlt).trans hle, hall⟩⟩

/-- The newest item of a list that is not empty exists. -/
theorem foldl_newest_some (key : α → κ) (items : List α) (last : α) :
    ∃ item, items.foldl (newest key) (some last) = some item := by
  induction items generalizing last with
  | nil => exact ⟨last, rfl⟩
  | cons first rest ih =>
    rw [List.foldl_cons, newest]
    split_ifs
    · exact ih first
    · exact ih last

/-- Items told apart by their keys: the newest one ends the list in ascending order. -/
theorem foldl_newest_eq_getLast {items sorted : List α} (hperm : sorted.Perm items)
    (hsorted : sorted.Pairwise fun a b => key a ≤ key b)
    (hkeys : ∀ a ∈ items, ∀ b ∈ items, key a = key b → a = b) :
    items.foldl (newest key) none = sorted.getLast? := by
  cases items with
  | nil => rw [hperm.eq_nil, List.foldl_nil, List.getLast?_nil]
  | cons first rest =>
    have hne : sorted ≠ [] := fun hnil =>
      List.cons_ne_nil first rest (List.nil_perm.mp (hnil ▸ hperm))
    have hfirst : newest key none first = some first := rfl
    obtain ⟨item, hitem⟩ := foldl_newest_some key rest first
    obtain ⟨hmem, hle, hall⟩ := foldl_newest_max rest hitem
    obtain ⟨front, hfront⟩ : ∃ front, sorted = front ++ [sorted.getLast hne] :=
      ⟨_, (List.dropLast_concat_getLast hne).symm⟩
    rw [List.foldl_cons, hfirst, hitem, List.getLast?_eq_some_getLast hne]
    have hmem : item ∈ first :: rest := List.mem_cons.mpr hmem
    have hlast : sorted.getLast hne ∈ first :: rest := hperm.mem_iff.mp (List.getLast_mem hne)
    refine congrArg some (hkeys _ hmem _ hlast (le_antisymm ?_ ?_))
    · have hin : item ∈ front ++ [sorted.getLast hne] := hfront ▸ hperm.mem_iff.mpr hmem
      rw [hfront] at hsorted
      rcases List.mem_append.mp hin with hin | hin
      · exact (List.pairwise_append.mp hsorted).2.2 item hin _ (List.mem_singleton_self _)
      · rw [List.mem_singleton.mp hin]
    · exact (List.forall_mem_cons.mpr ⟨hle, hall⟩ : ∀ other ∈ first :: rest, _) _ hlast

end Groups
