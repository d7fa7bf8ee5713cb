import Mathlib.Data.List.Pairwise
import Mathlib.Data.List.Perm.Basic

/-!
# Recency

The newest entry of each key in a log, newest first, and what remains of it in a bounded store.
-/

namespace List

variable {α κ : Type*} [DecidableEq κ] {key : α → κ} {entries : List α} {entry : α}

/-- The newest entry of each key of a log that lists the newest first. -/
def latest (key : α → κ) : List α → List α
  | [] => []
  | entry :: older => entry :: (latest key older).filter (key · ≠ key entry)

/-- The latest entries are in the log, in its order. -/
theorem latest_sublist (key : α → κ) (log : List α) : (log.latest key).Sublist log := by
  induction log with
  | nil => exact .slnil
  | cons entry older ih => exact (filter_sublist.trans ih).cons_cons entry

/-- No two of the latest entries have one key. -/
theorem pairwise_latest (key : α → κ) (log : List α) :
    (log.latest key).Pairwise (key · ≠ key ·) := by
  induction log with
  | nil => exact .nil
  | cons entry older ih =>
    refine pairwise_cons.mpr ⟨?_, ih.filter _⟩
    intro other hother
    have hne := (mem_filter.mp hother).2
    exact (of_decide_eq_true hne).symm

/-- The newest entry of a key is the one with no newer entry of that key. -/
theorem mem_latest {log : List α} :
    entry ∈ log.latest key ↔
      ∃ newer older, log = newer ++ entry :: older ∧ ∀ other ∈ newer, key other ≠ key entry := by
  induction log with
  | nil => simp [latest]
  | cons first rest ih =>
    simp only [latest, mem_cons, mem_filter, decide_eq_true_eq, ih]
    constructor
    · rintro (rfl | ⟨⟨newer, older, rfl, hnewer⟩, hne⟩)
      · exact ⟨[], rest, rfl, by simp⟩
      · refine ⟨first :: newer, older, rfl, ?_⟩
        intro other hother
        rcases mem_cons.mp hother with rfl | hmem
        · exact hne.symm
        · exact hnewer other hmem
    · rintro ⟨newer, older, hlog, hnewer⟩
      cases newer with
      | nil => exact Or.inl (cons.inj hlog).1.symm
      | cons head newer =>
        obtain ⟨rfl, rfl⟩ := cons.inj hlog
        refine Or.inr ⟨⟨newer, older, rfl, ?_⟩, (hnewer first (by simp)).symm⟩
        exact fun other hmem => hnewer other (mem_cons_of_mem _ hmem)

/-- Where keys are distinct, an entry is all that its key has. -/
theorem perm_cons_filter (hkeys : entries.Pairwise (key · ≠ key ·)) (hmem : entry ∈ entries) :
    entries.Perm (entry :: entries.filter (key · ≠ key entry)) := by
  induction entries with
  | nil => cases hmem
  | cons first rest ih =>
    obtain ⟨hfirst, hrest⟩ := pairwise_cons.mp hkeys
    rcases mem_cons.mp hmem with rfl | hmem
    · have hkept : rest.filter (key · ≠ key entry) = rest := by
        rw [filter_eq_self]
        intro other hother
        exact decide_eq_true (hfirst other hother).symm
      have hdropped : (entry :: rest).filter (key · ≠ key entry) = rest := by
        rw [filter_cons_of_neg (by simp), hkept]
      rw [hdropped]
    · have hne := hfirst entry hmem
      rw [filter_cons_of_pos (by simpa using hne)]
      exact ((ih hrest hmem).cons first).trans (.swap _ _ _)

/-- Dropping a key that is not among the first entries keeps them. -/
theorem take_filter_of_absent {k : κ} {n : ℕ}
    (habsent : ∀ entry ∈ entries.take n, key entry ≠ k) :
    (entries.filter (key · ≠ k)).take n = entries.take n := by
  have hkept : (entries.take n).filter (key · ≠ k) = entries.take n := by
    rw [filter_eq_self]
    exact fun entry hentry => decide_eq_true (habsent entry hentry)
  conv_lhs => rw [← take_append_drop n entries, filter_append, hkept]
  rcases Nat.le_total n entries.length with hle | hge
  · have hlength : (entries.take n).length = n := by simp [hle]
    rw [take_append_of_le_length (Nat.le_of_eq hlength.symm),
      take_of_length_le (Nat.le_of_eq hlength)]
  · simp [drop_of_length_le hge, take_take]

/-- Dropping a key that is among the first entries makes room for one more. -/
theorem take_filter_of_present {n : ℕ} (hkeys : entries.Pairwise (key · ≠ key ·))
    (hmem : entry ∈ entries.take (n + 1)) :
    (entries.filter (key · ≠ key entry)).take n =
      (entries.take (n + 1)).filter (key · ≠ key entry) := by
  have hfirst : (entries.take (n + 1)).Pairwise (key · ≠ key ·) :=
    hkeys.sublist (take_sublist _ _)
  have hlength := (perm_cons_filter hfirst hmem).length_eq
  rw [length_cons, length_take] at hlength
  conv_lhs => rw [← take_append_drop (n + 1) entries, filter_append]
  rcases Nat.le_total (n + 1) entries.length with hle | hge
  · have hn : ((entries.take (n + 1)).filter (key · ≠ key entry)).length = n := by omega
    rw [take_append_of_le_length (Nat.le_of_eq hn.symm), take_of_length_le (Nat.le_of_eq hn)]
  · rw [drop_of_length_le hge, filter_nil, append_nil]
    exact take_of_length_le (by omega)

end List
