import Mathlib.Data.List.Basic

/-!
# Words

The words of a list are what is left between its separators, empty pieces aside. One pass that
remembers whether a separator came by joins them with one space each.
-/

namespace Words

variable {α : Type*} (isSeparator : α → Bool) (space : α)

/-- The nonempty pieces between separators. -/
def words (xs : List α) : List (List α) :=
  (xs.splitOnP isSeparator).filter (!·.isEmpty)

/-- The words of a list, joined by a space. -/
def spaced (xs : List α) : List α := [space].intercalate (words isSeparator xs)

/-- What was kept so far, and whether a separator follows it. -/
structure Pass (α : Type*) where
  kept : List α
  separatorPending : Bool

/-- One element of the pass. -/
def Pass.step (pass : Pass α) (x : α) : Pass α :=
  if isSeparator x then { pass with separatorPending := !pass.kept.isEmpty }
  else ⟨(if pass.separatorPending then pass.kept ++ [space] else pass.kept) ++ [x], false⟩

/-- What the whole pass keeps. -/
def collapse (xs : List α) : List α :=
  (xs.foldl (Pass.step isSeparator space) ⟨[], false⟩).kept

variable {isSeparator space}

section Joining

/-- Each word behind a space. -/
def trailing (space : α) (pieces : List (List α)) : List α :=
  (pieces.filter (!·.isEmpty)).flatMap (space :: ·)

/-- The first word is put behind a space, unless it is empty. -/
theorem trailing_cons (piece : List α) (pieces : List (List α)) :
    trailing space (piece :: pieces) =
      (if piece = [] then [] else space :: piece) ++ trailing space pieces := by
  unfold trailing
  cases piece with
  | nil => rfl
  | cons x xs => rfl

/-- The words after the first are put behind spaces. -/
theorem intercalate_cons (word : List α) (rest : List (List α)) :
    [space].intercalate (word :: rest) = word ++ rest.flatMap (space :: ·) := by
  induction rest generalizing word with
  | nil => simp
  | cons next rest ih => rw [List.intercalate_cons_cons, ih, List.flatMap_cons]; simp

/-- A split has at least one piece. -/
theorem splitOnP_cases (p : α → Bool) (xs : List α) :
    ∃ piece pieces, xs.splitOnP p = piece :: pieces :=
  List.exists_cons_of_ne_nil (List.splitOnP_ne_nil p xs)

end Joining

section Collapse

/-- The pass behind a word. -/
theorem kept_foldl {kept : List α} (hkept : kept ≠ []) (pending : Bool) {xs piece : List α}
    {pieces : List (List α)} (hsplit : xs.splitOnP isSeparator = piece :: pieces) :
    (xs.foldl (Pass.step isSeparator space) ⟨kept, pending⟩).kept =
      kept ++ (if piece = [] then [] else (if pending then [space] else []) ++ piece) ++
        trailing space pieces := by
  induction xs generalizing kept pending piece pieces with
  | nil =>
    cases hsplit
    simp [trailing]
  | cons x xs ih =>
    obtain ⟨next, rest, hrest⟩ := splitOnP_cases isSeparator xs
    rw [List.splitOnP_cons_eq_if_modifyHead, hrest] at hsplit
    rw [List.foldl_cons, Pass.step]
    by_cases hx : isSeparator x = true
    · rw [if_pos hx] at hsplit ⊢
      cases hsplit
      rw [ih hkept _ hrest, trailing_cons]
      simp [hkept]
    · rw [if_neg hx] at hsplit ⊢
      cases hsplit
      rw [ih (by simp) _ hrest]
      cases pending <;> simp +contextual

/-- One pass joins the words. -/
theorem collapse_eq_spaced (xs : List α) :
    collapse isSeparator space xs = spaced isSeparator space xs := by
  unfold collapse spaced words
  induction xs with
  | nil => rfl
  | cons x xs ih =>
    obtain ⟨next, rest, hrest⟩ := splitOnP_cases isSeparator xs
    rw [List.splitOnP_cons_eq_if_modifyHead, List.foldl_cons, Pass.step]
    by_cases hx : isSeparator x = true
    · rw [if_pos hx, if_pos hx]
      exact ih
    · rw [if_neg hx, if_neg hx, hrest]
      change (xs.foldl (Pass.step isSeparator space) ⟨[x], false⟩).kept =
        [space].intercalate ((x :: next) :: rest.filter (!·.isEmpty))
      rw [kept_foldl (List.cons_ne_nil x []) _ hrest, intercalate_cons]
      simp +contextual [trailing]

end Collapse

section Canonical

/-- No word is empty. -/
theorem ne_nil_of_mem_words {xs word : List α} (h : word ∈ words isSeparator xs) : word ≠ [] := by
  have hfilter := (List.mem_filter.mp h).2
  rintro rfl
  cases hfilter

/-- A piece holds elements of the list that do not split it. -/
theorem mem_of_mem_splitOnP {p : α → Bool} {xs piece : List α} (h : piece ∈ xs.splitOnP p)
    {x : α} (hx : x ∈ piece) : x ∈ xs ∧ p x = false := by
  induction xs generalizing piece with
  | nil =>
    rw [List.splitOnP_nil, List.mem_singleton] at h
    subst h
    cases hx
  | cons y xs ih =>
    obtain ⟨next, rest, hrest⟩ := splitOnP_cases p xs
    rw [List.splitOnP_cons_eq_if_modifyHead] at h
    split_ifs at h with hy
    · rcases List.mem_cons.mp h with rfl | h
      · cases hx
      · obtain ⟨hmem, hp⟩ := ih h hx
        exact ⟨List.mem_cons_of_mem y hmem, hp⟩
    · rw [hrest, List.modifyHead_cons] at h
      rcases List.mem_cons.mp h with rfl | h
      · rcases List.mem_cons.mp hx with rfl | hx
        · exact ⟨List.mem_cons_self, Bool.eq_false_iff.mpr hy⟩
        · obtain ⟨hmem, hp⟩ := ih (hrest ▸ List.mem_cons_self) hx
          exact ⟨List.mem_cons_of_mem y hmem, hp⟩
      · obtain ⟨hmem, hp⟩ := ih (hrest ▸ List.mem_cons_of_mem next h) hx
        exact ⟨List.mem_cons_of_mem y hmem, hp⟩

/-- A word holds no separator. -/
theorem mem_of_mem_words {xs word : List α} (h : word ∈ words isSeparator xs) {x : α}
    (hx : x ∈ word) : x ∈ xs ∧ isSeparator x = false :=
  mem_of_mem_splitOnP (List.mem_filter.mp h).1 hx

/-- Pieces without separators are what their join is split into. -/
theorem splitOnP_intercalate {pieces : List (List α)} (hspace : isSeparator space = true)
    (hne : pieces ≠ []) (hpieces : ∀ piece ∈ pieces, ∀ x ∈ piece, isSeparator x = false) :
    ([space].intercalate pieces).splitOnP isSeparator = pieces := by
  induction pieces with
  | nil => exact absurd rfl hne
  | cons piece pieces ih =>
    have hpiece := hpieces piece List.mem_cons_self
    cases pieces with
    | nil => rw [List.intercalate_singleton, List.splitOnP_eq_singleton hpiece]
    | cons next rest =>
      rw [List.intercalate_cons_cons, List.append_assoc, List.singleton_append,
        List.splitOnP_append_cons_of_forall_mem hpiece space hspace,
        ih (List.cons_ne_nil _ _) fun other hother => hpieces other (List.mem_cons_of_mem _ hother)]

/-- Spaced words are split into the words. -/
theorem splitOnP_spaced (hspace : isSeparator space = true) {xs : List α}
    (hsome : words isSeparator xs ≠ []) :
    (spaced isSeparator space xs).splitOnP isSeparator = words isSeparator xs :=
  splitOnP_intercalate hspace hsome fun _ hword _ hx => (mem_of_mem_words hword hx).2

/-- Joining the words keeps them. -/
theorem words_spaced (hspace : isSeparator space = true) (xs : List α) :
    words isSeparator (spaced isSeparator space xs) = words isSeparator xs := by
  by_cases hnone : words isSeparator xs = []
  · rw [spaced, hnone]
    rfl
  · rw [words, splitOnP_spaced hspace hnone, words, List.filter_filter]
    simp

/-- Between two separators of a joined list stands a word, and so before the first and after the
last. -/
theorem nil_notMem_splitOnP (hspace : isSeparator space = true) {xs : List α}
    (hsome : spaced isSeparator space xs ≠ []) :
    [] ∉ (spaced isSeparator space xs).splitOnP isSeparator := by
  rw [splitOnP_spaced hspace fun hnone => hsome (by rw [spaced, hnone]; rfl)]
  exact fun h => ne_nil_of_mem_words h rfl

/-- Spaced words do not begin with a space. -/
theorem head?_spaced_ne (hspace : isSeparator space = true) (xs : List α) :
    (spaced isSeparator space xs).head? ≠ some space := by
  intro h
  obtain ⟨after, hafter⟩ := List.head?_eq_some_iff.mp h
  have hsome : spaced isSeparator space xs ≠ [] := hafter ▸ List.cons_ne_nil space after
  apply nil_notMem_splitOnP hspace hsome
  rw [hafter, List.splitOnP_cons_eq_if_modifyHead, if_pos hspace]
  exact List.mem_cons_self

/-- Spaced words do not end with a space. -/
theorem getLast?_spaced_ne (hspace : isSeparator space = true) (xs : List α) :
    (spaced isSeparator space xs).getLast? ≠ some space := by
  intro h
  obtain ⟨before, hbefore⟩ := List.getLast?_eq_some_iff.mp h
  have hsome : spaced isSeparator space xs ≠ [] := by simp [hbefore]
  apply nil_notMem_splitOnP hspace hsome
  rw [hbefore, List.splitOnP_append_cons before [] hspace]
  exact List.mem_append_right _ List.mem_cons_self

/-- Spaced words have no two spaces in a row. -/
theorem not_infix_spaced (hspace : isSeparator space = true) (xs : List α) :
    ¬[space, space] <:+: spaced isSeparator space xs := by
  rintro ⟨before, after, h⟩
  have hsome : spaced isSeparator space xs ≠ [] := by simp [← h]
  apply nil_notMem_splitOnP hspace hsome
  rw [← h, List.append_assoc, List.cons_append, List.splitOnP_append_cons before _ hspace,
    List.cons_append, List.splitOnP_cons_eq_if_modifyHead, if_pos hspace]
  exact List.mem_append_right _ List.mem_cons_self

/-- Spaced words are empty exactly where there is no word. -/
theorem spaced_eq_nil {xs : List α} :
    spaced isSeparator space xs = [] ↔ words isSeparator xs = [] := by
  unfold spaced
  cases hwords : words isSeparator xs with
  | nil => simp
  | cons word rest =>
    have hword : word ≠ [] := ne_nil_of_mem_words (hwords ▸ List.mem_cons_self)
    rw [intercalate_cons]
    simp [hword]

/-- What is joined is the space or stands in a word. -/
theorem mem_spaced {xs : List α} {x : α} (h : x ∈ spaced isSeparator space xs) :
    x = space ∨ x ∈ xs ∧ isSeparator x = false := by
  unfold spaced at h
  cases hwords : words isSeparator xs with
  | nil =>
    rw [hwords] at h
    cases h
  | cons word rest =>
    rw [hwords, intercalate_cons] at h
    rcases List.mem_append.mp h with hx | hx
    · exact Or.inr (mem_of_mem_words (hwords ▸ List.mem_cons_self) hx)
    · obtain ⟨other, hother, hx⟩ := List.mem_flatMap.mp hx
      rcases List.mem_cons.mp hx with rfl | hx
      · exact Or.inl rfl
      · exact Or.inr (mem_of_mem_words (hwords ▸ List.mem_cons_of_mem word hother) hx)

end Canonical

end Words
