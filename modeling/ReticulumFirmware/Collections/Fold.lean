import Mathlib.Data.List.Basic

/-!
# Computations that stop at the first error
-/

/-- A composition succeeds exactly if both parts do. -/
theorem Except.bind_eq_ok {ε α β : Type} {x : Except ε α} {f : α → Except ε β} {b : β} :
    (x >>= f) = .ok b ↔ ∃ a, x = .ok a ∧ f a = .ok b := by
  cases x <;> simp [bind, Except.bind]

/-- A computation with renamed errors succeeds exactly if the computation does. -/
theorem Except.mapError_eq_ok {ε ε' α : Type} {x : Except ε α} {h : ε → ε'} {a : α} :
    x.mapError h = .ok a ↔ x = .ok a := by
  cases x <;> simp [Except.mapError]

/-- A mapped computation succeeds exactly if the computation does. -/
theorem Except.map_eq_ok {ε α β : Type} {x : Except ε α} {f : α → β} {b : β} :
    x.map f = .ok b ↔ ∃ a, x = .ok a ∧ f a = b := by
  cases x <;> simp [Except.map]

namespace List

variable {σ α β ε : Type} {step : σ → α → Except ε σ} {l : List α} {s t : σ}

/-- A fold that succeeds has a first step that succeeds. -/
theorem foldlM_cons_ok {a : α} (h : (a :: l).foldlM step s = .ok t) :
    ∃ s', step s a = .ok s' ∧ l.foldlM step s' = .ok t := by
  rw [foldlM_cons] at h
  exact Except.bind_eq_ok.mp h

/-- A fold over a list with one more element at its end. -/
theorem foldlM_concat_ok {a : α} :
    (l ++ [a]).foldlM step s = .ok t ↔ ∃ s', l.foldlM step s = .ok s' ∧ step s' a = .ok t := by
  rw [foldlM_append, Except.bind_eq_ok]
  simp only [foldlM_cons, foldlM_nil, bind_pure]

/-- A fold whose steps rename their errors renames the error of the fold. -/
theorem foldlM_mapError {ε' : Type} (h : ε → ε') (l : List α) (s : σ) :
    l.foldlM (fun s a => (step s a).mapError h) s = (l.foldlM step s).mapError h := by
  induction l generalizing s with
  | nil => rfl
  | cons a l ih =>
    rw [foldlM_cons, foldlM_cons]
    cases step s a with
    | ok s' => exact ih s'
    | error e => rfl

/-- What every step keeps, the fold keeps. -/
theorem foldlM_ok_invariant {P : σ → Prop}
    (hstep : ∀ s a s', step s a = .ok s' → P s → P s') (h : l.foldlM step s = .ok t)
    (hs : P s) : P t := by
  induction l generalizing s with
  | nil =>
    cases h
    exact hs
  | cons a l ih =>
    obtain ⟨s', hfirst, hrest⟩ := foldlM_cons_ok h
    exact ih hrest (hstep s a s' hfirst hs)

/-- A projection that no step changes, the fold does not change. -/
theorem foldlM_ok_frame (f : σ → β) (hstep : ∀ s a s', step s a = .ok s' → f s' = f s)
    (h : l.foldlM step s = .ok t) : f t = f s :=
  foldlM_ok_invariant (P := fun s' => f s' = f s)
    (fun s' a s'' hs' heq => (hstep s' a s'' hs').trans heq) h rfl

/-- A checked list passes every check. -/
theorem forM_ok {check : α → Except ε Unit} (h : l.forM check = .ok ()) :
    ∀ a ∈ l, check a = .ok () := by
  induction l with
  | nil => simp
  | cons a l ih =>
    obtain ⟨_, hfirst, hrest⟩ := Except.bind_eq_ok.mp h
    exact forall_mem_cons.mpr ⟨hfirst, ih hrest⟩

/-- Checks that all pass check the list. -/
theorem forM_of_ok {check : α → Except ε Unit} (h : ∀ a ∈ l, check a = .ok ()) :
    l.forM check = .ok () := by
  induction l with
  | nil => rfl
  | cons a l ih =>
    rw [forall_mem_cons] at h
    exact Except.bind_eq_ok.mpr ⟨(), h.1, ih h.2⟩

/-- A fold succeeds when each step does, given what the steps before it established. -/
theorem foldlM_ok_of_steps {P : List α → σ → Prop} (hs : P [] s)
    (hstep : ∀ done a rest s', l = done ++ a :: rest → P done s' →
      ∃ t, step s' a = .ok t ∧ P (done ++ [a]) t) :
    ∃ t, l.foldlM step s = .ok t ∧ P l t := by
  suffices hrest : ∀ done rest s', l = done ++ rest → P done s' →
      ∃ t, rest.foldlM step s' = .ok t ∧ P l t from hrest [] l s rfl hs
  intro done rest
  induction rest generalizing done with
  | nil =>
    intro s' hl hdone
    rw [append_nil] at hl
    exact ⟨s', rfl, hl ▸ hdone⟩
  | cons a rest ih =>
    intro s' hl hdone
    obtain ⟨t, ht, hnext⟩ := hstep done a rest s' hl hdone
    obtain ⟨t', ht', hlast⟩ := ih (done ++ [a]) t (by rw [hl]; simp) hnext
    exact ⟨t', by rw [foldlM_cons, ht]; exact ht', hlast⟩

/-- What the steps of a successful fold establish one after the other, the fold establishes. -/
theorem foldlM_ok_steps {P : List α → σ → Prop} (hs : P [] s)
    (hstep : ∀ done a rest s' t', l = done ++ a :: rest → P done s' → step s' a = .ok t' →
      P (done ++ [a]) t') (h : l.foldlM step s = .ok t) : P l t := by
  suffices hrest : ∀ done rest s', l = done ++ rest → P done s' → rest.foldlM step s' = .ok t →
      P l t from hrest [] l s rfl hs h
  intro done rest
  induction rest generalizing done with
  | nil =>
    intro s' hl hdone hfold
    rw [append_nil] at hl
    cases hfold
    exact hl ▸ hdone
  | cons a rest ih =>
    intro s' hl hdone hfold
    obtain ⟨s'', hfirst, hlast⟩ := foldlM_cons_ok hfold
    exact ih (done ++ [a]) s'' (by rw [hl]; simp) (hstep done a rest s' s'' hl hdone hfirst) hlast

/-- Every step of a successful fold succeeds. -/
theorem foldlM_ok_mem {a : α} (h : l.foldlM step s = .ok t) (ha : a ∈ l) :
    ∃ s' t', step s' a = .ok t' := by
  induction l generalizing s with
  | nil => cases ha
  | cons b l ih =>
    obtain ⟨s', hfirst, hrest⟩ := foldlM_cons_ok h
    rcases mem_cons.mp ha with rfl | ha
    · exact ⟨s, s', hfirst⟩
    · exact ih hrest ha

section Option

variable {step : σ → α → Option σ}

/-- A fold succeeds when each step does on the states that the steps before it keep. -/
theorem foldlM_some_of_steps {P : σ → Prop} (hs : P s)
    (hstep : ∀ s' a, a ∈ l → P s' → ∃ t, step s' a = some t ∧ P t) :
    ∃ t, l.foldlM step s = some t ∧ P t := by
  induction l generalizing s with
  | nil => exact ⟨s, rfl, hs⟩
  | cons a l ih =>
    obtain ⟨s', hfirst, hs'⟩ := hstep s a mem_cons_self hs
    obtain ⟨t, hrest, ht⟩ := ih hs' fun s' b hb => hstep s' b (mem_cons_of_mem a hb)
    refine ⟨t, ?_, ht⟩
    rw [foldlM_cons, hfirst]
    exact hrest

/-- Every step of a successful fold succeeds. -/
theorem foldlM_some_mem {a : α} (h : l.foldlM step s = some t) (ha : a ∈ l) :
    ∃ s' t', step s' a = some t' := by
  induction l generalizing s with
  | nil => cases ha
  | cons b l ih =>
    rw [foldlM_cons] at h
    obtain ⟨s', hfirst, hrest⟩ := Option.bind_eq_some_iff.mp h
    rcases mem_cons.mp ha with rfl | ha
    · exact ⟨s, s', hfirst⟩
    · exact ih hrest ha

end Option

end List
