import ReticulumFirmware.Nor.Reads

/-!
# Answers of queries

A query run without faults leaves the flash alone, so it is a function of the contents. The answer
of a composition is the composition of the answers, and it depends on nothing but the ranges that
the run reads.
-/

namespace Nor

variable {ε err err' α β γ : Type}

/-- Two contents agree on a read. -/
def ReadRange.Agree (range : ReadRange) (f g : Flash) : Prop :=
  f.read range.1 range.2 = g.read range.1 range.2

/-- A read inside a range on which two contents agree. -/
theorem ReadRange.Inside.agree {range : ReadRange} {start stop : ℕ} {f g : Flash}
    (h : range.Inside start stop) (hagree : f.Agree g start stop) : range.Agree f g :=
  hagree.read_eq h.1 h.2

namespace Action

/-- The answer of a run without faults. -/
def answer (x : Action ε err α) (f : Flash) : Except err α := (x.eval f).1

/-- A value answers itself. -/
@[simp] theorem answer_pure (a : α) (f : Flash) : (pure a : Action ε err α).answer f = .ok a := rfl

/-- A failure answers itself. -/
@[simp] theorem answer_throw (e : err) (f : Flash) :
    (throw e : Action ε err α).answer f = .error e := rfl

/-- A read answers the contents. -/
@[simp] theorem answer_read (wrap : ε → err) (offset length : ℕ) (f : Flash) :
    (read wrap offset length).answer f = .ok (f.read offset length) := rfl

/-- A check answers whether its condition holds. -/
@[simp] theorem answer_ensure (condition : Prop) [Decidable condition] (error : err) (f : Flash) :
    (ensure condition error : Action ε err Unit).answer f =
      if condition then .ok () else .error error := by
  unfold ensure
  split
  · rfl
  · rfl

/-- What follows a check answers where its condition holds. -/
theorem answer_ensure_bind {condition : Prop} [Decidable condition] {error : err}
    {next : Unit → Action ε err β} (f : Flash) :
    (ensure condition error >>= next).answer f =
      if condition then (next ()).answer f else .error error := by
  rw [answer, eval_ensure_bind]
  split
  · rfl
  · rfl

/-- Adapted errors are answered. -/
theorem answer_adapt (h : err → err') (x : Action ε err α) (f : Flash) :
    answer (ExceptT.adapt h x : Action ε err' α) f = (x.answer f).mapError h := by
  rw [answer, eval_adapt]
  rfl

/-- A choice answers as the chosen part. -/
theorem answer_ite (condition : Prop) [Decidable condition] (x y : Action ε err α) (f : Flash) :
    answer (if condition then x else y) f = if condition then x.answer f else y.answer f := by
  split
  · rfl
  · rfl

end Action

namespace Query

variable {wrap : ε → err} {x : Action ε err α}

/-- A query answers and changes nothing. -/
theorem eval_eq (hx : Query wrap x.run) (f : Flash) : x.eval f = (x.answer f, f) :=
  Prod.ext rfl (hx.run_flash f)

/-- The answer of a composition is the composition of the answers. -/
theorem answer_bind (hx : Query wrap x.run) (next : α → Action ε err β) (f : Flash) :
    (x >>= next).answer f = x.answer f >>= fun a => (next a).answer f := by
  have heval := hx.eval_eq f
  cases hanswer : x.answer f with
  | ok a =>
    rw [hanswer] at heval
    rw [Action.answer, Action.eval_bind_ok heval]
    rfl
  | error e =>
    rw [hanswer] at heval
    rw [Action.answer, Action.eval_bind_error heval]
    rfl

/-- A mapped query answers the mapped value. -/
theorem answer_map (hx : Query wrap x.run) (h : α → β) (f : Flash) :
    (h <$> x : Action ε err β).answer f = (x.answer f).map h := by
  rw [← bind_pure_comp, hx.answer_bind]
  cases x.answer f <;> rfl

/-- The answer of a fold of queries is the fold of the answers. -/
theorem answer_foldlM {step : α → γ → Action ε err α} (hstep : ∀ a c, Query wrap (step a c).run)
    (f : Flash) (cs : List γ) (a : α) :
    (cs.foldlM step a).answer f = cs.foldlM (fun a c => (step a c).answer f) a := by
  induction cs generalizing a with
  | nil => rfl
  | cons c cs ih =>
    rw [List.foldlM_cons, (hstep a c).answer_bind, List.foldlM_cons]
    congr 1
    funext a'
    exact ih a'

/-- A mapped query is one. -/
theorem map (hx : Query wrap x.run) (h : α → β) : Query wrap (h <$> x : Action ε err β).run := by
  rw [← bind_pure_comp]
  exact hx.bind fun _ => pureAction _ _

/-- The reads of a composition whose first part answers. -/
theorem reads_bind_ok (hx : Query wrap x.run) {next : α → Action ε err β} {f : Flash} {a : α}
    (h : x.answer f = .ok a) : (x >>= next).reads f = x.reads f ++ (next a).reads f := by
  have heval := hx.eval_eq f
  rw [h] at heval
  exact Action.reads_bind_ok heval

/-- A sequence whose first part fails reads what that did. -/
theorem reads_bind_error (hx : Query wrap x.run) {next : α → Action ε err β} {f : Flash} {e : err}
    (h : x.answer f = .error e) : (x >>= next).reads f = x.reads f := by
  have heval := hx.eval_eq f
  rw [h] at heval
  exact Action.reads_bind_error heval

/-- An execution of a query answers, fails with the backend or is cut, and changes nothing. -/
theorem exec_answer (hx : Query wrap x.run) {φ : Faults} {f g : Flash} {tr : List Mutation}
    {r : Option (Except err α)} (h : Prog.Exec φ x.run f tr r g) :
    g = f ∧ tr = [] ∧ ∀ a, r = some (.ok a) → x.answer f = .ok a := by
  obtain ⟨hflash, htrace, hr⟩ := hx.exec h
  refine ⟨hflash, htrace, fun a ha => ?_⟩
  obtain ⟨hnone, -⟩ | hanswer | ⟨-, e, herror⟩ := hr
  · exact absurd (hnone.symm.trans ha) (by simp)
  · exact Option.some.inj (hanswer.symm.trans ha)
  · exact absurd (Option.some.inj (herror.symm.trans ha)) (by simp)

/-- An execution that starts with a query continues from its answer, or ends without one. -/
theorem exec_bind (hx : Query wrap x.run) {next : α → Action ε err β} {φ : Faults} {f g : Flash}
    {tr : List Mutation} {r : Option (Except err β)} (h : Prog.Exec φ (x >>= next).run f tr r g) :
    (∃ a, x.answer f = .ok a ∧ Prog.Exec φ (next a).run f tr r g) ∨
      (g = f ∧ tr = [] ∧ ∀ b, r ≠ some (.ok b)) := by
  rw [Action.run_bind_eq] at h
  rcases h.bind_cases with ⟨rfl, hfirst⟩ | ⟨a, f', tr₁, tr₂, rfl, hfirst, hrest⟩
  · obtain ⟨hflash, htrace, -⟩ := hx.exec hfirst
    exact Or.inr ⟨hflash, htrace, fun b hb => by cases hb⟩
  · obtain ⟨rfl, rfl, hanswer⟩ := hx.exec_answer hfirst
    cases a with
    | ok a => exact Or.inl ⟨a, hanswer a rfl, hrest⟩
    | error e =>
      right
      cases hrest with
      | done => exact ⟨rfl, rfl, fun b hb => by cases hb⟩
      | cut => exact ⟨rfl, rfl, fun b hb => by cases hb⟩

end Query

end Nor
