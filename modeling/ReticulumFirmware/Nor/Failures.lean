import ReticulumFirmware.Nor.Script

/-!
# Failures of actions

What kinds of failures an action can end with, whatever the flash holds and the backend reports.
-/

namespace Nor

open Prog

variable {ε err err' α β : Type} {P : err → Prop}

/-- Every failure of the action, in any run, is of this kind. -/
def Action.FailsWith (P : err → Prop) (x : Action ε err α) : Prop :=
  ∀ ⦃φ : Faults⦄ ⦃f : Flash⦄ ⦃tr : List Mutation⦄ ⦃e : err⦄ ⦃g : Flash⦄,
    Exec φ x.run f tr (some (.error e)) g → P e

namespace Action.FailsWith

/-- A value does not fail. -/
theorem pureAction (a : α) : FailsWith P (Pure.pure a : Action ε err α) := by
  intro φ f tr e g hx
  cases hx

/-- A failure of the kind fails so. -/
theorem throwAction {e : err} (h : P e) : FailsWith P (throw e : Action ε err α) := by
  intro φ f tr e' g hx
  cases hx
  exact h

/-- A check fails as its error does. -/
theorem ensureAction {condition : Prop} [Decidable condition] {error : err} (h : P error) :
    FailsWith P (ensure condition error : Action ε err Unit) := by
  unfold ensure
  split
  · exact pureAction ()
  · exact throwAction h

/-- A read fails as the wrapped errors do. -/
theorem readAction {wrap : ε → err} (h : ∀ e, P (wrap e)) (offset length : ℕ) :
    FailsWith P (Action.read wrap offset length) := by
  intro φ f tr e g hx
  cases hx with
  | read hpure => cases hpure
  | readError _ e' hpure =>
    cases hpure
    exact h e'

/-- A sequence fails as its parts do. -/
theorem bind {x : Action ε err α} {next : α → Action ε err β} (hx : FailsWith P x)
    (hnext : ∀ a, FailsWith P (next a)) : FailsWith P (x >>= next) := by
  intro φ f tr e g h
  rw [Action.run_bind_eq] at h
  rcases h.bind_cases with ⟨hnone, -⟩ | ⟨r, f', tr₁, tr₂, -, hfirst, hrest⟩
  · cases hnone
  · cases r with
    | ok a => exact hnext a hrest
    | error e' =>
      cases hrest
      exact hx hfirst

/-- Failures that are renamed are told by the new names. -/
theorem adapt {rename : err' → err} (h : ∀ e, P (rename e)) (x : Action ε err' α) :
    FailsWith P (ExceptT.adapt rename x) := by
  intro φ f tr e g hx
  have hbind : Exec φ (x.run >>= fun r => Prog.pure (r.mapError rename)) f tr
      (some (.error e)) g := hx
  rcases hbind.bind_cases with ⟨hnone, -⟩ | ⟨r, f', tr₁, tr₂, -, -, hrest⟩
  · cases hnone
  · cases r with
    | ok a => cases hrest
    | error e' =>
      cases hrest
      exact h e'

/-- A fold fails as its steps do. -/
theorem foldlM {γ : Type} {step : α → γ → Action ε err α} (hstep : ∀ a c, FailsWith P (step a c))
    (cs : List γ) (a : α) : FailsWith P (cs.foldlM step a) := by
  induction cs generalizing a with
  | nil => exact pureAction a
  | cons c cs ih => exact (hstep a c).bind ih

/-- Checked patches fail with their verdicts. -/
theorem actAll {cs : List (CheckedPatch ε err)}
    (h : ∀ c ∈ cs, ∀ w r e, c.verdict w r = .error e → P e) :
    FailsWith P (CheckedPatch.actAll cs) := by
  induction cs with
  | nil => exact pureAction ()
  | cons c cs ih =>
    refine bind ?_ fun _ => ih fun d hd => h d (List.mem_cons_of_mem c hd)
    intro φ f tr e g hx
    have hverdict : ∀ {w r f tr g},
        Exec φ (.pure (c.verdict w r) : Prog ε (Except err Unit)) f tr (some (.error e)) g →
          P e := by
      intro w r f tr g hpure
      generalize hresult : c.verdict w r = result at hpure
      cases hpure
      exact h c List.mem_cons_self w r e hresult
    cases hx with
    | write hread => cases hread with
      | read hpure => exact hverdict hpure
      | readError _ _ hpure => exact hverdict hpure
    | writeError _ _ _ hread => cases hread with
      | read hpure => exact hverdict hpure
      | readError _ _ hpure => exact hverdict hpure

end Action.FailsWith

end Nor
