import ReticulumFirmware.Nor.Logic

/-!
# Actions and read-only queries

An action is a program whose failures are values; composing actions stops at the
first failure. Read-only drivers that stop at the first failed read need no rule
per operation: they return the answer of the fault-free run or the backend's error
and leave the flash alone.
-/

namespace Nor

open Prog

variable {ε err err' α β : Type}

/-- A program whose failures are values of type `err`. -/
abbrev Action (ε err α : Type) := ExceptT err (Prog ε) α

namespace Action

/-- Read a range, turning a backend error into a failure. -/
def read (wrap : ε → err) (offset length : ℕ) : Action ε err (List Byte) :=
  ExceptT.mk (.read offset length fun r => .pure (r.mapError wrap))

/-- Program bytes, turning a backend error into a failure. -/
def write (wrap : ε → err) (offset : ℕ) (bytes : List Byte) : Action ε err Unit :=
  ExceptT.mk (.write offset bytes fun r => .pure (r.mapError wrap))

/-- Erase a range, turning a backend error into a failure. -/
def erase (wrap : ε → err) (start stop : ℕ) : Action ε err Unit :=
  ExceptT.mk (.erase start stop fun r => .pure (r.mapError wrap))

/-- Read a range and return the backend's answer. -/
def tryRead (offset length : ℕ) : Action ε err (Except ε (List Byte)) :=
  ExceptT.lift (.read offset length .pure)

/-- Program bytes and return the backend's answer. -/
def tryWrite (offset : ℕ) (bytes : List Byte) : Action ε err (Except ε Unit) :=
  ExceptT.lift (.write offset bytes .pure)

/-- Fail unless a condition holds. -/
def ensure (condition : Prop) [Decidable condition] (error : err) : Action ε err Unit :=
  if condition then pure () else throw error

/-- Run an action and return its answer instead of failing. -/
def attempt (x : Action ε err α) : Action ε err' (Except err α) := ExceptT.lift x.run

/-- The answer and the flash after a run without faults. -/
def eval (x : Action ε err α) (f : Flash) : Except err α × Flash := Prog.run x.run f

/-- A value is answered without a change. -/
@[simp] theorem eval_pure (a : α) (f : Flash) :
    (pure a : Action ε err α).eval f = (.ok a, f) := rfl

/-- A failure is answered without a change. -/
@[simp] theorem eval_throw (e : err) (f : Flash) :
    (throw e : Action ε err α).eval f = (.error e, f) := rfl

/-- A read is answered without a change. -/
@[simp] theorem eval_read (wrap : ε → err) (offset length : ℕ) (f : Flash) :
    (read wrap offset length).eval f = (.ok (f.read offset length), f) := rfl

/-- A write programs its bytes. -/
@[simp] theorem eval_write (wrap : ε → err) (offset : ℕ) (bytes : List Byte) (f : Flash) :
    (write wrap offset bytes).eval f = (.ok (), f.program offset bytes) := rfl

/-- An erasure erases its range. -/
@[simp] theorem eval_erase (wrap : ε → err) (start stop : ℕ) (f : Flash) :
    (erase wrap start stop).eval f = (.ok (), f.erase start stop) := rfl

/-- A read with its result is answered without a change. -/
@[simp] theorem eval_tryRead (offset length : ℕ) (f : Flash) :
    (tryRead offset length : Action ε err _).eval f = (.ok (.ok (f.read offset length)), f) := rfl

/-- A write with its result programs its bytes. -/
@[simp] theorem eval_tryWrite (offset : ℕ) (bytes : List Byte) (f : Flash) :
    (tryWrite offset bytes : Action ε err _).eval f =
      (.ok (.ok ()), f.program offset bytes) := rfl

/-- A sequence runs its first part and, if that succeeds, its second. -/
theorem run_bind_eq (x : Action ε err α) (next : α → Action ε err β) :
    (x >>= next).run = (x.run >>= fun r => match r with
      | .ok a => (next a).run
      | .error e => Prog.pure (.error e)) := by
  show Prog.bind x.run _ = Prog.bind x.run _
  congr 1

/-- Evaluating a composition whose first part succeeds. -/
theorem eval_bind_ok {x : Action ε err α} {next : α → Action ε err β} {f g : Flash} {a : α}
    (h : x.eval f = (.ok a, g)) : (x >>= next).eval f = (next a).eval g := by
  rw [eval, run_bind_eq, Prog.run_bind]
  rw [eval] at h
  rw [h]
  rfl

/-- Evaluating a composition whose first part fails. -/
theorem eval_bind_error {x : Action ε err α} {next : α → Action ε err β} {f g : Flash} {e : err}
    (h : x.eval f = (.error e, g)) : (x >>= next).eval f = (.error e, g) := by
  rw [eval, run_bind_eq, Prog.run_bind]
  rw [eval] at h
  rw [h]
  rfl

/-- Evaluating a composition whose first part is a check. -/
theorem eval_ensure_bind {condition : Prop} [Decidable condition] {error : err}
    {next : Unit → Action ε err β} (f : Flash) :
    (ensure condition error >>= next).eval f =
      if condition then (next ()).eval f else (.error error, f) := by
  unfold ensure
  split
  · rfl
  · rfl

/-- An attempted action answers with its own result and does not fail. -/
@[simp] theorem eval_attempt (x : Action ε err α) (f : Flash) :
    (attempt x : Action ε err' _).eval f = (.ok (x.eval f).1, (x.eval f).2) := by
  show Prog.run (x.run >>= fun a => Prog.pure (Except.ok a)) f = _
  rw [Prog.run_bind]
  rfl

/-- Evaluating an action whose failures are renamed. -/
theorem eval_adapt (h : err → err') (x : Action ε err α) (f : Flash) :
    Action.eval (ExceptT.adapt h x) f = ((x.eval f).1.mapError h, (x.eval f).2) := by
  show Prog.run (x.run >>= fun a => Prog.pure (Except.mapError h a)) f = _
  rw [Prog.run_bind]
  rfl

/-- A fold of actions that read without failing folds their answers. -/
theorem eval_foldlM {γ : Type} {step : α → γ → Action ε err α} {next : α → γ → α} {f : Flash}
    (hstep : ∀ a c, (step a c).eval f = (.ok (next a c), f)) (cs : List γ) (a : α) :
    (cs.foldlM step a).eval f = (.ok (cs.foldl next a), f) := by
  induction cs generalizing a with
  | nil => rfl
  | cons c cs ih =>
    rw [List.foldlM_cons, eval_bind_ok (hstep a c), ih, List.foldl_cons]

end Action

/-- An action whose first part succeeds continues with the second. -/
theorem Prog.Exec.action_bind {φ : Faults} {x : Action ε err α} {next : α → Action ε err β}
    {f f' g : Flash} {tr₁ tr₂ : List Mutation} {a : α} {r : Option (Except err β)}
    (hx : Exec φ x.run f tr₁ (some (.ok a)) f') (hnext : Exec φ (next a).run f' tr₂ r g) :
    Exec φ (x >>= next).run f (tr₁ ++ tr₂) r g := by
  rw [Action.run_bind_eq]
  exact hx.bind hnext

/-- An action loses power where its first part does. -/
theorem Prog.Exec.action_bind_none {φ : Faults} {x : Action ε err α} {next : α → Action ε err β}
    {f g : Flash} {tr : List Mutation} (hx : Exec φ x.run f tr none g) :
    Exec φ (x >>= next).run f tr none g := by
  rw [Action.run_bind_eq]
  exact hx.bind_none

/-- The run of an action without faults satisfies the postcondition. -/
theorem wp.of_eval {φ : Faults} {G : Mutation → Prop} {x : Action ε err α}
    {Q : Except err α → Flash → Prop} {C : Flash → Prop} {f g : Flash} {r : Except err α}
    (h : wp φ G x.run Q C f) (heval : x.eval f = (r, g)) : Q r g := by
  have hrun := h.run
  have heq : x.run.run f = (r, g) := heval
  rwa [heq] at hrun

/-- The rule for composing actions: a failure of the first part is the result. -/
theorem wp_action_bind {φ : Faults} {G : Mutation → Prop} {x : Action ε err α}
    {next : α → Action ε err β} {Q : Except err β → Flash → Prop} {C : Flash → Prop} {f : Flash}
    (h : wp φ G x.run (fun r g => match r with
      | .ok a => wp φ G (next a).run Q C g
      | .error e => Q (.error e) g) C f) :
    wp φ G (x >>= next).run Q C f := by
  rw [Action.run_bind_eq]
  apply wp_bind
  intro tr r g hx
  obtain ⟨hG, hr⟩ := h tr r g hx
  refine ⟨hG, ?_⟩
  cases r with
  | none => exact hr
  | some r =>
    cases r with
    | ok a => exact hr
    | error e => exact wp_pure (fun hcut => h.crashes (hx.crash hcut)) hr

/-- The rule of a value. -/
theorem wp_action_pure {φ : Faults} {G : Mutation → Prop} {a : α}
    {Q : Except err α → Flash → Prop} {C : Flash → Prop} {f : Flash} (hC : φ.cut = true → C f)
    (hQ : Q (.ok a) f) : wp φ G (pure a : Action ε err α).run Q C f := wp_pure hC hQ

/-- The rule of a failure. -/
theorem wp_action_throw {φ : Faults} {G : Mutation → Prop} {e : err}
    {Q : Except err α → Flash → Prop} {C : Flash → Prop} {f : Flash} (hC : φ.cut = true → C f)
    (hQ : Q (.error e) f) : wp φ G (throw e : Action ε err α).run Q C f := wp_pure hC hQ

/-- The rule for a read followed by more of the program. -/
theorem wp_read_bind {φ : Faults} {G : Mutation → Prop} {wrap : ε → err} {offset length : ℕ}
    {next : List Byte → Action ε err β} {Q : Except err β → Flash → Prop} {C : Flash → Prop}
    {f : Flash} (hC : φ.cut = true → C f)
    (hok : wp φ G (next (f.read offset length)).run Q C f)
    (herror : φ.readError = true → ∀ e, Q (.error (wrap e)) f) :
    wp φ G (Action.read wrap offset length >>= next).run Q C f :=
  wp_action_bind <| wp_read hC (wp_pure hC hok) fun he e => wp_pure hC (herror he e)

/-- The rule for a program of some bytes followed by more of the program. -/
theorem wp_write_bind {φ : Faults} {G : Mutation → Prop} {wrap : ε → err} {offset : ℕ}
    {bytes : List Byte} {next : Unit → Action ε err β} {Q : Except err β → Flash → Prop}
    {C : Flash → Prop} {f : Flash}
    (hG : ∀ g, f.Torn (f.program offset bytes) g →
      G ⟨.program, offset, offset + bytes.length, f, g⟩)
    (hC : φ.cut = true → ∀ g, f.Torn (f.program offset bytes) g → C g)
    (hok : wp φ G (next ()).run Q C (f.program offset bytes))
    (herror : φ.writeError = true → ∀ e g, f.Torn (f.program offset bytes) g →
      Q (.error (wrap e)) g) :
    wp φ G (Action.write wrap offset bytes >>= next).run Q C f :=
  wp_action_bind <| wp_write hG hC (wp_pure (fun hcut => hC hcut _ (.finish f _)) hok)
    fun he e g ht => wp_pure (fun hcut => hC hcut g ht) (herror he e g ht)

/-- The rule for an erase followed by more of the program, with the power losses before,
inside and after the erase kept apart. -/
theorem wp_erase_bind_apart {φ : Faults} {G : Mutation → Prop} {wrap : ε → err} {start stop : ℕ}
    {next : Unit → Action ε err β} {Q : Except err β → Flash → Prop} {C : Flash → Prop} {f : Flash}
    (hG : ∀ g, f.Torn (f.erase start stop) g → G ⟨.erase, start, stop, f, g⟩)
    (hbefore : φ.cut = true → C f)
    (hinside : φ.cutErase = true ∨ φ.eraseError = true → ∀ g, f.Torn (f.erase start stop) g → C g)
    (hafter : φ.cut = true → C (f.erase start stop))
    (hok : wp φ G (next ()).run Q C (f.erase start stop))
    (herror : φ.eraseError = true → ∀ e g, f.Torn (f.erase start stop) g →
      Q (.error (wrap e)) g) :
    wp φ G (Action.erase wrap start stop >>= next).run Q C f :=
  wp_action_bind <| wp_erase hG hbefore (fun hcut => hinside (Or.inl hcut))
    (wp_pure hafter hok)
    fun he e g ht => wp_pure (fun _ => hinside (Or.inr he) g ht) (herror he e g ht)

/-- The rule for an erase followed by more of the program. -/
theorem wp_erase_bind {φ : Faults} {G : Mutation → Prop} {wrap : ε → err} {start stop : ℕ}
    {next : Unit → Action ε err β} {Q : Except err β → Flash → Prop} {C : Flash → Prop} {f : Flash}
    (hG : ∀ g, f.Torn (f.erase start stop) g → G ⟨.erase, start, stop, f, g⟩)
    (hC : ∀ g, f.Torn (f.erase start stop) g → C g)
    (hok : wp φ G (next ()).run Q C (f.erase start stop))
    (herror : φ.eraseError = true → ∀ e g, f.Torn (f.erase start stop) g →
      Q (.error (wrap e)) g) :
    wp φ G (Action.erase wrap start stop >>= next).run Q C f :=
  wp_erase_bind_apart hG (fun _ => hC _ (.start f _)) (fun _ => hC) (fun _ => hC _ (.finish f _))
    hok herror

/-- The rule for a check followed by more of the program. -/
theorem wp_ensure_bind {φ : Faults} {G : Mutation → Prop} {condition : Prop}
    [Decidable condition] {error : err} {next : Unit → Action ε err β}
    {Q : Except err β → Flash → Prop} {C : Flash → Prop} {f : Flash} (hC : φ.cut = true → C f)
    (hok : condition → wp φ G (next ()).run Q C f) (herror : ¬ condition → Q (.error error) f) :
    wp φ G (Action.ensure condition error >>= next).run Q C f := by
  unfold Action.ensure
  split
  · next h => exact hok h
  · next h => exact wp_pure hC (herror h)

/-- The rule for a final check. -/
theorem wp_ensure {φ : Faults} {G : Mutation → Prop} {condition : Prop} [Decidable condition]
    {error : err} {Q : Except err Unit → Flash → Prop} {C : Flash → Prop} {f : Flash}
    (hC : φ.cut = true → C f) (hok : condition → Q (.ok ()) f)
    (herror : ¬ condition → Q (.error error) f) :
    wp φ G (Action.ensure condition error : Action ε err Unit).run Q C f := by
  unfold Action.ensure
  split
  · next h => exact wp_pure hC (hok h)
  · next h => exact wp_pure hC (herror h)

/-- The rule for an action whose failure is kept as a value. -/
theorem wp_attempt_bind {φ : Faults} {G : Mutation → Prop} {x : Action ε err α}
    {next : Except err α → Action ε err' β} {Q : Except err' β → Flash → Prop} {C : Flash → Prop}
    {f : Flash} (h : wp φ G x.run (fun r g => wp φ G (next r).run Q C g) C f) :
    wp φ G (Action.attempt x >>= next).run Q C f := by
  apply wp_action_bind
  show wp φ G (x.run >>= fun r => Prog.pure (Except.ok r)) _ C f
  apply wp_bind
  intro tr r g hx
  obtain ⟨hG, hr⟩ := h tr r g hx
  refine ⟨hG, ?_⟩
  cases r with
  | none => exact hr
  | some r => exact wp_pure (fun hcut => h.crashes (hx.crash hcut)) hr

/-- A driver that only reads and returns the first read failure. -/
inductive Query (wrap : ε → err) : Prog ε (Except err α) → Prop
  | pure (r : Except err α) : Query wrap (.pure r)
  | read {offset length : ℕ} {k : Except ε (List Byte) → Prog ε (Except err α)}
      (hok : ∀ bytes, Query wrap (k (.ok bytes)))
      (herror : ∀ e, k (.error e) = .pure (.error (wrap e))) : Query wrap (.read offset length k)

namespace Query

/-- An execution of a query returns the fault-free answer, fails with the backend's
error, or is cut; the flash is unchanged. -/
theorem exec {wrap : ε → err} {p : Prog ε (Except err α)} (hp : Query wrap p) {φ : Faults}
    {f g : Flash} {tr : List Mutation} {r : Option (Except err α)} (hx : Exec φ p f tr r g) :
    g = f ∧ tr = [] ∧ ((r = none ∧ φ.cut = true) ∨ r = some (p.run f).1 ∨
      (φ.readError = true ∧ ∃ e, r = some (.error (wrap e)))) := by
  induction hp generalizing tr r with
  | pure r =>
    cases hx with
    | done => exact ⟨rfl, rfl, Or.inr (Or.inl rfl)⟩
    | cut h => exact ⟨rfl, rfl, Or.inl ⟨rfl, h⟩⟩
  | read hok herror ih =>
    cases hx with
    | cut h => exact ⟨rfl, rfl, Or.inl ⟨rfl, h⟩⟩
    | read h => exact ih _ h
    | readError h e hx =>
      rw [herror e] at hx
      cases hx with
      | done => exact ⟨rfl, rfl, Or.inr (Or.inr ⟨h, e, rfl⟩)⟩
      | cut hcut => exact ⟨rfl, rfl, Or.inl ⟨rfl, hcut⟩⟩

/-- A query run without faults does not change the flash. -/
theorem run_flash {wrap : ε → err} {p : Prog ε (Except err α)} (hp : Query wrap p) (f : Flash) :
    (p.run f).2 = f := by
  induction hp with
  | pure r => rfl
  | read hok herror ih => exact ih _

/-- A query has the execution of its run. -/
theorem exec_eval {wrap : ε → err} {x : Action ε err α} (hx : Query wrap x.run) (φ : Faults)
    {f g : Flash} {r : Except err α} (heval : x.eval f = (r, g)) :
    Exec φ x.run f [] (some r) f := by
  obtain ⟨tr, hexec⟩ := exec_run φ x.run f
  obtain ⟨hflash, rfl, -⟩ := hx.exec hexec
  have hr : (x.run.run f).1 = r := congrArg Prod.fst heval
  rwa [hflash, hr] at hexec

/-- The rule for a query inside a larger program. -/
theorem wp {wrap : ε → err} {p : Prog ε (Except err α)} (hp : Query wrap p) {φ : Faults}
    {G : Mutation → Prop} {Q : Except err α → Flash → Prop} {C : Flash → Prop} {f : Flash}
    (hC : φ.cut = true → C f) (hQ : Q (p.run f).1 f)
    (herror : φ.readError = true → ∀ e, Q (.error (wrap e)) f) : wp φ G p Q C f := by
  intro tr r g hx
  obtain ⟨rfl, rfl, ⟨rfl, hcut⟩ | rfl | ⟨he, e, rfl⟩⟩ := hp.exec hx
  · exact ⟨by simp, hC hcut⟩
  · exact ⟨by simp, hQ⟩
  · exact ⟨by simp, herror he e⟩

/-- The rule for a query followed by more of the program. -/
theorem wp_bind {wrap : ε → err} {x : Action ε err α} {next : α → Action ε err β}
    (hx : Query wrap x.run) {φ : Faults} {G : Mutation → Prop} {Q : Except err β → Flash → Prop}
    {C : Flash → Prop} {f g : Flash} {r : Except err α} (hC : φ.cut = true → C f)
    (heval : x.eval f = (r, g))
    (hok : ∀ a, r = .ok a → Nor.wp φ G (next a).run Q C f)
    (hfail : ∀ e, r = .error e → Q (.error e) f)
    (herror : φ.readError = true → ∀ e, Q (.error (wrap e)) f) :
    Nor.wp φ G (x >>= next).run Q C f := by
  apply wp_action_bind
  refine hx.wp hC ?_ herror
  have hr : (x.run.run f).1 = r := congrArg Prod.fst heval
  rw [hr]
  cases r with
  | ok a => exact hok a rfl
  | error e => exact hfail e rfl

/-- A sequence of queries is one. -/
theorem bind {wrap : ε → err} {x : Action ε err α} {next : α → Action ε err β}
    (hx : Query wrap x.run) (hnext : ∀ a, Query wrap (next a).run) :
    Query wrap (x >>= next).run := by
  rw [Action.run_bind_eq]
  generalize x.run = p at hx
  induction hx with
  | pure r =>
    cases r with
    | ok a => exact hnext a
    | error e => exact .pure _
  | read hok herror ih => exact .read ih fun e => by rw [herror e]; rfl

/-- A read is a query. -/
theorem readAction (wrap : ε → err) (offset length : ℕ) :
    Query wrap (Action.read wrap offset length).run :=
  .read (fun _ => .pure _) fun _ => rfl

/-- A value is a query. -/
theorem pureAction (wrap : ε → err) (a : α) :
    Query wrap (Pure.pure a : Action ε err α).run := .pure _

/-- A failure is a query. -/
theorem throwAction (wrap : ε → err) (e : err) :
    Query wrap (throw e : Action ε err α).run := .pure _

/-- A check is a query. -/
theorem ensureAction (wrap : ε → err) (condition : Prop) [Decidable condition] (error : err) :
    Query wrap (Action.ensure condition error : Action ε err Unit).run := by
  unfold Action.ensure
  split
  · exact .pure _
  · exact .pure _

/-- A query with adapted errors is one. -/
theorem adapt {wrap : ε → err} {h : err → err'} {x : Action ε err α} (hx : Query wrap x.run) :
    Query (h ∘ wrap) (ExceptT.adapt h x).run := by
  show Query (h ∘ wrap) (x.run >>= fun a => Prog.pure (Except.mapError h a))
  generalize x.run = p at hx
  induction hx with
  | pure r => exact .pure _
  | read hok herror ih => exact .read ih fun e => by rw [herror e]; rfl

/-- A fold of queries is one. -/
theorem foldlM {wrap : ε → err} {γ : Type} {step : α → γ → Action ε err α}
    (hstep : ∀ a c, Query wrap (step a c).run) (cs : List γ) (a : α) :
    Query wrap (cs.foldlM step a).run := by
  induction cs generalizing a with
  | nil => exact .pure _
  | cons c cs ih =>
    rw [List.foldlM_cons]
    exact bind (hstep a c) fun a' => ih a'

end Query

end Nor
