import ReticulumFirmware.Nor.Action

/-!
# The reads of a program

The reads that a program issues on its fault-free run, in order. A query issues no others under
any faults, since its first failed read ends it.
-/

namespace Nor

variable {ε err α β : Type}

/-- A read range: its first byte and its length. -/
abbrev ReadRange := ℕ × ℕ

/-- The read stays inside `[start, stop)`. -/
def ReadRange.Inside (range : ReadRange) (start stop : ℕ) : Prop :=
  start ≤ range.1 ∧ range.1 + range.2 ≤ stop

/-- A range inside a part is inside the whole. -/
theorem ReadRange.Inside.mono {range : ReadRange} {start stop start' stop' : ℕ}
    (h : range.Inside start stop) (hstart : start' ≤ start) (hstop : stop ≤ stop') :
    range.Inside start' stop' :=
  ⟨hstart.trans h.1, h.2.trans hstop⟩

namespace Prog

/-- The reads of the run without faults. -/
def reads : Prog ε α → Flash → List ReadRange
  | .pure _, _ => []
  | .read offset length k, f => (offset, length) :: (k (.ok (f.read offset length))).reads f
  | .write offset bytes k, f => (k (.ok ())).reads (f.program offset bytes)
  | .erase start stop k, f => (k (.ok ())).reads (f.erase start stop)

/-- A composition issues the reads of its parts in order. -/
theorem reads_bind (p : Prog ε α) (next : α → Prog ε β) (f : Flash) :
    (p >>= next).reads f = p.reads f ++ (next (p.run f).1).reads (p.run f).2 := by
  induction p generalizing f with
  | pure a => rfl
  | read offset length k ih => exact congrArg (_ :: ·) (ih _ f)
  | write offset bytes k ih => exact ih _ _
  | erase start stop k ih => exact ih _ _

/-- A read that some execution of a program issues. -/
inductive Issues (φ : Faults) : Prog ε α → Flash → ReadRange → Prop
  | here (offset length : ℕ) (k : Except ε (List Byte) → Prog ε α) (f : Flash) :
      Issues φ (.read offset length k) f (offset, length)
  | read {offset length k f range} : Issues φ (k (.ok (f.read offset length))) f range →
      Issues φ (.read offset length k) f range
  | readError {offset length k f range} (herror : φ.readError = true) (e : ε) :
      Issues φ (k (.error e)) f range → Issues φ (.read offset length k) f range
  | write {offset bytes k f range} : Issues φ (k (.ok ())) (f.program offset bytes) range →
      Issues φ (.write offset bytes k) f range
  | writeError {offset bytes k f f' range} (herror : φ.writeError = true) (e : ε)
      (htorn : f.Torn (f.program offset bytes) f') : Issues φ (k (.error e)) f' range →
      Issues φ (.write offset bytes k) f range
  | erase {start stop k f range} : Issues φ (k (.ok ())) (f.erase start stop) range →
      Issues φ (.erase start stop k) f range
  | eraseError {start stop k f f' range} (herror : φ.eraseError = true) (e : ε)
      (htorn : f.Torn (f.erase start stop) f') : Issues φ (k (.error e)) f' range →
      Issues φ (.erase start stop k) f range

end Prog

/-- Whatever fails, a query issues only the reads of its run. -/
theorem Query.issues_iff {wrap : ε → err} {p : Prog ε (Except err α)} (hp : Query wrap p)
    {φ : Faults} {f : Flash} {range : ReadRange} : p.Issues φ f range ↔ range ∈ p.reads f := by
  induction hp with
  | pure r =>
    constructor
    · intro h
      cases h
    · intro h
      cases h
  | @read offset length k hok herror ih =>
    constructor
    · intro h
      cases h with
      | here => exact List.mem_cons_self
      | read h => exact List.mem_cons_of_mem _ ((ih _).mp h)
      | readError he e h =>
        rw [herror e] at h
        cases h
    · intro h
      obtain rfl | h := List.mem_cons.mp h
      · exact .here ..
      · exact .read ((ih _).mpr h)

namespace Action

/-- The reads of an action's run without faults. -/
def reads (x : Action ε err α) (f : Flash) : List ReadRange := Prog.reads x.run f

/-- A value reads nothing. -/
@[simp] theorem reads_pure (a : α) (f : Flash) : (pure a : Action ε err α).reads f = [] := rfl

/-- A failure reads nothing. -/
@[simp] theorem reads_throw (e : err) (f : Flash) : (throw e : Action ε err α).reads f = [] := rfl

/-- A read reads its range. -/
@[simp] theorem reads_read (wrap : ε → err) (offset length : ℕ) (f : Flash) :
    (read wrap offset length).reads f = [(offset, length)] := rfl

/-- A check reads nothing. -/
@[simp] theorem reads_ensure (condition : Prop) [Decidable condition] (error : err) (f : Flash) :
    (ensure condition error : Action ε err Unit).reads f = [] := by
  unfold ensure
  split
  · rfl
  · rfl

/-- The reads of a composition whose first part succeeds. -/
theorem reads_bind_ok {x : Action ε err α} {next : α → Action ε err β} {f g : Flash} {a : α}
    (h : x.eval f = (.ok a, g)) : (x >>= next).reads f = x.reads f ++ (next a).reads g := by
  rw [reads, run_bind_eq, Prog.reads_bind]
  rw [eval] at h
  rw [h]
  rfl

/-- The reads of a composition whose first part fails. -/
theorem reads_bind_error {x : Action ε err α} {next : α → Action ε err β} {f g : Flash} {e : err}
    (h : x.eval f = (.error e, g)) : (x >>= next).reads f = x.reads f := by
  rw [reads, run_bind_eq, Prog.reads_bind]
  rw [eval] at h
  rw [h]
  exact List.append_nil _

/-- The reads of a check and of what follows it. -/
theorem reads_ensure_bind {condition : Prop} [Decidable condition] {error : err}
    {next : Unit → Action ε err β} (f : Flash) :
    (ensure condition error >>= next).reads f = if condition then (next ()).reads f else [] := by
  unfold ensure
  split
  · rfl
  · rfl

end Action

/-- A driver that mutates nothing and whose reads satisfy a predicate, whatever they answer. -/
inductive ReadsOnly (P : ReadRange → Prop) : Prog ε α → Prop
  | pure (a : α) : ReadsOnly P (.pure a)
  | read {offset length : ℕ} {k : Except ε (List Byte) → Prog ε α} (hrange : P (offset, length))
      (hk : ∀ r, ReadsOnly P (k r)) : ReadsOnly P (.read offset length k)

namespace ReadsOnly

variable {P Q : ReadRange → Prop} {p : Prog ε α}

/-- What reads only in some ranges reads only in more. -/
theorem mono (h : ReadsOnly P p) (hPQ : ∀ range, P range → Q range) : ReadsOnly Q p := by
  induction h with
  | pure a => exact .pure a
  | read hrange _ ih => exact .read (hPQ _ hrange) ih

/-- A sequence of drivers reads where its parts do. -/
theorem bind_prog {next : α → Prog ε β} (h : ReadsOnly P p) (hnext : ∀ a, ReadsOnly P (next a)) :
    ReadsOnly P (p >>= next) := by
  induction h with
  | pure a => exact hnext a
  | read hrange _ ih => exact .read hrange ih

/-- Contents that agree on the reads give the same run. -/
theorem run_congr (h : ReadsOnly P p) {f g : Flash}
    (hagree : ∀ offset length, P (offset, length) → f.read offset length = g.read offset length) :
    (p.run g).1 = (p.run f).1 := by
  induction h with
  | pure a => rfl
  | read hrange _ ih =>
    rw [Prog.run, Prog.run, hagree _ _ hrange]
    exact ih _

variable {x : Action ε err α} {next : α → Action ε err β}

/-- A sequence reads where its parts do. -/
theorem bind (h : ReadsOnly P x.run) (hnext : ∀ a, ReadsOnly P (next a).run) :
    ReadsOnly P (x >>= next).run := by
  rw [Action.run_bind_eq]
  refine h.bind_prog fun r => ?_
  cases r with
  | ok a => exact hnext a
  | error e => exact .pure _

/-- A value reads nowhere. -/
theorem pureAction (a : α) : ReadsOnly P (Pure.pure a : Action ε err α).run := .pure _

/-- A failure reads nowhere. -/
theorem throwAction (e : err) : ReadsOnly P (throw e : Action ε err α).run := .pure _

/-- A read reads in its range. -/
theorem readAction {wrap : ε → err} {offset length : ℕ} (hrange : P (offset, length)) :
    ReadsOnly P (Action.read wrap offset length).run :=
  .read hrange fun _ => .pure _

/-- A check reads nowhere. -/
theorem ensureAction (condition : Prop) [Decidable condition] (error : err) :
    ReadsOnly P (Action.ensure condition error : Action ε err Unit).run := by
  unfold Action.ensure
  split
  · exact .pure _
  · exact .pure _

/-- What follows a check is reached under its condition. -/
theorem ensure_bind {condition : Prop} [Decidable condition] {error : err}
    {next : Unit → Action ε err β} (hnext : condition → ReadsOnly P (next ()).run) :
    ReadsOnly P (Action.ensure condition error >>= next).run := by
  unfold Action.ensure
  split
  · next hcondition => exact hnext hcondition
  · exact .pure _

/-- Adapted errors read nowhere else. -/
theorem adapt {err' : Type} {h : err → err'} (hx : ReadsOnly P x.run) :
    ReadsOnly P (ExceptT.adapt h x).run :=
  bind_prog hx fun _ => .pure _

/-- A fold reads where its steps do. -/
theorem foldlM {γ : Type} {step : α → γ → Action ε err α} {cs : List γ}
    (hstep : ∀ c ∈ cs, ∀ a, ReadsOnly P (step a c).run) (a : α) :
    ReadsOnly P (cs.foldlM step a).run := by
  induction cs generalizing a with
  | nil => exact .pure _
  | cons c cs ih =>
    rw [List.foldlM_cons]
    exact (hstep c List.mem_cons_self a).bind
      fun a' => ih (fun c hc => hstep c (List.mem_cons_of_mem _ hc)) a'

end ReadsOnly

end Nor
