import ReticulumFirmware.Nor.Sha256
import ReticulumFirmware.Outbox.Receipt

/-!
# Runs of the outbox

A run is any sequence of mounts, offered messages and receipts on one partition that
starts erased. Every read may fail, every program may fail or lose power after any part of
its bits, and a power loss takes the index with it.
-/

namespace Outbox

open Nor Prog

/-- One operation on the partition. -/
inductive OutboxOp where
  | mount
  | accept (candidate : OutboxCandidate)
  | markDelivered (entry : OutboxEntry)

/-- What an operation returned. -/
inductive OutboxResult (ε : Type) where
  | mounted (result : Except (OutboxError ε) MountedOutbox)
  | accepted (result : Except (OutboxError ε) OutboxAcceptance)
  | delivered (result : Except (OutboxError ε) OutboxEntry)

/-- The entries that a result reports. -/
def OutboxResult.entries {ε : Type} : OutboxResult ε → List OutboxEntry
  | .mounted (.ok current) => current.entries
  | .accepted (.ok (.accepted entry)) => [entry]
  | .accepted (.ok (.replay entry)) => [entry]
  | .delivered (.ok entry) => [entry]
  | _ => []

/-- One operation of a run: its result, if power was not lost, and the contents it left. -/
structure OutboxStep (ε : Type) where
  op : OutboxOp
  result : Option (OutboxResult ε)
  after : Flash

/-- The entries a step reported. -/
def OutboxStep.reported {ε : Type} (step : OutboxStep ε) : List OutboxEntry :=
  (step.result.map OutboxResult.entries).getD []

section Run

variable {ε : Type} (geometry : Geometry) (sha256 : Sha256) (binding : OutboxBinding)

/-- Mount with an index of the required length. -/
abbrev mountProg : Prog ε (Except (OutboxError ε) MountedOutbox) :=
  (mount geometry sha256 binding recordCapacity).run

/-- The runs: steps so far, mounted outbox and contents. -/
inductive OutboxRun (start : Flash) :
    List (OutboxStep ε) → Option MountedOutbox → Flash → Prop
  | start : OutboxRun start [] none start
  | mount {steps handle f tr r g} (hrun : OutboxRun start steps handle f)
      (hexec : Exec Faults.all (mountProg geometry sha256 binding) f tr r g) :
      OutboxRun start (steps ++ [⟨.mount, r.map .mounted, g⟩]) (r.bind Except.toOption) g
  | accept {steps current f candidate tr r g} (hrun : OutboxRun start steps (some current) f)
      (hexec : Exec Faults.all (accept geometry sha256 current candidate) f tr r g) :
      OutboxRun start (steps ++ [⟨.accept candidate, r.map (.accepted ·.2), g⟩])
        (r.map Prod.fst) g
  | markDelivered {steps current f entry tr r g} (hrun : OutboxRun start steps (some current) f)
      (hexec : Exec Faults.all (markDelivered geometry sha256 current entry) f tr r g) :
      OutboxRun start (steps ++ [⟨.markDelivered entry, r.map (.delivered ·.2), g⟩])
        (r.map Prod.fst) g

end Run

variable {ε : Type} {geometry : Geometry} {sha256 : Sha256} {binding : OutboxBinding}

/-- What a step promises about the contents it left. -/
structure StepSpec (sha256 : Sha256) (binding : OutboxBinding) (step : OutboxStep ε) : Prop where
  reported : ∀ entry ∈ step.reported, entry.slot < 64 ∧
    ∃ later, CommittedAt sha256 binding step.after entry.slot later ∧ entry.Retained later
  mounted : ∀ result, step.result = some (.mounted result) →
    (∃ current, result = .ok current) ∨ ∃ error, result = .error (.backend error)
  answer : ∀ candidate result, step.op = .accept candidate →
    step.result = some (.accepted result) →
    AcceptAnswer sha256 binding candidate step.after result
  delivered : ∀ entry, step.result = some (.delivered (.ok entry)) → entry.delivered = true

/-- The invariant of a run. -/
structure RunInv (sha256 : Sha256) (binding : OutboxBinding) (steps : List (OutboxStep ε))
    (handle : Option MountedOutbox) (f : Flash) : Prop where
  store : ∃ frontier, StoreInv sha256 binding f frontier
  handle : ∀ current ∈ handle, Tracks sha256 binding f current
  history : ∀ step ∈ steps, StepSpec sha256 binding step ∧ Evolves sha256 binding step.after f

/-- One more step of a run. -/
theorem RunInv.snoc {steps : List (OutboxStep ε)} {handle handle' : Option MountedOutbox}
    {f : Flash} {step : OutboxStep ε} (h : RunInv sha256 binding steps handle f)
    (hevolves : Evolves sha256 binding f step.after)
    (hstore : ∃ frontier, StoreInv sha256 binding step.after frontier)
    (hhandle : ∀ current ∈ handle', Tracks sha256 binding step.after current)
    (hstep : StepSpec sha256 binding step) :
    RunInv sha256 binding (steps ++ [step]) handle' step.after := by
  refine ⟨hstore, hhandle, fun earlier hearlier => ?_⟩
  rcases List.mem_append.mp hearlier with hearlier | hearlier
  · obtain ⟨hspec, hevolves'⟩ := h.history earlier hearlier
    exact ⟨hspec, hevolves'.trans hevolves⟩
  · rw [List.mem_singleton.mp hearlier]
    exact ⟨hstep, .refl _⟩

/-- An erased partition satisfies the invariant. -/
theorem storeInv_erased {f : Flash} (h : f.Erased 0 storeSize) : StoreInv sha256 binding f 0 := by
  replace h : f.Erased 0 262144 := h
  exact ⟨by omega, by simp, fun slot _ hslot => h.mono (by omega) (by omega), by simp⟩

/-- A step that lost power reports nothing. -/
theorem stepSpec_none (op : OutboxOp) (g : Flash) :
    StepSpec sha256 binding (⟨op, none, g⟩ : OutboxStep ε) :=
  ⟨by simp [OutboxStep.reported], by simp, by simp, by simp⟩

/-- An execution of a mount from contents that satisfy the invariant. -/
theorem exec_mount {f g : Flash} {frontier : ℕ} {tr : List Mutation}
    {r : Option (Except (OutboxError ε) MountedOutbox)}
    (hinv : StoreInv sha256 binding f frontier) (hvalid : AccessValid geometry binding 64)
    (hexec : Exec Faults.all (mountProg geometry sha256 binding) f tr r g) :
    g = f ∧ (r = none ∨ r = some (.ok (mounted sha256 binding f frontier)) ∨
      ∃ error, r = some (.error (.backend error))) := by
  obtain ⟨rfl, -, hr⟩ := (query_mount geometry binding recordCapacity).exec hexec
  have hrun : (Prog.run (mountProg geometry sha256 binding : Prog ε _) g).1 =
      .ok (mounted sha256 binding g frontier) := by
    show (Action.eval (mount geometry sha256 binding 64) g).1 = _
    rw [eval_mount hinv hvalid]
  refine ⟨rfl, ?_⟩
  rcases hr with ⟨rfl, -⟩ | rfl | ⟨-, error, rfl⟩
  · exact Or.inl rfl
  · exact Or.inr (Or.inl (congrArg some hrun))
  · exact Or.inr (Or.inr ⟨error, rfl⟩)

/-- A mount keeps the invariant of the run. -/
theorem RunInv.mount {steps : List (OutboxStep ε)} {handle : Option MountedOutbox} {f g : Flash}
    {tr : List Mutation} {r : Option (Except (OutboxError ε) MountedOutbox)}
    (h : RunInv sha256 binding steps handle f) (hvalid : AccessValid geometry binding 64)
    (hexec : Exec Faults.all (mountProg geometry sha256 binding) f tr r g) :
    RunInv sha256 binding (steps ++ [⟨.mount, r.map .mounted, g⟩]) (r.bind Except.toOption) g := by
  obtain ⟨frontier, hinv⟩ := h.store
  obtain ⟨rfl, hr⟩ := exec_mount hinv hvalid hexec
  have htracks := tracks_mounted hinv
  apply h.snoc (.refl g) ⟨frontier, hinv⟩
  · rcases hr with rfl | rfl | ⟨error, rfl⟩
    · simp
    · intro current hcurrent
      cases hcurrent
      exact htracks
    · simp [Except.toOption]
  · rcases hr with rfl | rfl | ⟨error, rfl⟩
    · exact stepSpec_none .mount g
    · refine ⟨fun entry hentry => ?_, fun result hresult => ?_, by simp, by simp⟩
      · obtain ⟨hslot, hlater⟩ := htracks.entries entry hentry
        exact ⟨Nat.lt_of_lt_of_le hslot htracks.nextSlot_le, hlater⟩
      · cases hresult
        exact Or.inl ⟨_, rfl⟩
    · refine ⟨by simp [OutboxStep.reported, OutboxResult.entries], fun result hresult => ?_,
        by simp, by simp⟩
      cases hresult
      exact Or.inr ⟨error, rfl⟩

/-- An acceptance keeps the invariant of the run. -/
theorem RunInv.accept {steps : List (OutboxStep ε)} {current : MountedOutbox} {f g : Flash}
    {candidate : OutboxCandidate} {tr : List Mutation} {r : Option (Outcome ε OutboxAcceptance)}
    (h : RunInv sha256 binding steps (some current) f)
    (hexec : Exec Faults.all (accept geometry sha256 current candidate) f tr r g) :
    RunInv sha256 binding (steps ++ [⟨.accept candidate, r.map (.accepted ·.2), g⟩])
      (r.map Prod.fst) g := by
  obtain ⟨frontier, hinv⟩ := h.store
  have hpost := (wp_accept (h.handle current rfl) hinv tr r g hexec).2
  cases r with
  | none => exact h.snoc hpost.evolves hpost.inv (by simp) (stepSpec_none _ g)
  | some r =>
    obtain ⟨heffect, htracks, hanswer⟩ := hpost
    refine h.snoc heffect.evolves heffect.inv (by simpa using htracks) ⟨?_, by simp, ?_, by simp⟩
    · obtain ⟨current', result⟩ := r
      rcases result with error | entry | entry | _ | _
      · simp [OutboxStep.reported, OutboxResult.entries]
      · intro indexed hindexed
        cases List.mem_singleton.mp hindexed
        obtain ⟨hentry, hslot, hwritten⟩ := hanswer
        refine ⟨hslot, _, recordState_eq_committed.mp hwritten.1, ?_⟩
        rw [← hentry]
        exact .refl entry
      · intro indexed hindexed
        cases List.mem_singleton.mp hindexed
        exact hanswer.2.2
      · simp [OutboxStep.reported, OutboxResult.entries]
      · simp [OutboxStep.reported, OutboxResult.entries]
    · intro candidate' result hop hresult
      cases hop
      cases hresult
      exact hanswer

/-- A receipt keeps the invariant of the run. -/
theorem RunInv.markDelivered {steps : List (OutboxStep ε)} {current : MountedOutbox} {f g : Flash}
    {entry : OutboxEntry} {tr : List Mutation} {r : Option (Outcome ε OutboxEntry)}
    (h : RunInv sha256 binding steps (some current) f)
    (hexec : Exec Faults.all (markDelivered geometry sha256 current entry) f tr r g) :
    RunInv sha256 binding (steps ++ [⟨.markDelivered entry, r.map (.delivered ·.2), g⟩])
      (r.map Prod.fst) g := by
  obtain ⟨frontier, hinv⟩ := h.store
  have hpost := (wp_markDelivered (h.handle current rfl) hinv tr r g hexec).2
  cases r with
  | none => exact h.snoc hpost.evolves hpost.inv (by simp) (stepSpec_none _ g)
  | some r =>
    obtain ⟨heffect, htracks, hanswer⟩ := hpost
    refine h.snoc heffect.evolves heffect.inv (by simpa using htracks) ⟨?_, by simp, by simp, ?_⟩
    · obtain ⟨current', error | recovered⟩ := r
      · simp [OutboxStep.reported, OutboxResult.entries]
      · intro indexed hindexed
        cases List.mem_singleton.mp hindexed
        exact (hanswer recovered rfl).2
    · intro recovered hrecovered
      simp only [Option.map_some, Option.some.injEq, OutboxResult.delivered.injEq] at hrecovered
      exact (hanswer recovered hrecovered).1

/-- The invariant holds after every run. -/
theorem OutboxRun.inv {start f : Flash} {steps : List (OutboxStep ε)}
    {handle : Option MountedOutbox} (hstart : start.Erased 0 storeSize)
    (hvalid : AccessValid geometry binding 64)
    (hrun : OutboxRun geometry sha256 binding start steps handle f) :
    RunInv sha256 binding steps handle f := by
  induction hrun with
  | start => exact ⟨⟨0, storeInv_erased hstart⟩, by simp, by simp⟩
  | mount _ hexec ih => exact ih.mount hvalid hexec
  | accept _ hexec ih => exact ih.accept hexec
  | markDelivered _ hexec ih => exact ih.markDelivered hexec

/-- What a run promises of every later mount. -/
structure Durable (geometry : Geometry) (sha256 : Sha256) (binding : OutboxBinding)
    (steps : List (OutboxStep ε)) (f : Flash) (current : MountedOutbox) : Prop where
  /-- A mount whose reads succeed returns this outbox. -/
  mounts : (mount geometry sha256 binding recordCapacity : OutboxAction ε MountedOutbox).eval f =
    (.ok current, f)
  /-- A mount that returns anything else met a failed read. -/
  mounts_or_fails : ∀ tr r g, Exec Faults.all (mountProg geometry sha256 binding : Prog ε _) f tr
    (some r) g → r = .ok current ∨ ∃ error, r = .error (.backend error)
  /-- Every entry reported by any step is in it, at most marked delivered, with its wire. -/
  entries : ∀ step ∈ steps, ∀ entry ∈ step.reported, ∃ later ∈ current.entries,
    entry.Retained later ∧ f.read (entry.slot * 4096 + 256) entry.wireLen =
      step.after.read (entry.slot * 4096 + 256) entry.wireLen
  /-- An accepted message is in it, with exactly the offered wire. -/
  accepted : ∀ step ∈ steps, ∀ candidate entry, step.op = .accept candidate →
    step.result = some (.accepted (.ok (.accepted entry))) →
    entry = candidate.entry sha256 entry.slot ∧
      f.read (entry.slot * 4096 + 256) entry.wireLen = candidate.wire
  /-- A replayed entry is the one of the offered message. -/
  replayed : ∀ step ∈ steps, ∀ candidate entry, step.op = .accept candidate →
    step.result = some (.accepted (.ok (.replay entry))) →
    entry.key = candidate.key ∧ entry.Matches sha256 candidate
  /-- At most one committed record exists per principal and key. -/
  unique : ∀ slot < 64, ∀ slot' < 64, ∀ entry entry',
    CommittedAt sha256 binding f slot entry → CommittedAt sha256 binding f slot' entry' →
    entry.key = entry'.key → slot = slot'
  /-- Submission identifiers are slot numbers. -/
  ids : ∀ entry ∈ current.entries, entry.submissionId = entry.slot + 1
  /-- An identifier that was ever committed still names the same content. -/
  stable : ∀ step ∈ steps, ∀ slot < 64, ∀ entry,
    CommittedAt sha256 binding step.after slot entry →
    ∃ later ∈ current.entries, later.submissionId = slot + 1 ∧ entry.Retained later ∧
      f.read (slot * 4096 + 256) entry.wireLen =
        step.after.read (slot * 4096 + 256) entry.wireLen
  /-- An entry once reported delivered is delivered. -/
  delivered : ∀ step ∈ steps, ∀ entry ∈ step.reported, entry.delivered = true ∨
    step.result = some (.delivered (.ok entry)) →
    ∃ later ∈ current.entries, later.submissionId = entry.submissionId ∧ later.delivered = true

/-- A committed record is before the frontier. -/
theorem StoreInv.lt_of_committedAt {f : Flash} {frontier slot : ℕ} {entry : OutboxEntry}
    (hinv : StoreInv sha256 binding f frontier) (hslot : slot < 64)
    (hentry : CommittedAt sha256 binding f slot entry) : slot < frontier := by
  by_contra hge
  have hstate := recordState_eq_committed.mpr hentry
  rw [recordState_erased (hinv.erased slot (by omega) hslot)] at hstate
  cases hstate

/-- What was committed after some step is indexed by a later mount. -/
theorem RunInv.indexed {steps : List (OutboxStep ε)} {handle : Option MountedOutbox} {f : Flash}
    {frontier slot : ℕ} {step : OutboxStep ε} {entry : OutboxEntry}
    (h : RunInv sha256 binding steps handle f) (hstore : StoreInv sha256 binding f frontier)
    (hstep : step ∈ steps) (hslot : slot < 64)
    (hentry : CommittedAt sha256 binding step.after slot entry) :
    ∃ later ∈ (mounted sha256 binding f frontier).entries, later.submissionId = slot + 1 ∧
      entry.Retained later ∧ f.read (slot * 4096 + 256) entry.wireLen =
        step.after.read (slot * 4096 + 256) entry.wireLen := by
  obtain ⟨later, hlater, hretained, hwire⟩ := (h.history step hstep).2.committed slot entry hentry
  obtain ⟨-, -, hlen⟩ := hentry.entry_spec
  exact ⟨later, mem_committedEntries.mpr ⟨slot, hstore.lt_of_committedAt hslot hlater, hlater⟩,
    hlater.entry_spec.2.1, hretained, hwire _ hlen⟩

/-- What some step reported is indexed by a later mount. -/
theorem RunInv.reported {steps : List (OutboxStep ε)} {handle : Option MountedOutbox} {f : Flash}
    {frontier : ℕ} {step : OutboxStep ε} {entry : OutboxEntry}
    (h : RunInv sha256 binding steps handle f) (hstore : StoreInv sha256 binding f frontier)
    (hstep : step ∈ steps) (hentry : entry ∈ step.reported) :
    ∃ later ∈ (mounted sha256 binding f frontier).entries, entry.Retained later ∧
      f.read (entry.slot * 4096 + 256) entry.wireLen =
        step.after.read (entry.slot * 4096 + 256) entry.wireLen := by
  obtain ⟨hslot, committed, hcommitted, hretained⟩ :=
    (h.history step hstep).1.reported entry hentry
  obtain ⟨later, hlater, -, hretained', hwire⟩ := h.indexed hstore hstep hslot hcommitted
  have hlen : committed.wireLen = entry.wireLen := by rw [hretained.1]
  rw [hlen] at hwire
  exact ⟨later, hlater, hretained.trans hretained', hwire⟩

/-- After every run, with any errors and power losses, the outbox mounts and holds everything
that was ever reported. -/
theorem outbox_durable {start f : Flash} {steps : List (OutboxStep ε)}
    {handle : Option MountedOutbox} (hstart : start.Erased 0 storeSize)
    (hvalid : AccessValid geometry binding recordCapacity)
    (hrun : OutboxRun geometry sha256 binding start steps handle f) :
    ∃ current, Durable geometry sha256 binding steps f current := by
  have hinv := hrun.inv hstart hvalid
  obtain ⟨frontier, hstore⟩ := hinv.store
  refine ⟨mounted sha256 binding f frontier, eval_mount hstore hvalid, fun tr r g hexec => ?_,
    fun step hstep entry hentry => hinv.reported hstore hstep hentry,
    fun step hstep candidate entry hop hresult => ?_,
    fun step hstep candidate entry hop hresult => ?_,
    fun slot hslot slot' hslot' entry entry' hentry hentry' hkey => ?_, fun entry hentry => ?_,
    fun step hstep slot hslot entry hentry => hinv.indexed hstore hstep hslot hentry,
    fun step hstep entry hentry hdelivered => ?_⟩
  · obtain ⟨-, hnone | hok | ⟨error, herror⟩⟩ := exec_mount hstore hvalid hexec
    · cases hnone
    · exact Or.inl (Option.some.inj hok)
    · exact Or.inr ⟨error, Option.some.inj herror⟩
  · obtain ⟨hentry, hslot, hwritten⟩ := (hinv.history step hstep).1.answer candidate _ hop hresult
    have hreported : entry ∈ step.reported := by
      simp [OutboxStep.reported, hresult, OutboxResult.entries]
    obtain ⟨-, -, -, hwire⟩ := hinv.reported hstore hstep hreported
    have hlen : entry.wireLen = candidate.wire.length := by rw [hentry]; rfl
    refine ⟨hentry, ?_⟩
    rw [hwire, hlen]
    exact hwritten.2
  · obtain ⟨hkey, hmatches, -⟩ := (hinv.history step hstep).1.answer candidate _ hop hresult
    exact ⟨hkey, hmatches⟩
  · exact hstore.unique slot (hstore.lt_of_committedAt hslot hentry) slot'
      (hstore.lt_of_committedAt hslot' hentry') entry entry' hentry hentry' hkey
  · obtain ⟨slot, -, hcommitted⟩ := mem_committedEntries.mp hentry
    obtain ⟨hslot, hid, -⟩ := hcommitted.entry_spec
    rw [hid, hslot]
  · obtain ⟨later, hlater, hretained, -⟩ := hinv.reported hstore hstep hentry
    have htrue : entry.delivered = true := by
      rcases hdelivered with htrue | hresult
      · exact htrue
      · exact (hinv.history step hstep).1.delivered entry hresult
    exact ⟨later, hlater, hretained.submissionId_eq, hretained.2 htrue⟩

/-- The logical range of the product's outbox. -/
def productBinding : OutboxBinding := ⟨Vector.replicate 16 0x65, 0x00a1a000, 0x00040000⟩

/-- The geometry of its flash. -/
def productGeometry : Geometry := ⟨0x00040000, 4, 4, 4096⟩

/-- A message to a destination of sevens. -/
def smallCandidate : OutboxCandidate :=
  ⟨Vector.replicate 16 1, Vector.replicate 16 2, Vector.replicate 16 7, Vector.replicate 32 3,
    List.replicate 96 7⟩

/-- A mount and an accepted message on the product's partition. -/
theorem outbox_durable_product : ∃ (steps : List (OutboxStep Unit)) (handle : Option MountedOutbox)
    (f : Flash) (current : MountedOutbox), steps.length = 2 ∧
    OutboxRun productGeometry Nor.sha256 productBinding Flash.erased steps handle f ∧
    Durable productGeometry Nor.sha256 productBinding steps f current := by
  have hstart : Flash.erased.Erased 0 storeSize := fun _ _ => rfl
  have hvalid : AccessValid productGeometry productBinding recordCapacity := by decide
  have hmount : Exec Faults.all (mountProg productGeometry Nor.sha256 productBinding : Prog Unit _)
      Flash.erased [] (some (.ok (mounted Nor.sha256 productBinding Flash.erased 0)))
        Flash.erased :=
    (query_mount ..).exec_eval Faults.all (eval_mount (storeInv_erased hstart) hvalid)
  obtain ⟨tr, haccept⟩ := exec_run Faults.all (accept productGeometry sha256
    (mounted Nor.sha256 productBinding Flash.erased 0) smallCandidate : Prog Unit _) Flash.erased
  have hrun := OutboxRun.accept (OutboxRun.mount .start hmount) haccept
  obtain ⟨current, hdurable⟩ := outbox_durable hstart hvalid hrun
  exact ⟨_, _, _, current, rfl, hrun, hdurable⟩

end Outbox
