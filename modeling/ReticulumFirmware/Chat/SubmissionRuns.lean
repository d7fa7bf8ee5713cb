import ReticulumFirmware.Chat.SubmissionInvariant

/-!
# Exactly-once submission

Over every run, an attempt of a row is named by its idempotency key, it has at most one
committed record on the appliance, and a recorded acceptance names that record.
-/

namespace Chat

open Nor Prog Outbox ChatEngine MemoryChatStore

variable {ε E : Type} {geometry : Geometry} {sha256 : Sha256} {binding : OutboxBinding}
  {principal : Vector Byte 16} {compose : OutboxMaterial → MessageId × List Byte} {start : Flash}

section Step

variable {ops : List SubmissionOp} {op : SubmissionOp} {history : List Snapshot}
  {engine engine' : ChatEngine MemoryChatStore} {device device' : OutboxDevice}

/-- The rows of a step that did not submit. -/
theorem SubmissionInv.quiet {submitted : OutboxMaterial → Prop}
    (h : SubmissionInv sha256 binding principal compose ops history engine device)
    (hkeys : ((ops ++ [op]).flatMap SubmissionOp.keys).Nodup)
    (hdevice : DeviceEffect sha256 binding principal compose submitted device device')
    (hsubmitted : ∀ material, submitted material → ∃ id row,
      engine.store.outbox.get? id = some row ∧ row.material = material)
    (hsame : engine.store.SameRows engine'.store) :
    SubmissionInv sha256 binding principal compose (ops ++ [op])
      (history ++ [⟨engine'.store, device'.flash⟩]) engine' device' :=
  h.snoc hkeys hdevice hsubmitted (h.rowsStep_same hsame) fun id row hrow ids hids =>
    h.named_evolves hdevice (by rwa [← hsame.1]) hids

/-- The invariant is kept when a message is enqueued. -/
theorem SubmissionInv.enqueue
    (h : SubmissionInv sha256 binding principal compose ops history engine device)
    {material : OutboxMaterial} (now : Option UInt64)
    (hkeys : ((ops ++ [SubmissionOp.enqueue material]).flatMap SubmissionOp.keys).Nodup) :
    SubmissionInv sha256 binding principal compose (ops ++ [.enqueue material])
      (history ++ [⟨(engine.enqueueSend (memoryStore now) material).2.store, device.flash⟩])
      (engine.enqueueSend (memoryStore now) material).2 device := by
  have hdevice : DeviceEffect sha256 binding principal compose (fun _ => False) device device :=
    .refl h.deviceInv
  obtain hsame | ⟨id, sequence, hid, houtbox, hnext⟩ :=
    engine.store.commitOutbound_rows now material .notObserved
  · exact h.quiet hkeys hdevice (by simp) hsame
  · have hnone : ∀ row, engine.store.outbox.get? id ≠ some row := by
      intro row hrow
      obtain ⟨s, hs, -, hmem⟩ := h.mem_rows hrow
      have hlt := h.numbered s hs row hmem
      rw [h.keyed id row hrow, hid] at hlt
      exact absurd hlt (lt_irrefl _)
    refine h.snoc hkeys hdevice (by simp) (h.rowsStep_insert houtbox rfl ?_ ?_
      (fun earlier hearlier => absurd hearlier (hnone earlier)) (Or.inr ⟨?_, rfl, Or.inl ?_⟩)) ?_
    · exact le_of_le_of_eq (Nat.le_succ _) hnext.symm
    · rw [hid]
      exact lt_of_lt_of_eq (Nat.lt_succ_self _) hnext.symm
    · exact List.mem_singleton.mpr rfl
    · exact (congrArg UInt64.toNat hid).ge
    · intro id' row hrow ids hids
      replace hrow : (engine.store.outbox.insert id (newRow id sequence material)).get? id' =
          some row := houtbox ▸ hrow
      rw [BTreeMap.get?_insert] at hrow
      split at hrow
      · cases hrow
        cases hids
      · exact h.named_evolves hdevice hrow hids

/-- The invariant is kept when a message is retried. -/
theorem SubmissionInv.retry
    (h : SubmissionInv sha256 binding principal compose ops history engine device)
    {outboxId : OutboxId} {idempotencyKey : IdempotencyKey} (now : Option UInt64)
    (hkeys : ((ops ++ [SubmissionOp.retry outboxId idempotencyKey]).flatMap
      SubmissionOp.keys).Nodup) :
    SubmissionInv sha256 binding principal compose (ops ++ [.retry outboxId idempotencyKey])
      (history ++ [⟨(engine.retrySend (memoryStore now) outboxId idempotencyKey).2.store,
        device.flash⟩])
      (engine.retrySend (memoryStore now) outboxId idempotencyKey).2 device := by
  have hdevice : DeviceEffect sha256 binding principal compose (fun _ => False) device device :=
    .refl h.deviceInv
  obtain hsame | ⟨record, attempt, hrecord, hattempt, houtbox, hnext⟩ :=
    engine.store.retryOutbox_rows now outboxId idempotencyKey .notObserved
  · exact h.quiet hkeys hdevice (by simp) hsame
  · obtain ⟨s, hs, -, hmem⟩ := h.mem_rows hrecord
    have hid := h.keyed outboxId record hrecord
    have hnumber := MessageAttemptNumber.toNat_checkedNext hattempt
    refine h.snoc hkeys hdevice (by simp) (h.rowsStep_insert houtbox hid ?_ ?_
      (fun earlier hearlier => ?_) (Or.inr ⟨?_, rfl, Or.inr ⟨record, ?_, ?_⟩⟩)) ?_
    · exact (congrArg UInt64.toNat hnext).ge
    · have hlt := h.numbered s hs record hmem
      rw [hid] at hlt
      exact lt_of_lt_of_eq hlt (congrArg UInt64.toNat hnext).symm
    · rw [hrecord] at hearlier
      cases hearlier
      exact le_of_le_of_eq (Nat.le_succ _) hnumber.symm
    · exact List.mem_singleton.mpr rfl
    · exact hid ▸ hrecord
    · exact lt_of_lt_of_eq (Nat.lt_succ_self _) hnumber.symm
    · intro id' row hrow ids hids
      replace hrow : (engine.store.outbox.insert outboxId
          (rearmedRow record idempotencyKey attempt)).get? id' = some row := houtbox ▸ hrow
      rw [BTreeMap.get?_insert] at hrow
      split at hrow
      · cases hrow
        cases hids
      · exact h.named_evolves hdevice hrow hids

/-- A record committed under the key of a row holds the material of the row. -/
theorem SubmissionInv.holdsMaterial
    (h : SubmissionInv sha256 binding principal compose ops history engine device)
    {id : OutboxId} {record : OutboxRecord} (hrecord : engine.store.outbox.get? id = some record)
    (hdevice : DeviceEffect sha256 binding principal compose (· = record.material) device device')
    {slot : ℕ} {entry : OutboxEntry} (hslot : slot < 64)
    (hentry : CommittedAt sha256 binding device'.flash slot entry)
    (hkey : entry.key = (principal, record.material.idempotencyKey)) :
    HoldsMaterial sha256 binding principal compose device'.flash slot record.material := by
  rcases hdevice.fresh slot hslot entry hentry with ⟨earlier, hearlier⟩ | ⟨material, rfl, hholds⟩
  · obtain ⟨s, hs, row, hrow, hholds⟩ := h.origin _ h.current slot hslot earlier hearlier
    have hlater := hholds.evolves hdevice.evolves
    obtain ⟨entry', hentry', hkey', -⟩ := hholds.evolves hdevice.evolves
    -- the record was committed for an attempt with the same key, so for the same material
    have heq : row.material.idempotencyKey = record.material.idempotencyKey := by
      rw [hentry'.unique hentry, hkey] at hkey'
      exact (Prod.mk.inj hkey').2.symm
    obtain ⟨s', hs', -, hmem⟩ := h.mem_rows hrecord
    have hmaterial : row.material = record.material :=
      (h.attempts s hs row hrow s' hs' record hmem).material_eq heq
    exact hmaterial ▸ hlater
  · exact hholds

/-- The invariant is kept by every effect of a reconciliation. -/
theorem SubmissionInv.reconcile
    (h : SubmissionInv sha256 binding principal compose ops history engine device)
    (hkeys : ((ops ++ [op]).flatMap SubmissionOp.keys).Nodup)
    (heffect : ReconcileEffect ε E geometry sha256 principal compose engine.store device
      engine'.store device') :
    SubmissionInv sha256 binding principal compose (ops ++ [op])
      (history ++ [⟨engine'.store, device'.flash⟩]) engine' device' := by
  have hquiet : DeviceEffect sha256 binding principal compose (fun _ => False) device device :=
    .refl h.deviceInv
  cases heffect with
  | kept hsame => exact h.quiet hkeys hquiet (by simp) hsame
  | @status id record status hrecord hreplaced =>
    refine h.snoc hkeys hquiet (by simp) (h.rowsStep_replaced hrecord hreplaced rfl)
      fun id' row hrow ids hids => ?_
    rw [hreplaced.1, BTreeMap.get?_insert] at hrow
    split at hrow
    · cases hrow
      exact h.named_evolves hquiet hrecord hids
    · exact h.named_evolves hquiet hrow hids
  | @submitted _ id record answer hrecord hsubmit hrows =>
    obtain ⟨hdevice, hanswer⟩ := hsubmit.effect h.deviceInv
    have hsubmitted : ∀ material, material = record.material → ∃ id row,
        engine.store.outbox.get? id = some row ∧ row.material = material :=
      fun material heq => ⟨id, record, hrecord, heq.symm⟩
    rcases hrows with hsame | ⟨ids, rfl, hreplaced⟩
    · exact h.quiet hkeys hdevice hsubmitted hsame
    refine h.snoc hkeys hdevice hsubmitted (h.rowsStep_replaced hrecord hreplaced rfl)
      fun id' row hrow ids' hids' => ?_
    rw [hreplaced.1, BTreeMap.get?_insert] at hrow
    split at hrow
    · cases hrow
      cases hids'
      obtain ⟨slot, hslot, hid, entry, hentry, hkey, hmessage⟩ := hanswer ids rfl
      have hholds := h.holdsMaterial hrecord hdevice hslot hentry hkey
      obtain ⟨entry', hentry', -, hmessage', -⟩ := hholds
      refine ⟨slot, hslot, hid, ?_, h.holdsMaterial hrecord hdevice hslot hentry hkey⟩
      rw [hmessage, ← hmessage', hentry'.unique hentry]
    · exact h.named_evolves hdevice hrow hids'

/-- Every step keeps the invariant. -/
theorem SubmissionInv.step
    (h : SubmissionInv sha256 binding principal compose ops history engine device)
    (hvalid : AccessValid geometry binding 64)
    (hkeys : ((ops ++ [op]).flatMap SubmissionOp.keys).Nodup)
    (hstep : SubmissionStep ε E geometry sha256 binding principal compose engine device op engine'
      device') :
    SubmissionInv sha256 binding principal compose (ops ++ [op])
      (history ++ [⟨engine'.store, device'.flash⟩]) engine' device' := by
  have hnone : ∀ material, (fun _ : OutboxMaterial => False) material → ∃ id row,
      engine.store.outbox.get? id = some row ∧ row.material = material := by simp
  cases hstep with
  | enqueue now material => exact h.enqueue now hkeys
  | retry now outboxId idempotencyKey => exact h.retry now hkeys
  | reconcile now hsession selection =>
    exact h.reconcile hkeys (reconcileStep_effect now hsession h.keyed device selection)
  | reopen hopen => exact h.quiet hkeys (.refl h.deviceInv) hnone (sameRows_openImage h.keyed hopen)
  | reboot hexec =>
    exact h.quiet hkeys (deviceEffect_reboot h.deviceInv hvalid hexec) hnone (.refl _)
  | receipt hhandle hexec =>
    exact h.quiet hkeys (deviceEffect_receipt h.deviceInv hhandle hexec) hnone (.refl _)

end Step

section Run

variable {ops : List SubmissionOp} {history : List Snapshot} {engine : ChatEngine MemoryChatStore}
  {device : OutboxDevice}

/-- The invariant holds over every run. -/
theorem SubmissionRun.inv (hstart : start.Erased 0 storeSize)
    (hvalid : AccessValid geometry binding 64)
    (hrun : SubmissionRun ε E geometry sha256 binding principal compose start ops history engine
      device) (hkeys : (ops.flatMap SubmissionOp.keys).Nodup) :
    SubmissionInv sha256 binding principal compose ops history engine device := by
  induction hrun with
  | start =>
    have hstore : StoreInv sha256 binding start 0 := storeInv_erased hstart
    constructor
    case current => simp [ChatEngine.new]
    case deviceInv => exact ⟨⟨0, hstore⟩, by simp⟩
    case evolves => simpa using Evolves.refl start
    case origin =>
      intro s hs slot hslot entry hentry
      rw [List.mem_singleton.mp hs] at hentry
      exact absurd (hstore.lt_of_committedAt hslot hentry) (Nat.not_lt_zero _)
    all_goals simp [ChatEngine.new, MemoryChatStore.new, Snapshot.rows]
  | step hrun hstep ih =>
    refine (ih ?_).step hvalid hkeys hstep
    rw [List.flatMap_append] at hkeys
    exact (List.nodup_append.mp hkeys).1

/-- The records of a key are in one slot, whenever they are seen. -/
theorem SubmissionInv.unique
    (h : SubmissionInv sha256 binding principal compose ops history engine device)
    {s s' : Snapshot} (hs : s ∈ history) (hs' : s' ∈ history) {slot slot' : ℕ} (hslot : slot < 64)
    (hslot' : slot' < 64) {entry entry' : OutboxEntry}
    (hentry : CommittedAt sha256 binding s.flash slot entry)
    (hentry' : CommittedAt sha256 binding s'.flash slot' entry') (hkey : entry.key = entry'.key) :
    slot = slot' := by
  obtain ⟨frontier, hstore⟩ := h.deviceInv.store
  obtain ⟨later, hlater, hretained, -⟩ := (h.evolves s hs).committed slot entry hentry
  obtain ⟨later', hlater', hretained', -⟩ := (h.evolves s' hs').committed slot' entry' hentry'
  refine hstore.unique slot (hstore.lt_of_committedAt hslot hlater) slot'
    (hstore.lt_of_committedAt hslot' hlater') later later' hlater hlater' ?_
  rw [hretained.key_eq, hretained'.key_eq, hkey]

/-- Attempts whose acceptances name one record are the same attempt. -/
theorem SubmissionInv.separate
    (h : SubmissionInv sha256 binding principal compose ops history engine device)
    {s s' : Snapshot} (hs : s ∈ history) (hs' : s' ∈ history) {row row' : OutboxRecord}
    (hrow : row ∈ s.rows) (hrow' : row' ∈ s'.rows) {ids ids' : AcceptanceIds}
    (hids : row.acceptance = some ids) (hids' : row'.acceptance = some ids')
    (heq : ids.submissionId = ids'.submissionId) :
    row.id = row'.id ∧ row.currentAttempt = row'.currentAttempt := by
  obtain ⟨slot, -, hslot, -, hholds⟩ := h.named s hs row hrow ids hids
  obtain ⟨slot', -, hslot', -, hholds'⟩ := h.named s' hs' row' hrow' ids' hids'
  obtain rfl : slot = slot' := by
    rw [heq] at hslot
    omega
  obtain ⟨entry, hentry, hkey, -⟩ := hholds.evolves (h.evolves s hs)
  obtain ⟨entry', hentry', hkey', -⟩ := hholds'.evolves (h.evolves s' hs')
  rw [hentry.unique hentry', hkey'] at hkey
  exact (h.attempts s hs row hrow s' hs' row' hrow').1.mp (Prod.mk.inj hkey).2.symm

/-- Over every run, with lost messages, restarts and power losses, each attempt of a row has at
most one record on the appliance, and its acceptance names that record. -/
theorem submission_exactly_once (hstart : start.Erased 0 storeSize)
    (hvalid : AccessValid geometry binding recordCapacity)
    (hrun : SubmissionRun ε E geometry sha256 binding principal compose start ops history engine
      device) (hkeys : (ops.flatMap SubmissionOp.keys).Nodup) :
    ExactlyOnce sha256 binding principal compose history := by
  have h := hrun.inv hstart hvalid hkeys
  constructor
  · exact h.attempts
  · intro s hs s' hs' slot hslot slot' hslot' entry entry' hentry hentry' hkey
    exact h.unique hs hs' hslot hslot' hentry hentry' hkey
  · exact h.origin
  · exact h.named
  · intro s hs row hrow s' hs' row' hrow' ids ids' hids hids' heq
    exact h.separate hs hs' hrow hrow' hids hids' heq

end Run

section Reliable

variable (geometry : Geometry) (sha256 : Sha256) (principal : Vector Byte 16)
  (compose : OutboxMaterial → MessageId × List Byte)

/-- A session that loses nothing, to an appliance whose flash does not fail. -/
def reliableSession : LxmfSession OutboxDevice Unit where
  submit device material :=
    match device.handle with
    | none => (.error (), device)
    | some current =>
      let r := (accept geometry sha256 current (candidateOf principal compose material) :
        Prog Unit _).run device.flash
      match (acceptedEntry r.1.2).bind acceptanceOf with
      | none => (.error (), ⟨some r.1.1, r.2⟩)
      | some ids => (.ok ids, ⟨some r.1.1, r.2⟩)
  submissionStatus device _ := (.ok .queued, device)
  nextInbox device _ := (.ok none, device)
  readInbox device _ := (.error (), device)
  acknowledgeInboxThrough device _ := (.ok (), device)

/-- The reliable session submits as a session does. -/
theorem submitSession_reliableSession :
    @SubmitSession Unit Unit geometry sha256 principal compose
      (reliableSession geometry sha256 principal compose) := by
  refine ⟨fun device material => ?_, fun _ _ => rfl⟩
  unfold reliableSession
  dsimp only
  split
  · exact .lost
  · next current hhandle =>
    obtain ⟨tr, hexec⟩ := exec_run Faults.all (accept geometry sha256 current
      (candidateOf principal compose material) : Prog Unit _) device.flash
    split
    · exact .unanswered hhandle hexec
    · next ids hids =>
      obtain ⟨entry, hentry, hids⟩ := Option.bind_eq_some_iff.mp hids
      exact .answered hhandle hexec hentry hids

end Reliable

/-- Material of a small message. -/
def smallMaterial : OutboxMaterial :=
  ⟨Vector.replicate 16 1, ⟨8, by decide, by decide⟩, Vector.replicate 16 2, [], [0x68], none⟩

/-- A wire that starts with its destination. -/
def smallCompose (material : OutboxMaterial) : MessageId × List Byte :=
  (Vector.replicate 32 3, material.destination.toList ++ List.replicate 80 7)

/-- A booted appliance, a queued message and its submission. -/
theorem submission_exactly_once_product :
    ∃ (history : List Snapshot) (engine : ChatEngine MemoryChatStore) (device : OutboxDevice),
      SubmissionRun Unit Unit productGeometry Nor.sha256 productBinding (Vector.replicate 16 9)
        smallCompose Flash.erased [.reboot, .enqueue smallMaterial, .reconcile .ordinary] history
        engine device ∧ history.length = 4 ∧
      ExactlyOnce Nor.sha256 productBinding (Vector.replicate 16 9) smallCompose history := by
  have hstart : Flash.erased.Erased 0 storeSize := fun _ _ => rfl
  have hvalid : AccessValid productGeometry productBinding recordCapacity := by decide
  have hmount : Exec Faults.all (mountProg productGeometry Nor.sha256 productBinding : Prog Unit _)
      Flash.erased [] (some (.ok (mounted Nor.sha256 productBinding Flash.erased 0)))
        Flash.erased :=
    (query_mount ..).exec_eval Faults.all (eval_mount (storeInv_erased hstart) hvalid)
  have hsession := submitSession_reliableSession productGeometry Nor.sha256 (Vector.replicate 16 9)
    smallCompose
  have hrun := (((SubmissionRun.start (E := Unit)).step (.reboot hmount)).step
    (.enqueue none smallMaterial)).step (.reconcile none hsession .ordinary)
  exact ⟨_, _, _, hrun, rfl, submission_exactly_once hstart hvalid hrun (by decide)⟩

end Chat
