import ReticulumFirmware.Chat.Engine
import ReticulumFirmware.Chat.OutboxRows
import ReticulumFirmware.Outbox.Runs

/-!
# Submitting over a lossy channel

The engine submits its outbox rows to an appliance that commits them in its durable
outbox. Requests and responses may be lost, either side may restart between any two steps,
and the appliance may lose power at any point of a call.
-/

namespace Chat

open Nor Prog Outbox

/-- The appliance: its mounted outbox, unless it is down, and its partition. -/
structure OutboxDevice where
  handle : Option MountedOutbox
  flash : Flash

section System

variable {ε E : Type} (geometry : Geometry) (sha256 : Sha256) (binding : OutboxBinding)
  (principal : Vector Byte 16) (compose : OutboxMaterial → MessageId × List Byte)

/-- The message that the appliance composes for a principal from outbox material. -/
def candidateOf (material : OutboxMaterial) : OutboxCandidate where
  principal
  idempotencyKey := material.idempotencyKey
  destination := material.destination
  messageId := (compose material).1
  wire := (compose material).2

/-- The identifiers that an accepted entry is answered with. -/
def acceptanceOf (entry : OutboxEntry) : Option AcceptanceIds :=
  (NonZeroU64.new (UInt64.ofNat entry.submissionId)).map (⟨·, entry.messageId⟩)

/-- The entry of a successful acceptance. -/
def acceptedEntry : Except (OutboxError ε) OutboxAcceptance → Option OutboxEntry
  | .ok (.accepted entry) | .ok (.replay entry) => some entry
  | _ => none

/-- What a submitted row meets on its way: the answer and the appliance afterwards. -/
inductive SubmitOver (device : OutboxDevice) (material : OutboxMaterial) :
    Except E AcceptanceIds → OutboxDevice → Prop
  /-- The request is lost, or refused before it reaches the outbox. -/
  | lost {error} : SubmitOver device material (.error error) device
  /-- The outbox answers, and the response is lost or reports a failure. -/
  | unanswered {current tr error} {r : Outcome ε OutboxAcceptance} {g}
      (hhandle : device.handle = some current)
      (hexec : Exec Faults.all (accept geometry sha256 current
        (candidateOf principal compose material)) device.flash tr (some r) g) :
      SubmitOver device material (.error error) ⟨some r.1, g⟩
  /-- The outbox accepts or replays the message, and the response arrives. -/
  | answered {current tr entry ids} {r : Outcome ε OutboxAcceptance} {g}
      (hhandle : device.handle = some current)
      (hexec : Exec Faults.all (accept geometry sha256 current
        (candidateOf principal compose material)) device.flash tr (some r) g)
      (hentry : acceptedEntry r.2 = some entry) (hids : acceptanceOf entry = some ids) :
      SubmitOver device material (.ok ids) ⟨some r.1, g⟩
  /-- The appliance loses power during the call. -/
  | powerLost {current tr error g} (hhandle : device.handle = some current)
      (hexec : Exec Faults.all (accept geometry sha256 current
        (candidateOf principal compose material) : Prog ε _) device.flash tr none g) :
      SubmitOver device material (.error error) ⟨none, g⟩

/-- A session whose submissions go to the appliance's outbox. Its status answers are free. -/
structure SubmitSession (session : LxmfSession OutboxDevice E) : Prop where
  submit : ∀ device material,
    @SubmitOver ε E geometry sha256 principal compose device material
      (session.submit device material).1 (session.submit device material).2
  status : ∀ device id, (session.submissionStatus device id).2 = device

end System

/-- One step of the system. -/
inductive SubmissionOp where
  | enqueue (material : OutboxMaterial)
  | retry (outboxId : OutboxId) (idempotencyKey : IdempotencyKey)
  | reconcile (selection : ReconcileSelection)
  | reopen
  | reboot
  | receipt

/-- The idempotency keys that a step gives to the engine. -/
def SubmissionOp.keys : SubmissionOp → List IdempotencyKey
  | .enqueue material => [material.idempotencyKey]
  | .retry _ idempotencyKey => [idempotencyKey]
  | _ => []

/-- What each step does to the engine and the appliance. -/
inductive SubmissionStep (ε E : Type) (geometry : Geometry) (sha256 : Sha256)
    (binding : OutboxBinding) (principal : Vector Byte 16)
    (compose : OutboxMaterial → MessageId × List Byte) (engine : ChatEngine MemoryChatStore)
    (device : OutboxDevice) : SubmissionOp → ChatEngine MemoryChatStore → OutboxDevice → Prop
  | enqueue (now : Option UInt64) (material : OutboxMaterial) :
      SubmissionStep ε E geometry sha256 binding principal compose engine device
        (.enqueue material) (engine.enqueueSend (memoryStore now) material).2 device
  | retry (now : Option UInt64) (outboxId : OutboxId) (idempotencyKey : IdempotencyKey) :
      SubmissionStep ε E geometry sha256 binding principal compose engine device
        (.retry outboxId idempotencyKey)
        (engine.retrySend (memoryStore now) outboxId idempotencyKey).2 device
  | reconcile (now : Option UInt64) {session : LxmfSession OutboxDevice E}
      (hsession : @SubmitSession ε E geometry sha256 principal compose session)
      (selection : ReconcileSelection) :
      SubmissionStep ε E geometry sha256 binding principal compose engine device
        (.reconcile selection)
        (engine.reconcileStepSelecting (memoryStore now) session device selection).2.1
        (engine.reconcileStepSelecting (memoryStore now) session device selection).2.2
  | reopen {store : MemoryChatStore}
      (hopen : MemoryChatStore.openImage engine.store.image = .ok store) :
      SubmissionStep ε E geometry sha256 binding principal compose engine device
        .reopen (ChatEngine.new store) device
  | reboot {tr} {r : Option (Except (OutboxError ε) MountedOutbox)} {g}
      (hexec : Exec Faults.all (mountProg geometry sha256 binding) device.flash tr r g) :
      SubmissionStep ε E geometry sha256 binding principal compose engine device
        .reboot engine ⟨r.bind Except.toOption, g⟩
  | receipt {current entry tr} {r : Option (Outcome ε OutboxEntry)} {g}
      (hhandle : device.handle = some current)
      (hexec : Exec Faults.all (markDelivered geometry sha256 current entry) device.flash tr r g) :
      SubmissionStep ε E geometry sha256 binding principal compose engine device
        .receipt engine ⟨r.map Prod.fst, g⟩

/-- What both sides hold durably. -/
structure Snapshot where
  store : MemoryChatStore
  flash : Flash

/-- The outbox rows of a snapshot. -/
def Snapshot.rows (snapshot : Snapshot) : List OutboxRecord := snapshot.store.outbox.values

/-- The runs, with the steps taken and every snapshot passed. -/
inductive SubmissionRun (ε E : Type) (geometry : Geometry) (sha256 : Sha256)
    (binding : OutboxBinding) (principal : Vector Byte 16)
    (compose : OutboxMaterial → MessageId × List Byte) (start : Flash) :
    List SubmissionOp → List Snapshot → ChatEngine MemoryChatStore → OutboxDevice → Prop
  | start : SubmissionRun ε E geometry sha256 binding principal compose start [] [⟨.new, start⟩]
      (ChatEngine.new .new) ⟨none, start⟩
  | step {ops history engine device op engine' device'}
      (hrun : SubmissionRun ε E geometry sha256 binding principal compose start ops history engine
        device)
      (hstep : SubmissionStep ε E geometry sha256 binding principal compose engine device op engine'
        device') :
      SubmissionRun ε E geometry sha256 binding principal compose start (ops ++ [op])
        (history ++ [⟨engine'.store, device'.flash⟩]) engine' device'

open MemoryChatStore

/-- What reconciling an item did to the rows and the appliance. -/
inductive ReconcileEffect (ε E : Type) (geometry : Geometry) (sha256 : Sha256)
    (principal : Vector Byte 16) (compose : OutboxMaterial → MessageId × List Byte)
    (store : MemoryChatStore) (device : OutboxDevice) : MemoryChatStore → OutboxDevice → Prop
  | kept {later} (hrows : store.SameRows later) :
      ReconcileEffect ε E geometry sha256 principal compose store device later device
  | status {later id record status} (hrecord : store.outbox.get? id = some record)
      (hrows : store.RowReplaced later id { record with status }) :
      ReconcileEffect ε E geometry sha256 principal compose store device later device
  | submitted {later device' id record} {answer : Except E AcceptanceIds}
      (hrecord : store.outbox.get? id = some record)
      (hsubmit : @SubmitOver ε E geometry sha256 principal compose device record.material answer
        device')
      (hrows : store.SameRows later ∨ ∃ ids, answer = .ok ids ∧ store.RowReplaced later id
        { record with acceptance := some ids, status := .accepted }) :
      ReconcileEffect ε E geometry sha256 principal compose store device later device'

section Reconcile

variable {ε E : Type} {geometry : Geometry} {sha256 : Sha256} {principal : Vector Byte 16}
  {compose : OutboxMaterial → MessageId × List Byte} {session : LxmfSession OutboxDevice E}
  {engine : ChatEngine MemoryChatStore}

/-- An item to submit is a row of the outbox. -/
theorem get?_of_mem_reconcile {store : MemoryChatStore} {id : OutboxId} {material : OutboxMaterial}
    (hkeyed : ∀ id row, store.outbox.get? id = some row → row.id = id)
    (h : .submit id material ∈ store.reconcile) :
    ∃ record, store.outbox.get? id = some record ∧ record.material = material := by
  obtain ⟨record, hmem, hwork⟩ := List.mem_filterMap.mp h
  obtain ⟨id', hid'⟩ := BTreeMap.mem_values.mp hmem
  unfold reconcileRow at hwork
  split at hwork
  · cases hwork
    exact ⟨record, by rwa [hkeyed id' record hid'], rfl⟩
  · split at hwork <;> cases hwork

/-- One item of the reconciliation has an effect of its kind on the store and the device. -/
theorem reconcileItem_effect (now : Option UInt64)
    (hsession : @SubmitSession ε E geometry sha256 principal compose session)
    (hkeyed : ∀ id row, engine.store.outbox.get? id = some row → row.id = id)
    (device : OutboxDevice) {item : ReconcileWork} (hitem : item ∈ engine.store.reconcile) :
    ReconcileEffect ε E geometry sha256 principal compose engine.store device
      (engine.reconcileItem (memoryStore now) session device item).2.1.store
      (engine.reconcileItem (memoryStore now) session device item).2.2 := by
  cases item with
  | submit id material =>
    obtain ⟨record, hrecord, rfl⟩ := get?_of_mem_reconcile hkeyed hitem
    have hsubmit := hsession.submit device record.material
    unfold ChatEngine.reconcileItem
    dsimp only
    split
    · next heq =>
      rw [heq] at hsubmit
      exact .submitted hrecord hsubmit (Or.inl (.refl _))
    · next ids device' heq =>
      rw [heq] at hsubmit
      have hrows : engine.store.SameRows (engine.store.recordAcceptance now id ids).2 ∨
          engine.store.RowReplaced (engine.store.recordAcceptance now id ids).2 id
            { record with acceptance := some ids, status := .accepted } := by
        refine (engine.store.recordAcceptance_rows now id ids).imp_right ?_
        rintro ⟨record', hrecord', hreplaced⟩
        rw [hrecord] at hrecord'
        cases hrecord'
        exact hreplaced
      split <;> next hresult =>
        rw [show engine.store.recordAcceptance now id ids = _ from hresult] at hrows
        exact .submitted hrecord hsubmit (hrows.imp_right fun hreplaced => ⟨ids, rfl, hreplaced⟩)
  | refreshStatus id acceptance =>
    have hstatus := hsession.status device acceptance.submissionId
    unfold ChatEngine.reconcileItem
    dsimp only
    split
    · next heq =>
      rw [heq] at hstatus
      cases hstatus
      exact .kept (.refl _)
    · next state device' heq =>
      rw [heq] at hstatus
      cases hstatus
      have hrows := engine.store.projectSubmissionStatus_rows now acceptance.submissionId state
      split <;> next hresult =>
        rw [show engine.store.projectSubmissionStatus now _ _ = _ from hresult] at hrows
        obtain hsame | ⟨id', record, status, hrecord, hreplaced⟩ := hrows
        · exact .kept hsame
        · exact .status hrecord hreplaced

/-- A reconciliation step reconciles one item at most. -/
theorem reconcileStep_effect (now : Option UInt64)
    (hsession : @SubmitSession ε E geometry sha256 principal compose session)
    (hkeyed : ∀ id row, engine.store.outbox.get? id = some row → row.id = id)
    (device : OutboxDevice) (selection : ReconcileSelection) :
    ReconcileEffect ε E geometry sha256 principal compose engine.store device
      (engine.reconcileStepSelecting (memoryStore now) session device selection).2.1.store
      (engine.reconcileStepSelecting (memoryStore now) session device selection).2.2 := by
  unfold ChatEngine.reconcileStepSelecting
  split
  · exact .kept (.refl _)
  next work hwork =>
  replace hwork : work = engine.store.reconcile := by
    cases hwork
    rfl
  split
  · exact .kept (.refl _)
  · dsimp only
    have hitem : work.get ⟨_, ChatEngine.selectIndex_lt (Nat.mod_lt engine.reconcileOffset
        (Nat.pos_of_ne_zero ‹_›)) selection⟩ ∈ engine.store.reconcile :=
      hwork ▸ List.get_mem ..
    have heffect := reconcileItem_effect now hsession hkeyed device hitem
    split <;> next heq =>
      rw [heq] at heffect
      first
        | exact heffect
        | split <;> exact heffect

end Reconcile

end Chat
