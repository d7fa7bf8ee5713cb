import ReticulumFirmware.Chat.Image

/-!
# Rows of the outbox

What each call of the store can do to the outbox rows and to the counter that numbers
them.
-/

namespace Chat

/-- The value of a counter after one more. -/
theorem toNat_checkedAddOne {value next : UInt64} (h : checkedAddOne value = some next) :
    next.toNat = value.toNat + 1 := by
  unfold checkedAddOne at h
  split at h
  · cases h
  · next hmax =>
    cases h
    have hne : value.toNat ≠ 0xffffffffffffffff := fun heq => hmax (UInt64.toNat_inj.mp heq)
    have hlt := value.toNat_lt
    rw [UInt64.toNat_add]
    simp only [UInt64.reduceToNat]
    omega

/-- An accepted identifier has the value that it was made of. -/
theorem get_of_new {value : UInt64} {id : NonZeroU64} (h : NonZeroU64.new value = some id) :
    id.get = value := by
  unfold NonZeroU64.new at h
  split at h
  · cases h
  · cases h
    rfl

/-- Attempts are numbered upwards. -/
theorem MessageAttemptNumber.toNat_checkedNext {attempt next : MessageAttemptNumber}
    (h : attempt.checkedNext = some next) : next.get.toNat = attempt.get.toNat + 1 := by
  unfold MessageAttemptNumber.checkedNext at h
  split at h
  · cases h
  · next hne =>
    cases h
    have hlt := attempt.get.toNat_lt
    have hne' : (attempt.get + 1).toNat ≠ 0 := fun heq => hne (UInt32.toNat_inj.mp heq)
    simp only [UInt32.toNat_add, UInt32.reduceToNat] at hne' ⊢
    omega

namespace MemoryChatStore

/-- An activity event leaves the outbox rows. -/
@[simp] theorem outbox_appendActivity (store : MemoryChatStore) (event : MessageActivityEvent)
    (nextActivityId : UInt64) :
    (store.appendActivity event nextActivityId).outbox = store.outbox := by
  unfold appendActivity
  dsimp only
  split_ifs <;> rfl

/-- An activity event leaves the next outbox identifier. -/
@[simp] theorem nextOutboxId_appendActivity (store : MemoryChatStore)
    (event : MessageActivityEvent) (nextActivityId : UInt64) :
    (store.appendActivity event nextActivityId).nextOutboxId = store.nextOutboxId := by
  unfold appendActivity
  dsimp only
  split_ifs <;> rfl

/-- The rows and their counter are unchanged. -/
def SameRows (store later : MemoryChatStore) : Prop :=
  later.outbox = store.outbox ∧ later.nextOutboxId = store.nextOutboxId

/-- A row was replaced. -/
def RowReplaced (store later : MemoryChatStore) (id : OutboxId) (record : OutboxRecord) : Prop :=
  later.outbox = store.outbox.insert id record ∧ later.nextOutboxId = store.nextOutboxId

/-- A store has the rows of itself. -/
theorem SameRows.refl (store : MemoryChatStore) : store.SameRows store := ⟨rfl, rfl⟩

/-- The row of newly committed material. -/
def newRow (id : OutboxId) (sequence : TimelineSequence) (material : OutboxMaterial) :
    OutboxRecord :=
  ⟨id, sequence, material, none, .committed, .first⟩

/-- Allocation takes the counter's value, or fails and changes nothing. -/
theorem allocateOutboxAndSequence_cases (store : MemoryChatStore) :
    (∃ failure, store.allocateOutboxAndSequence = (.error failure, store)) ∨
    ∃ id sequence later, store.allocateOutboxAndSequence = (.ok (id, sequence), later) ∧
      id.get = store.nextOutboxId ∧ later.outbox = store.outbox ∧
      later.nextOutboxId.toNat = store.nextOutboxId.toNat + 1 := by
  unfold allocateOutboxAndSequence
  split
  · next hid _ hnew _ =>
    exact Or.inr ⟨_, _, _, rfl, get_of_new hnew, rfl, toNat_checkedAddOne hid⟩
  · exact Or.inl ⟨_, rfl⟩

/-- Committing material leaves the rows or adds one for it. -/
theorem commitOutbound_rows (store : MemoryChatStore) (now : Option UInt64)
    (material : OutboxMaterial) (location : AttemptLocationStamp) :
    store.SameRows (store.commitOutboundWithLocation now material location).2 ∨
    ∃ id sequence, id.get = store.nextOutboxId ∧
      (store.commitOutboundWithLocation now material location).2.outbox =
        store.outbox.insert id (newRow id sequence material) ∧
      (store.commitOutboundWithLocation now material location).2.nextOutboxId.toNat =
        store.nextOutboxId.toNat + 1 := by
  unfold commitOutboundWithLocation
  split
  · split
    · exact Or.inl (.refl store)
    · split <;> exact Or.inl (.refl store)
  · split
    · exact Or.inl (.refl store)
    · obtain ⟨failure, heq⟩ | ⟨id, sequence, later, heq, hid, houtbox, hnext⟩ :=
        store.allocateOutboxAndSequence_cases
      · rw [heq]
        exact Or.inl (.refl store)
      · rw [heq]
        refine Or.inr ⟨id, sequence, hid, ?_, ?_⟩
        · simp [houtbox, newRow]
        · simpa using hnext

/-- The row of a replacement submission. -/
def rearmedRow (record : OutboxRecord) (idempotencyKey : IdempotencyKey)
    (attempt : MessageAttemptNumber) : OutboxRecord :=
  { record with
    material := { record.material with idempotencyKey }
    acceptance := none
    status := .committed
    currentAttempt := attempt }

/-- Rearming leaves the rows, or starts the next attempt of the row under the given key. -/
theorem rearmOutbox_rows (store : MemoryChatStore) (now : Option UInt64) (outboxId : OutboxId)
    (idempotencyKey : IdempotencyKey) (location : AttemptLocationStamp) :
    store.SameRows (store.rearmOutbox now outboxId idempotencyKey location).2 ∨
    ∃ record attempt, store.outbox.get? outboxId = some record ∧
      record.currentAttempt.checkedNext = some attempt ∧
      store.RowReplaced (store.rearmOutbox now outboxId idempotencyKey location).2 outboxId
        (rearmedRow record idempotencyKey attempt) := by
  unfold rearmOutbox
  split
  · exact Or.inl (.refl store)
  next record hrecord =>
  split
  · exact Or.inl (.refl store)
  · exact Or.inl (.refl store)
  dsimp only
  split
  · exact Or.inl (.refl store)
  split
  · exact Or.inl (.refl store)
  split
  · next attempt _ _ hattempt _ =>
    split
    · exact Or.inl (.refl store)
    · refine Or.inr ⟨record, attempt, hrecord, hattempt, ?_, ?_⟩
      · simp [rearmedRow]
      · simp
  · exact Or.inl (.refl store)

/-- A retry leaves the rows, or replaces one by its next attempt. -/
theorem retryOutbox_rows (store : MemoryChatStore) (now : Option UInt64) (outboxId : OutboxId)
    (idempotencyKey : IdempotencyKey) (location : AttemptLocationStamp) :
    store.SameRows (store.retryOutboxWithLocation now outboxId idempotencyKey location).2 ∨
    ∃ record attempt, store.outbox.get? outboxId = some record ∧
      record.currentAttempt.checkedNext = some attempt ∧
      store.RowReplaced (store.retryOutboxWithLocation now outboxId idempotencyKey location).2
        outboxId (rearmedRow record idempotencyKey attempt) := by
  have hrows := store.rearmOutbox_rows now outboxId idempotencyKey location
  unfold retryOutboxWithLocation
  split <;> next heq => rw [heq] at hrows; exact hrows

/-- Recording an acceptance leaves the rows, or gives it to a row that had none. -/
theorem recordAcceptance_rows (store : MemoryChatStore) (now : Option UInt64)
    (outboxId : OutboxId) (acceptance : AcceptanceIds) :
    store.SameRows (store.recordAcceptance now outboxId acceptance).2 ∨
    ∃ record, store.outbox.get? outboxId = some record ∧
      store.RowReplaced (store.recordAcceptance now outboxId acceptance).2 outboxId
        { record with acceptance := some acceptance, status := .accepted } := by
  unfold recordAcceptance
  split
  · exact Or.inl (.refl store)
  next record hrecord =>
  split
  · split <;> exact Or.inl (.refl store)
  split
  · exact Or.inl (.refl store)
  split
  · exact Or.inl (.refl store)
  · refine Or.inr ⟨record, hrecord, ?_, ?_⟩ <;> simp

/-- Projecting a status leaves the rows, or changes the status of one. -/
theorem projectSubmissionStatus_rows (store : MemoryChatStore) (now : Option UInt64)
    (submissionId : SubmissionId) (state : SubmissionState) :
    store.SameRows (store.projectSubmissionStatus now submissionId state).2 ∨
    ∃ outboxId record status, store.outbox.get? outboxId = some record ∧
      store.RowReplaced (store.projectSubmissionStatus now submissionId state).2 outboxId
        { record with status } := by
  unfold projectSubmissionStatus
  split
  · exact Or.inl (.refl store)
  split
  · exact Or.inl (.refl store)
  next record hrecord =>
  split
  · exact Or.inl (.refl store)
  split
  · exact Or.inl (.refl store)
  · next status _ =>
    split
    · exact Or.inl (.refl store)
    · refine Or.inr ⟨_, record, status, hrecord, ?_, ?_⟩ <;> simp
  · exact Or.inl (.refl store)

/-- Reopening the image of a store leaves the rows. -/
theorem sameRows_openImage {store later : MemoryChatStore}
    (hkeyed : ∀ id record, store.outbox.get? id = some record → record.id = id)
    (h : openImage store.image = .ok later) : store.SameRows later := by
  obtain ⟨hrows, hnext⟩ := openImage_rows h
  refine ⟨BTreeMap.ext fun id => Option.ext fun record => ?_, hnext⟩
  rw [hrows, image, BTreeMap.mem_values]
  constructor
  · rintro ⟨⟨id', hid'⟩, rfl⟩
    rwa [hkeyed id' record hid']
  · intro hid
    exact ⟨⟨id, hid⟩, hkeyed id record hid⟩

end MemoryChatStore

end Chat
