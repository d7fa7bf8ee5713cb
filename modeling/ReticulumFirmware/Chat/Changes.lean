import ReticulumFirmware.Chat.Calls

/-!
# What a call can change

One relation lists everything a mutating call can do to the store, with the checks that went
before it. Invariants of the store are proved against this list.
-/

namespace Chat

namespace MemoryChatStore

/-- The activity log and its counter after an event was appended. -/
structure Logged (store : MemoryChatStore) (event : MessageActivityEvent)
    (activity : List MessageActivityEvent) (nextActivityId : UInt64) : Prop where
  /-- The log keeps the newest events. -/
  kept : activity = (store.activity ++ [event]).drop
    (store.activity.length + 1 - maxMessageActivityEvents)
  numbered : event.id.get = store.nextActivityId
  counted : nextActivityId.toNat = store.nextActivityId.toNat + 1

/-- The activity of an acceptance. -/
def acceptedEvent (now : Option UInt64) (id : MessageActivityId) (outboxId : OutboxId)
    (record : OutboxRecord) (acceptance : AcceptanceIds) : MessageActivityEvent :=
  { outboundEvent now id record (.outboundAccepted acceptance) with outboxId := some outboxId }

/-- The activity of a device state. -/
def statusEvent (now : Option UInt64) (id : MessageActivityId) (outboxId : OutboxId)
    (record : OutboxRecord) (state : SubmissionState) : MessageActivityEvent :=
  { outboundEvent now id record (.outboundStatus state) with outboxId := some outboxId }

/-- The activity of a replacement submission. -/
def requeuedEvent (now : Option UInt64) (id : MessageActivityId) (outboxId : OutboxId)
    (record : OutboxRecord) (location : AttemptLocationStamp) : MessageActivityEvent :=
  { outboundEvent now id record (.outboundRequeued location) with outboxId := some outboxId }

/-- The activity of an inbound message. -/
def importedEvent (now : Option UInt64) (id : MessageActivityId) (sequence : TimelineSequence)
    (message : InboundMessage) : MessageActivityEvent where
  id
  observedAtUnixMs := now
  timelineSequence := sequence
  peer := message.source
  direction := .inbound
  outboxId := none
  attemptNumber := none
  ingressObservation := none
  messageLocation := none
  receiverLocation := none
  kind := .inboundImported message.messageId

/-- Appending an event changes the log and its counter only. -/
theorem appendActivity_eq (store : MemoryChatStore) (event : MessageActivityEvent)
    (nextActivityId : UInt64) (hid : event.id.get = store.nextActivityId)
    (hnext : nextActivityId.toNat = store.nextActivityId.toNat + 1) :
    ∃ activity incomplete, store.appendActivity event nextActivityId =
        { store with
          activity, nextActivityId
          activityHistoryIncomplete := incomplete } ∧
      Logged store event activity nextActivityId := by
  unfold appendActivity
  dsimp only
  split
  · exact ⟨_, _, rfl, by rw [List.length_append, List.length_singleton], hid, hnext⟩
  · next hfits =>
    refine ⟨_, _, rfl, ?_, hid, hnext⟩
    rw [List.length_append, List.length_singleton, not_lt] at hfits
    rw [Nat.sub_eq_zero_of_le hfits, List.drop_zero]

/-- A reserved identifier is the counter's value. -/
theorem reserveActivityId_some {store : MemoryChatStore} {id : MessageActivityId} {next : UInt64}
    (h : store.reserveActivityId = some (id, next)) :
    id.get = store.nextActivityId ∧ next.toNat = store.nextActivityId.toNat + 1 := by
  unfold reserveActivityId at h
  split at h
  · next hnext hnew =>
    cases h
    exact ⟨get_of_new hnew, toNat_checkedAddOne hnext⟩
  · cases h

end MemoryChatStore

open MemoryChatStore

/-- Everything a call can do to the store. -/
inductive Change (store : MemoryChatStore) : Call → MemoryChatStore → Prop
  | nothing (call : Call) : Change store call store
  | contact (contact : Contact) : Change store (.upsertContact contact)
      { store with contacts := store.contacts.insert contact.destination contact }
  | retained {now message receiverLocation existing retained}
      (hexisting : store.inbound.get? message.messageId = some existing)
      (hretained : retained.messageId = existing.message.messageId) :
      Change store (.commitInbound now message receiverLocation)
        { store with
          inbound := store.inbound.insert message.messageId { existing with message := retained } }
  | inbound {now message receiverLocation id sequence nextSequence activity incomplete
        nextActivityId}
      (hnew : store.inbound.get? message.messageId = none)
      (hsequence : sequence.get = store.nextSequence)
      (hnext : nextSequence.toNat = store.nextSequence.toNat + 1)
      (hlogged : Logged store (importedEvent now id sequence message) activity nextActivityId) :
      Change store (.commitInbound now message receiverLocation)
        { store with
          inbound := store.inbound.insert message.messageId ⟨sequence, message, receiverLocation⟩
          activity, nextSequence, nextActivityId
          activityHistoryIncomplete := incomplete }
  | outbound {now material location id outboxId sequence nextOutboxId nextSequence activity
        incomplete nextActivityId}
      (hnew : store.idempotencyIndex.get? material.idempotencyKey = none)
      (hid : outboxId.get = store.nextOutboxId) (hsequence : sequence.get = store.nextSequence)
      (hnextId : nextOutboxId.toNat = store.nextOutboxId.toNat + 1)
      (hnext : nextSequence.toNat = store.nextSequence.toNat + 1)
      (hlogged : Logged store (outboundEvent now id (newRow outboxId sequence material)
        (.outboundQueued location)) activity nextActivityId) :
      Change store (.commitOutbound now material location)
        { store with
          outbox := store.outbox.insert outboxId (newRow outboxId sequence material)
          idempotencyIndex := store.idempotencyIndex.insert material.idempotencyKey outboxId
          activity, nextOutboxId, nextSequence, nextActivityId
          activityHistoryIncomplete := incomplete }
  | rearmed {now outboxId idempotencyKey location record failure acceptance attempt id activity
        incomplete nextActivityId}
      (hrow : store.outbox.get? outboxId = some record)
      (hstatus : record.status = .device (.failed failure))
      (hretryable : failure.isRetryable = true)
      (hkey : record.material.idempotencyKey ≠ idempotencyKey)
      (hfree : ∀ other, store.idempotencyIndex.get? idempotencyKey = some other → other = outboxId)
      (hattempt : record.currentAttempt.checkedNext = some attempt)
      (hacceptance : record.acceptance = some acceptance)
      (hlogged : Logged store (requeuedEvent now id outboxId
        (rearmedRow record idempotencyKey attempt) location) activity nextActivityId) :
      Change store (.retryOutbox now outboxId idempotencyKey location)
        { store with
          outbox := store.outbox.insert outboxId (rearmedRow record idempotencyKey attempt)
          idempotencyIndex := (store.idempotencyIndex.remove
            record.material.idempotencyKey).insert idempotencyKey outboxId
          submissionIndex := store.submissionIndex.remove acceptance.submissionId
          acceptedMessageIndex := store.acceptedMessageIndex.remove acceptance.messageId
          activity, nextActivityId
          activityHistoryIncomplete := incomplete }
  | accepted {now outboxId acceptance record id activity incomplete nextActivityId}
      (hrow : store.outbox.get? outboxId = some record) (hnone : record.acceptance = none)
      (hfree : store.acceptanceBoundElsewhere outboxId acceptance = false)
      (hlogged : Logged store (acceptedEvent now id outboxId record acceptance) activity
        nextActivityId) :
      Change store (.recordAcceptance now outboxId acceptance)
        { store with
          outbox := store.outbox.insert outboxId
            { record with acceptance := some acceptance, status := .accepted }
          submissionIndex := store.submissionIndex.insert acceptance.submissionId outboxId
          acceptedMessageIndex := store.acceptedMessageIndex.insert acceptance.messageId outboxId
          activity, nextActivityId
          activityHistoryIncomplete := incomplete }
  | projected {now submissionId state outboxId record status id activity incomplete nextActivityId}
      (hindex : store.submissionIndex.get? submissionId = some outboxId)
      (hrow : store.outbox.get? outboxId = some record) (hstatus : record.status ≠ .committed)
      (hproject : projectOutboxStatus record.status state = .ok (status, .advanced))
      (hlogged : Logged store (statusEvent now id outboxId record state) activity
        nextActivityId) :
      Change store (.projectSubmissionStatus now submissionId state)
        { store with
          outbox := store.outbox.insert outboxId { record with status }
          activity, nextActivityId
          activityHistoryIncomplete := incomplete }
  | imported {batch staged} (himport : store.importRfTraceBatchInner batch = .ok staged) :
      Change store (.importRfTraceBatch batch) staged.store

/-- The effect of a call is carried over an equality of the later stores. -/
theorem Change.of_eq {store later later' : MemoryChatStore} {call : Call} (heq : later = later')
    (h : Change store call later') : Change store call later :=
  heq ▸ h

namespace MemoryChatStore

variable (store : MemoryChatStore) (now : Option UInt64)

/-- Allocation fails, or takes the values of both counters. -/
theorem allocateOutboxAndSequence_eq :
    (∃ failure, store.allocateOutboxAndSequence = (.error failure, store)) ∨
    ∃ id sequence nextId next, store.allocateOutboxAndSequence =
        (.ok (id, sequence), { store with nextOutboxId := nextId, nextSequence := next }) ∧
      id.get = store.nextOutboxId ∧ sequence.get = store.nextSequence ∧
      nextId.toNat = store.nextOutboxId.toNat + 1 ∧ next.toNat = store.nextSequence.toNat + 1 := by
  unfold allocateOutboxAndSequence
  split
  · next hnextId hnext hid hsequence =>
    exact Or.inr ⟨_, _, _, _, rfl, get_of_new hid, get_of_new hsequence,
      toNat_checkedAddOne hnextId, toNat_checkedAddOne hnext⟩
  · exact Or.inl ⟨_, rfl⟩

/-- A contact that is written is its only effect on the store. -/
theorem change_upsertContact (contact : Contact) :
    Change store (.upsertContact contact) (store.upsertContact contact).2 := by
  unfold upsertContact
  split
  · exact .contact contact
  · split
    · exact .nothing _
    · exact .contact contact

/-- An inbound commit repeats, enriches or adds one message, or changes nothing. -/
theorem change_commitInbound (message : InboundMessage)
    (receiverLocation : Option PhoneLocationSample) :
    Change store (.commitInbound now message receiverLocation)
      (store.commitInboundWithReceiverLocation now message receiverLocation).2 := by
  unfold commitInboundWithReceiverLocation
  split
  · next existing hexisting =>
    split
    · apply Change.retained hexisting
      unfold InboundMessage.retainLocationIfAbsent InboundMessage.retainIngressIfAbsent
      split_ifs <;> rfl
    · exact .nothing _
  · next hnew =>
    split
    · exact .nothing _
    · next activityId nextActivityId hreserve =>
      obtain ⟨hid, hnextId⟩ := reserveActivityId_some hreserve
      obtain ⟨failure, heq⟩ | ⟨sequence, next, heq, hsequence, hnext⟩ :=
        store.allocateSequence_cases
      · rw [heq]
        exact .nothing _
      · rw [heq]
        obtain ⟨activity, incomplete, hlog, hlogged⟩ := appendActivity_eq
          { store with
            nextSequence := next
            inbound := store.inbound.insert message.messageId
              ⟨sequence, message, receiverLocation⟩ }
          (importedEvent now activityId sequence message) nextActivityId hid hnextId
        refine Change.of_eq hlog ?_
        exact .inbound hnew hsequence hnext ⟨hlogged.kept, hid, hnextId⟩

/-- An outbound commit adds one row with its event, or changes nothing. -/
theorem change_commitOutbound (material : OutboxMaterial) (location : AttemptLocationStamp) :
    Change store (.commitOutbound now material location)
      (store.commitOutboundWithLocation now material location).2 := by
  unfold commitOutboundWithLocation
  split
  · split
    · exact .nothing _
    · split <;> exact .nothing _
  · next hnew =>
    split
    · exact .nothing _
    · next activityId nextActivityId hreserve =>
      obtain ⟨hid, hnextId⟩ := reserveActivityId_some hreserve
      obtain ⟨failure, heq⟩ | ⟨outboxId, sequence, nextOutboxId, next, heq, houtbox, hsequence,
        hcounter, hnext⟩ := store.allocateOutboxAndSequence_eq
      · rw [heq]
        exact .nothing _
      · rw [heq]
        obtain ⟨activity, incomplete, hlog, hlogged⟩ := appendActivity_eq
          { store with
            nextOutboxId
            nextSequence := next
            outbox := store.outbox.insert outboxId (newRow outboxId sequence material)
            idempotencyIndex := store.idempotencyIndex.insert material.idempotencyKey outboxId }
          (outboundEvent now activityId (newRow outboxId sequence material)
            (.outboundQueued location)) nextActivityId hid hnextId
        refine Change.of_eq hlog ?_
        exact .outbound hnew houtbox hsequence hcounter hnext
          ⟨hlogged.kept, hid, hnextId⟩

/-- A rearm puts the next attempt on one row, or changes nothing. -/
theorem change_rearmOutbox (outboxId : OutboxId) (idempotencyKey : IdempotencyKey)
    (location : AttemptLocationStamp) :
    Change store (.retryOutbox now outboxId idempotencyKey location)
      (store.rearmOutbox now outboxId idempotencyKey location).2 := by
  unfold rearmOutbox
  split
  · exact .nothing _
  next record hrow =>
  split
  · exact .nothing _
  · exact .nothing _
  next hdecision =>
  obtain ⟨failure, hstatus, hretryable⟩ : ∃ failure, record.status = .device (.failed failure) ∧
      failure.isRetryable = true := by
    unfold retryDecision at hdecision
    split at hdecision
    all_goals first | cases hdecision | skip
    next failure hstatus =>
    split at hdecision
    · next hretryable => exact ⟨failure, hstatus, hretryable⟩
    · cases hdecision
  dsimp only
  split
  · exact .nothing _
  next hkey =>
  split
  · exact .nothing _
  next hfree =>
  split
  · next attempt activityId nextActivityId hattempt hreserve =>
    split
    · exact .nothing _
    next acceptance hacceptance =>
    obtain ⟨hid, hnextId⟩ := reserveActivityId_some hreserve
    obtain ⟨activity, incomplete, hlog, hlogged⟩ := appendActivity_eq
      { store with
        idempotencyIndex := (store.idempotencyIndex.remove
          record.material.idempotencyKey).insert idempotencyKey outboxId
        submissionIndex := store.submissionIndex.remove acceptance.submissionId
        acceptedMessageIndex := store.acceptedMessageIndex.remove acceptance.messageId
        outbox := store.outbox.insert outboxId (rearmedRow record idempotencyKey attempt) }
      (requeuedEvent now activityId outboxId (rearmedRow record idempotencyKey attempt) location)
      nextActivityId hid hnextId
    refine Change.of_eq hlog ?_
    refine .rearmed hrow hstatus hretryable hkey ?_ hattempt hacceptance
      ⟨hlogged.kept, hid, hnextId⟩
    intro other hother
    rw [hother] at hfree
    simpa using hfree
  · exact .nothing _

/-- A retry puts the next attempt on one row, or changes nothing. -/
theorem change_retryOutbox (outboxId : OutboxId) (idempotencyKey : IdempotencyKey)
    (location : AttemptLocationStamp) :
    Change store (.retryOutbox now outboxId idempotencyKey location)
      (store.retryOutboxWithLocation now outboxId idempotencyKey location).2 := by
  have hchange := store.change_rearmOutbox now outboxId idempotencyKey location
  unfold retryOutboxWithLocation
  split <;> next heq => rw [heq] at hchange; exact hchange

/-- An acceptance is recorded on one row, or nothing changes. -/
theorem change_recordAcceptance (outboxId : OutboxId) (acceptance : AcceptanceIds) :
    Change store (.recordAcceptance now outboxId acceptance)
      (store.recordAcceptance now outboxId acceptance).2 := by
  unfold recordAcceptance
  split
  · exact .nothing _
  next record hrow =>
  split
  · split <;> exact .nothing _
  next hnone =>
  split
  · exact .nothing _
  next hfree =>
  split
  · exact .nothing _
  next activityId nextActivityId hreserve =>
  obtain ⟨hid, hnextId⟩ := reserveActivityId_some hreserve
  obtain ⟨activity, incomplete, hlog, hlogged⟩ := appendActivity_eq
    { store with
      outbox := store.outbox.insert outboxId
        { record with acceptance := some acceptance, status := .accepted }
      submissionIndex := store.submissionIndex.insert acceptance.submissionId outboxId
      acceptedMessageIndex := store.acceptedMessageIndex.insert acceptance.messageId outboxId }
    (acceptedEvent now activityId outboxId record acceptance) nextActivityId hid hnextId
  refine Change.of_eq hlog ?_
  exact .accepted hrow hnone (Bool.eq_false_iff.mpr hfree)
    ⟨hlogged.kept, hid, hnextId⟩

/-- A status is projected on one row, or nothing changes. -/
theorem change_projectSubmissionStatus (submissionId : SubmissionId) (state : SubmissionState) :
    Change store (.projectSubmissionStatus now submissionId state)
      (store.projectSubmissionStatus now submissionId state).2 := by
  unfold projectSubmissionStatus
  split
  · exact .nothing _
  next outboxId hindex =>
  split
  · exact .nothing _
  next record hrow =>
  split
  · exact .nothing _
  next hstatus =>
  split
  · exact .nothing _
  · next status hproject =>
    split
    · exact .nothing _
    next activityId nextActivityId hreserve =>
    obtain ⟨hid, hnextId⟩ := reserveActivityId_some hreserve
    obtain ⟨activity, incomplete, hlog, hlogged⟩ := appendActivity_eq
      { store with outbox := store.outbox.insert outboxId { record with status } }
      (statusEvent now activityId outboxId record state) nextActivityId hid hnextId
    refine Change.of_eq hlog ?_
    exact .projected hindex hrow hstatus hproject
      ⟨hlogged.kept, hid, hnextId⟩
  · exact .nothing _

/-- An import adds events and enriches retained ones, or changes nothing. -/
theorem change_importRfTraceBatch (batch : RfTraceImportBatch) :
    Change store (.importRfTraceBatch batch) (store.importRfTraceBatch batch).2 := by
  unfold importRfTraceBatch
  split
  · next himport => exact .imported himport
  · exact .nothing _

end MemoryChatStore

/-- Every call makes one of the listed changes. -/
theorem Call.change (store : MemoryChatStore) (call : Call) :
    Change store call (call.apply store).2 := by
  cases call with
  | upsertContact contact => exact store.change_upsertContact contact
  | commitInbound now message receiverLocation =>
    exact store.change_commitInbound now message receiverLocation
  | commitOutbound now material location => exact store.change_commitOutbound now material location
  | retryOutbox now outboxId idempotencyKey location =>
    exact store.change_retryOutbox now outboxId idempotencyKey location
  | recordAcceptance now outboxId acceptance =>
    exact store.change_recordAcceptance now outboxId acceptance
  | projectSubmissionStatus now submissionId state =>
    exact store.change_projectSubmissionStatus now submissionId state
  | importRfTraceBatch batch => exact store.change_importRfTraceBatch batch

/-- A store without its traces. -/
def MemoryChatStore.withoutTraces (store : MemoryChatStore) : MemoryChatStore :=
  { store with
    rfTraceBoots := .empty
    rfTraceEvents := .empty
    rfTraceKeys := .empty
    nextRfTraceId := 1 }

/-- Storing an observation changes traces only. -/
theorem withoutTraces_importObservation {batch : RfTraceImportBatch} {tokens : TokenCorrelations}
    {state state' : ImportState} {observation : RfTraceObservation}
    (h : importObservation batch tokens state observation = .ok state') :
    state'.store.withoutTraces = state.store.withoutTraces := by
  unfold importObservation at h
  dsimp only at h
  split at h
  · split at h
    · cases h
    · split at h
      · cases h
        rfl
      · split at h
        · cases h
        · cases h
          rfl
      · cases h
        rfl
  · split at h
    · cases h
    · cases h
      rfl

/-- Enriching an event changes traces only. -/
theorem withoutTraces_enrichEvent {tokens : TokenCorrelations} {state state' : ImportState}
    {entry : RfTraceEventId × RfTraceEvent} (h : enrichEvent tokens state entry = .ok state') :
    state'.store.withoutTraces = state.store.withoutTraces := by
  unfold enrichEvent at h
  split at h
  · cases h
    rfl
  · split at h
    · cases h
      rfl
    · split at h
      · cases h
        rfl
      · split at h
        · cases h
        · cases h
          rfl

/-- The stages of a successful import. -/
theorem importRfTraceBatchInner_ok {store : MemoryChatStore} {batch : RfTraceImportBatch}
    {staged : ImportState} (h : store.importRfTraceBatchInner batch = .ok staged) :
    (store.rfTraceBoots.get? batch.bootId).any (·.profile ≠ batch.profile) = false ∧
      (∀ observation ∈ batch.observations, store.preflight batch.bootId observation = .ok ()) ∧
      ∃ tokens, store.tokenCorrelations batch = .ok tokens ∧
        ∃ stored, batch.observations.foldlM (importObservation batch tokens) ⟨store, ⟨0, 0, 0⟩⟩ =
            .ok stored ∧
          ∃ enriched, stored.store.rfTraceEvents.entries.foldlM (enrichEvent tokens) stored =
              .ok enriched ∧
            staged = { enriched with store := enriched.store.recordBoot batch } := by
  unfold importRfTraceBatchInner at h
  split at h
  · cases h
  · next hprofile =>
    obtain ⟨_, hpreflight, h⟩ := Except.bind_eq_ok.mp h
    obtain ⟨tokens, htokens, h⟩ := Except.bind_eq_ok.mp h
    obtain ⟨stored, hstored, h⟩ := Except.bind_eq_ok.mp h
    obtain ⟨enriched, henriched, h⟩ := Except.bind_eq_ok.mp h
    refine ⟨Bool.eq_false_iff.mpr hprofile, ?_, tokens, ?_, stored, hstored, enriched,
      henriched, (Except.ok.inj h).symm⟩
    · exact List.forM_ok hpreflight
    · cases hseed : store.tokenCorrelations batch with
      | ok tokens' =>
        rw [hseed] at htokens
        cases htokens
        rfl
      | error error =>
        rw [hseed] at htokens
        cases htokens

/-- An import changes traces only. -/
theorem withoutTraces_imported {store : MemoryChatStore} {batch : RfTraceImportBatch}
    {staged : ImportState} (h : store.importRfTraceBatchInner batch = .ok staged) :
    staged.store.withoutTraces = store.withoutTraces := by
  obtain ⟨-, -, tokens, -, stored, hstored, enriched, henriched, rfl⟩ :=
    importRfTraceBatchInner_ok h
  calc enriched.store.withoutTraces = stored.store.withoutTraces :=
        List.foldlM_ok_frame (fun state => state.store.withoutTraces)
          (fun _ _ _ => withoutTraces_enrichEvent) henriched
    _ = store.withoutTraces :=
        List.foldlM_ok_frame (fun state => state.store.withoutTraces)
          (fun _ _ _ => withoutTraces_importObservation) hstored

end Chat
