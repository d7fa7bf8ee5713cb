import Mathlib.Data.Prod.Lex
import ReticulumFirmware.Chat.RfTrace
import ReticulumFirmware.Collections.BTreeMap

/-!
# The in-memory chat store

The reference implementation of the phone's chat store: its tables, indexes and counters,
and the mutations of messages and outbox rows. A call returns its result together with the
store it leaves behind. The clock reading of a call is an argument.
-/

namespace Chat

/-- What is wrong with an image. -/
inductive ImageError where
  | schemaVersion
  | duplicateKey
  | inconsistentOutbox
  | inconsistentActivity
  | inconsistentRfTrace
  | invalidNextCounter
  deriving DecidableEq

/-- Domain failures shared by all storage adapters. -/
inductive ChatStoreError where
  | inboundMessageIdConflict (id : MessageId)
  | idempotencyConflict
  | outboxNotFound (id : OutboxId)
  | submissionNotFound (id : SubmissionId)
  | acceptanceConflict (id : OutboxId)
  | outboxNotRetryable (id : OutboxId)
  | retryIdempotencyKeyUnchanged (id : OutboxId)
  | acceptanceIdAlreadyBound
  | packetEvidenceChanged
  | terminalStatusConflict
  | rfTraceBootProfileConflict (boot : RfTraceBootId)
  | rfTraceEventConflict (boot : RfTraceBootId) (eventSequence : RfTraceEventSequence)
  | rfTraceAttemptTokenConflict (token : RnsAttemptToken)
  | identifierExhausted
  | invalidImage (error : ImageError)
  deriving DecidableEq

/-- How a store call fails: with an error, or by a violated expectation. -/
inductive StoreFailure where
  | error (error : ChatStoreError)
  | panic
  deriving DecidableEq

/-- What became of a contact. -/
inductive ContactUpsertOutcome where
  | inserted
  | updated
  | unchanged
  deriving DecidableEq

/-- What became of a received message. -/
inductive InboundCommitOutcome where
  | inserted
  | duplicate
  deriving DecidableEq

/-- The row of a message to send, and whether it is new. -/
inductive OutboxCommitOutcome where
  | inserted (id : OutboxId)
  | existing (id : OutboxId)
  deriving DecidableEq

/-- The row of a retry, and whether it is queued anew. -/
inductive OutboxRetryOutcome where
  | requeued (id : OutboxId)
  | alreadyPending (id : OutboxId)
  deriving DecidableEq

/-- What became of an acceptance. -/
inductive AcceptanceOutcome where
  | recorded
  | unchanged
  deriving DecidableEq

/-- What became of a reported status. -/
inductive StatusProjectionOutcome where
  | advanced
  | unchanged
  | ignoredStale
  deriving DecidableEq

/-- Unfinished work of one outbox row. -/
inductive ReconcileWork where
  | submit (outboxId : OutboxId) (material : OutboxMaterial)
  | refreshStatus (outboxId : OutboxId) (acceptance : AcceptanceIds)
  deriving DecidableEq

/-- The row that the work is for. -/
def ReconcileWork.outboxId : ReconcileWork → OutboxId
  | .submit outboxId _ | .refreshStatus outboxId _ => outboxId

/-- Events retained in the activity log. -/
abbrev maxMessageActivityEvents : ℕ := 10000

/-- What is kept of a boot that traced events. -/
structure MemoryRfTraceBoot where
  profile : RfTraceRadioProfile
  historyIncomplete : Bool
  deriving DecidableEq

/-- The tables, indexes and counters of the store. -/
structure MemoryChatStore where
  contacts : BTreeMap DestinationHash Contact
  inbound : BTreeMap MessageId InboundRecord
  outbox : BTreeMap OutboxId OutboxRecord
  idempotencyIndex : BTreeMap IdempotencyKey OutboxId
  submissionIndex : BTreeMap SubmissionId OutboxId
  acceptedMessageIndex : BTreeMap MessageId OutboxId
  activity : List MessageActivityEvent
  activityHistoryIncomplete : Bool
  rfTraceBoots : BTreeMap RfTraceBootId MemoryRfTraceBoot
  rfTraceEvents : BTreeMap RfTraceEventId RfTraceEvent
  rfTraceKeys : BTreeMap (RfTraceBootId ×ₗ RfTraceEventSequence) RfTraceEventId
  nextOutboxId : UInt64
  nextSequence : UInt64
  nextActivityId : UInt64
  nextRfTraceId : UInt64

/-- What a mutation returns, and the store it leaves. -/
abbrev StoreResult (α : Type) := Except StoreFailure α × MemoryChatStore

namespace MemoryChatStore

/-- The empty store. -/
def new : MemoryChatStore where
  contacts := .empty
  inbound := .empty
  outbox := .empty
  idempotencyIndex := .empty
  submissionIndex := .empty
  acceptedMessageIndex := .empty
  activity := []
  activityHistoryIncomplete := false
  rfTraceBoots := .empty
  rfTraceEvents := .empty
  rfTraceKeys := .empty
  nextOutboxId := 1
  nextSequence := 1
  nextActivityId := 1
  nextRfTraceId := 1

variable (self : MemoryChatStore)

/-- Allocate the identifiers of a new outbound row. -/
def allocateOutboxAndSequence : StoreResult (OutboxId × TimelineSequence) :=
  match checkedAddOne self.nextOutboxId, checkedAddOne self.nextSequence,
      NonZeroU64.new self.nextOutboxId, NonZeroU64.new self.nextSequence with
  | some nextOutboxId, some nextSequence, some outboxId, some sequence =>
    (.ok (outboxId, sequence), { self with nextOutboxId, nextSequence })
  | _, _, _, _ => (.error (.error .identifierExhausted), self)

/-- Allocate the place of an inbound row. -/
def allocateSequence : StoreResult TimelineSequence :=
  match checkedAddOne self.nextSequence, NonZeroU64.new self.nextSequence with
  | some nextSequence, some sequence => (.ok sequence, { self with nextSequence })
  | _, _ => (.error (.error .identifierExhausted), self)

/-- The identifier of the next activity event, and the counter after it. -/
def reserveActivityId : Option (MessageActivityId × UInt64) :=
  match checkedAddOne self.nextActivityId, NonZeroU64.new self.nextActivityId with
  | some nextActivityId, some activityId => some (activityId, nextActivityId)
  | _, _ => none

/-- Append an event to the bounded activity log. -/
def appendActivity (event : MessageActivityEvent) (nextActivityId : UInt64) : MemoryChatStore :=
  let activity := self.activity ++ [event]
  if activity.length > maxMessageActivityEvents then
    { self with
      nextActivityId
      activity := activity.drop (activity.length - maxMessageActivityEvents)
      activityHistoryIncomplete := true }
  else { self with nextActivityId, activity }

/-- An activity event of an outbound row. -/
def outboundEvent (now : Option UInt64) (id : MessageActivityId) (record : OutboxRecord)
    (kind : MessageActivityKind) : MessageActivityEvent where
  id
  observedAtUnixMs := now
  timelineSequence := record.sequence
  peer := record.material.destination
  direction := .outbound
  outboxId := some record.id
  attemptNumber := some record.currentAttempt
  ingressObservation := none
  messageLocation := none
  receiverLocation := none
  kind

/-- Insert or update one contact. -/
def upsertContact (contact : Contact) : ContactUpsertOutcome × MemoryChatStore :=
  match self.contacts.get? contact.destination with
  | none =>
    (.inserted, { self with contacts := self.contacts.insert contact.destination contact })
  | some existing =>
    if existing = contact then (.unchanged, self)
    else (.updated, { self with contacts := self.contacts.insert contact.destination contact })

/-- Whether an inbound message is retained. -/
def containsInbound (messageId : MessageId) : Bool := (self.inbound.get? messageId).isSome

/-- Commit one inbound message with the receiver's location. -/
def commitInboundWithReceiverLocation (now : Option UInt64) (message : InboundMessage)
    (receiverLocation : Option PhoneLocationSample) : StoreResult InboundCommitOutcome :=
  match self.inbound.get? message.messageId with
  | some existing =>
    if existing.message.sameAuthenticatedMessage message then
      let retained := (existing.message.retainIngressIfAbsent
        message.ingress).retainLocationIfAbsent
        message.location
      (.ok .duplicate, { self with
        inbound := self.inbound.insert message.messageId { existing with message := retained } })
    else (.error (.error (.inboundMessageIdConflict message.messageId)), self)
  | none =>
    match self.reserveActivityId with
    | none => (.error (.error .identifierExhausted), self)
    | some (activityId, nextActivityId) =>
      match self.allocateSequence with
      | (.error failure, self) => (.error failure, self)
      | (.ok sequence, self) =>
        let self := { self with
          inbound := self.inbound.insert message.messageId ⟨sequence, message, receiverLocation⟩ }
        (.ok .inserted, self.appendActivity {
          id := activityId
          observedAtUnixMs := now
          timelineSequence := sequence
          peer := message.source
          direction := .inbound
          outboxId := none
          attemptNumber := none
          ingressObservation := none
          messageLocation := none
          receiverLocation := none
          kind := .inboundImported message.messageId } nextActivityId)

/-- Commit outbound material before it is sent. -/
def commitOutboundWithLocation (now : Option UInt64) (material : OutboxMaterial)
    (location : AttemptLocationStamp) : StoreResult OutboxCommitOutcome :=
  match self.idempotencyIndex.get? material.idempotencyKey with
  | some existingId =>
    match self.outbox.get? existingId with
    | none => (.error .panic, self)
    | some existing =>
      if existing.material = material then (.ok (.existing existingId), self)
      else (.error (.error .idempotencyConflict), self)
  | none =>
    match self.reserveActivityId with
    | none => (.error (.error .identifierExhausted), self)
    | some (activityId, nextActivityId) =>
      match self.allocateOutboxAndSequence with
      | (.error failure, self) => (.error failure, self)
      | (.ok (id, sequence), self) =>
        let record : OutboxRecord := ⟨id, sequence, material, none, .committed, .first⟩
        let self := { self with
          outbox := self.outbox.insert id record
          idempotencyIndex := self.idempotencyIndex.insert material.idempotencyKey id }
        (.ok (.inserted id), self.appendActivity
          (outboundEvent now activityId record (.outboundQueued location)) nextActivityId)

/-- Whether a status permits a replacement submission. -/
inductive RetryDecision where
  | pending
  | retryable
  | final

/-- Whether a row in this status is still pending, may be retried, or is final. -/
def retryDecision : OutboxStatus → RetryDecision
  | .committed | .accepted => .pending
  | .device .queued | .device .preparing | .device (.awaitingDelivery _) => .pending
  | .device (.failed failure) => if failure.isRetryable then .retryable else .final
  | .device (.delivered _) | .device .applicationDelivered | .device .cancelled => .final

/-- What a retry does to the row. -/
inductive RetryMutation where
  | requeued
  | alreadyPending

/-- Replace the submission of a terminal row. -/
def rearmOutbox (now : Option UInt64) (outboxId : OutboxId) (idempotencyKey : IdempotencyKey)
    (location : AttemptLocationStamp) : StoreResult RetryMutation :=
  match self.outbox.get? outboxId with
  | none => (.error (.error (.outboxNotFound outboxId)), self)
  | some record =>
    match retryDecision record.status with
    | .pending => (.ok .alreadyPending, self)
    | .final => (.error (.error (.outboxNotRetryable outboxId)), self)
    | .retryable =>
      let oldKey := record.material.idempotencyKey
      if oldKey = idempotencyKey then
        (.error (.error (.retryIdempotencyKeyUnchanged outboxId)), self)
      else if (self.idempotencyIndex.get? idempotencyKey).any (· ≠ outboxId) then
        (.error (.error .idempotencyConflict), self)
      else
        match MessageAttemptNumber.checkedNext record.currentAttempt, self.reserveActivityId with
        | some nextAttempt, some (activityId, nextActivityId) =>
          match record.acceptance with
          | none => (.error .panic, self)
          | some acceptance =>
            let rearmed : OutboxRecord := { record with
              material := { record.material with idempotencyKey }
              acceptance := none
              status := .committed
              currentAttempt := nextAttempt }
            let self := { self with
              idempotencyIndex :=
                (self.idempotencyIndex.remove oldKey).insert idempotencyKey outboxId
              submissionIndex := self.submissionIndex.remove acceptance.submissionId
              acceptedMessageIndex := self.acceptedMessageIndex.remove acceptance.messageId
              outbox := self.outbox.insert outboxId rearmed }
            let event : MessageActivityEvent :=
              { outboundEvent now activityId rearmed (.outboundRequeued location) with
                outboxId := some outboxId }
            (.ok .requeued, self.appendActivity event nextActivityId)
        | _, _ => (.error (.error .identifierExhausted), self)

/-- Replace the submission of a terminal row under a fresh key. -/
def retryOutboxWithLocation (now : Option UInt64) (outboxId : OutboxId)
    (idempotencyKey : IdempotencyKey) (location : AttemptLocationStamp) :
    StoreResult OutboxRetryOutcome :=
  match self.rearmOutbox now outboxId idempotencyKey location with
  | (.ok .requeued, self) => (.ok (.requeued outboxId), self)
  | (.ok .alreadyPending, self) => (.ok (.alreadyPending outboxId), self)
  | (.error failure, self) => (.error failure, self)

/-- Whether an acceptance names a submission or message of another row. -/
def acceptanceBoundElsewhere (outboxId : OutboxId) (acceptance : AcceptanceIds) : Bool :=
  (self.submissionIndex.get? acceptance.submissionId).any (· ≠ outboxId) ||
    (self.acceptedMessageIndex.get? acceptance.messageId).any (· ≠ outboxId)

/-- Record the device's acceptance of a row. -/
def recordAcceptance (now : Option UInt64) (outboxId : OutboxId) (acceptance : AcceptanceIds) :
    StoreResult AcceptanceOutcome :=
  match self.outbox.get? outboxId with
  | none => (.error (.error (.outboxNotFound outboxId)), self)
  | some record =>
    match record.acceptance with
    | some existing =>
      if existing = acceptance then (.ok .unchanged, self)
      else (.error (.error (.acceptanceConflict outboxId)), self)
    | none =>
      if self.acceptanceBoundElsewhere outboxId acceptance then
        (.error (.error .acceptanceIdAlreadyBound), self)
      else
        match self.reserveActivityId with
        | none => (.error (.error .identifierExhausted), self)
        | some (activityId, nextActivityId) =>
          let self := { self with
            outbox := self.outbox.insert outboxId
              { record with acceptance := some acceptance, status := .accepted }
            submissionIndex := self.submissionIndex.insert acceptance.submissionId outboxId
            acceptedMessageIndex := self.acceptedMessageIndex.insert acceptance.messageId outboxId }
          let event : MessageActivityEvent :=
            { outboundEvent now activityId record (.outboundAccepted acceptance) with
              outboxId := some outboxId }
          (.ok .recorded, self.appendActivity event nextActivityId)

/-- Project a device state onto the status of a row. -/
def projectOutboxStatus (current : OutboxStatus) (state : SubmissionState) :
    Except ChatStoreError (OutboxStatus × StatusProjectionOutcome) :=
  match current with
  | .committed => .error .terminalStatusConflict
  | .accepted => .ok (.device state, .advanced)
  | .device current =>
    if current = state then .ok (.device current, .unchanged)
    else if current.isTerminal then
      if state.isTerminal then .error .terminalStatusConflict
      else .ok (.device current, .ignoredStale)
    else if state.progressionRank < current.progressionRank then
      .ok (.device current, .ignoredStale)
    else if current.progressionRank = state.progressionRank then .error .packetEvidenceChanged
    else
      match current.packetEvidence, state.packetEvidence with
      | some currentEvidence, some nextEvidence =>
        if currentEvidence = nextEvidence then .ok (.device state, .advanced)
        else .error .packetEvidenceChanged
      | _, _ => .ok (.device state, .advanced)

/-- Project a device state onto the row of a submission. -/
def projectSubmissionStatus (now : Option UInt64) (submissionId : SubmissionId)
    (state : SubmissionState) : StoreResult StatusProjectionOutcome :=
  match self.submissionIndex.get? submissionId with
  | none => (.error (.error (.submissionNotFound submissionId)), self)
  | some outboxId =>
    match self.outbox.get? outboxId with
    | none => (.error .panic, self)
    | some record =>
      if record.status = .committed then
        (.error (.error (.submissionNotFound submissionId)), self)
      else
        match projectOutboxStatus record.status state with
        | .error error => (.error (.error error), self)
        | .ok (status, .advanced) =>
          match self.reserveActivityId with
          | none => (.error (.error .identifierExhausted), self)
          | some (activityId, nextActivityId) =>
            let self := { self with outbox := self.outbox.insert outboxId { record with status } }
            let event : MessageActivityEvent :=
              { outboundEvent now activityId record (.outboundStatus state) with
                outboxId := some outboxId }
            (.ok .advanced, self.appendActivity event nextActivityId)
        | .ok (_, outcome) => (.ok outcome, self)

/-- The unfinished work of one row. -/
def reconcileRow (record : OutboxRecord) : Option ReconcileWork :=
  match record.acceptance with
  | none => some (.submit record.id record.material)
  | some acceptance =>
    if record.status.isTerminal then none else some (.refreshStatus record.id acceptance)

/-- The unfinished work in row order. -/
def reconcile : List ReconcileWork := self.outbox.values.filterMap reconcileRow

end MemoryChatStore

end Chat
