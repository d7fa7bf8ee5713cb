import ReticulumFirmware.Chat.OutboxRows
import ReticulumFirmware.Chat.RfTraceImport

/-!
# Mutating calls of the chat store

The mutating calls of the store as values, the stores that sequences of them reach, and what
a call that fails leaves behind.
-/

namespace Chat

/-- A mutating call with its arguments and its clock reading. -/
inductive Call where
  | upsertContact (contact : Contact)
  | commitInbound (now : Option UInt64) (message : InboundMessage)
      (receiverLocation : Option PhoneLocationSample)
  | commitOutbound (now : Option UInt64) (material : OutboxMaterial)
      (location : AttemptLocationStamp)
  | retryOutbox (now : Option UInt64) (outboxId : OutboxId) (idempotencyKey : IdempotencyKey)
      (location : AttemptLocationStamp)
  | recordAcceptance (now : Option UInt64) (outboxId : OutboxId) (acceptance : AcceptanceIds)
  | projectSubmissionStatus (now : Option UInt64) (submissionId : SubmissionId)
      (state : SubmissionState)
  | importRfTraceBatch (batch : RfTraceImportBatch)

/-- What the calls answer. -/
inductive Answer where
  | contact (outcome : ContactUpsertOutcome)
  | inbound (outcome : InboundCommitOutcome)
  | outbound (outcome : OutboxCommitOutcome)
  | retry (outcome : OutboxRetryOutcome)
  | acceptance (outcome : AcceptanceOutcome)
  | status (outcome : StatusProjectionOutcome)
  | rfTrace (outcome : RfTraceImportOutcome)
  deriving DecidableEq

/-- The result of a call with its answer wrapped. -/
def StoreResult.answer {α : Type} (wrap : α → Answer) (result : StoreResult α) :
    StoreResult Answer :=
  (result.1.map wrap, result.2)

/-- Make a call. -/
def Call.apply (store : MemoryChatStore) : Call → StoreResult Answer
  | .upsertContact contact =>
    (.ok (.contact (store.upsertContact contact).1), (store.upsertContact contact).2)
  | .commitInbound now message receiverLocation =>
    (store.commitInboundWithReceiverLocation now message receiverLocation).answer .inbound
  | .commitOutbound now material location =>
    (store.commitOutboundWithLocation now material location).answer .outbound
  | .retryOutbox now outboxId idempotencyKey location =>
    (store.retryOutboxWithLocation now outboxId idempotencyKey location).answer .retry
  | .recordAcceptance now outboxId acceptance =>
    (store.recordAcceptance now outboxId acceptance).answer .acceptance
  | .projectSubmissionStatus now submissionId state =>
    (store.projectSubmissionStatus now submissionId state).answer .status
  | .importRfTraceBatch batch => (store.importRfTraceBatch batch).answer .rfTrace

/-- The store after a sequence of calls, successful or not. -/
def MemoryChatStore.after (store : MemoryChatStore) (calls : List Call) : MemoryChatStore :=
  calls.foldl (fun store call => (call.apply store).2) store

/-- No calls leave the store as it is. -/
@[simp] theorem MemoryChatStore.after_nil (store : MemoryChatStore) : store.after [] = store := rfl

/-- The first call is applied before the later ones. -/
@[simp] theorem MemoryChatStore.after_cons (store : MemoryChatStore) (call : Call)
    (calls : List Call) : store.after (call :: calls) = (call.apply store).2.after calls := rfl

/-- Calls in two groups have the effect of the groups in turn. -/
theorem MemoryChatStore.after_append (store : MemoryChatStore) (calls later : List Call) :
    store.after (calls ++ later) = (store.after calls).after later :=
  List.foldl_append ..

/-- A failed result leaves its store. -/
def StoreResult.Atomic {α : Type} (store : MemoryChatStore) (result : StoreResult α) : Prop :=
  ∀ failure, result.1 = .error failure → result.2 = store

namespace StoreResult

variable {α : Type} {store : MemoryChatStore}

/-- A failure that comes with the store itself. -/
theorem Atomic.error (failure : StoreFailure) :
    Atomic store ((.error failure, store) : StoreResult α) :=
  fun _ _ => rfl

/-- A success has nothing to leave. -/
theorem Atomic.ok (outcome : α) (later : MemoryChatStore) :
    Atomic store ((.ok outcome, later) : StoreResult α) := by
  rintro failure ⟨⟩

/-- A result stays atomic when its answer is wrapped. -/
theorem Atomic.answer {wrap : α → Answer} {result : StoreResult α} (h : Atomic store result) :
    Atomic store (result.answer wrap) := by
  intro failure hfailure
  obtain ⟨outcome, later⟩ := result
  cases outcome with
  | ok outcome => cases hfailure
  | error failure' => exact h failure' rfl

end StoreResult

namespace MemoryChatStore

open StoreResult

variable (store : MemoryChatStore) (now : Option UInt64)

/-- Allocating the place of an inbound row fails without taking it. -/
theorem allocateSequence_cases :
    (∃ failure, store.allocateSequence = (.error failure, store)) ∨
    ∃ sequence next, store.allocateSequence = (.ok sequence, { store with nextSequence := next }) ∧
      sequence.get = store.nextSequence ∧ next.toNat = store.nextSequence.toNat + 1 := by
  unfold allocateSequence
  split
  · next hnext hnew => exact Or.inr ⟨_, _, rfl, get_of_new hnew, toNat_checkedAddOne hnext⟩
  · exact Or.inl ⟨_, rfl⟩

/-- An inbound commit that fails changes nothing. -/
theorem atomic_commitInbound (message : InboundMessage)
    (receiverLocation : Option PhoneLocationSample) :
    Atomic store (store.commitInboundWithReceiverLocation now message receiverLocation) := by
  unfold commitInboundWithReceiverLocation
  split
  · split
    · exact .ok _ _
    · exact .error _
  · split
    · exact .error _
    · obtain ⟨failure, heq⟩ | ⟨sequence, next, heq, -⟩ := store.allocateSequence_cases
      · rw [heq]
        exact .error _
      · rw [heq]
        exact .ok _ _

/-- An outbound commit that fails changes nothing. -/
theorem atomic_commitOutbound (material : OutboxMaterial) (location : AttemptLocationStamp) :
    Atomic store (store.commitOutboundWithLocation now material location) := by
  unfold commitOutboundWithLocation
  split
  · split
    · exact .error _
    · split
      · exact .ok _ _
      · exact .error _
  · split
    · exact .error _
    · obtain ⟨failure, heq⟩ | ⟨id, sequence, later, heq, -⟩ :=
        store.allocateOutboxAndSequence_cases
      · rw [heq]
        exact .error _
      · rw [heq]
        exact .ok _ _

/-- A rearm that fails changes nothing. -/
theorem atomic_rearmOutbox (outboxId : OutboxId) (idempotencyKey : IdempotencyKey)
    (location : AttemptLocationStamp) :
    Atomic store (store.rearmOutbox now outboxId idempotencyKey location) := by
  unfold rearmOutbox
  split
  · exact .error _
  split
  · exact .ok _ _
  · exact .error _
  dsimp only
  split
  · exact .error _
  split
  · exact .error _
  split
  · split
    · exact .error _
    · exact .ok _ _
  · exact .error _

/-- A retry that fails changes nothing. -/
theorem atomic_retryOutbox (outboxId : OutboxId) (idempotencyKey : IdempotencyKey)
    (location : AttemptLocationStamp) :
    Atomic store (store.retryOutboxWithLocation now outboxId idempotencyKey location) := by
  have hrearm := store.atomic_rearmOutbox now outboxId idempotencyKey location
  unfold retryOutboxWithLocation
  split
  · exact .ok _ _
  · exact .ok _ _
  · next failure later heq =>
    rw [heq] at hrearm
    have hsame : later = store := hrearm failure rfl
    rw [hsame]
    exact .error _

/-- An acceptance that is refused changes nothing. -/
theorem atomic_recordAcceptance (outboxId : OutboxId) (acceptance : AcceptanceIds) :
    Atomic store (store.recordAcceptance now outboxId acceptance) := by
  unfold recordAcceptance
  split
  · exact .error _
  split
  · split
    · exact .ok _ _
    · exact .error _
  split
  · exact .error _
  split
  · exact .error _
  · exact .ok _ _

/-- A status that is refused changes nothing. -/
theorem atomic_projectSubmissionStatus (submissionId : SubmissionId) (state : SubmissionState) :
    Atomic store (store.projectSubmissionStatus now submissionId state) := by
  unfold projectSubmissionStatus
  split
  · exact .error _
  split
  · exact .error _
  split
  · exact .error _
  split
  · exact .error _
  · split
    · exact .error _
    · exact .ok _ _
  · exact .ok _ _

/-- An import that fails changes nothing. -/
theorem atomic_importRfTraceBatch (batch : RfTraceImportBatch) :
    Atomic store (store.importRfTraceBatch batch) := by
  unfold importRfTraceBatch
  split
  · exact .ok _ _
  · exact .error _

end MemoryChatStore

/-- A call that fails changes nothing. -/
theorem Call.atomic (store : MemoryChatStore) (call : Call) :
    StoreResult.Atomic store (call.apply store) := by
  cases call with
  | upsertContact contact => exact .ok _ _
  | commitInbound now message receiverLocation =>
    exact (store.atomic_commitInbound now message receiverLocation).answer
  | commitOutbound now material location =>
    exact (store.atomic_commitOutbound now material location).answer
  | retryOutbox now outboxId idempotencyKey location =>
    exact (store.atomic_retryOutbox now outboxId idempotencyKey location).answer
  | recordAcceptance now outboxId acceptance =>
    exact (store.atomic_recordAcceptance now outboxId acceptance).answer
  | projectSubmissionStatus now submissionId state =>
    exact (store.atomic_projectSubmissionStatus now submissionId state).answer
  | importRfTraceBatch batch => exact (store.atomic_importRfTraceBatch batch).answer

/-- In every reachable store, a call that fails leaves every table, index, counter and log
exactly as it was. -/
theorem failed_call_changes_nothing (calls : List Call) (call : Call) (failure : StoreFailure)
    (h : (call.apply (MemoryChatStore.new.after calls)).1 = .error failure) :
    (call.apply (MemoryChatStore.new.after calls)).2 = MemoryChatStore.new.after calls :=
  call.atomic _ failure h

/-- The first outbox identifier is not zero. -/
theorem outboxId_ne_zero : (1 : UInt64) ≠ 0 := by decide

/-- The second identifier is not zero. -/
theorem secondId_ne_zero : (2 : UInt64) ≠ 0 := by decide

/-- The sample submission is not zero. -/
theorem submissionId_ne_zero : (5 : UInt64) ≠ 0 := by decide

/-- The first millisecond is after the epoch. -/
theorem firstMillisecond_pos : (0 : UInt64) < 1 := by decide

/-- The first millisecond is a supported time. -/
theorem firstMillisecond_supported : 1 ≤ maxUnixTimestampMillis := by decide

/-- The first millisecond after the epoch. -/
def firstMillisecond : UnixTimestampMillis :=
  ⟨1, firstMillisecond_pos, firstMillisecond_supported⟩

/-- The identifiers of an acceptance. -/
def sampleAcceptance : AcceptanceIds := ⟨⟨5, submissionId_ne_zero⟩, Vector.replicate 32 7⟩

/-- A route observed over a number of hops. -/
def sampleRoute (eventSequence : RfTraceEventSequence) (hops : UInt8) : RfTraceObservation where
  eventSequence := eventSequence
  observedAtUs := 0
  kind := .routeSelected
    { destination := Vector.replicate 16 1
      nextHop := none
      hops := hops
      selectedInterface := Vector.replicate 8 2
      resolution := .exactReady
      packetEvidence := ⟨100, Vector.replicate 32 3, by decide⟩
      rnsAttemptToken := Vector.replicate 32 4
      submissionId := sampleAcceptance.submissionId }

/-- A page of one boot. -/
def samplePage (observations : List RfTraceObservation)
    (bounded : observations.length ≤ maxRfTracePageSize)
    (ordered : observations.IsChain fun a b => a.eventSequence < b.eventSequence) :
    RfTraceImportBatch where
  bootId := 1
  profile := ⟨Vector.replicate 16 9, 868000000, 125000, 8, 14, 9, 5, true, true, false⟩
  importedAtUnixMs := 1
  historyIncomplete := false
  observations := observations
  supported := by decide
  bounded := bounded
  ordered := ordered

/-- A page holds the observations of the samples. -/
theorem two_le_maxRfTracePageSize : 2 ≤ maxRfTracePageSize := by decide

/-- The observations of the samples are in the order of their sequences. -/
theorem sampleRoute_ordered :
    [sampleRoute ⟨1, outboxId_ne_zero⟩ 1, sampleRoute ⟨2, secondId_ne_zero⟩ 2].IsChain
      fun a b => a.eventSequence < b.eventSequence :=
  .cons_cons (by decide) (.singleton _)

/-- Two messages, the first one accepted, and a route of it. -/
def filledStore : List Call :=
  [.commitOutbound none
      ⟨Vector.replicate 16 1, firstMillisecond, Vector.replicate 16 0, [], [1], none⟩
      .notObserved,
    .commitOutbound none
      ⟨Vector.replicate 16 1, firstMillisecond, Vector.replicate 16 8, [], [2], none⟩
      .notObserved,
    .recordAcceptance none ⟨1, outboxId_ne_zero⟩ sampleAcceptance,
    .importRfTraceBatch (samplePage [sampleRoute ⟨2, secondId_ne_zero⟩ 1]
      (Nat.le_of_succ_le two_le_maxRfTracePageSize) (.singleton _))]

/-- A page whose first observation is new and whose second one contradicts the route. -/
def contradictingPage : RfTraceImportBatch :=
  samplePage [sampleRoute ⟨1, outboxId_ne_zero⟩ 1, sampleRoute ⟨2, secondId_ne_zero⟩ 2]
    two_le_maxRfTracePageSize sampleRoute_ordered

/-- The second message is not accepted under the submission of the first one, and a page is not
imported up to its contradiction. -/
theorem failed_call_changes_nothing_filled :
    (MemoryChatStore.new.after filledStore).outbox.entries.length = 2 ∧
      ((Call.recordAcceptance none ⟨2, secondId_ne_zero⟩ sampleAcceptance).apply
        (MemoryChatStore.new.after filledStore)).2 = MemoryChatStore.new.after filledStore ∧
      ((Call.importRfTraceBatch contradictingPage).apply
        (MemoryChatStore.new.after filledStore)).2 = MemoryChatStore.new.after filledStore :=
  ⟨by decide +kernel,
    failed_call_changes_nothing filledStore _ (.error .acceptanceIdAlreadyBound)
      (by decide +kernel),
    failed_call_changes_nothing filledStore _
      (.error (.rfTraceEventConflict 1 ⟨2, secondId_ne_zero⟩)) (by decide +kernel)⟩

end Chat
