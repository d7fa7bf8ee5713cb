import Mathlib.Data.Nat.Basic
import ReticulumFirmware.Chat.MemoryStore

/-!
# The chat engine

The single-owner engine over a chat store: submission and status reconciliation of the
outbox, and the incremental scan of the appliance's inbox. Store and session are the two
interfaces it is written against; a call of either returns its result together with the
state it leaves behind.
-/

namespace Chat

/-- The handle that the device lists a message under. -/
abbrev InboxCursor := NonZeroU64

/-- Authenticated metadata of one inbox message. -/
structure InboxSummary where
  cursor : InboxCursor
  messageId : MessageId
  deriving DecidableEq

/-- The calls of a chat store that the engine makes. -/
structure ChatStore (S E : Type) where
  containsInbound : S → MessageId → Except E Bool
  commitInboundWithReceiverLocation :
    S → InboundMessage → Option PhoneLocationSample → Except E InboundCommitOutcome × S
  commitOutboundWithLocation :
    S → OutboxMaterial → AttemptLocationStamp → Except E OutboxCommitOutcome × S
  retryOutboxWithLocation :
    S → OutboxId → IdempotencyKey → AttemptLocationStamp → Except E OutboxRetryOutcome × S
  recordAcceptance : S → OutboxId → AcceptanceIds → Except E AcceptanceOutcome × S
  projectSubmissionStatus :
    S → SubmissionId → SubmissionState → Except E StatusProjectionOutcome × S
  reconcile : S → Except E (List ReconcileWork)

/-- The in-memory store, at one clock reading. -/
def memoryStore (now : Option UInt64) : ChatStore MemoryChatStore StoreFailure where
  containsInbound store messageId := .ok (store.containsInbound messageId)
  commitInboundWithReceiverLocation store := store.commitInboundWithReceiverLocation now
  commitOutboundWithLocation store := store.commitOutboundWithLocation now
  retryOutboxWithLocation store := store.retryOutboxWithLocation now
  recordAcceptance store := store.recordAcceptance now
  projectSubmissionStatus store := store.projectSubmissionStatus now
  reconcile store := .ok store.reconcile

/-- The calls of an authenticated device session that the engine makes. -/
structure LxmfSession (D E : Type) where
  submit : D → OutboxMaterial → Except E AcceptanceIds × D
  submissionStatus : D → SubmissionId → Except E SubmissionState × D
  nextInbox : D → Option InboxCursor → Except E (Option InboxSummary) × D
  readInbox : D → InboxSummary → Except E InboundMessage × D
  acknowledgeInboxThrough : D → InboxCursor → Except E Unit × D

/-- One committed reconciliation action, or an empty outbox. -/
inductive ReconcileStep where
  | idle
  | submitted (outboxId : OutboxId) (acceptance : AcceptanceIds) (outcome : AcceptanceOutcome)
  | refreshed (outboxId : OutboxId) (acceptance : AcceptanceIds) (state : SubmissionState)
      (outcome : StatusProjectionOutcome)
  deriving DecidableEq

/-- Which unfinished row a round looks for first. -/
inductive ReconcileSelection where
  | ordinary
  | prefer (preferred : OutboxId)
  | avoid (avoided : OutboxId)
  deriving DecidableEq

/-- One step of an inbox scan. -/
inductive InboxStep where
  | endOfScan
  | alreadyImported (messageId : MessageId) (cursor : InboxCursor)
  | imported (messageId : MessageId) (cursor : InboxCursor) (outcome : InboundCommitOutcome)
  | acknowledged (cursor : InboxCursor)
  deriving DecidableEq

/-- Failure of the store or of the session. -/
inductive EngineError (S E : Type) where
  | store (error : S)
  | session (error : E)
  | inboxMessageIdMismatch (expected observed : MessageId)

/-- The engine: its store, the rotation of its work and the state of its scan. -/
structure ChatEngine (S : Type) where
  store : S
  reconcileOffset : ℕ
  inboxAfter : Option InboxCursor
  inboxAckPending : Option InboxCursor

namespace ChatEngine

/-- An engine around a store. -/
def new {S : Type} (store : S) : ChatEngine S := ⟨store, 0, none, none⟩

variable {S D StoreError SessionError : Type} (store : ChatStore S StoreError)
  (session : LxmfSession D SessionError) (engine : ChatEngine S) (device : D)

/-- Restart the inbox scan. -/
def resetSessionScan : ChatEngine S := { engine with inboxAfter := none }

/-- Commit outbound material. -/
def enqueueSend (material : OutboxMaterial) :
    Except StoreError OutboxCommitOutcome × ChatEngine S :=
  let result := store.commitOutboundWithLocation engine.store material .notObserved
  (result.1, { engine with store := result.2 })

/-- Replace the submission of a terminal row. -/
def retrySend (outboxId : OutboxId) (idempotencyKey : IdempotencyKey) :
    Except StoreError OutboxRetryOutcome × ChatEngine S :=
  let result := store.retryOutboxWithLocation engine.store outboxId idempotencyKey .notObserved
  (result.1, { engine with store := result.2 })

/-- The selected item of the work list, and whether the rotation is kept. -/
def selectIndex (work : List ReconcileWork) (ordinary : ℕ) : ReconcileSelection → ℕ × Bool
  | .ordinary => (ordinary, false)
  | .prefer preferred =>
    match work.findIdx? (·.outboxId = preferred) with
    | some index => (index, true)
    | none => (ordinary, false)
  | .avoid avoided =>
    let candidates := (List.range work.length).map (fun offset => (ordinary + offset) % work.length)
    ((candidates.find? fun index => (work[index]?).any (·.outboxId ≠ avoided)).getD ordinary, false)

/-- The selected item is in the list. -/
theorem selectIndex_lt {work : List ReconcileWork} {ordinary : ℕ} (h : ordinary < work.length)
    (selection : ReconcileSelection) : (selectIndex work ordinary selection).1 < work.length := by
  cases selection with
  | ordinary => exact h
  | prefer preferred =>
    simp only [selectIndex]
    split
    · next index hindex => exact (List.findIdx?_eq_some_iff_getElem.mp hindex).1
    · exact h
  | avoid avoided =>
    simp only [selectIndex]
    cases hfind : ((List.range work.length).map fun offset =>
      (ordinary + offset) % work.length).find?
        fun index => (work[index]?).any (·.outboxId ≠ avoided) with
    | none => exact h
    | some index =>
      obtain ⟨offset, -, rfl⟩ := List.mem_map.mp (List.mem_of_find?_eq_some hfind)
      exact Nat.mod_lt _ (by omega)

/-- Submit or refresh one row, and commit the answer. -/
def reconcileItem : ReconcileWork →
    Except (EngineError StoreError SessionError) ReconcileStep × ChatEngine S × D
  | .submit outboxId material =>
    match session.submit device material with
    | (.error error, device) => (.error (.session error), engine, device)
    | (.ok acceptance, device) =>
      match store.recordAcceptance engine.store outboxId acceptance with
      | (.error error, state) => (.error (.store error), { engine with store := state }, device)
      | (.ok outcome, state) =>
        (.ok (.submitted outboxId acceptance outcome), { engine with store := state }, device)
  | .refreshStatus outboxId acceptance =>
    match session.submissionStatus device acceptance.submissionId with
    | (.error error, device) => (.error (.session error), engine, device)
    | (.ok state, device) =>
      match store.projectSubmissionStatus engine.store acceptance.submissionId state with
      | (.error error, stored) => (.error (.store error), { engine with store := stored }, device)
      | (.ok outcome, stored) =>
        (.ok (.refreshed outboxId acceptance state outcome), { engine with store := stored },
          device)

/-- Perform at most one submit or status request and its local mutation. -/
def reconcileStepSelecting (selection : ReconcileSelection) :
    Except (EngineError StoreError SessionError) ReconcileStep × ChatEngine S × D :=
  match store.reconcile engine.store with
  | .error error => (.error (.store error), engine, device)
  | .ok work =>
    if h : work.length = 0 then (.ok .idle, { engine with reconcileOffset := 0 }, device)
    else
      let ordinary := engine.reconcileOffset % work.length
      have hordinary : ordinary < work.length := Nat.mod_lt _ (Nat.pos_of_ne_zero h)
      let index := (selectIndex work ordinary selection).1
      let preserveFairnessCursor := (selectIndex work ordinary selection).2
      let item := work.get ⟨index, selectIndex_lt hordinary selection⟩
      match reconcileItem store session engine device item with
      | (.error error, engine, device) => (.error error, engine, device)
      | (.ok step, engine, device) =>
        -- a preferred turn does not move the rotation of the ordinary ones
        if preserveFairnessCursor then (.ok step, engine, device)
        else (.ok step, { engine with reconcileOffset := (index + 1) % work.length }, device)

/-- Keep the highest cursor to acknowledge. -/
def retainInboxAck (cursor : InboxCursor) : ChatEngine S :=
  if engine.inboxAckPending.all (· < cursor) then { engine with inboxAckPending := some cursor }
  else engine

/-- Move the scan past an entry whose message is retained. -/
def advance (cursor : InboxCursor) : ChatEngine S :=
  retainInboxAck { engine with inboxAfter := some cursor } cursor

/-- Advance the inbox scan by one summary. -/
def inboxStepWithReceiverLocation (receiverLocation : Option PhoneLocationSample) :
    Except (EngineError StoreError SessionError) InboxStep × ChatEngine S × D :=
  match session.nextInbox device engine.inboxAfter with
  | (.error error, device) => (.error (.session error), engine, device)
  | (.ok none, device) =>
    match engine.inboxAckPending with
    | none => (.ok .endOfScan, engine, device)
    | some cursor =>
      match session.acknowledgeInboxThrough device cursor with
      | (.error error, device) => (.error (.session error), engine, device)
      | (.ok _, device) =>
        (.ok (.acknowledged cursor), { engine with inboxAckPending := none }, device)
  | (.ok (some summary), device) =>
    match store.containsInbound engine.store summary.messageId with
    | .error error => (.error (.store error), engine, device)
    | .ok true =>
      (.ok (.alreadyImported summary.messageId summary.cursor), advance engine summary.cursor,
        device)
    | .ok false =>
      match session.readInbox device summary with
      | (.error error, device) => (.error (.session error), engine, device)
      | (.ok message, device) =>
        if message.messageId ≠ summary.messageId then
          (.error (.inboxMessageIdMismatch summary.messageId message.messageId), engine, device)
        else
          match store.commitInboundWithReceiverLocation engine.store message receiverLocation with
          | (.error error, state) => (.error (.store error), { engine with store := state }, device)
          | (.ok outcome, state) =>
            (.ok (.imported message.messageId summary.cursor outcome),
              advance { engine with store := state } summary.cursor, device)

end ChatEngine

end Chat
