import ReticulumFirmware.LxmfStore.Media

/-!
# Committing one message

`MountedLxmfStore::commit` of `lxmf-store`: a candidate is checked against the index, its extents
are programmed in a fixed order with the commit marker last, and the record is inspected before it
is indexed. A mutation whose end is not known stays pending.
-/

namespace LxmfStore

open Nor Lxmf

section Cursor

/-- A position in the two segments of a candidate. -/
structure CandidateCursor where
  first : List Byte
  second : List Byte
  position : ℕ

namespace CandidateCursor

/-- The cursor before the first byte of a wire. -/
def new (candidate : InboundMessageCandidate) : CandidateCursor :=
  ⟨candidate.wire.segments.first, candidate.wire.segments.second, 0⟩

/-- The bytes that are still to come. -/
def remaining (cursor : CandidateCursor) : ℕ :=
  cursor.first.length + cursor.second.length - cursor.position

/-- The segment under the cursor and the offset in it. -/
def current (cursor : CandidateCursor) : List Byte × ℕ :=
  if cursor.position < cursor.first.length then (cursor.first, cursor.position)
  else (cursor.second, cursor.position - cursor.first.length)

/-- While bytes remain, the cursor stands inside its segment. -/
theorem offset_lt {cursor : CandidateCursor} (h : 0 < cursor.remaining) :
    cursor.current.2 < cursor.current.1.length := by
  unfold remaining at h
  unfold current
  split
  · assumption
  · dsimp only
    omega

/-- Copy bytes until the output is full or nothing remains. -/
def fill (cursor : CandidateCursor) (size : ℕ) : List Byte × CandidateCursor :=
  if _ : 0 < size ∧ 0 < cursor.remaining then
    let segment := cursor.current.1
    let offset := cursor.current.2
    let take := min size (segment.length - offset)
    let rest := fill { cursor with position := cursor.position + take } (size - take)
    (slice segment offset take ++ rest.1, rest.2)
  else ([], cursor)
termination_by size
decreasing_by
  have hoffset := offset_lt (And.right ‹_›)
  omega

end CandidateCursor

end Cursor

section Patches

variable {ε : Type}

/-- A programmed page whose readback decides: an accepted readback is a success whatever the
backend said. -/
def programPage (offset : ℕ) (programmed : List Byte) (accepts : List Byte → Bool)
    (stage : LxmfProgramStage) (firstExtent : ℕ) : CheckedPatch ε (LxmfCommitError ε) where
  patch := ⟨offset, programmed⟩
  accepts := accepts
  verdict write read :=
    match write, read with
    | .ok (), .ok readback =>
      if accepts readback then .ok () else .error (.fault (.readbackMismatch stage firstExtent))
    | .error error, .ok readback =>
      if accepts readback then .ok () else .error (.backend stage error)
    | .error error, .error _ => .error (.backend stage error)
    | .ok (), .error error => .error (.backend stage error)
  verdict_ok write read := by
    cases write with
    | ok u => cases read with
      | ok readback => simp
      | error error => simp
    | error error => cases read with
      | ok readback => simp
      | error _ => simp

/-- The readback is exactly the expected page. -/
def programExact (offset : ℕ) (programmed expectedReadback : List Byte) (stage : LxmfProgramStage)
    (firstExtent : ℕ) : CheckedPatch ε (LxmfCommitError ε) :=
  programPage offset programmed (· == expectedReadback) stage firstExtent

/-- The claim is complete and the rest of the page can still become the header. -/
def programClaim (offset : ℕ) (claimOverlay intendedHeaderPage : List Byte) (firstExtent : ℕ) :
    CheckedPatch ε (LxmfCommitError ε) :=
  programPage offset claimOverlay
    (fun readback => readback.take claimMarker.length == claimMarker &&
      covers (readback.drop claimMarker.length) (intendedHeaderPage.drop claimMarker.length))
    .claim firstExtent

/-- The footer is exact and its commit marker can still be programmed. -/
def programFooterBase (offset : ℕ) (footerBeforeCommit : List Byte) (firstExtent : ℕ) :
    CheckedPatch ε (LxmfCommitError ε) :=
  programPage offset footerBeforeCommit
    (fun readback => readback.take footerCommitOffset == footerBeforeCommit.take
      footerCommitOffset &&
      covers (readback.drop footerCommitOffset) commitMarker)
    .footer firstExtent

/-- The claim and the header pages of one extent. -/
def programHeader (firstExtent extentIndex : ℕ) (header : List Byte) :
    List (CheckedPatch ε (LxmfCommitError ε)) :=
  let offset := extentOffset (firstExtent + extentIndex)
  programClaim offset (claimMarker ++ List.replicate (ioChunkSize - claimMarker.length) erasedByte)
      (header.take ioChunkSize) firstExtent ::
    (List.range (extentHeaderSize / ioChunkSize)).map fun page =>
      programExact (offset + page * ioChunkSize) (slice header (page * ioChunkSize) ioChunkSize)
        (slice header (page * ioChunkSize) ioChunkSize) .header firstExtent

/-- One page of wire, padded with erased bytes. -/
def wirePage (bytes : List Byte) : List Byte :=
  bytes ++ List.replicate (ioChunkSize - bytes.length) erasedByte

/-- The wire pages of a candidate at the given offsets, while bytes remain. -/
def programWirePages (firstExtent : ℕ) (cursor : CandidateCursor) :
    List ℕ → List (CheckedPatch ε (LxmfCommitError ε))
  | [] => []
  | offset :: offsets =>
    if 0 < cursor.remaining then
      let filled := cursor.fill ioChunkSize
      programExact offset (wirePage filled.1) (wirePage filled.1) .wire firstExtent ::
        programWirePages firstExtent filled.2 offsets
    else []

/-- Program the wire of a candidate, page by page. -/
def programCandidateWire (firstExtent extentCount : ℕ) (candidate : InboundMessageCandidate) :
    List (CheckedPatch ε (LxmfCommitError ε)) :=
  programWirePages firstExtent (.new candidate) (wirePageOffsets firstExtent extentCount)

/-- The commit marker over an otherwise erased footer. -/
def commitOverlay : List Byte := List.replicate footerCommitOffset erasedByte ++ commitMarker

end Patches

section Commit

variable {ε : Type} (sha256 : Sha256) (access : BoundLxmfStore) (store : MountedLxmfStore)
  (candidate : InboundMessageCandidate)

/-- A program that commits. -/
abbrev CommitAction (ε α : Type) := Action ε (LxmfCommitError ε) α

/-- The digest of the exact wire. -/
def digestCandidateWire : ExactWireDigest :=
  sha256 (candidate.wire.segments.first ++ candidate.wire.segments.second)

/-- The digest of the record: its first header and its wire. -/
def digestCandidateRecord (firstHeader : List Byte) : Vector Byte 32 :=
  sha256 (recordDigestDomain ++ firstHeader ++ candidate.wire.segments.first ++
    candidate.wire.segments.second)

/-- What a replay of the message is told by. -/
def candidateReplay : ReplayFingerprint :=
  ⟨candidate.metadata.authenticatedFingerprint, digestCandidateWire sha256 candidate⟩

/-- The header of one extent of the record of a candidate. -/
def candidateHeader (handle : MessageHandle) (extentCount extentIndex : ℕ) : List Byte :=
  encodeHeader sha256 access.binding physicalFormatVersion handle extentIndex extentCount
    candidate.metadata (digestCandidateWire sha256 candidate)

/-- The footer of the record of a candidate. -/
def candidateFooter (handle : MessageHandle) (extentCount : ℕ) (committed : Bool) : List Byte :=
  encodeFooter physicalFormatVersion handle extentCount candidate.wire.segments.totalLen
    (digestCandidateWire sha256 candidate)
    (digestCandidateRecord sha256 candidate
      (candidateHeader sha256 access candidate handle extentCount 0)) committed

/-- Everything that a commit programs, in order. -/
def programRecord (firstExtent extentCount : ℕ) (handle : MessageHandle) :
    List (CheckedPatch ε (LxmfCommitError ε)) :=
  let footerOffset :=
    extentOffset (firstExtent + extentCount - 1) + extentSize - recordFooterSize
  (List.range extentCount).flatMap (fun extentIndex => programHeader firstExtent extentIndex
    (candidateHeader sha256 access candidate handle extentCount extentIndex)) ++
  programCandidateWire firstExtent extentCount candidate ++
  [programFooterBase footerOffset
      (candidateFooter sha256 access candidate handle extentCount false) firstExtent,
    programExact footerOffset commitOverlay
      (candidateFooter sha256 access candidate handle extentCount true) .commit firstExtent]

/-- What a commit does after its checks. -/
inductive Admission where
  | alreadyDurable (receipt : DurableMessageReceipt)
  | append (pending : PendingMutation) (resumed : Bool)

/-- The receipt of an indexed message, or the collision with it. The index was searched for the
identifier, so the messages are not distinct. -/
def classifyReplay (entry : IndexEntry) : Except (LxmfCommitError ε) Admission :=
  match (candidateReplay sha256 candidate).classifyAgainst entry.receipt.fingerprint with
  | .exactReplay | .equivalentReplay => .ok (.alreadyDurable entry.receipt)
  | .authenticatedMetadataConflict | .distinctMessage =>
    .error (.hashCollision candidate.metadata.messageId)

/-- The span and the handle of a new record. -/
def allocate : Except (LxmfCommitError ε) Admission :=
  let remaining := access.binding.length / extentSize - store.appendExtent
  match requiredExtents access.usizeValues candidate.wire.segments.totalLen with
  | none => .error (.full (access.usizeValues - 1) 0)
  | some required =>
    if remaining < required ∨ 2 ^ 16 ≤ required then .error (.full required remaining)
    else match store.pending with
      | some pending =>
        if pending.extentCount ≠ required then
          .error (.ambiguousMutationPending candidate.metadata.messageId)
        else .ok (.append { pending with
          replay := candidateReplay sha256 candidate, metadata := candidate.metadata } true)
      | none => match NonZeroU64.new store.nextHandle with
        | none => .error .handleExhausted
        | some handle => .ok (.append ⟨candidateReplay sha256 candidate, candidate.metadata,
            store.appendExtent, required, handle⟩ false)

/-- The mutation that a commit conflicts with while its end is not known. -/
def conflictingPending : Option PendingMutation :=
  store.pending.filter fun pending =>
    pending.replay ≠ candidateReplay sha256 candidate ∨ pending.metadata ≠ candidate.metadata

/-- The checks of a commit before any physical operation. -/
def admission : Except (LxmfCommitError ε) Admission :=
  match validateWriteAccess access >>= fun _ =>
    validateSameBinding store.binding access.binding with
  | .error error => .error (.binding error)
  | .ok () =>
    match store.entryForMessage candidate.metadata.messageId with
    | some entry => classifyReplay sha256 candidate entry
    | none =>
      match conflictingPending sha256 store candidate with
      | some pending => .error (.ambiguousMutationPending pending.replay.authenticated.messageId)
      | none =>
        if store.entries.length = store.capacity then .error (.indexFull store.capacity)
        else allocate sha256 access store candidate

/-- A failed inspection fails the commit. -/
def InspectError.intoCommitError : InspectError ε → LxmfCommitError ε
  | .backend error => .backend .verification error
  | .fault reason => .fault reason

/-- Whether an inspected record is the record of this candidate. -/
def isCandidateRecord (entry : IndexEntry) : Prop :=
  entry.receipt.fingerprint = candidateReplay sha256 candidate ∧
    entry.metadata = candidate.metadata

/-- Both parts are compared. -/
instance (entry : IndexEntry) : Decidable (isCandidateRecord sha256 candidate entry) :=
  inferInstanceAs (Decidable (_ ∧ _))

/-- The record that an earlier attempt completed, or nothing. -/
def reconcile (pending : PendingMutation) : CommitAction ε (Option IndexEntry) := do
  match ← ExceptT.adapt InspectError.intoCommitError
    (committedRecordAt sha256 access pending.firstExtent) with
  | none => pure none
  | some entry =>
    Action.ensure ((candidateReplay sha256 candidate).classifyAgainst entry.receipt.fingerprint ≠
      .authenticatedMetadataConflict) (.hashCollision candidate.metadata.messageId)
    Action.ensure (isCandidateRecord sha256 candidate entry)
      (.fault (.committedMetadataInvalid pending.firstExtent))
    pure (some entry)

/-- Program the record of a candidate and inspect it. -/
def writeRecord (pending : PendingMutation) : CommitAction ε IndexEntry := do
  CheckedPatch.actAll (programRecord sha256 access candidate pending.firstExtent
    pending.extentCount pending.handle)
  match ← ExceptT.adapt InspectError.intoCommitError
    (committedRecordAt sha256 access pending.firstExtent) with
  | none => throw (.fault (.readbackMismatch .verification pending.firstExtent))
  | some entry =>
    Action.ensure (isCandidateRecord sha256 candidate entry)
      (.fault (.committedMetadataInvalid pending.firstExtent))
    pure entry

/-- What an earlier attempt completed; a new record needs an erased span. -/
def prepareSpan (pending : PendingMutation) (resumed : Bool) :
    CommitAction ε (Option IndexEntry) :=
  if resumed then reconcile sha256 access candidate pending
  else do
    let erased ← spanIsErased (.backend .verification) pending.firstExtent pending.extentCount
    Action.ensure erased (.fault (.mediaChanged pending.firstExtent))
    pure none

/-- Complete a mutation, and whether an earlier attempt had completed it. -/
def appendRecord (pending : PendingMutation) (resumed : Bool) :
    CommitAction ε (IndexEntry × Bool) := do
  match ← prepareSpan sha256 access candidate pending resumed with
  | some entry => pure (entry, true)
  | none => do
    let entry ← writeRecord sha256 access candidate pending
    pure (entry, false)

/-- Index a completed mutation. -/
def MountedLxmfStore.complete (pending : PendingMutation) (entry : IndexEntry) :
    MountedLxmfStore :=
  ({ store with pending := some pending }.installEntry entry).finishCommit pending.firstExtent
    pending.extentCount pending.handle

/-- Commit one candidate: the answer and the store afterwards. -/
def commit : Prog ε (Except (LxmfCommitError ε) LxmfCommitOutcome × MountedLxmfStore) :=
  match admission sha256 access store candidate with
  | .error error => .pure (.error error, store)
  | .ok (.alreadyDurable receipt) => .pure (.ok (.alreadyDurable receipt), store)
  | .ok (.append pending resumed) =>
    (appendRecord sha256 access candidate pending resumed).run >>= fun
      | .error error => .pure (.error error, { store with pending := some pending })
      | .ok (entry, recovered) =>
        .pure (.ok (if recovered then .alreadyDurable entry.receipt else .committed entry.receipt),
          store.complete pending entry)

end Commit

end LxmfStore
