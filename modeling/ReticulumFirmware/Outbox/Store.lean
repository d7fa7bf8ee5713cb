import ReticulumFirmware.Nor.Action
import ReticulumFirmware.Outbox.Format

/-!
# The outbox store

The operations of `product_outbox.rs` as programs over a fallible backend. The index in
memory is the list of its filled entries with the number of slots the caller provided. An
operation that changes the index returns it with its answer, failures included.
-/

namespace Outbox

open Nor

/-- Why an operation failed. -/
inductive OutboxError (ε : Type) where
  | backend (error : ε)
  | invalidBinding
  | corrupt (slot : ℕ)
  | invalidCandidate
  | verification (slot : ℕ)

/-- The mounted outbox. -/
structure MountedOutbox where
  binding : OutboxBinding
  entries : List OutboxEntry
  /-- Length of the caller's index. -/
  indexLen : ℕ
  nextSlot : ℕ

/-- The answer to an offered message. -/
inductive OutboxAcceptance where
  | accepted (entry : OutboxEntry)
  | replay (entry : OutboxEntry)
  | idempotencyConflict
  | capacityExhausted
  deriving DecidableEq

/-- A fallible operation that leaves the index alone. -/
abbrev OutboxAction (ε α : Type) := Action ε (OutboxError ε) α

namespace MountedOutbox

/-- The record of a principal's idempotency key. -/
def idempotency (current : MountedOutbox) (principal key : Vector Byte 16) : Option OutboxEntry :=
  current.entries.find? fun entry => entry.principal = principal ∧ entry.idempotencyKey = key

/-- The index with one more entry, past its slot. -/
def push (current : MountedOutbox) (entry : OutboxEntry) : MountedOutbox :=
  { current with entries := current.entries ++ [entry], nextSlot := current.nextSlot + 1 }

end MountedOutbox

section Read

variable {ε : Type}

/-- Byte `within` of a record. -/
def recordOffset (slot within : ℕ) : ℕ := slot * recordSize + within

/-- Read inside a record. -/
def readRecord (slot within length : ℕ) : OutboxAction ε (List Byte) :=
  .read .backend (recordOffset slot within) length

/-- The 256-byte chunks of a record from an offset on. -/
def chunksFrom (start : ℕ) : List (ℕ × ℕ) :=
  (List.range ((recordSize - start + 255) / 256)).map fun i =>
    (start + i * 256, min 256 (recordSize - (start + i * 256)))

/-- Whether the listed chunks are erased; the scan stops at the first that is not. -/
def chunksErased (slot : ℕ) : List (ℕ × ℕ) → OutboxAction ε Bool
  | [] => pure true
  | (offset, length) :: rest => do
    let chunk ← readRecord slot offset length
    if chunk.any (· != erasedByte) then pure false else chunksErased slot rest

/-- Whether a record is erased from an offset on. -/
def tailIsErased (slot start : ℕ) : OutboxAction ε Bool := chunksErased slot (chunksFrom start)

/-- Whether a whole record is erased. -/
def recordIsErased (slot : ℕ) : OutboxAction ε Bool := tailIsErased slot 0

/-- Fail unless a record is erased. -/
def ensureErased (slot : ℕ) : OutboxAction ε Unit := do
  let erased ← recordIsErased slot
  Action.ensure (erased = true) (.corrupt slot)

/-- The state of a record with both markers and an erased tail. -/
def committedState (slot : ℕ) : Option OutboxEntry → OutboxAction ε RecordState
  | some entry => pure (.committed entry)
  | none => throw (.corrupt slot)

/-- Classify one record. -/
def inspectRecord (sha256 : Sha256) (binding : OutboxBinding) (slot : ℕ) :
    OutboxAction ε RecordState := do
  let record ← readRecord slot 0 retainedPrefixSize
  let claim := slice record claimOffset claimSize
  if record.all (· == erasedByte) then do
    let erased ← tailIsErased slot retainedPrefixSize
    Action.ensure (erased = true) (.corrupt slot)
    return .erased
  else if slice record commitOffset commitSize ≠ commitMarker then do
    Action.ensure (covers claim claimMarker = true) (.corrupt slot)
    return .torn
  else do
    Action.ensure (claim = claimMarker) (.corrupt slot)
    let erased ← tailIsErased slot retainedPrefixSize
    Action.ensure (erased = true) (.corrupt slot)
    committedState slot (decodeRecord sha256 binding slot record)

end Read

section Geometry

variable (geometry : Geometry)

/-- The binding, the read geometry and the index fit the format. -/
def AccessValid (binding : OutboxBinding) (indexLen : ℕ) : Prop :=
  ¬ (binding.length ≠ storeSize ∨ geometry.capacity ≠ storeSize
    ∨ binding.absoluteOffset % recordSize ≠ 0 ∨ indexLen ≠ recordCapacity
    ∨ geometry.readSize = 0 ∨ geometry.readSize > wireCapacity
    ∨ wireOffset % geometry.readSize ≠ 0 ∨ wireCapacity % geometry.readSize ≠ 0
    ∨ retainedPrefixSize % geometry.readSize ≠ 0 ∨ recordSize % geometry.readSize ≠ 0)

/-- The sizes are compared. -/
instance (binding : OutboxBinding) (indexLen : ℕ) :
    Decidable (AccessValid geometry binding indexLen) :=
  inferInstanceAs (Decidable (¬ _))

/-- The write and erase geometry fits the format. -/
def WriteAccessValid : Prop :=
  ¬ (geometry.writeSize = 0 ∨ geometry.eraseSize ≠ recordSize
    ∨ claimSize % geometry.writeSize ≠ 0 ∨ (commitOffset - headerOffset) % geometry.writeSize ≠ 0
    ∨ commitSize % geometry.writeSize ≠ 0 ∨ deliveredSize % geometry.writeSize ≠ 0)

/-- The sizes are compared. -/
instance : Decidable (WriteAccessValid geometry) := inferInstanceAs (Decidable (¬ _))

variable {ε : Type} (sha256 : Sha256)

/-- The progress of a mount. -/
structure MountScan where
  entries : List OutboxEntry
  nextSlot : ℕ
  erasedSeen : Bool

/-- Account for one record. -/
def mountRecord (binding : OutboxBinding) (scan : MountScan) (slot : ℕ) :
    OutboxAction ε MountScan := do
  match ← inspectRecord sha256 binding slot with
  | .erased =>
    return if scan.erasedSeen then scan else { scan with nextSlot := slot, erasedSeen := true }
  | .torn => do
    Action.ensure (scan.erasedSeen = false) (.corrupt slot)
    return scan
  | .committed entry => do
    Action.ensure (scan.erasedSeen = false) (.corrupt slot)
    return { scan with entries := scan.entries ++ [entry] }

/-- Mount and validate the whole outbox. -/
def mount (binding : OutboxBinding) (indexLen : ℕ) : OutboxAction ε MountedOutbox := do
  Action.ensure (AccessValid geometry binding indexLen) .invalidBinding
  let scan ← (List.range recordCapacity).foldlM (mountRecord sha256 binding)
    ⟨[], recordCapacity, false⟩
  return ⟨binding, scan.entries, indexLen, scan.nextSlot⟩

/-- What an operation on the mounted outbox leaves and answers. -/
abbrev Outcome (ε α : Type) := MountedOutbox × Except (OutboxError ε) α

/-- Bring the index up to the first erased record. -/
def reconcileFrom : ℕ → MountedOutbox → Prog ε (Outcome ε Unit)
  | 0, current => pure (current, .ok ())
  | fuel + 1, current =>
    if current.nextSlot < recordCapacity then do
      match ← (inspectRecord sha256 current.binding current.nextSlot).run with
      | .error error => pure (current, .error error)
      | .ok .erased => pure (current, .ok ())
      | .ok .torn => reconcileFrom fuel { current with nextSlot := current.nextSlot + 1 }
      | .ok (.committed entry) =>
        if current.entries.length ≥ current.indexLen
          ∨ current.entries.any (fun indexed => indexed.submissionId = entry.submissionId)
        then pure (current, .error (.corrupt current.nextSlot))
        else reconcileFrom fuel (current.push entry)
    else pure (current, .ok ())

/-- Each round passes one record. -/
def reconcileAppendFrontier (current : MountedOutbox) : Prog ε (Outcome ε Unit) :=
  reconcileFrom sha256 recordCapacity current

/-- Program a record: claim, body, commit marker. -/
def writeRecord (binding : OutboxBinding) (entry : OutboxEntry) (wire : List Byte) :
    OutboxAction ε Unit := do
  Action.ensure (WriteAccessValid geometry) .invalidBinding
  ensureErased entry.slot
  let base := entry.slot * recordSize
  .write .backend (base + claimOffset) claimMarker
  .write .backend (base + headerOffset) (encodeBody sha256 binding entry wire)
  .write .backend (base + commitOffset) commitMarker

/-- Whether an entry is the record of the offered message. -/
def OutboxEntry.Matches (entry : OutboxEntry) (candidate : OutboxCandidate) : Prop :=
  entry.destination = candidate.destination ∧ entry.messageId = candidate.messageId ∧
    entry.wireDigest = sha256 candidate.wire ∧ entry.wireLen = candidate.wire.length

/-- The fields are compared. -/
instance (entry : OutboxEntry) (candidate : OutboxCandidate) :
    Decidable (entry.Matches sha256 candidate) :=
  inferInstanceAs (Decidable (_ ∧ _))

/-- The entry of an offered message in a slot. -/
def OutboxCandidate.entry (candidate : OutboxCandidate) (slot : ℕ) : OutboxEntry where
  slot := slot
  submissionId := slot + 1
  principal := candidate.principal
  idempotencyKey := candidate.idempotencyKey
  destination := candidate.destination
  messageId := candidate.messageId
  wireDigest := sha256 candidate.wire
  wireLen := candidate.wire.length
  delivered := false

/-- The checks on an offered message. -/
def OutboxCandidate.Valid (candidate : OutboxCandidate) : Prop :=
  ¬ (candidate.wire.length < 96 ∨ candidate.wire.length > wireCapacity
    ∨ candidate.wire.take 16 ≠ candidate.destination.toList)

/-- The bounds are compared. -/
instance (candidate : OutboxCandidate) : Decidable candidate.Valid :=
  inferInstanceAs (Decidable (¬ _))

/-- Look for the offered message after a failed write. -/
def recoverAppend (current : MountedOutbox) (candidate : OutboxCandidate)
    (writeError : OutboxError ε) : Prog ε (Outcome ε OutboxAcceptance) := do
  let (current, reconciled) ← reconcileAppendFrontier sha256 current
  match reconciled with
  | .error error => pure (current, .error error)
  | .ok _ =>
    match current.idempotency candidate.principal candidate.idempotencyKey with
    | some recovered =>
      if recovered.Matches sha256 candidate then pure (current, .ok (.replay recovered))
      else pure (current, .error writeError)
    | none => pure (current, .error writeError)

/-- Write the record of an offered message and read it back. -/
def append (current : MountedOutbox) (candidate : OutboxCandidate) :
    Prog ε (Outcome ε OutboxAcceptance) := do
  let entry := candidate.entry sha256 current.nextSlot
  match ← (writeRecord geometry sha256 current.binding entry candidate.wire).run with
  | .error writeError => recoverAppend sha256 current candidate writeError
  | .ok _ =>
    match ← (inspectRecord sha256 current.binding current.nextSlot).run with
    | .error error => pure (current, .error error)
    | .ok state =>
      if state = .committed entry then pure (current.push entry, .ok (.accepted entry))
      else pure (current, .error (.verification current.nextSlot))

/-- Commit or replay one composed message. -/
def accept (current : MountedOutbox) (candidate : OutboxCandidate) :
    Prog ε (Outcome ε OutboxAcceptance) :=
  if AccessValid geometry current.binding current.indexLen then do
    let (current, reconciled) ← reconcileAppendFrontier sha256 current
    match reconciled with
    | .error error => pure (current, .error error)
    | .ok _ =>
      if candidate.Valid then
        match current.idempotency candidate.principal candidate.idempotencyKey with
        | some existing =>
          if existing.Matches sha256 candidate then pure (current, .ok (.replay existing))
          else pure (current, .ok .idempotencyConflict)
        | none =>
          if current.nextSlot ≥ recordCapacity then pure (current, .ok .capacityExhausted)
          else append geometry sha256 current candidate
      else pure (current, .error .invalidCandidate)
  else pure (current, .error .invalidBinding)

/-- The failure of a delivery receipt that was not recorded. -/
def notDelivered (slot : ℕ) : Except ε Unit → OutboxError ε
  | .error error => .backend error
  | .ok _ => .verification slot

/-- Read a record back after its delivered marker was programmed. -/
def readBack (current : MountedOutbox) (entry : OutboxEntry) (written : Except ε Unit) :
    Prog ε (Outcome ε OutboxEntry) := do
  match ← (inspectRecord sha256 current.binding entry.slot).run with
  | .error error => pure (current, .error error)
  | .ok (.committed recovered) =>
    if recovered.delivered then
      pure ({ current with entries := current.entries.replace entry recovered }, .ok recovered)
    else pure (current, .error (notDelivered entry.slot written))
  | .ok _ => pure (current, .error (notDelivered entry.slot written))

/-- Record one delivery receipt. -/
def markDelivered (current : MountedOutbox) (entry : OutboxEntry) :
    Prog ε (Outcome ε OutboxEntry) :=
  if AccessValid geometry current.binding current.indexLen then
    if entry ∈ current.entries then
      if entry.delivered then pure (current, .ok entry)
      else .write (recordOffset entry.slot deliveredOffset) deliveredMarker
        (readBack sha256 current entry)
    else pure (current, .error (.corrupt entry.slot))
  else pure (current, .error .invalidBinding)

end Geometry

end Outbox
