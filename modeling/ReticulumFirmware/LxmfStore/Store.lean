import ReticulumFirmware.Nor.Script
import ReticulumFirmware.LxmfStore.Format

/-!
# Store views, faults and the mounted index

The values of `lxmf-store` above its format: the bound view, the faults of its operations and the
index of committed messages that a mount builds and a commit extends.
-/

namespace LxmfStore

open Nor Lxmf

/-- Why a view cannot carry the store. -/
inductive LxmfStoreBindingError where
  | deviceMismatch (expected actual : Vector Byte 16)
  | rangeMismatch (expectedOffset expectedLength actualOffset actualLength : ℕ)
  | rangeOverflow (absoluteOffset length : ℕ)
  | formatVersionMismatch (expected actual : ℕ)
  | lengthNotExtentMultiple (actual : ℕ)
  | capacityMismatch (expected actual : ℕ)
  | readAlignmentMismatch (readSize : ℕ)
  | writeAlignmentMismatch (writeSize : ℕ)
  | eraseAlignmentMismatch (eraseSize : ℕ)
  deriving DecidableEq

/-- Physical programming or verification stage. -/
inductive LxmfProgramStage where
  | claim
  | header
  | wire
  | footer
  | commit
  | verification
  deriving DecidableEq

/-- Class of a committed-media validation failure. -/
inductive LxmfStoreFault where
  | unknownProgrammedExtent (extent : ℕ)
  | unknownCommittedExtent (extent : ℕ)
  | committedHeaderCorrupt (extent : ℕ)
  | committedFooterCorrupt (extent : ℕ)
  | committedBindingMismatch (expected actual : LxmfStoreBinding)
  | unsupportedPhysicalVersion (extent actual : ℕ)
  | committedWireDigestMismatch (extent : ℕ)
  | committedWirePaddingProgrammed (extent : ℕ)
  | committedRecordDigestMismatch (extent : ℕ)
  | committedMetadataInvalid (extent : ℕ)
  | duplicateCommittedMessageId (messageId : MessageId)
  | duplicateCommittedHandle (handle : MessageHandle)
  | readbackMismatch (stage : LxmfProgramStage) (extent : ℕ)
  | mediaChanged (extent : ℕ)
  deriving DecidableEq

/-- One operation-scoped view of the partition. -/
structure BoundLxmfStore where
  binding : LxmfStoreBinding
  geometry : Geometry
  /-- Number of values of `usize` on the platform. -/
  usizeValues : ℕ
  le_usizeValues : 2 ^ 32 ≤ usizeValues
  usizeValues_le : usizeValues ≤ 2 ^ 64

section Binding

variable (access : BoundLxmfStore)

/-- The binding is a range of whole extents in the address space. -/
def validateBindingShape : Except LxmfStoreBindingError Unit :=
  let binding := access.binding
  if binding.formatVersion ≠ physicalFormatVersion then
    .error (.formatVersionMismatch physicalFormatVersion binding.formatVersion)
  else if binding.length = 0 ∨ binding.length % extentSize ≠ 0 then
    .error (.lengthNotExtentMultiple binding.length)
  else if access.usizeValues ≤ binding.absoluteOffset + binding.length
    ∨ 2 ^ 32 ≤ binding.length
  then .error (.rangeOverflow binding.absoluteOffset binding.length)
  else if access.geometry.capacity ≠ binding.length then
    .error (.capacityMismatch binding.length access.geometry.capacity)
  else .ok ()

/-- The pages can be read as well. -/
def validateReadAccess : Except LxmfStoreBindingError Unit := do
  validateBindingShape access
  let readSize := access.geometry.readSize
  if readSize = 0 ∨ ioChunkSize % readSize ≠ 0 ∨ access.binding.absoluteOffset % readSize ≠ 0 then
    .error (.readAlignmentMismatch readSize)
  else .ok ()

/-- The pages can be programmed and the extents erased as well. -/
def validateWriteAccess : Except LxmfStoreBindingError Unit := do
  validateReadAccess access
  let writeSize := access.geometry.writeSize
  let eraseSize := access.geometry.eraseSize
  if writeSize = 0 ∨ ioChunkSize % writeSize ≠ 0 ∨ access.binding.absoluteOffset % writeSize ≠ 0
  then .error (.writeAlignmentMismatch writeSize)
  else if eraseSize = 0 ∨ extentSize % eraseSize ≠ 0
    ∨ access.binding.absoluteOffset % eraseSize ≠ 0
  then .error (.eraseAlignmentMismatch eraseSize)
  else .ok ()

/-- The view is one of the store's own binding. -/
def validateSameBinding (expected actual : LxmfStoreBinding) : Except LxmfStoreBindingError Unit :=
  if expected.device ≠ actual.device then .error (.deviceMismatch expected.device actual.device)
  else if expected.absoluteOffset ≠ actual.absoluteOffset ∨ expected.length ≠ actual.length then
    .error (.rangeMismatch expected.absoluteOffset expected.length actual.absoluteOffset
      actual.length)
  else if expected.formatVersion ≠ actual.formatVersion then
    .error (.formatVersionMismatch expected.formatVersion actual.formatVersion)
  else .ok ()

end Binding

/-- One committed message in the mounted index. -/
structure IndexEntry where
  receipt : DurableMessageReceipt
  metadata : InboundMessageMetadata
  firstExtent : ℕ
  extentCount : ℕ
  wireLen : ℕ
  formatVersion : ℕ
  deriving DecidableEq

/-- A mutation whose result is ambiguous until the same candidate is retried. -/
structure PendingMutation where
  replay : ReplayFingerprint
  metadata : InboundMessageMetadata
  firstExtent : ℕ
  extentCount : ℕ
  handle : MessageHandle
  deriving DecidableEq

/-- Mounted runtime state. A next handle of zero is exhausted. -/
structure MountedLxmfStore where
  binding : LxmfStoreBinding
  entries : List IndexEntry
  /-- Index slots that the caller supplied. -/
  capacity : ℕ
  appendExtent : ℕ
  nextHandle : ℕ
  pending : Option PendingMutation
  deriving DecidableEq

/-- Result of one bounded wire read. -/
structure LxmfWireChunk where
  offset : ℕ
  wireLength : ℕ
  bytesRead : ℕ
  deriving DecidableEq

/-- Result of a commit after durable verification. -/
inductive LxmfCommitOutcome where
  | committed (receipt : DurableMessageReceipt)
  | alreadyDurable (receipt : DurableMessageReceipt)
  deriving DecidableEq

/-- Failure to inspect one record. -/
inductive InspectError (ε : Type) where
  | backend (error : ε)
  | fault (fault : LxmfStoreFault)
  deriving DecidableEq

/-- Failure to mount. -/
inductive LxmfStoreMountError (ε : Type) where
  | binding (error : LxmfStoreBindingError)
  | backend (error : ε)
  | fault (fault : LxmfStoreFault)
  | indexCapacityExceeded (required capacity : ℕ)
  | handleExhausted
  deriving DecidableEq

/-- Failure to read one portion of a wire. -/
inductive LxmfWireReadError (ε : Type) where
  | binding (error : LxmfStoreBindingError)
  | notFound (handle : MessageHandle)
  | offsetOutOfRange (offset wireLength : ℕ)
  | backend (error : ε)
  | fault (fault : LxmfStoreFault)
  deriving DecidableEq

/-- Failure to commit. -/
inductive LxmfCommitError (ε : Type) where
  | binding (error : LxmfStoreBindingError)
  | backend (stage : LxmfProgramStage) (error : ε)
  | fault (fault : LxmfStoreFault)
  | full (requiredExtents remainingExtents : ℕ)
  | indexFull (capacity : ℕ)
  | hashCollision (messageId : MessageId)
  | ambiguousMutationPending (messageId : MessageId)
  | handleExhausted
  deriving DecidableEq

namespace MountedLxmfStore

variable (store : MountedLxmfStore)

/-- The entry of a message. -/
def entryForMessage (messageId : MessageId) : Option IndexEntry :=
  store.entries.find? fun entry => entry.receipt.messageId = messageId

/-- The entry of a handle. -/
def entryForHandle (handle : MessageHandle) : Option IndexEntry :=
  store.entries.find? fun entry => entry.receipt.handle = handle

/-- Receipts in physical commit order. -/
def receipts : List DurableMessageReceipt := store.entries.map IndexEntry.receipt

/-- The metadata of the message of a handle. -/
def metadata (handle : MessageHandle) : Option InboundMessageMetadata :=
  (store.entryForHandle handle).map IndexEntry.metadata

/-- Append an entry unless its message is indexed. -/
def installEntry (entry : IndexEntry) : MountedLxmfStore :=
  if (store.entryForMessage entry.receipt.messageId).isNone then
    { store with entries := store.entries ++ [entry] }
  else store

/-- Account for a completed mutation; the handle after the last one is zero. -/
def finishCommit (firstExtent extentCount : ℕ) (handle : MessageHandle) : MountedLxmfStore :=
  { store with
    appendExtent := max store.appendExtent (firstExtent + extentCount)
    nextHandle := if handle.get + 1 < 2 ^ 64 then handle.get + 1 else 0
    pending := none }

end MountedLxmfStore

end LxmfStore
