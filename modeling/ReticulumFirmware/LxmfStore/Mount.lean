import ReticulumFirmware.LxmfStore.Media

/-!
# Mounting the store

`mount` of `lxmf-store` walks the extents once. It indexes every committed record, accounts for
the spans of incomplete ones and refuses contents that no writer leaves.
-/

namespace LxmfStore

open Nor Lxmf

variable {ε : Type} (sha256 : Sha256) (access : BoundLxmfStore)

/-- A program that mounts. -/
abbrev MountAction (ε α : Type) := Action ε (LxmfStoreMountError ε) α

/-- Where the walk stands and what it has found. -/
structure MountState where
  extent : ℕ
  store : MountedLxmfStore
  maxHandle : ℕ

/-- A failed inspection fails the mount. -/
def InspectError.intoMountError : InspectError ε → LxmfStoreMountError ε
  | .backend error => .backend error
  | .fault reason => .fault reason

/-- A judged value, or the fault as the result of the mount. -/
def orFault {α : Type} : Except LxmfStoreFault α → MountAction ε α
  | .ok value => pure value
  | .error fault => throw (.fault fault)

/-- The largest handle of decoded headers, one more included. -/
def observeHandle (maxHandle : ℕ) (header : List Byte) : ℕ :=
  match decodeHeader sha256 access.usizeValues access.binding header with
  | .ok fields => max maxHandle fields.handle.get
  | .error _ => maxHandle

/-- Judge one continuation, and note the handle that its header names. -/
def mountContinuation (firstExtent : ℕ) (header : HeaderFields) (state : RecordScan × ℕ)
    (index : ℕ) : MountAction ε (RecordScan × ℕ) := do
  let continuation ← readExtentSnapshot .backend (firstExtent + index)
  let scan ← orFault (continueRecord (expectedHeader sha256 access header index)
    (firstExtent + index) state.1 continuation)
  pure (scan, observeHandle sha256 access state.2 continuation.header)

/-- Index a committed record, unless it repeats a message or a handle or finds no slot. -/
def MountedLxmfStore.indexCommitted (store : MountedLxmfStore) (entry : IndexEntry) :
    MountAction ε MountedLxmfStore := do
  Action.ensure (store.entryForMessage entry.receipt.messageId).isNone
    (.fault (.duplicateCommittedMessageId entry.receipt.messageId))
  Action.ensure (store.entryForHandle entry.receipt.handle).isNone
    (.fault (.duplicateCommittedHandle entry.receipt.handle))
  Action.ensure (store.entries.length ≠ store.capacity)
    (.indexCapacityExceeded (store.entries.length + 1) store.capacity)
  pure (store.installEntry entry)

/-- Walk over the record whose first header was decoded. -/
def mountRecord (state : MountState) (first : ExtentSnapshot) (header : HeaderFields) :
    MountAction ε MountState := do
  let stop := state.extent + header.extentCount
  Action.ensure (stop ≤ access.binding.length / extentSize)
    (.fault (.unknownProgrammedExtent state.extent))
  let store := { state.store with appendExtent := max state.store.appendExtent stop }
  let scanned ← (List.range' 1 (header.extentCount - 1)).foldlM
    (mountContinuation sha256 access state.extent header)
    (⟨true, !first.outsideHeaderErased, first⟩, state.maxHandle)
  if scanned.1.headersComplete = false then pure ⟨stop, store, scanned.2⟩
  else match scanned.1.finalSnapshot.commitMarker with
    | .incomplete => pure ⟨stop, store, scanned.2⟩
    | .unknown => throw (.fault (.committedFooterCorrupt state.extent))
    | .committed => do
      let entry ← ExceptT.adapt InspectError.intoMountError (decodeCommittedRecord sha256
        state.extent first.header scanned.1.finalSnapshot.footer header)
      let store ← store.indexCommitted entry
      pure ⟨stop, store, scanned.2⟩

/-- The verdict of a mount on a programmed extent whose header is not decoded. -/
def mountUndecodable (first : ExtentSnapshot) (error : HeaderDecodeError) (extent : ℕ) :
    Except LxmfStoreFault Unit :=
  match first.commitMarker with
  | .committed => .error (error.intoFault extent access.binding)
  | .unknown => .error (.committedFooterCorrupt extent)
  | .incomplete =>
    if recognizedIncompleteExtent first then .ok () else .error (.unknownProgrammedExtent extent)

/-- Walk over an extent, or over the record that starts there. -/
def mountExtent (state : MountState) : MountAction ε MountState := do
  let first ← readExtentSnapshot .backend state.extent
  if first.erased then pure { state with extent := state.extent + 1 }
  else
    let store := { state.store with
      appendExtent := max state.store.appendExtent (state.extent + 1) }
    match decodeHeader sha256 access.usizeValues access.binding first.header with
    | .error error => do
      orFault (mountUndecodable access first error state.extent)
      pure { state with extent := state.extent + 1, store := store }
    | .ok header =>
      if header.extentIndex ≠ 0 then
        throw (.fault (unexpectedContinuationFault first state.extent))
      else
        mountRecord sha256 access ⟨state.extent, store, max state.maxHandle header.handle.get⟩ first
          header

/-- Walk over the extents that are left; every step passes at least one. -/
def mountExtents : ℕ → MountState → MountAction ε MountState
  | 0, state => pure state
  | fuel + 1, state =>
    if state.extent < access.binding.length / extentSize then do
      let next ← mountExtent sha256 access state
      mountExtents fuel next
    else pure state

/-- Mount a read-only view into an index of the given capacity. -/
def mount (capacity : ℕ) : MountAction ε MountedLxmfStore :=
  match validateReadAccess access with
  | .error error => throw (.binding error)
  | .ok () => do
    let state ← mountExtents sha256 access (access.binding.length / extentSize)
      ⟨0, ⟨access.binding, [], capacity, 0, 1, none⟩, 0⟩
    if state.maxHandle + 1 < 2 ^ 64 then
      pure { state.store with nextHandle := state.maxHandle + 1 }
    else throw .handleExhausted

end LxmfStore
