import ReticulumFirmware.LxmfStore.Store

/-!
# Inspecting extents and mounting

The read-only half of `lxmf-store`: snapshots of extents, the record that starts at an extent and
the mount that indexes every committed record. The first failure of a mount or an inspection is
its result.
-/

namespace LxmfStore

open Nor Lxmf

section Snapshot

/-- What an inspection keeps of one extent. -/
structure ExtentSnapshot where
  header : List Byte
  footer : List Byte
  erased : Bool
  outsideClaimErased : Bool
  outsideHeaderErased : Bool
  deriving DecidableEq

namespace ExtentSnapshot

/-- What the commit marker of the extent says. -/
def commitMarker (snapshot : ExtentSnapshot) : CommitMarkerState :=
  classifyCommitMarker (snapshot.footer.drop footerCommitOffset)

/-- Nothing has been inspected. -/
def start : ExtentSnapshot := ⟨[], [], true, true, true⟩

/-- Account for the page at an offset within the extent; pages come in order. -/
def addPage (snapshot : ExtentSnapshot) (within : ℕ) (chunk : List Byte) : ExtentSnapshot where
  header := if within < extentHeaderSize then snapshot.header ++ chunk else snapshot.header
  footer :=
    if extentSize - recordFooterSize ≤ within then snapshot.footer ++ chunk else snapshot.footer
  erased := snapshot.erased && chunk.all (· == erasedByte)
  outsideClaimErased := snapshot.outsideClaimErased &&
    (if within = 0 then chunk.drop claimMarker.length else chunk).all (· == erasedByte)
  outsideHeaderErased := snapshot.outsideHeaderErased &&
    (within < extentHeaderSize || chunk.all (· == erasedByte))

end ExtentSnapshot

variable {ε err : Type}

/-- Read one page of an extent. -/
def inspectPage (wrap : ε → err) (extent : ℕ) (snapshot : ExtentSnapshot) (page : ℕ) :
    Action ε err ExtentSnapshot := do
  let within := page * ioChunkSize
  let chunk ← Action.read wrap (extentOffset extent + within) ioChunkSize
  pure (snapshot.addPage within chunk)

/-- Read an extent, page by page. -/
def readExtentSnapshot (wrap : ε → err) (extent : ℕ) : Action ε err ExtentSnapshot :=
  (List.range (extentSize / ioChunkSize)).foldlM (inspectPage wrap extent) .start

/-- Whether every extent of a span is erased, up to the first that is not. -/
def spanIsErased (wrap : ε → err) (firstExtent : ℕ) : ℕ → Action ε err Bool
  | 0 => pure true
  | extentCount + 1 => do
    let snapshot ← readExtentSnapshot wrap firstExtent
    if snapshot.erased then spanIsErased wrap (firstExtent + 1) extentCount else pure false

end Snapshot

section Classify

/-- Whether the extent holds what an interrupted commit leaves. -/
def recognizedIncompleteExtent (snapshot : ExtentSnapshot) : Bool :=
  let claim := slice snapshot.header 0 32
  claim = claimMarker || (covers claim claimMarker && snapshot.outsideClaimErased)

/-- Whether a continuation holds what an interrupted header leaves. -/
def recognizedIncompleteContinuation (snapshot : ExtentSnapshot) (expectedHeader : List Byte) :
    Bool :=
  recognizedIncompleteExtent snapshot && snapshot.outsideHeaderErased &&
    covers snapshot.header expectedHeader

/-- The fault of a continuation that belongs to no record. -/
def unexpectedContinuationFault (snapshot : ExtentSnapshot) (extent : ℕ) : LxmfStoreFault :=
  if snapshot.commitMarker = .committed then .unknownCommittedExtent extent
  else .unknownProgrammedExtent extent

/-- The fault of a header that should have been decoded. -/
def HeaderDecodeError.intoFault (error : HeaderDecodeError) (extent : ℕ)
    (expected : LxmfStoreBinding) : LxmfStoreFault :=
  match error with
  | .invalid => .committedHeaderCorrupt extent
  | .unsupportedVersion actual => .unsupportedPhysicalVersion extent actual
  | .bindingMismatch actual => .committedBindingMismatch expected actual

/-- What the extents of a record have shown so far. -/
structure RecordScan where
  headersComplete : Bool
  programmedBody : Bool
  finalSnapshot : ExtentSnapshot

/-- Judge the next continuation of a record against the header that it should repeat. -/
def continueRecord (expected : List Byte) (extent : ℕ) (scan : RecordScan)
    (continuation : ExtentSnapshot) : Except LxmfStoreFault RecordScan :=
  if scan.headersComplete = false then
    if continuation.erased then .ok { scan with finalSnapshot := continuation }
    else .error (unexpectedContinuationFault continuation extent)
  else if continuation.header = expected then
    .ok ⟨true, scan.programmedBody || !continuation.outsideHeaderErased, continuation⟩
  else if continuation.commitMarker ≠ .incomplete then
    .error (unexpectedContinuationFault continuation extent)
  else if scan.programmedBody || !recognizedIncompleteContinuation continuation expected then
    .error (.unknownProgrammedExtent extent)
  else .ok ⟨false, scan.programmedBody, continuation⟩

end Classify

section Record

variable (ε : Type) (sha256 : Sha256) (access : BoundLxmfStore)

/-- A program that inspects extents. -/
abbrev InspectAction (α : Type) := Action ε (InspectError ε) α

/-- Offsets of the wire pages of a record, in wire order. -/
def wirePageOffsets (firstExtent extentCount : ℕ) : List ℕ :=
  (List.range extentCount).flatMap fun index =>
    (List.range (payloadCapacity extentCount index / ioChunkSize)).map fun page =>
      extentOffset (firstExtent + index) + extentHeaderSize + page * ioChunkSize

/-- The wire read so far, the bytes still to come and whether the rest is erased. -/
structure WireDigest where
  wire : List Byte
  remaining : ℕ
  paddingErased : Bool

variable {ε}

/-- Read one page of a wire. -/
def digestPage (digest : WireDigest) (offset : ℕ) : InspectAction ε WireDigest := do
  let take := min digest.remaining ioChunkSize
  let chunk ← Action.read .backend offset ioChunkSize
  pure ⟨digest.wire ++ chunk.take take, digest.remaining - take,
    digest.paddingErased && (chunk.drop take).all (· == erasedByte)⟩

/-- The wire digest, the record digest and whether the padding is erased. -/
def digestFlashWire (firstExtent extentCount wireLen : ℕ) (firstHeader : List Byte) :
    InspectAction ε (ExactWireDigest × Vector Byte 32 × Bool) := do
  let digest ← (wirePageOffsets firstExtent extentCount).foldlM digestPage ⟨[], wireLen, true⟩
  pure (sha256 digest.wire, sha256 (recordDigestDomain ++ firstHeader ++ digest.wire),
    digest.paddingErased)

/-- Whether a footer is the committed footer of a header, its record digest apart. -/
def footerMatches (footer : List Byte) (header : HeaderFields) : Bool :=
  slice footer 0 8 = footerMagic && leNat (slice footer 8 2) = header.formatVersion &&
    leNat (slice footer 12 8) = header.handle.get &&
    leNat (slice footer 20 2) = header.extentCount &&
    leNat (slice footer 24 4) = header.metadata.lengths.normalizedWire &&
    slice footer 28 32 = header.exactWireDigest.toList &&
    !(slice footer 10 2).any (· != 0) && !(slice footer 22 2).any (· != 0) &&
    !(slice footer 92 132).any (· != 0) && footer.drop footerCommitOffset = commitMarker

/-- The entry of a committed record, after the checks of its footer and its wire. -/
def decodeCommittedRecord (firstExtent : ℕ) (firstHeader footer : List Byte)
    (header : HeaderFields) : InspectAction ε IndexEntry := do
  Action.ensure (footerMatches footer header) (.fault (.committedFooterCorrupt firstExtent))
  let digests ← digestFlashWire sha256 firstExtent header.extentCount
    header.metadata.lengths.normalizedWire firstHeader
  Action.ensure (digests.1 = header.exactWireDigest)
    (.fault (.committedWireDigestMismatch firstExtent))
  Action.ensure digests.2.2 (.fault (.committedWirePaddingProgrammed firstExtent))
  Action.ensure (slice footer 60 32 = digests.2.1.toList)
    (.fault (.committedRecordDigestMismatch firstExtent))
  pure ⟨⟨header.handle, ⟨header.metadata.authenticatedFingerprint, digests.1⟩⟩, header.metadata,
    firstExtent, header.extentCount, header.metadata.lengths.normalizedWire, header.formatVersion⟩

/-- The header that extent `index` of a record repeats. -/
def expectedHeader (header : HeaderFields) (index : ℕ) : List Byte :=
  encodeHeader sha256 access.binding header.formatVersion header.handle index header.extentCount
    header.metadata header.exactWireDigest

/-- Read and judge one continuation. -/
def inspectContinuation (firstExtent : ℕ) (header : HeaderFields) (scan : RecordScan)
    (index : ℕ) : InspectAction ε RecordScan := do
  let continuation ← readExtentSnapshot .backend (firstExtent + index)
  match continueRecord (expectedHeader sha256 access header index) (firstExtent + index) scan
    continuation with
  | .ok scan => pure scan
  | .error fault => throw (.fault fault)

/-- The verdict on an extent that starts no record. -/
def inspectUndecodable (first : ExtentSnapshot) (firstExtent : ℕ) : Except LxmfStoreFault Unit :=
  match first.commitMarker with
  | .committed => .error (.unknownCommittedExtent firstExtent)
  | .unknown => .error (.committedFooterCorrupt firstExtent)
  | .incomplete =>
    if recognizedIncompleteExtent first then .ok ()
    else .error (.unknownProgrammedExtent firstExtent)

/-- The record whose first header was decoded, unless it is incomplete. -/
def inspectRecord (firstExtent : ℕ) (first : ExtentSnapshot) (header : HeaderFields) :
    InspectAction ε (Option IndexEntry) := do
  Action.ensure (firstExtent + header.extentCount ≤ access.binding.length / extentSize)
    (.fault (.unknownProgrammedExtent firstExtent))
  let scan ← (List.range' 1 (header.extentCount - 1)).foldlM
    (inspectContinuation sha256 access firstExtent header)
    ⟨true, !first.outsideHeaderErased, first⟩
  if scan.headersComplete = false then pure none
  else match scan.finalSnapshot.commitMarker with
    | .incomplete => pure none
    | .unknown => throw (.fault (.committedFooterCorrupt firstExtent))
    | .committed =>
      some <$> decodeCommittedRecord sha256 firstExtent first.header scan.finalSnapshot.footer
        header

/-- The committed record that starts at an extent, if there is one. -/
def committedRecordAt (firstExtent : ℕ) : InspectAction ε (Option IndexEntry) := do
  let first ← readExtentSnapshot .backend firstExtent
  if first.erased then pure none
  else match decodeHeader sha256 access.usizeValues access.binding first.header with
    | .ok header =>
      if header.extentIndex = 0 then inspectRecord sha256 access firstExtent first header
      else match inspectUndecodable first firstExtent with
        | .ok () => pure none
        | .error fault => throw (.fault fault)
    | .error _ => match inspectUndecodable first firstExtent with
      | .ok () => pure none
      | .error fault => throw (.fault fault)

end Record

end LxmfStore
