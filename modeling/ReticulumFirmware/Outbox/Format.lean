import ReticulumFirmware.Nor.Bytes

/-!
# The outbox record format

One record of `product_outbox.rs` occupies one erase sector: claim marker, header, wire,
digest, commit marker and delivered marker, followed by erased bytes. This file gives the
record codec and the classification of a scanned record. The hash function is a parameter.
-/

namespace Outbox

open Nor

/-- Bytes of one record and of one erase sector. -/
abbrev recordSize : ℕ := 4096

/-- Longest wire a record retains. -/
abbrev wireCapacity : ℕ := 512

/-- Records of the partition. -/
abbrev recordCapacity : ℕ := 64

/-- Bytes of the partition. -/
abbrev storeSize : ℕ := recordSize * recordCapacity

/-- On-flash format version. -/
abbrev physicalFormatVersion : ℕ := 1

abbrev claimOffset : ℕ := 0
abbrev claimSize : ℕ := 32
abbrev headerOffset : ℕ := 32
abbrev headerSize : ℕ := 224
abbrev wireOffset : ℕ := headerOffset + headerSize
abbrev digestOffset : ℕ := wireOffset + wireCapacity
abbrev digestSize : ℕ := 32
abbrev commitOffset : ℕ := digestOffset + digestSize
abbrev commitSize : ℕ := 32
abbrev deliveredOffset : ℕ := commitOffset + commitSize
abbrev deliveredSize : ℕ := 32
abbrev retainedPrefixSize : ℕ := deliveredOffset + deliveredSize

abbrev magicOffset : ℕ := headerOffset
abbrev versionOffset : ℕ := magicOffset + 8
abbrev recordSizeOffset : ℕ := versionOffset + 2
abbrev deviceOffset : ℕ := headerOffset + 16
abbrev absoluteOffsetOffset : ℕ := deviceOffset + 16
abbrev partitionLengthOffset : ℕ := absoluteOffsetOffset + 8
abbrev slotOffset : ℕ := partitionLengthOffset + 4
abbrev wireLengthOffset : ℕ := slotOffset + 2
abbrev submissionIdOffset : ℕ := wireLengthOffset + 2
abbrev principalOffset : ℕ := submissionIdOffset + 8
abbrev idempotencyOffset : ℕ := principalOffset + 16
abbrev destinationOffset : ℕ := idempotencyOffset + 16
abbrev messageIdOffset : ℕ := destinationOffset + 16
abbrev wireDigestOffset : ℕ := messageIdOffset + 32
abbrev reservedOffset : ℕ := wireDigestOffset + 32

/-- Magic of the record header. -/
def magic : List Byte := ascii "LXOBX001"

/-- Domain separation of the record digest. -/
def digestDomain : List Byte := ascii "reticulum-rs-firmware/product-outbox/record/v1\x00"

/-- Marker programmed first. -/
def claimMarker : List Byte := [
  0x6d, 0x21, 0xe8, 0x43, 0x95, 0x0a, 0xbc, 0x57, 0x31, 0xf4, 0x76, 0x9b, 0x02, 0xcd, 0x58, 0xa1,
  0x8e, 0x39, 0xd2, 0x64, 0x17, 0xfa, 0x40, 0xb5, 0x7c, 0x03, 0x99, 0xe6, 0x2a, 0x51, 0xdf, 0x08]

/-- Marker programmed last. -/
def commitMarker : List Byte := [
  0x93, 0x4c, 0x17, 0xea, 0x60, 0xbd, 0x28, 0xf5, 0x0b, 0x76, 0xd1, 0x49, 0xae, 0x32, 0x85, 0xfc,
  0x54, 0x09, 0xc7, 0x3e, 0x91, 0x6a, 0x20, 0xdb, 0x47, 0xf8, 0x13, 0x65, 0xba, 0x0e, 0xd4, 0x79]

/-- Marker programmed when a delivery receipt arrives. -/
def deliveredMarker : List Byte := [
  0x2f, 0xd8, 0x64, 0x0b, 0xb1, 0x47, 0x9a, 0x35, 0xec, 0x70, 0x16, 0xc9, 0x52, 0x8d, 0x03, 0xfa,
  0xa4, 0x1e, 0x78, 0xd3, 0x09, 0xb6, 0x5c, 0xe1, 0x43, 0x97, 0x2a, 0xf0, 0x6d, 0x18, 0xcb, 0x85]

/-- The claim marker has 32 bytes. -/
@[simp] theorem length_claimMarker : claimMarker.length = 32 := rfl

/-- The commit marker has 32 bytes. -/
@[simp] theorem length_commitMarker : commitMarker.length = 32 := rfl

/-- The delivered marker has 32 bytes. -/
@[simp] theorem length_deliveredMarker : deliveredMarker.length = 32 := rfl

/-- Physical provenance of the partition. -/
structure OutboxBinding where
  device : Vector Byte 16
  absoluteOffset : ℕ
  length : ℕ
  deriving DecidableEq

/-- Metadata of one durable intent. -/
structure OutboxEntry where
  slot : ℕ
  submissionId : ℕ
  principal : Vector Byte 16
  idempotencyKey : Vector Byte 16
  destination : Vector Byte 16
  messageId : Vector Byte 32
  wireDigest : Vector Byte 32
  wireLen : ℕ
  delivered : Bool
  deriving DecidableEq

/-- A composed message offered for durable acceptance. -/
structure OutboxCandidate where
  principal : Vector Byte 16
  idempotencyKey : Vector Byte 16
  destination : Vector Byte 16
  messageId : Vector Byte 32
  wire : List Byte

/-- What a scan finds in one record. -/
inductive RecordState where
  | erased
  | torn
  | committed (entry : OutboxEntry)
  deriving DecidableEq

section Codec

variable (sha256 : Sha256) (binding : OutboxBinding)

/-- The digest over header and wire. -/
def recordDigest (header wire : List Byte) : List Byte :=
  (sha256 (digestDomain ++ header ++ wire)).toList

/-- The header fields, in offset order. -/
def headerFields (entry : OutboxEntry) : List (List Byte) := [
  magic,
  leBytes 2 physicalFormatVersion,
  leBytes 2 recordSize,
  List.replicate 4 0,
  binding.device.toList,
  leBytes 8 (binding.absoluteOffset + entry.slot * recordSize),
  leBytes 4 binding.length,
  leBytes 2 entry.slot,
  leBytes 2 entry.wireLen,
  leBytes 8 entry.submissionId,
  entry.principal.toList,
  entry.idempotencyKey.toList,
  entry.destination.toList,
  entry.messageId.toList,
  entry.wireDigest.toList,
  List.replicate 56 0]

/-- The bytes between the two markers, in offset order. -/
def bodyFields (entry : OutboxEntry) (wire : List Byte) : List (List Byte) :=
  headerFields binding entry ++
    [wire, List.replicate (wireCapacity - wire.length) erasedByte,
      recordDigest sha256 (headerFields binding entry).flatten wire]

/-- The body of a record. -/
def encodeBody (entry : OutboxEntry) (wire : List Byte) : List Byte :=
  (bodyFields sha256 binding entry wire).flatten

/-- The intent in the bytes of a record before the delivered marker. -/
def decodeIntent (slot : ℕ) (record : List Byte) : Option OutboxEntry :=
  let header := slice record headerOffset headerSize
  let wireLen := leNat (slice record wireLengthOffset 2)
  let submissionId := leNat (slice record submissionIdOffset 8)
  let wire := slice record wireOffset wireLen
  let destination := copyArray 16 (slice record destinationOffset 16)
  let wireDigest := copyArray 32 (slice record wireDigestOffset 32)
  if slice record magicOffset 8 ≠ magic
    ∨ leNat (slice record versionOffset 2) ≠ physicalFormatVersion
    ∨ leNat (slice record recordSizeOffset 2) ≠ recordSize
    ∨ slice record deviceOffset 16 ≠ binding.device.toList
    ∨ leNat (slice record absoluteOffsetOffset 8) ≠
        (binding.absoluteOffset + slot * recordSize) % 2 ^ 64
    ∨ leNat (slice record partitionLengthOffset 4) ≠ binding.length % 2 ^ 32
    ∨ leNat (slice record slotOffset 2) ≠ slot
    ∨ (slice record reservedOffset 56).any (· != 0)
  then none
  else if ¬ (96 ≤ wireLen ∧ wireLen ≤ wireCapacity) ∨ submissionId ≠ slot + 1 then none
  else if (slice record (wireOffset + wireLen) (wireCapacity - wireLen)).any (· != erasedByte)
    ∨ slice record digestOffset digestSize ≠ recordDigest sha256 header wire
  then none
  else if wire.take 16 ≠ destination.toList then none
  else if sha256 wire ≠ wireDigest then none
  else some {
    slot := slot
    submissionId := submissionId
    principal := copyArray 16 (slice record principalOffset 16)
    idempotencyKey := copyArray 16 (slice record idempotencyOffset 16)
    destination := destination
    messageId := copyArray 32 (slice record messageIdOffset 32)
    wireDigest := wireDigest
    wireLen := wireLen
    delivered := false }

/-- Whether the delivered marker is complete, or not yet; `none` for other bytes. -/
def decodeDelivered (bytes : List Byte) : Option Bool :=
  if bytes = deliveredMarker then some true
  else if bytes.all (· == erasedByte) || covers bytes deliveredMarker then some false
  else none

/-- The committed intent of a record with both markers. -/
def decodeRecord (slot : ℕ) (record : List Byte) : Option OutboxEntry :=
  (decodeIntent sha256 binding slot (record.take deliveredOffset)).bind fun entry =>
    (decodeDelivered (slice record deliveredOffset deliveredSize)).map fun delivered =>
      { entry with delivered := delivered }

end Codec

end Outbox
