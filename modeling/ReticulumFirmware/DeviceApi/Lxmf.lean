import ReticulumFirmware.Nor.Bytes

/-!
# Committed messages on the device interface

The values of `device-api/src/model/lxmf.rs` that list and read committed messages. Each
carries what its constructor checks.
-/

namespace DeviceApi

open Nor (Byte NonZeroU64)

/-- The most bytes one read returns. -/
abbrev maxLxmfReadChunkBytes : ℕ := 416

/-- The operation number of a read. -/
abbrev opLxmfRead : BitVec 16 := 0xf005

/-- The response number of a typed failure. -/
abbrev responseError : BitVec 16 := 0x0000

/-- Stable committed-message handle. -/
abbrev LxmfMessageHandle := NonZeroU64

/-- A destination of the network. -/
abbrev DestinationHash := Vector Byte 16

/-- The hash of an identity. -/
abbrev IdentityHash := Vector Byte 16

/-- The identifier of an interface. -/
abbrev ReticulumInterfaceId := Vector Byte 8

/-- Receiver-reported signal values. -/
structure IngressSignal where
  rssiDbm : BitVec 16
  snrDb : BitVec 16
  deriving DecidableEq

/-- First-arrival interface and optional final-hop signal evidence. -/
structure IngressObservation where
  interfaceId : ReticulumInterfaceId
  signal : Option IngressSignal
  deriving DecidableEq

/-- A positive upper bound for one read response. -/
@[ext] structure LxmfReadLength where
  get : ℕ
  pos : 0 < get
  le : get ≤ maxLxmfReadChunkBytes

/-- Lengths of reads are compared by their number. -/
instance : DecidableEq LxmfReadLength := fun _ _ =>
  decidable_of_iff _ LxmfReadLength.ext_iff.symm

/-- The number of a handle, or zero without one. -/
def handleValue : Option LxmfMessageHandle → ℕ
  | some handle => handle.get
  | none => 0

/-- How far a client has collected the committed messages. -/
@[ext] structure LxmfMailboxStatus where
  latest : Option LxmfMessageHandle
  acknowledgedThrough : Option LxmfMessageHandle
  uncollectedCount : ℕ
  count_lt : uncollectedCount < 2 ^ 32
  sum_eq : handleValue acknowledgedThrough + uncollectedCount = handleValue latest

/-- Statuses are compared by their fields. -/
instance : DecidableEq LxmfMailboxStatus := fun _ _ =>
  decidable_of_iff _ LxmfMailboxStatus.ext_iff.symm

/-- Why counters are not a status. -/
inductive InvalidLxmfMailboxStatus where
  | acknowledgementAhead (latest acknowledgedThrough : ℕ)
  | countOverflow (uncollected : ℕ)
  deriving DecidableEq

/-- The status, unless the acknowledgement is ahead or the count does not fit 32 bits. -/
def LxmfMailboxStatus.new (latest acknowledgedThrough : Option LxmfMessageHandle) :
    Except InvalidLxmfMailboxStatus LxmfMailboxStatus :=
  let uncollected := handleValue latest - handleValue acknowledgedThrough
  if ahead : handleValue latest < handleValue acknowledgedThrough then
    .error (.acknowledgementAhead (handleValue latest) (handleValue acknowledgedThrough))
  else if count_lt : ¬uncollected < 2 ^ 32 then .error (.countOverflow uncollected)
  else .ok ⟨latest, acknowledgedThrough, uncollected, not_not.mp count_lt,
    Nat.add_sub_cancel' (not_lt.mp ahead)⟩

/-- The destination, source and signature before the payload. -/
abbrev lxmfNormalizedWirePrefixBytes : ℕ := 16 + 16 + 64

/-- The head of the array of a payload. -/
abbrev lxmfPayloadArrayHeaderBytes : ℕ := 1

/-- The marker and the bytes of a timestamp. -/
abbrev lxmfTimestampBytes : ℕ := 1 + 8

/-- The least bytes of a binary with a content of this length. -/
def minimumMsgpackBinaryBytes (decodedLen : ℕ) : ℕ :=
  let headerLen := if decodedLen ≤ 255 then 2 else if decodedLen ≤ 65535 then 3 else 5
  decodedLen + headerLen

/-- The shortest wire that can hold a title, a content and fields of these lengths. -/
def minimumWireLen (titleLen contentLen fieldsEncodedLen : ℕ) : ℕ :=
  lxmfNormalizedWirePrefixBytes + lxmfPayloadArrayHeaderBytes + lxmfTimestampBytes +
    minimumMsgpackBinaryBytes titleLen + minimumMsgpackBinaryBytes contentLen + fieldsEncodedLen

/-- Metadata of one committed message, as `lxmf.next` returns it. -/
@[ext] structure LxmfMessageSummary where
  handle : LxmfMessageHandle
  messageId : Vector Byte 32
  destination : DestinationHash
  source : DestinationHash
  timestampBits : BitVec 64
  normalizedWireLen : ℕ
  titleLen : ℕ
  contentLen : ℕ
  fieldsEncodedLen : ℕ
  exactWireSha256 : Vector Byte 32
  ingress : Option IngressObservation
  wire_lt : normalizedWireLen < 2 ^ 32
  fields_pos : 0 < fieldsEncodedLen
  minimum_le : minimumWireLen titleLen contentLen fieldsEncodedLen ≤ normalizedWireLen

/-- Summaries are compared by their fields. -/
instance : DecidableEq LxmfMessageSummary := fun _ _ =>
  decidable_of_iff _ LxmfMessageSummary.ext_iff.symm

/-- Metadata without transport evidence, after the lengths are checked. The length of the wire fits
32 bits. -/
def LxmfMessageSummary.new (handle : LxmfMessageHandle) (messageId : Vector Byte 32)
    (destination source : DestinationHash) (timestampBits : BitVec 64)
    (normalizedWireLen titleLen contentLen fieldsEncodedLen : ℕ)
    (exactWireSha256 : Vector Byte 32) (wire_lt : normalizedWireLen < 2 ^ 32) :
    Option LxmfMessageSummary :=
  if h : fieldsEncodedLen = 0 ∨
      normalizedWireLen < minimumWireLen titleLen contentLen fieldsEncodedLen then none
  else some ⟨handle, messageId, destination, source, timestampBits, normalizedWireLen, titleLen,
    contentLen, fieldsEncodedLen, exactWireSha256, none, wire_lt,
    Nat.pos_of_ne_zero (not_or.mp h).1, not_lt.mp (not_or.mp h).2⟩

/-- Attach transport evidence. -/
def LxmfMessageSummary.withIngressObservation (summary : LxmfMessageSummary)
    (ingress : Option IngressObservation) : LxmfMessageSummary :=
  { summary with ingress := ingress }

/-- One nonempty piece of a committed message inside its bounds. -/
@[ext] structure LxmfReadChunk where
  handle : LxmfMessageHandle
  offset : ℕ
  totalLen : ℕ
  bytes : List Byte
  nonempty : bytes ≠ []
  length_le : bytes.length ≤ maxLxmfReadChunkBytes
  inside : offset + bytes.length ≤ totalLen
  total_lt : totalLen < 2 ^ 32

/-- Chunks are compared by their fields. -/
instance : DecidableEq LxmfReadChunk := fun _ _ =>
  decidable_of_iff _ LxmfReadChunk.ext_iff.symm

/-- What a rejected piece violated. -/
inductive InvalidLxmfReadChunk where
  | empty
  | tooLarge (actual : ℕ)
  | outsideMessage (offset length totalLen : ℕ)
  deriving DecidableEq

namespace LxmfReadChunk

/-- Copy and validate one piece of a message whose length fits 32 bits. -/
def new (handle : LxmfMessageHandle) (offset totalLen : ℕ) (bytes : List Byte)
    (total_lt : totalLen < 2 ^ 32) : Except InvalidLxmfReadChunk LxmfReadChunk :=
  if nonempty : bytes = [] then .error .empty
  else if length_le : maxLxmfReadChunkBytes < bytes.length then .error (.tooLarge bytes.length)
  else if inside : totalLen = 0 ∨ totalLen ≤ offset ∨ totalLen < offset + bytes.length then
    .error (.outsideMessage offset bytes.length totalLen)
  else .ok ⟨handle, offset, totalLen, bytes, nonempty, by omega, by omega, total_lt⟩

/-- Whether this chunk reaches the exact end of the committed message. -/
def isFinal (chunk : LxmfReadChunk) : Bool := chunk.offset + chunk.bytes.length == chunk.totalLen

/-- A chunk holds at least one byte. -/
theorem length_pos (chunk : LxmfReadChunk) : 0 < chunk.bytes.length :=
  List.length_pos_iff.mpr chunk.nonempty

/-- A nonempty piece inside the message is accepted. -/
theorem exists_new {handle : LxmfMessageHandle} {offset totalLen : ℕ} {bytes : List Byte}
    (total_lt : totalLen < 2 ^ 32) (hnonempty : bytes ≠ [])
    (hlength : bytes.length ≤ maxLxmfReadChunkBytes) (hinside : offset + bytes.length ≤ totalLen) :
    ∃ chunk, new handle offset totalLen bytes total_lt = .ok chunk ∧ chunk.handle = handle ∧
      chunk.offset = offset ∧ chunk.totalLen = totalLen ∧ chunk.bytes = bytes := by
  have hpos := List.length_pos_iff.mpr hnonempty
  refine ⟨⟨handle, offset, totalLen, bytes, hnonempty, hlength, hinside, total_lt⟩, ?_, rfl, rfl,
    rfl, rfl⟩
  rw [new, dif_neg hnonempty, dif_neg (by omega), dif_neg (by omega)]

end LxmfReadChunk

end DeviceApi
