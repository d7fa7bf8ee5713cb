import ReticulumFirmware.Lxmf.Model

/-!
# Physical format of the message store

Extents, headers and footers as `lxmf-store` encodes and decodes them. Every extent of a record
starts with a header, the last one ends with a footer, and the normalized wire stands between
them.
-/

namespace LxmfStore

open Nor Lxmf

/-- Physical erase extent. -/
abbrev extentSize : ℕ := 4096

/-- The version that headers and footers are written with. -/
abbrev physicalFormatVersion : ℕ := 5

/-- Bytes of the header that every extent repeats. -/
abbrev extentHeaderSize : ℕ := 512

/-- Bytes of the footer in the final extent. -/
abbrev recordFooterSize : ℕ := 256

/-- Bytes of one page, the unit of every program and inspection. -/
abbrev ioChunkSize : ℕ := 256

/-- Wire bytes of an extent that is not the last one. -/
abbrev extentPayloadSize : ℕ := extentSize - extentHeaderSize

/-- Wire bytes of the last extent. -/
abbrev finalExtentPayloadSize : ℕ := extentPayloadSize - recordFooterSize

/-- Bytes of the commit marker. -/
abbrev commitSize : ℕ := 32

/-- The commit marker is the end of the footer. -/
abbrev footerCommitOffset : ℕ := recordFooterSize - commitSize

/-- What a record begins with. -/
def claimMarker : List Byte := [
  0x6d, 0x13, 0xa8, 0x42, 0xf0, 0x2c, 0x79, 0xb5, 0x31, 0xe6, 0x0a, 0x97, 0x54, 0xcb, 0x25, 0x8f,
  0xd2, 0x48, 0x7a, 0x1c, 0xb9, 0x63, 0x05, 0xee, 0x36, 0x91, 0x5b, 0xc4, 0x0f, 0xa7, 0x68, 0x23]

/-- What a complete record ends with. -/
def commitMarker : List Byte := [
  0x47, 0xbc, 0x12, 0xe9, 0x65, 0x08, 0xd3, 0x2a, 0xf1, 0x84, 0x3e, 0x59, 0xa6, 0x0d, 0xc8, 0x71,
  0x25, 0xfa, 0x43, 0x9c, 0x16, 0xb0, 0x6e, 0xd7, 0x38, 0x82, 0x0b, 0xed, 0x51, 0xa4, 0x7f, 0x19]

/-- What tells a header, behind its claim. -/
def headerMagic : List Byte := ascii "LXMFEXT1"

/-- What tells a footer. -/
def footerMagic : List Byte := ascii "LXMFEND1"

/-- What the digest of a header begins with. -/
def headerDigestDomain : List Byte := ascii "reticulum-rs-firmware/lxmf-store/header/v1" ++ [0]

/-- What the digest of a record begins with. -/
def recordDigestDomain : List Byte := ascii "reticulum-rs-firmware/lxmf-store/record/v1" ++ [0]

/-- Physical device, range and format of an operation. -/
structure LxmfStoreBinding where
  device : Vector Byte 16
  absoluteOffset : ℕ
  length : ℕ
  formatVersion : ℕ
  deriving DecidableEq

/-- Extents that a wire of this length occupies, unless the sum overflows `usize`. -/
def requiredExtents (usizeValues wireLen : ℕ) : Option ℕ :=
  if wireLen + recordFooterSize + (extentPayloadSize - 1) < usizeValues then
    some ((wireLen + recordFooterSize + (extentPayloadSize - 1)) / extentPayloadSize)
  else none

/-- The first byte of an extent. -/
def extentOffset (extent : ℕ) : ℕ := extent * extentSize

/-- Wire bytes that one extent of a record holds. -/
def payloadCapacity (extentCount index : ℕ) : ℕ :=
  if index + 1 = extentCount then finalExtentPayloadSize else extentPayloadSize

section Codes

/-- The code of a carrier form. -/
def encodeCarrier : CarrierProvenance → Byte
  | .complete => 0
  | .opportunistic => 1
  | .linkDataContextNone => 2
  | .resourceComplete => 3

/-- The carrier form of a code. -/
def decodeCarrier (value : Byte) : Option CarrierProvenance :=
  match value.toNat with
  | 0 => some .complete
  | 1 => some .opportunistic
  | 2 => some .linkDataContextNone
  | 3 => some .resourceComplete
  | _ => none

/-- The code of a verification. -/
def encodeSignatureVerification : SignatureVerification → Byte
  | .validated => 0
  | .sourceUnknown => 1
  | .invalid => 2

/-- The verification of a code. -/
def decodeSignatureVerification (value : Byte) : Option SignatureVerification :=
  match value.toNat with
  | 0 => some .validated
  | 1 => some .sourceUnknown
  | 2 => some .invalid
  | _ => none

/-- Kind, argument and observed value of a stamp. -/
def encodeStamp : StampAdmissionProvenance → Byte × ℕ × BitVec 16
  | .notRequired false => (0, 0, 0)
  | .notRequired true => (1, 0, 0)
  | .trustedPriorTicket => (2, 0, 0)
  | .proofOfWork targetCost observedValue => (3, targetCost.get, observedValue)

/-- The provenance of a stamp from its three values. -/
def decodeStamp (kind : Byte) (argument : ℕ) (observed : BitVec 16) :
    Option StampAdmissionProvenance :=
  match kind.toNat, argument, observed.toNat with
  | 0, 0, 0 => some (.notRequired false)
  | 1, 0, 0 => some (.notRequired true)
  | 2, 0, 0 => some .trustedPriorTicket
  | 3, argument, _ => (RequiredStampCost.new argument).map (.proofOfWork · observed)
  | _, _, _ => none

/-- A carrier form is read back. -/
theorem decodeCarrier_encodeCarrier (carrier : CarrierProvenance) :
    decodeCarrier (encodeCarrier carrier) = some carrier := by
  cases carrier <;> rfl

/-- A verification is read back. -/
theorem decodeSignatureVerification_encode (verification : SignatureVerification) :
    decodeSignatureVerification (encodeSignatureVerification verification) = some verification := by
  cases verification <;> rfl

/-- A stamp provenance is read back. -/
theorem decodeStamp_encodeStamp (stamp : StampAdmissionProvenance) :
    decodeStamp (encodeStamp stamp).1 (encodeStamp stamp).2.1 (encodeStamp stamp).2.2 =
      some stamp := by
  cases stamp with
  | notRequired stampPresent => cases stampPresent <;> rfl
  | trustedPriorTicket => rfl
  | proofOfWork targetCost observedValue =>
    change (RequiredStampCost.new targetCost.get).map _ = _
    rw [RequiredStampCost.new_get]
    rfl

/-- The argument of a stamp fits into two bytes. -/
theorem encodeStamp_argument_lt (stamp : StampAdmissionProvenance) :
    (encodeStamp stamp).2.1 < 2 ^ 16 := by
  cases stamp with
  | notRequired stampPresent => cases stampPresent <;> decide
  | trustedPriorTicket => decide
  | proofOfWork targetCost observedValue =>
    have hlt := targetCost.lt
    show targetCost.get < 2 ^ 16
    omega

end Codes

section Header

variable (sha256 : Sha256) (binding : LxmfStoreBinding) (formatVersion : ℕ)
  (handle : MessageHandle) (extentIndex extentCount : ℕ) (metadata : InboundMessageMetadata)
  (exactWireDigest : ExactWireDigest)

/-- Kind, argument and observed value of the stamp, as stored. -/
def stampFields (stamp : StampAdmissionProvenance) : List (List Byte) :=
  [[(encodeStamp stamp).1], leBytes 2 (encodeStamp stamp).2.1,
    leBytes 2 (encodeStamp stamp).2.2.toNat]

/-- Kind, interface and signal of the transport evidence, as stored. -/
def ingressFields : Option InboundTransportObservation → List (List Byte)
  | none => [[0], List.replicate 8 0, [0], List.replicate 2 0, List.replicate 2 0]
  | some ⟨interface, none⟩ =>
    [[1], interface.toList, [0], List.replicate 2 0, List.replicate 2 0]
  | some ⟨interface, some signal⟩ =>
    [[1], interface.toList, [1], leBytes 2 signal.rssiDbm.toNat, leBytes 2 signal.snrDb.toNat]

/-- The fields before the header digest, in offset order. -/
def headerFields : List (List Byte) :=
  [claimMarker, headerMagic, leBytes 2 formatVersion, leBytes 2 extentHeaderSize,
    leBytes 2 extentIndex, leBytes 2 extentCount, leBytes 8 handle.get,
    binding.device.toList, leBytes 8 binding.absoluteOffset, leBytes 8 binding.length,
    metadata.messageId.toList, metadata.authenticatedMaterial.toList,
    metadata.destination.toList, metadata.source.toList, leBytes 8 metadata.timestampBits.toNat,
    [encodeCarrier metadata.carrier]] ++
  stampFields metadata.stampAdmission ++
  [List.replicate 2 0,
    leBytes 4 metadata.lengths.normalizedWire, leBytes 4 metadata.lengths.carrierPayload,
    leBytes 4 metadata.lengths.title, leBytes 4 metadata.lengths.content,
    leBytes 4 metadata.lengths.fieldsEncoded, exactWireDigest.toList] ++
  ingressFields metadata.ingress ++
  [[encodeSignatureVerification metadata.signatureVerification], List.replicate 213 0]

/-- The header of one extent: its fields and their digest. -/
def encodeHeader : List Byte :=
  let fields := (headerFields binding formatVersion handle extentIndex extentCount metadata
    exactWireDigest).flatten
  fields ++ (sha256 (headerDigestDomain ++ fields)).toList

/-- The values of a decoded header. -/
structure HeaderFields where
  formatVersion : ℕ
  handle : MessageHandle
  extentIndex : ℕ
  extentCount : ℕ
  metadata : InboundMessageMetadata
  exactWireDigest : ExactWireDigest
  deriving DecidableEq

/-- Why bytes are not a header of this store. -/
inductive HeaderDecodeError where
  | invalid
  | unsupportedVersion (actual : ℕ)
  | bindingMismatch (actual : LxmfStoreBinding)
  deriving DecidableEq

/-- The value of an option, or the header is invalid. -/
def orInvalid {α : Type} : Option α → Except HeaderDecodeError α
  | some value => .ok value
  | none => .error .invalid

/-- The transport evidence at its offsets. -/
def decodeIngress (header : List Byte) :
    Except HeaderDecodeError (Option InboundTransportObservation) :=
  let interface := copyArray 8 (slice header 253 8)
  match (header.getD 252 0).toNat with
  | 0 => .ok none
  | 1 =>
    match (header.getD 261 0).toNat with
    | 0 => .ok (some ⟨interface, none⟩)
    | 1 => .ok (some ⟨interface, some ⟨BitVec.ofNat 16 (leNat (slice header 262 2)),
        BitVec.ofNat 16 (leNat (slice header 264 2))⟩⟩)
    | _ => .error .invalid
  | _ => .error .invalid

/-- The metadata at its offsets, rebuilt through its constructors. -/
def decodeMetadata (header : List Byte) : Except HeaderDecodeError InboundMessageMetadata := do
  let carrier ← orInvalid (decodeCarrier (header.getD 192 0))
  let signatureVerification ← orInvalid (decodeSignatureVerification (header.getD 266 0))
  let stamp ← orInvalid (decodeStamp (header.getD 193 0) (leNat (slice header 194 2))
    (BitVec.ofNat 16 (leNat (slice header 196 2))))
  let lengths ← orInvalid (InboundMessageLengths.new (leNat (slice header 200 4))
    (leNat (slice header 204 4)) (leNat (slice header 208 4)) (leNat (slice header 212 4))
    (leNat (slice header 216 4))).toOption
  let ingress ← decodeIngress header
  let metadata ← orInvalid (InboundMessageMetadata.new (copyArray 32 (slice header 88 32))
    (copyArray 32 (slice header 120 32)) (copyArray 16 (slice header 152 16))
    (copyArray 16 (slice header 168 16)) signatureVerification
    (BitVec.ofNat 64 (leNat (slice header 184 8))) carrier stamp lengths).toOption
  pure (metadata.withIngressObservation ingress)

/-- Decode a header under a binding; a header that is not the encoding of its values is
invalid. -/
def decodeHeader (usizeValues : ℕ) (expectedBinding : LxmfStoreBinding) (header : List Byte) :
    Except HeaderDecodeError HeaderFields :=
  let version := leNat (slice header 40 2)
  let extentIndex := leNat (slice header 44 2)
  let extentCount := leNat (slice header 46 2)
  let device := copyArray 16 (slice header 56 16)
  let absoluteOffset := leNat (slice header 72 8)
  let length := leNat (slice header 80 8)
  let exactWireDigest := copyArray 32 (slice header 220 32)
  if slice header 0 32 ≠ claimMarker ∨ slice header 32 8 ≠ headerMagic then .error .invalid
  else if version ≠ physicalFormatVersion then .error (.unsupportedVersion version)
  else if leNat (slice header 42 2) ≠ extentHeaderSize then .error .invalid
  else if usizeValues ≤ absoluteOffset ∨ usizeValues ≤ length then .error .invalid
  else if device ≠ expectedBinding.device ∨ absoluteOffset ≠ expectedBinding.absoluteOffset
    ∨ length ≠ expectedBinding.length
  then .error (.bindingMismatch ⟨device, absoluteOffset, length, version⟩)
  else if extentCount = 0 ∨ extentCount ≤ extentIndex then .error .invalid
  else do
    let handle ← orInvalid (NonZeroU64.new (leNat (slice header 48 8)))
    let metadata ← decodeMetadata header
    if requiredExtents usizeValues metadata.lengths.normalizedWire ≠ some extentCount
      ∨ header ≠ encodeHeader sha256 expectedBinding version handle extentIndex extentCount
        metadata exactWireDigest
    then .error .invalid
    else .ok ⟨version, handle, extentIndex, extentCount, metadata, exactWireDigest⟩

end Header

section Footer

variable (formatVersion : ℕ) (handle : MessageHandle) (extentCount wireLen : ℕ)
  (exactWireDigest : ExactWireDigest) (recordDigest : Vector Byte 32) (committed : Bool)

/-- The fields before the commit marker of a footer, in offset order. -/
def footerFields : List (List Byte) :=
  [footerMagic, leBytes 2 formatVersion, List.replicate 2 0, leBytes 8 handle.get,
    leBytes 2 extentCount, List.replicate 2 0, leBytes 4 wireLen, exactWireDigest.toList,
    recordDigest.toList, List.replicate 132 0]

/-- The footer of the final extent, with or without its commit marker. -/
def encodeFooter : List Byte :=
  (footerFields formatVersion handle extentCount wireLen exactWireDigest recordDigest).flatten ++
    if committed then commitMarker else List.replicate commitSize erasedByte

end Footer

/-- What the commit marker of an extent says. -/
inductive CommitMarkerState where
  | incomplete
  | committed
  | unknown
  deriving DecidableEq

/-- What a marker says that may have been programmed in part. -/
def classifyCommitMarker (bytes : List Byte) : CommitMarkerState :=
  if bytes = commitMarker then .committed
  else if covers bytes commitMarker then .incomplete
  else .unknown

end LxmfStore
