import ReticulumFirmware.Nor.Bytes

/-!
# The OTA application protocol

The values and wire messages of `device-api/src/ota.rs` that the update coordinator
reads: manifests, chunk metadata, start and next requests, and the status projection.
-/

namespace Ota

open Nor

/-- Version of the application protocol. -/
abbrev otaProtocolVersion : Byte := 1

/-- First byte of an ESP image. -/
abbrev espImageMagic : Byte := 0xe9

/-- Longest release label. -/
abbrev otaVersionBytes : ℕ := 32

/-- Smallest accepted image. -/
abbrev minOtaImageBytes : ℕ := 64

/-- Image bytes in a full resource. -/
abbrev otaImageChunkBytes : ℕ := 7 * 1024

/-- Bytes of the metadata beside a resource. -/
abbrev otaChunkMetadataBytes : ℕ := 32

/-- Bytes of a next request. -/
abbrev otaNextRequestBytes : ℕ := 26

/-- Magic of every message. -/
def otaMagic : List Byte := ascii "EOTA"

/-- The message that offers an image. -/
abbrev otaStartKind : Byte := 1

/-- The message that asks for a chunk. -/
abbrev otaNextKind : Byte := 2

/-- The message that brings a chunk. -/
abbrev otaChunkKind : Byte := 3

/-- Identity of one transfer. -/
abbrev OtaSessionId := Vector Byte 16

/-- Identity of a Reticulum link. -/
abbrev LinkId := Vector Byte 16

/-- A firmware slot. -/
inductive OtaSlot where
  | ota0
  | ota1
  deriving DecidableEq, Repr

/-- Why protocol bytes were rejected. -/
inductive OtaProtocolError where
  | malformed
  | invalidVersion
  | invalidImageSize
  | invalidDigest
  deriving DecidableEq, Repr

/-- Printable ASCII without the space. -/
def isAsciiGraphic (byte : Byte) : Bool := 0x21 ≤ byte.toNat && byte.toNat ≤ 0x7e

/-- A validated release label. -/
structure OtaVersion where
  bytes : List Byte
  nonempty : bytes ≠ []
  bounded : bytes.length ≤ otaVersionBytes
  graphic : bytes.all isAsciiGraphic = true
  deriving DecidableEq

/-- Validate a release label. -/
def OtaVersion.tryFromBytes (bytes : List Byte) : Except OtaProtocolError OtaVersion :=
  if h : bytes ≠ [] ∧ bytes.length ≤ otaVersionBytes ∧ bytes.all isAsciiGraphic = true then
    .ok ⟨bytes, h.1, h.2.1, h.2.2⟩
  else .error .invalidVersion

/-- A release manifest. -/
structure OtaManifest where
  imageBytes : ℕ
  imageSha256 : Vector Byte 32
  version : OtaVersion
  imageBytes_lt : imageBytes < 2 ^ 32
  minimum : minOtaImageBytes ≤ imageBytes
  digest_ne_zero : imageSha256 ≠ Vector.replicate 32 0
  deriving DecidableEq

/-- Validate a manifest whose size is a 32-bit number. -/
def OtaManifest.new (imageBytes : Fin (2 ^ 32)) (imageSha256 : Vector Byte 32)
    (version : OtaVersion) : Except OtaProtocolError OtaManifest :=
  if hsize : imageBytes.val < minOtaImageBytes then .error .invalidImageSize
  else if hdigest : imageSha256 = Vector.replicate 32 0 then .error .invalidDigest
  else .ok ⟨imageBytes, imageSha256, version, imageBytes.isLt, by omega, hdigest⟩

/-- Metadata of one image chunk. -/
structure OtaChunkMetadata where
  session : OtaSessionId
  index : ℕ
  offset : ℕ
  deriving DecidableEq

/-- Encode chunk metadata. -/
def OtaChunkMetadata.encode (metadata : OtaChunkMetadata) : List Byte :=
  [[0xc4], [30], otaMagic, [otaProtocolVersion], [otaChunkKind], metadata.session.toList,
    beBytes 4 metadata.index, beBytes 4 metadata.offset].flatten

/-- Decode chunk metadata. -/
def OtaChunkMetadata.decode (bytes : List Byte) : Except OtaProtocolError OtaChunkMetadata :=
  if bytes.length ≠ otaChunkMetadataBytes
    ∨ slice bytes 0 1 ≠ [0xc4]
    ∨ slice bytes 1 1 ≠ [30]
    ∨ slice bytes 2 4 ≠ otaMagic
    ∨ slice bytes 6 1 ≠ [otaProtocolVersion]
    ∨ slice bytes 7 1 ≠ [otaChunkKind]
  then .error .malformed
  else .ok ⟨copyArray 16 (slice bytes 8 16), beNat (slice bytes 24 4), beNat (slice bytes 28 4)⟩

/-- A 32-bit field of a message. -/
def beU32 (bytes : List Byte) : Fin (2 ^ 32) := Fin.ofNat (2 ^ 32) (beNat bytes)

/-- Decode a start request. -/
def decodeStartRequest (bytes : List Byte) : Except OtaProtocolError OtaManifest := do
  if bytes.length < 44
    ∨ slice bytes 0 4 ≠ otaMagic
    ∨ slice bytes 4 1 ≠ [otaProtocolVersion]
    ∨ slice bytes 5 1 ≠ [otaStartKind]
  then throw .malformed
  if bytes.length ≠ 43 + leNat (slice bytes 42 1) then throw .malformed
  let version ← OtaVersion.tryFromBytes (bytes.drop 43)
  OtaManifest.new (beU32 (slice bytes 6 4)) (copyArray 32 (slice bytes 10 32)) version

/-- Decode a next request. -/
def decodeNextRequest (bytes : List Byte) : Except OtaProtocolError (OtaSessionId × ℕ) :=
  if bytes.length ≠ otaNextRequestBytes
    ∨ slice bytes 0 4 ≠ otaMagic
    ∨ slice bytes 4 1 ≠ [otaProtocolVersion]
    ∨ slice bytes 5 1 ≠ [otaNextKind]
  then .error .malformed
  else .ok (copyArray 16 (slice bytes 6 16), beNat (slice bytes 22 4))

/-- Why a transfer ended. -/
inductive OtaFailure where
  | protocol
  | wrongLink
  | unexpectedChunk
  | invalidEspImage
  | digestMismatch
  | flash
  | imageValidation
  | activation
  | interrupted
  deriving DecidableEq, Repr

/-- The public phase of an update. -/
inductive OtaPhase where
  | idle
  | receiving
  | activated
  | failed
  deriving DecidableEq, Repr

/-- The projection of the coordinator's state. -/
structure OtaStatus where
  phase : OtaPhase
  session : Option OtaSessionId
  slot : Option OtaSlot
  version : Option OtaVersion
  imageBytes : ℕ
  verifiedBytes : ℕ
  nextChunk : ℕ
  resourceArmed : Bool
  failure : Option OtaFailure
  deriving DecidableEq

/-- The projection before any update. -/
def OtaStatus.idle : OtaStatus := ⟨.idle, none, none, none, 0, 0, 0, false, none⟩

end Ota
