import ReticulumFirmware.Lxmf.Buffer
import ReticulumFirmware.Lxmf.Model
import ReticulumFirmware.Lxmf.Msgpack

/-!
# Messages on the wire

`lib.rs` of the wire crate: a borrowed message is parsed from one of its carrier forms. The bytes
that its identifier, its fingerprint and its signature cover leave out the stamp.
-/

namespace Lxmf

open Nor

/-- Source hash and signature. -/
abbrev opportunisticHeaderLength : ℕ := 80

/-- Destination hash, source hash and signature. -/
abbrev wireHeaderLength : ℕ := 96

/-- The bytes of a ticket. -/
abbrev ticketLength : ℕ := 16

/-- The bytes of a proof of work. -/
abbrev powStampLength : ℕ := 32

/-- The head of an array of four items. -/
abbrev payloadArray4 : Byte := 0x94

/-- The head of an array of five items. -/
abbrev payloadArray5 : Byte := 0x95

/-- The head of a binary64 number. -/
abbrev msgpackF64 : Byte := 0xcb

/-- One binary value: what it holds, and the length of its encoding. -/
@[ext] structure BinaryView where
  bytes : List Byte
  encodedLen : ℕ
  deriving DecidableEq

/-- A structurally validated payload. -/
@[ext] structure PayloadView where
  raw : List Byte
  firstFour : List (List Byte)
  timestampBits : BitVec 64
  title : BinaryView
  content : BinaryView
  fields : MessagePackValue
  stamp : Option BinaryView
  deriving DecidableEq

/-- The form in which a message arrived. -/
inductive CarrierIngress where
  | opportunistic (impliedDestination : DestinationHash) (payload : List Byte)
  | linkDataContextNone (expectedDestination : DestinationHash) (payload : List Byte)
  | resourceComplete (expectedDestination : DestinationHash) (payload : List Byte)

/-- A normalized message. -/
@[ext] structure MessageView where
  destinationHash : DestinationHash
  sourceHash : SourceHash
  signature : Vector Byte 64
  body : List Byte
  payload : PayloadView
  normalizedWireLen : ℕ
  carrier : CarrierProvenance
  destinationBound : Bool

section Parse

variable (limits : WireLimits) (raw : List Byte)

/-- The number of items that the marker of a payload announces, and the length of its head. -/
def payloadHeader : Except WireError (ℕ × ℕ) :=
  match raw.head? with
  | none => .error (.tooShort 1 0)
  | some marker =>
    if marker = payloadArray4 then .ok (4, 1)
    else if marker = payloadArray5 then .ok (5, 1)
    else if marker = 0xdc then
      if raw.length < 3 then .error (.truncated 0 3 raw.length)
      else .ok (beNat (slice raw 1 2), 3)
    else if marker = 0xdd then
      if raw.length < 5 then .error (.truncated 0 5 raw.length)
      else .ok (beNat (slice raw 1 4), 5)
    else .error (.invalidPayloadArray marker none)

/-- The items of a payload with their classification, and the end of the last one. -/
def scanPayloadItems : ℕ → ℕ → Scanner →
    Except WireError (List (List Byte × Canonicality) × ℕ)
  | 0, cursor, _ => .ok ([], cursor)
  | count + 1, cursor, scanner => do
    let (scanned, scanner) ← scanValue limits raw cursor 2 scanner
    let (items, end_) ← scanPayloadItems count scanned.end_ scanner
    return ((slice raw cursor (scanned.end_ - cursor), scanned.canonicality) :: items, end_)

/-- The first byte of an item. -/
def markerOf (item : List Byte) : Byte := item.headD 0

/-- The bits of a timestamp. -/
def parseTimestamp (item : List Byte) : Except WireError (BitVec 64) :=
  if item.head? ≠ some msgpackF64 ∨ item.length ≠ 9 then .error (.invalidTimestamp (markerOf item))
  else .ok (BitVec.ofNat 64 (beNat (item.drop 1)))

/-- The length of the head of a binary value. -/
def binaryPrefix (marker : Byte) : Option ℕ :=
  if marker = 0xc4 then some 2 else if marker = 0xc5 then some 3
  else if marker = 0xc6 then some 5 else none

/-- The title or the content. -/
def parseBinary (item : List Byte) (title : Bool) : Except WireError BinaryView :=
  match binaryPrefix (markerOf item) with
  | some headLen => .ok ⟨item.drop headLen, item.length⟩
  | none =>
    .error (if title then .invalidTitle (markerOf item) else .invalidContent (markerOf item))

/-- The map of fields. -/
def parseFields (item : List Byte) (canonicality : Canonicality) :
    Except WireError MessagePackValue :=
  let marker := markerOf item
  if (0x80 ≤ marker.toNat ∧ marker.toNat ≤ 0x8f) ∨ marker = 0xde ∨ marker = 0xdf then
    .ok ⟨item, .map, canonicality⟩
  else .error (.invalidFields marker)

/-- A ticket or a proof of work. -/
def parseStamp (item : List Byte) : Except WireError BinaryView :=
  match binaryPrefix (markerOf item) with
  | some headLen =>
    let bytes := item.drop headLen
    if bytes.length = ticketLength ∨ bytes.length = powStampLength then .ok ⟨bytes, item.length⟩
    else .error (.invalidStamp (markerOf item) bytes.length)
  | none => .error (.invalidStamp (markerOf item) 0)

/-- The stamp behind four items. A stamped payload has to be a fixed point of the encoder. -/
def parseFifth (items : List (List Byte × Canonicality)) : Except WireError (Option BinaryView) :=
  match items with
  | [_, _, _, _, (stamp, _)] =>
    if (items.take 4).all fun item => item.2 = .canonical then (parseStamp stamp).map some
    else .error .nonCanonicalStampedPayload
  | _ => .ok none

/-- The meaning of the items of a payload. -/
def parseItems (items : List (List Byte × Canonicality)) : Except WireError PayloadView := do
  let item := fun index => (items.map Prod.fst).getD index []
  let timestampBits ← parseTimestamp (item 0)
  let title ← parseBinary (item 1) true
  let content ← parseBinary (item 2) false
  let fields ← parseFields (item 3) ((items.map Prod.snd).getD 3 .nonCanonical)
  let stamp ← parseFifth items
  return { raw, firstFour := [item 0, item 1, item 2, item 3], timestampBits, title, content,
           fields, stamp }

/-- A payload: an array of four or five items and nothing behind it. -/
def parsePayload : Except WireError PayloadView := do
  let (count, headLen) ← payloadHeader raw
  if count ≠ 4 ∧ count ≠ 5 then .error (.invalidPayloadArray (markerOf raw) (some count))
  else
    let scanner ← noteContainer limits 0 1 count .new
    let (items, cursor) ← scanPayloadItems limits raw count headLen scanner
    if cursor ≠ raw.length then .error (.trailingBytes cursor (raw.length - cursor))
    else parseItems raw items

/-- The length of a wire is within the limit. -/
def enforceWireLimit (actual : ℕ) : Except WireError Unit :=
  checkLimit .wireBytes actual limits.maxWireBytes 0

/-- A field of `n` bytes. The callers have checked that the bytes are there. -/
def fixedField (n offset : ℕ) (bytes : List Byte) : Vector Byte n :=
  Vector.ofFn fun i => bytes.getD (offset + i) 0

/-- The message with a body that starts at the source hash. -/
def parseParts (destinationHash : DestinationHash) (body : List Byte) (normalizedWireLen : ℕ)
    (carrier : CarrierProvenance) (destinationBound : Bool) : Except WireError MessageView := do
  let payload ← parsePayload limits (body.drop opportunisticHeaderLength)
  return { destinationHash, sourceHash := fixedField 16 0 body, signature := fixedField 64 16 body,
           body, payload, normalizedWireLen, carrier, destinationBound }

/-- Parse a wire that begins with its destination. -/
def parseComplete (wire : List Byte) : Except WireError MessageView := do
  if wire.length < wireHeaderLength + 1 then .error (.tooShort (wireHeaderLength + 1) wire.length)
  else
    enforceWireLimit limits wire.length
    parseParts limits (fixedField 16 0 wire) (wire.drop destinationHashLength) wire.length
      .complete false

/-- Parse a wire that has to be for one destination. -/
def parseCompleteWithCarrier (wire : List Byte) (expectedDestination : DestinationHash)
    (carrier : CarrierProvenance) : Except WireError MessageView := do
  if wire.length < wireHeaderLength + 1 then .error (.tooShort (wireHeaderLength + 1) wire.length)
  else
    enforceWireLimit limits wire.length
    if fixedField 16 0 wire ≠ expectedDestination then .error .destinationMismatch
    else
      parseParts limits (fixedField 16 0 wire) (wire.drop destinationHashLength) wire.length carrier
        true

/-- Parse an explicit carrier form. -/
def parseIngress : CarrierIngress → Except WireError MessageView
  | .opportunistic impliedDestination payload => do
    let normalizedWireLen := payload.length + destinationHashLength
    if payload.length < opportunisticHeaderLength + 1 then
      .error (.tooShort (opportunisticHeaderLength + 1) payload.length)
    else
      enforceWireLimit limits normalizedWireLen
      parseParts limits impliedDestination payload normalizedWireLen .opportunistic true
  | .linkDataContextNone expectedDestination payload =>
    parseCompleteWithCarrier limits payload expectedDestination .linkDataContextNone
  | .resourceComplete expectedDestination payload =>
    parseCompleteWithCarrier limits payload expectedDestination .resourceComplete

end Parse

/-- The writes of several parts, one after the other. -/
def putParts (parts : List (List Byte)) (target : Target) : Option Target :=
  parts.foldlM (fun target part => putBytes part target) target

namespace PayloadView

variable (view : PayloadView)

/-- The length of the four items that identifiers and signatures cover. -/
def payloadWithoutStampLen : ℕ :=
  if view.stamp.isNone then view.raw.length else 1 + (view.firstFour.map List.length).sum

/-- There is no result after a panic. -/
def writePayloadWithoutStamp (output : List Byte) :
    Option (Except BufferError (ℕ × List Byte)) :=
  let required := view.payloadWithoutStampLen
  if output.length < required then some (.error ⟨required, output.length⟩)
  else if view.stamp.isNone then
    (putBytes view.raw ⟨output, 0⟩).map fun target => .ok (required, target.bytes)
  else
    (putBytes [payloadArray4] ⟨output, 0⟩ >>= putParts view.firstFour).map fun target =>
      .ok (target.cursor, target.bytes)

/-- The bytes that a hash has taken in after the payload. -/
def updatePayloadWithoutStamp (hashed : List Byte) : List Byte :=
  if view.stamp.isNone then hashed ++ view.raw
  else view.firstFour.foldl (· ++ ·) (hashed ++ [payloadArray4])

end PayloadView

/-- `reticulum-rs-firmware/lxmf/authenticated-material/v1`, with a final zero. -/
def authenticatedMaterialFingerprintDomain : List Byte :=
  ascii "reticulum-rs-firmware/lxmf/authenticated-material/v1" ++ [0]

/-- What the verification of signatures uses of other packages. -/
structure Ed25519 where
  Point : Type
  decompress : List Byte → Option Point
  isSmallOrder : Point → Bool
  isTorsionFree : Point → Bool
  VerifyingKey : Type
  fromBytes : List Byte → Option VerifyingKey
  /-- The verification of a signature over the bytes of a message, if it can start. -/
  verifyStream : VerifyingKey → Vector Byte 64 → Option (List Byte → Bool)

/-- Why an encoded point is refused. -/
inductive EdwardsPointError where
  | invalidEncoding
  | nonPrimeOrder
  deriving DecidableEq

/-- Why a signature was not verified. -/
inductive SignatureError where
  | sourceHashMismatch
  | invalidPublicKey
  | nonPrimeOrderPublicKey
  | invalidSignaturePoint
  | nonPrimeOrderSignaturePoint
  | invalidSignature
  deriving DecidableEq

/-- A public key that derives one source hash. -/
structure BoundSourceIdentity (ed25519 : Ed25519) where
  publicKey : Vector Byte 64
  destinationHash : DestinationHash
  verifyingKey : ed25519.VerifyingKey

/-- The hash of the name that a delivery destination is derived with. -/
def lxmfDeliveryNameHash : List Byte :=
  [0x6e, 0xc6, 0x0b, 0xc3, 0x18, 0xe2, 0xc0, 0xf0, 0xd9, 0x08]

/-- A message whose signature was verified. -/
structure SignatureVerifiedMessage where
  message : MessageView

section Signature

variable (sha256 : Sha256) (ed25519 : Ed25519)

/-- A point of prime order, which is not the identity. -/
def requireNonIdentityPrimeOrderPoint (encoded : List Byte) : Except EdwardsPointError Unit :=
  match ed25519.decompress encoded with
  | none => .error .invalidEncoding
  | some point =>
    if ed25519.isSmallOrder point ∨ !ed25519.isTorsionFree point then .error .nonPrimeOrder
    else .ok ()

/-- Bind a public key to the source hash that it derives. -/
def BoundSourceIdentity.new (publicKey : Vector Byte 64) (sourceHash : SourceHash) :
    Except SignatureError (BoundSourceIdentity ed25519) :=
  let identityHash := sha256 publicKey.toList
  let derived := sha256 (lxmfDeliveryNameHash ++ identityHash.toList.take destinationHashLength)
  if fixedField 16 0 derived.toList ≠ sourceHash then .error .sourceHashMismatch
  else
    let signingBytes := publicKey.toList.drop 32
    match requireNonIdentityPrimeOrderPoint ed25519 signingBytes with
    | .error .invalidEncoding => .error .invalidPublicKey
    | .error .nonPrimeOrder => .error .nonPrimeOrderPublicKey
    | .ok () =>
      match ed25519.fromBytes signingBytes with
      | none => .error .invalidPublicKey
      | some verifyingKey => .ok ⟨publicKey, fixedField 16 0 derived.toList, verifyingKey⟩

namespace MessageView

variable (view : MessageView)

/-- The hash of both addresses and the payload without its stamp. -/
def messageId : MessageId :=
  sha256 (view.payload.updatePayloadWithoutStamp
    (view.destinationHash.toList ++ view.sourceHash.toList))

/-- The fingerprint of what the signature covers. -/
def authenticatedMaterialFingerprint : AuthenticatedMaterialFingerprint :=
  sha256 (view.payload.updatePayloadWithoutStamp (authenticatedMaterialFingerprintDomain ++
    view.destinationHash.toList ++ view.sourceHash.toList))

/-- The bytes that are signed. -/
def signatureInputLen : ℕ :=
  destinationHashLength * 2 + view.payload.payloadWithoutStampLen + 32

/-- The writes of both addresses, the payload without its stamp, and the identifier. -/
def putSignatureInput (target : Target) : Option Target := do
  let target ← putBytes view.destinationHash.toList target
  let target ← putBytes view.sourceHash.toList target
  let target ← if view.payload.stamp.isNone then putBytes view.payload.raw target
    else putBytes [payloadArray4] target >>= putParts view.payload.firstFour
  putBytes (view.messageId sha256).toList target

/-- Write the bytes that are signed. -/
def writeSignatureInput (output : List Byte) : Option (Except BufferError (ℕ × List Byte)) :=
  let required := view.signatureInputLen
  if output.length < required then some (.error ⟨required, output.length⟩)
  else
    (view.putSignatureInput sha256 ⟨output, 0⟩).map fun target => .ok (target.cursor, target.bytes)

/-- Bind a public key to the source of the message. -/
def bindSourceIdentity (publicKey : Vector Byte 64) :
    Except SignatureError (BoundSourceIdentity ed25519) :=
  BoundSourceIdentity.new sha256 ed25519 publicKey view.sourceHash

/-- Verify the signature with a key that is bound to the source hash. -/
def verifySignature (source : BoundSourceIdentity ed25519) :
    Except SignatureError SignatureVerifiedMessage :=
  if source.destinationHash ≠ view.sourceHash then .error .sourceHashMismatch
  else
    match requireNonIdentityPrimeOrderPoint ed25519 (view.signature.toList.take 32) with
    | .error .invalidEncoding => .error .invalidSignaturePoint
    | .error .nonPrimeOrder => .error .nonPrimeOrderSignaturePoint
    | .ok () =>
      match ed25519.verifyStream source.verifyingKey view.signature with
      | none => .error .invalidSignature
      | some verifier =>
        let addresses := view.destinationHash.toList ++ view.sourceHash.toList
        let material := if view.payload.stamp.isNone then addresses ++ view.payload.raw
          else view.payload.firstFour.foldl (· ++ ·) (addresses ++ [payloadArray4])
        if verifier (material ++ (view.messageId sha256).toList) then .ok ⟨view⟩
          else .error .invalidSignature

end MessageView

end Signature

end Lxmf
