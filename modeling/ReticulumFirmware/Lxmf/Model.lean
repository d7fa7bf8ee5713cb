import ReticulumFirmware.Nor.Bytes

/-!
# Durable vocabulary for inbound messages

The values of `lxmf-model`: identifiers, immutable metadata, normalized wire and replay
fingerprints. Metadata and candidates carry what their constructors check. A borrowed slice has
at most half of the address space, so the length of two segments does not overflow.
-/

namespace Lxmf

open Nor (Byte NonZeroU64)

/-- The bytes of a destination hash. -/
abbrev destinationHashLength : ℕ := 16

/-- Authenticated-message identifier. -/
abbrev MessageId := Vector Byte 32

/-- Domain-separated digest of the signed material. -/
abbrev AuthenticatedMaterialFingerprint := Vector Byte 32

/-- A destination of the network. -/
abbrev DestinationHash := Vector Byte destinationHashLength

/-- The destination of the sender. -/
abbrev SourceHash := Vector Byte destinationHashLength

/-- SHA-256 of the exact normalized wire. -/
abbrev ExactWireDigest := Vector Byte 32

/-- Stable logical identifier of one committed message. -/
abbrev MessageHandle := NonZeroU64

/-- Signature state of one parsed message. -/
inductive SignatureVerification where
  | validated
  | sourceUnknown
  | invalid
  deriving DecidableEq

/-- First carrier by which the retained message reached this node. -/
inductive CarrierProvenance where
  | complete
  | opportunistic
  | linkDataContextNone
  | resourceComplete
  deriving DecidableEq

namespace CarrierProvenance

/-- Whether the carrier omits the destination prefix of the normalized wire. -/
def omitsDestinationPrefix : CarrierProvenance → Bool
  | opportunistic => true
  | _ => false

/-- The normalized length of a carrier payload, if it fits 32 bits. -/
def normalizedLength (carrier : CarrierProvenance) (carrierPayload : ℕ) : Option ℕ :=
  if carrier.omitsDestinationPrefix then
    if carrierPayload + destinationHashLength < 2 ^ 32 then
      some (carrierPayload + destinationHashLength)
    else none
  else some carrierPayload

end CarrierProvenance

/-- Receiver-required proof-of-work cost. -/
@[ext] structure RequiredStampCost where
  get : ℕ
  pos : 0 < get
  lt : get < 255

/-- Required costs are compared by their number. -/
instance : DecidableEq RequiredStampCost := fun _ _ =>
  decidable_of_iff _ RequiredStampCost.ext_iff.symm

/-- The cost, unless it is outside `1..=254`. -/
def RequiredStampCost.new (value : ℕ) : Option RequiredStampCost :=
  if h : 0 < value ∧ value < 255 then some ⟨value, h.1, h.2⟩ else none

/-- An accepted cost is accepted again. -/
@[simp] theorem RequiredStampCost.new_get (cost : RequiredStampCost) : new cost.get = some cost :=
  dif_pos ⟨cost.pos, cost.lt⟩

/-- Evidence of the stamp policy at admission. -/
inductive StampAdmissionProvenance where
  | notRequired (stampPresent : Bool)
  | trustedPriorTicket
  | proofOfWork (targetCost : RequiredStampCost) (observedValue : BitVec 16)
  deriving DecidableEq

/-- One persisted length. -/
inductive MessageLengthKind where
  | normalizedWire
  | carrierPayload
  | title
  | content
  | fieldsEncoded
  deriving DecidableEq

/-- A length that does not fit 32 bits. -/
structure MessageLengthOverflow where
  kind : MessageLengthKind
  actual : ℕ
  deriving DecidableEq

/-- Exact wire and component lengths of one message. -/
@[ext] structure InboundMessageLengths where
  normalizedWire : ℕ
  carrierPayload : ℕ
  title : ℕ
  content : ℕ
  fieldsEncoded : ℕ
  normalizedWire_lt : normalizedWire < 2 ^ 32
  carrierPayload_lt : carrierPayload < 2 ^ 32
  title_lt : title < 2 ^ 32
  content_lt : content < 2 ^ 32
  fieldsEncoded_lt : fieldsEncoded < 2 ^ 32

/-- Lengths are compared by their fields. -/
instance : DecidableEq InboundMessageLengths := fun _ _ =>
  decidable_of_iff _ InboundMessageLengths.ext_iff.symm

namespace InboundMessageLengths

/-- The lengths, unless one does not fit 32 bits; the first such length is named. -/
def new (normalizedWire carrierPayload title content fieldsEncoded : ℕ) :
    Except MessageLengthOverflow InboundMessageLengths :=
  if normalizedWire_lt : ¬ normalizedWire < 2 ^ 32 then .error ⟨.normalizedWire, normalizedWire⟩
  else if carrierPayload_lt : ¬ carrierPayload < 2 ^ 32 then
    .error ⟨.carrierPayload, carrierPayload⟩
  else if title_lt : ¬ title < 2 ^ 32 then .error ⟨.title, title⟩
  else if content_lt : ¬ content < 2 ^ 32 then .error ⟨.content, content⟩
  else if fieldsEncoded_lt : ¬ fieldsEncoded < 2 ^ 32 then .error ⟨.fieldsEncoded, fieldsEncoded⟩
  else .ok ⟨normalizedWire, carrierPayload, title, content, fieldsEncoded,
    not_not.mp normalizedWire_lt, not_not.mp carrierPayload_lt, not_not.mp title_lt,
    not_not.mp content_lt, not_not.mp fieldsEncoded_lt⟩

/-- Lengths are accepted as they are. -/
@[simp] theorem new_self (lengths : InboundMessageLengths) :
    new lengths.normalizedWire lengths.carrierPayload lengths.title lengths.content
      lengths.fieldsEncoded = .ok lengths := by
  rw [new, dif_neg (not_not.mpr lengths.normalizedWire_lt),
    dif_neg (not_not.mpr lengths.carrierPayload_lt), dif_neg (not_not.mpr lengths.title_lt),
    dif_neg (not_not.mpr lengths.content_lt), dif_neg (not_not.mpr lengths.fieldsEncoded_lt)]

/-- Accepted lengths are the lengths given. -/
theorem of_new {normalizedWire carrierPayload title content fieldsEncoded : ℕ}
    {lengths : InboundMessageLengths}
    (h : new normalizedWire carrierPayload title content fieldsEncoded = .ok lengths) :
    lengths.normalizedWire = normalizedWire ∧ lengths.carrierPayload = carrierPayload ∧
      lengths.title = title ∧ lengths.content = content ∧
      lengths.fieldsEncoded = fieldsEncoded := by
  unfold new at h
  split at h
  · cases h
  · split at h
    · cases h
    · split at h
      · cases h
      · split at h
        · cases h
        · split at h
          · cases h
          · cases h
            exact ⟨rfl, rfl, rfl, rfl, rfl⟩

end InboundMessageLengths

/-- Inconsistent normalized and carrier byte counts. -/
structure CarrierLengthMismatch where
  carrier : CarrierProvenance
  normalizedWire : ℕ
  carrierPayload : ℕ
  deriving DecidableEq

/-- The identifier of the interface that a message came in on. -/
abbrev InboundInterfaceId := Vector Byte 8

/-- Receiver-local signal evidence for one carrier. -/
structure InboundSignalObservation where
  rssiDbm : BitVec 16
  snrDb : BitVec 16
  deriving DecidableEq

/-- First-arrival transport evidence. -/
structure InboundTransportObservation where
  interface : InboundInterfaceId
  signal : Option InboundSignalObservation
  deriving DecidableEq

/-- Semantic and first-arrival metadata of one admitted message, whose carrier payload
normalizes to its wire. -/
@[ext] structure InboundMessageMetadata where
  messageId : MessageId
  authenticatedMaterial : AuthenticatedMaterialFingerprint
  destination : DestinationHash
  source : SourceHash
  signatureVerification : SignatureVerification
  timestampBits : BitVec 64
  carrier : CarrierProvenance
  stampAdmission : StampAdmissionProvenance
  lengths : InboundMessageLengths
  ingress : Option InboundTransportObservation
  normalizes : carrier.normalizedLength lengths.carrierPayload = some lengths.normalizedWire

/-- Metadata is compared by its fields. -/
instance : DecidableEq InboundMessageMetadata := fun _ _ =>
  decidable_of_iff _ InboundMessageMetadata.ext_iff.symm

/-- Scalar evidence that agrees for one message identifier. -/
structure AuthenticatedMessageFingerprint where
  messageId : MessageId
  authenticatedMaterial : AuthenticatedMaterialFingerprint
  destination : DestinationHash
  source : SourceHash
  timestampBits : BitVec 64
  titleLen : ℕ
  contentLen : ℕ
  fieldsEncodedLen : ℕ
  deriving DecidableEq

namespace InboundMessageMetadata

/-- Metadata without transport evidence, after the carrier lengths are checked. -/
def new (messageId : MessageId) (authenticatedMaterial : AuthenticatedMaterialFingerprint)
    (destination : DestinationHash) (source : SourceHash)
    (signatureVerification : SignatureVerification) (timestampBits : BitVec 64)
    (carrier : CarrierProvenance) (stampAdmission : StampAdmissionProvenance)
    (lengths : InboundMessageLengths) : Except CarrierLengthMismatch InboundMessageMetadata :=
  if normalizes : carrier.normalizedLength lengths.carrierPayload = some lengths.normalizedWire then
    .ok ⟨messageId, authenticatedMaterial, destination, source, signatureVerification,
      timestampBits, carrier, stampAdmission, lengths, none, normalizes⟩
  else .error ⟨carrier, lengths.normalizedWire, lengths.carrierPayload⟩

/-- Attach transport evidence. -/
def withIngressObservation (metadata : InboundMessageMetadata)
    (ingress : Option InboundTransportObservation) : InboundMessageMetadata :=
  { metadata with ingress := ingress }

/-- Metadata is rebuilt from its fields. -/
theorem new_self (metadata : InboundMessageMetadata) :
    new metadata.messageId metadata.authenticatedMaterial metadata.destination metadata.source
        metadata.signatureVerification metadata.timestampBits metadata.carrier
        metadata.stampAdmission metadata.lengths =
      .ok (metadata.withIngressObservation none) :=
  dif_pos metadata.normalizes

/-- To put back the ingress observation restores the metadata. -/
@[simp] theorem withIngressObservation_self (metadata : InboundMessageMetadata)
    (ingress : Option InboundTransportObservation) :
    (metadata.withIngressObservation ingress).withIngressObservation metadata.ingress = metadata :=
  rfl

/-- Fingerprint of the logical message. -/
def authenticatedFingerprint (metadata : InboundMessageMetadata) :
    AuthenticatedMessageFingerprint where
  messageId := metadata.messageId
  authenticatedMaterial := metadata.authenticatedMaterial
  destination := metadata.destination
  source := metadata.source
  timestampBits := metadata.timestampBits
  titleLen := metadata.lengths.title
  contentLen := metadata.lengths.content
  fieldsEncodedLen := metadata.lengths.fieldsEncoded

end InboundMessageMetadata

/-- Ordered segments of one normalized wire. -/
structure NormalizedWireSegments where
  first : List Byte
  second : List Byte
  deriving DecidableEq

namespace NormalizedWireSegments

/-- Complete normalized length. -/
def totalLen (segments : NormalizedWireSegments) : ℕ :=
  segments.first.length + segments.second.length

/-- The normalized wire. -/
def bytes (segments : NormalizedWireSegments) : List Byte := segments.first ++ segments.second

/-- The bytes of the segments have their total length. -/
@[simp] theorem length_bytes (segments : NormalizedWireSegments) :
    segments.bytes.length = segments.totalLen := List.length_append

end NormalizedWireSegments

/-- Borrowed exact normalized bytes. -/
inductive NormalizedWire where
  | contiguous (bytes : List Byte)
  | opportunistic (impliedDestination : DestinationHash) (carrierPayload : List Byte)
  deriving DecidableEq

namespace NormalizedWire

/-- The segments that a wire is made of. -/
def segments : NormalizedWire → NormalizedWireSegments
  | contiguous bytes => ⟨bytes, []⟩
  | opportunistic impliedDestination carrierPayload => ⟨impliedDestination.toList, carrierPayload⟩

/-- Whether the destination is implied. -/
def isOpportunistic : NormalizedWire → Bool
  | contiguous _ => false
  | opportunistic .. => true

end NormalizedWire

/-- Inconsistency between metadata and its borrowed bytes. -/
inductive CandidateError where
  | carrierShapeMismatch (carrier : CarrierProvenance) (wireIsOpportunistic : Bool)
  | normalizedLengthMismatch (expected actual : ℕ)
  | missingDestinationPrefix (actual : ℕ)
  | destinationMismatch
  deriving DecidableEq

/-- Admitted metadata paired with the exact bytes that it describes. -/
@[ext] structure InboundMessageCandidate where
  metadata : InboundMessageMetadata
  wire : NormalizedWire
  shape : metadata.carrier.omitsDestinationPrefix = wire.isOpportunistic
  length_eq : wire.segments.totalLen = metadata.lengths.normalizedWire
  length_le : destinationHashLength ≤ metadata.lengths.normalizedWire
  destination_eq : wire.segments.bytes.take destinationHashLength = metadata.destination.toList

/-- Candidates are compared by their fields. -/
instance : DecidableEq InboundMessageCandidate := fun _ _ =>
  decidable_of_iff _ InboundMessageCandidate.ext_iff.symm

namespace InboundMessageCandidate

/-- Pair metadata with contiguous or opportunistic bytes. -/
def new (metadata : InboundMessageMetadata) (wire : NormalizedWire) :
    Except CandidateError InboundMessageCandidate :=
  if shape : metadata.carrier.omitsDestinationPrefix ≠ wire.isOpportunistic then
    .error (.carrierShapeMismatch metadata.carrier wire.isOpportunistic)
  else if length_eq : wire.segments.totalLen ≠ metadata.lengths.normalizedWire then
    .error (.normalizedLengthMismatch metadata.lengths.normalizedWire wire.segments.totalLen)
  else if length_le : metadata.lengths.normalizedWire < destinationHashLength then
    .error (.missingDestinationPrefix wire.segments.totalLen)
  else if destination_eq :
      wire.segments.bytes.take destinationHashLength ≠ metadata.destination.toList then
    .error .destinationMismatch
  else .ok ⟨metadata, wire, not_not.mp shape, not_not.mp length_eq, not_lt.mp length_le,
    not_not.mp destination_eq⟩

/-- The normalized wire of a candidate. -/
def bytes (candidate : InboundMessageCandidate) : List Byte := candidate.wire.segments.bytes

/-- The bytes of a candidate have the length that its metadata tells. -/
theorem length_bytes (candidate : InboundMessageCandidate) :
    candidate.bytes.length = candidate.metadata.lengths.normalizedWire :=
  candidate.wire.segments.length_bytes.trans candidate.length_eq

end InboundMessageCandidate

/-- Logical evidence with a digest of the exact bytes. -/
structure ReplayFingerprint where
  authenticated : AuthenticatedMessageFingerprint
  exactWireDigest : ExactWireDigest
  deriving DecidableEq

/-- Relation between a candidate and one committed fingerprint. -/
inductive ReplayRelation where
  | distinctMessage
  | exactReplay
  | equivalentReplay
  | authenticatedMetadataConflict
  deriving DecidableEq

/-- Compare a candidate fingerprint with a committed one. -/
def ReplayFingerprint.classifyAgainst (candidate committed : ReplayFingerprint) : ReplayRelation :=
  if candidate.authenticated.messageId ≠ committed.authenticated.messageId then .distinctMessage
  else if candidate.authenticated ≠ committed.authenticated then .authenticatedMetadataConflict
  else if candidate.exactWireDigest = committed.exactWireDigest then .exactReplay
  else .equivalentReplay

/-- Evidence of one durable commit. -/
structure DurableMessageReceipt where
  handle : MessageHandle
  fingerprint : ReplayFingerprint
  deriving DecidableEq

/-- The message that the receipt is for. -/
def DurableMessageReceipt.messageId (receipt : DurableMessageReceipt) : MessageId :=
  receipt.fingerprint.authenticated.messageId

end Lxmf
