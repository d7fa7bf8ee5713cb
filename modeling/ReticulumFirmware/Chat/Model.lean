import Mathlib.Data.List.Lex
import Mathlib.Data.Vector.Basic
import Mathlib.Order.Basic
import ReticulumFirmware.Nor.Bytes

/-!
# Values of the chat store

Identifiers, messages, outbox rows and activity events of the phone's chat store.
-/

namespace Chat

open Nor

/-- A positive 64-bit number. -/
structure NonZeroU64 where
  get : UInt64
  ne_zero : get ≠ 0
  deriving DecidableEq

/-- A positive 32-bit number. -/
structure NonZeroU32 where
  get : UInt32
  ne_zero : get ≠ 0
  deriving DecidableEq

/-- The number, unless it is zero. -/
def NonZeroU64.new (value : UInt64) : Option NonZeroU64 :=
  if h : value = 0 then none else some ⟨value, h⟩

/-- One more, unless that overflows. -/
def checkedAddOne (value : UInt64) : Option UInt64 :=
  if value = 0xffffffffffffffff then none else some (value + 1)

/-- Identifiers are ordered by their number. -/
instance : LinearOrder NonZeroU64 :=
  LinearOrder.lift' (fun value => value.get.toNat) fun value value' h => by
    obtain ⟨get, hget⟩ := value
    obtain ⟨get', hget'⟩ := value'
    simpa only [NonZeroU64.mk.injEq] using UInt64.toNat_inj.mp h

/-- Byte arrays are ordered lexicographically. -/
instance byteArrayOrder (n : ℕ) : LinearOrder (Vector Byte n) :=
  LinearOrder.lift' (fun bytes => bytes.toList.map BitVec.toNat) fun bytes bytes' h => by
    apply Vector.toList_inj.mp
    exact List.map_injective_iff.mpr (fun _ _ => BitVec.eq_of_toNat_eq) h

/-- A destination of the network. -/
abbrev DestinationHash := Vector Byte 16

/-- The identifier of a message. -/
abbrev MessageId := Vector Byte 32

/-- The key that makes a submission happen once. -/
abbrev IdempotencyKey := Vector Byte 16

/-- The digest of an encoded packet. -/
abbrev EncodedPacketSha256 := Vector Byte 32

/-- The identifier of a row of the outbox. -/
abbrev OutboxId := NonZeroU64

/-- The identifier that the device gives a submission. -/
abbrev SubmissionId := NonZeroU64

/-- The place of a message in the timeline. -/
abbrev TimelineSequence := NonZeroU64

/-- The identifier of an event of the activity log. -/
abbrev MessageActivityId := NonZeroU64

/-- The number of a submission of one row. -/
abbrev MessageAttemptNumber := NonZeroU32

/-- The largest timestamp that survives the conversion to seconds. -/
abbrev maxUnixTimestampMillis : UInt64 := 8796093022207999

/-- A positive timestamp in the supported range. -/
structure UnixTimestampMillis where
  get : UInt64
  pos : 0 < get
  supported : get ≤ maxUnixTimestampMillis
  deriving DecidableEq

/-- The first submission of a row. -/
def MessageAttemptNumber.first : MessageAttemptNumber := ⟨1, by decide⟩

/-- The next submission of a row, unless the counter overflows. -/
def MessageAttemptNumber.checkedNext (attempt : MessageAttemptNumber) :
    Option MessageAttemptNumber :=
  if h : attempt.get + 1 = 0 then none else some ⟨attempt.get + 1, h⟩

/-- Location snapshot carried inside one message. -/
structure MessageLocation where
  latitudeE6 : Int32
  longitudeE6 : Int32
  altitudeCm : Int32
  speedCmPerSecond : UInt32
  bearingCentidegrees : Int32
  accuracyCm : UInt16
  updatedAtUnixSeconds : UInt32
  deriving DecidableEq

/-- How exact a location the phone grants. -/
inductive PhoneLocationAuthorization where
  | precise
  | approximate
  | unknown
  deriving DecidableEq

/-- Where a location comes from. -/
inductive PhoneLocationSource where
  | foregroundStream
  | lastKnown
  deriving DecidableEq

/-- Phone location retained with a local message observation. -/
structure PhoneLocationSample where
  latitudeE6 : Int32
  longitudeE6 : Int32
  horizontalAccuracyMm : Option UInt32
  altitudeMm : Option Int32
  verticalAccuracyMm : Option UInt32
  capturedAtUnixMs : UInt64
  authorization : PhoneLocationAuthorization
  source : PhoneLocationSource
  mocked : Option Bool
  deriving DecidableEq

/-- Why a message has no location. -/
inductive PhoneLocationUnavailableReason where
  | notObserved
  | telemetryDisabled
  | permissionDenied
  | servicesDisabled
  | platformUnavailable
  | noFixYet
  | providerError
  deriving DecidableEq

/-- Phone-location stamp of an outbound submission. -/
inductive AttemptLocationStamp where
  | available (sample : PhoneLocationSample)
  | unavailable (reason : PhoneLocationUnavailableReason)
  deriving DecidableEq

/-- Default stamp used before any observation. -/
def AttemptLocationStamp.notObserved : AttemptLocationStamp := .unavailable .notObserved

/-- Identifiers returned after the device accepts a message. -/
structure AcceptanceIds where
  submissionId : SubmissionId
  messageId : MessageId
  deriving DecidableEq

/-- Packet evidence of a submission. -/
structure PacketEvidence where
  encodedPacketLen : UInt16
  encodedPacketSha256 : EncodedPacketSha256
  nonempty : encodedPacketLen ≠ 0
  deriving DecidableEq

/-- Why the device gave a submission up. -/
inductive SubmissionFailure where
  | noPath
  | deliveryTimeout
  | downstreamRejection
  | internal
  deriving DecidableEq

/-- Whether the message may be attempted again. -/
def SubmissionFailure.isRetryable : SubmissionFailure → Bool
  | .noPath | .deliveryTimeout | .internal => true
  | .downstreamRejection => false

/-- Device-reported lifecycle state of a submission. -/
inductive SubmissionState where
  | queued
  | preparing
  | awaitingDelivery (evidence : PacketEvidence)
  | delivered (evidence : PacketEvidence)
  | applicationDelivered
  | failed (failure : SubmissionFailure)
  | cancelled
  deriving DecidableEq

namespace SubmissionState

/-- Whether this state needs no further status refresh. -/
def isTerminal : SubmissionState → Bool
  | .delivered _ | .applicationDelivered | .failed _ | .cancelled => true
  | _ => false

/-- How far a submission has come; a report never goes back in rank. -/
def progressionRank : SubmissionState → ℕ
  | .queued => 0
  | .preparing => 1
  | .awaitingDelivery _ => 2
  | .delivered _ | .applicationDelivered | .failed _ | .cancelled => 3

/-- The evidence of the packet that the state carries. -/
def packetEvidence : SubmissionState → Option PacketEvidence
  | .awaitingDelivery evidence | .delivered evidence => some evidence
  | _ => none

end SubmissionState

/-- Locally durable state of an outbound row. -/
inductive OutboxStatus where
  | committed
  | accepted
  | device (state : SubmissionState)
  deriving DecidableEq

/-- Whether no submit or status-refresh work remains. -/
def OutboxStatus.isTerminal : OutboxStatus → Bool
  | .device state => state.isTerminal
  | _ => false

/-- Outbound material committed before it is sent. -/
structure OutboxMaterial where
  destination : DestinationHash
  timestamp : UnixTimestampMillis
  idempotencyKey : IdempotencyKey
  title : List Byte
  content : List Byte
  location : Option MessageLocation
  deriving DecidableEq

/-- Durable local record of an outbound message. -/
structure OutboxRecord where
  id : OutboxId
  sequence : TimelineSequence
  material : OutboxMaterial
  acceptance : Option AcceptanceIds
  status : OutboxStatus
  currentAttempt : MessageAttemptNumber
  deriving DecidableEq

/-- User-facing metadata of a remote destination. -/
structure Contact where
  destination : DestinationHash
  displayName : String
  deriving DecidableEq

/-- The signal of a received packet. -/
structure MessageSignalObservation where
  rssiDbm : Int16
  snrDb : Int16
  deriving DecidableEq

/-- First-arrival evidence of an imported message. -/
structure MessageIngressObservation where
  interface : Vector Byte 8
  signal : Option MessageSignalObservation
  deriving DecidableEq

/-- Decoded inbound message. -/
structure InboundMessage where
  messageId : MessageId
  localDestination : DestinationHash
  source : DestinationHash
  timestamp : UnixTimestampMillis
  title : List Byte
  content : List Byte
  location : Option MessageLocation
  ingress : Option MessageIngressObservation
  deriving DecidableEq

namespace InboundMessage

/-- Equality up to the evidence of arrival and an absent location. -/
def sameAuthenticatedMessage (self other : InboundMessage) : Bool :=
  self.messageId = other.messageId ∧ self.localDestination = other.localDestination ∧
    self.source = other.source ∧ self.timestamp = other.timestamp ∧ self.title = other.title ∧
    self.content = other.content ∧
    (self.location = other.location ∨ self.location.isNone ∨ other.location.isNone)

/-- Add the evidence of arrival to a message that has none. -/
def retainIngressIfAbsent (self : InboundMessage) (ingress : Option MessageIngressObservation) :
    InboundMessage :=
  if self.ingress.isNone then { self with ingress } else self

/-- Add a location to a message that has none. -/
def retainLocationIfAbsent (self : InboundMessage) (location : Option MessageLocation) :
    InboundMessage :=
  if self.location.isNone then { self with location } else self

end InboundMessage

/-- Persisted inbound message with its place in the timeline. -/
structure InboundRecord where
  sequence : TimelineSequence
  message : InboundMessage
  receiverLocation : Option PhoneLocationSample
  deriving DecidableEq

/-- Whether a message was received or sent. -/
inductive TimelineDirection where
  | inbound
  | outbound
  deriving DecidableEq

/-- What an event of the activity log says. -/
inductive MessageActivityKind where
  | inboundImported (messageId : MessageId)
  | outboundQueued (location : AttemptLocationStamp)
  | outboundAccepted (acceptance : AcceptanceIds)
  | outboundStatus (state : SubmissionState)
  | outboundRequeued (location : AttemptLocationStamp)
  deriving DecidableEq

/-- One durable message-activity event. -/
structure MessageActivityEvent where
  id : MessageActivityId
  observedAtUnixMs : Option UInt64
  timelineSequence : TimelineSequence
  peer : DestinationHash
  direction : TimelineDirection
  outboxId : Option OutboxId
  attemptNumber : Option MessageAttemptNumber
  ingressObservation : Option MessageIngressObservation
  messageLocation : Option MessageLocation
  receiverLocation : Option PhoneLocationSample
  kind : MessageActivityKind
  deriving DecidableEq

/-- Phone-location state of an event that begins an attempt. -/
def MessageActivityEvent.attemptLocation (event : MessageActivityEvent) :
    Option AttemptLocationStamp :=
  match event.kind with
  | .outboundQueued location | .outboundRequeued location => some location
  | _ => none

end Chat
