import ReticulumFirmware.DeviceApi.Decode
import ReticulumFirmware.DeviceApi.Lxmf

/-!
# Radio-trace events

The values of `device-api/src/model/mod.rs` that the radio trace reports, with what their
constructors check.
-/

namespace DeviceApi

open Nor (Byte)

/-- The most events of a page. -/
abbrev maxRadioTracePageEntries : ℕ := 2

/-- The digest of an encoded packet. -/
abbrev EncodedPacketSha256 := Vector Byte 32

/-- The token that correlates the events of one attempt. -/
abbrev RadioTraceAttemptToken := Vector Byte 32

/-- The identifier of a submission. -/
abbrev SubmissionId := BitVec 64

/-- Exclusive boot-and-event-sequence cursor. -/
structure RadioTraceCursor where
  bootId : BitVec 64
  afterSequence : BitVec 64
  deriving DecidableEq

/-- LoRa configuration applied for one boot. -/
structure RadioTraceAppliedLoraProfile where
  configurationFingerprint : Vector Byte 16
  frequencyHz : BitVec 32
  bandwidthHz : BitVec 32
  preambleSymbols : BitVec 16
  requestedPowerDbm : BitVec 16
  spreadingFactor : BitVec 8
  codingRateDenominator : BitVec 8
  explicitHeader : Bool
  crc : Bool
  iqInverted : Bool
  deriving DecidableEq

/-- Packet identity of transmit and receive events. -/
@[ext] structure RadioTracePacketEvidence where
  interfaceId : ReticulumInterfaceId
  packetLen : BitVec 16
  encodedPacketSha256 : EncodedPacketSha256
  attemptToken : Option RadioTraceAttemptToken
  nonempty : packetLen ≠ 0

/-- Evidence is compared by its fields. -/
instance : DecidableEq RadioTracePacketEvidence := fun _ _ =>
  decidable_of_iff _ RadioTracePacketEvidence.ext_iff.symm

/-- Evidence of a packet, which is not empty. -/
def RadioTracePacketEvidence.tryNew (interfaceId : ReticulumInterfaceId) (packetLen : BitVec 16)
    (encodedPacketSha256 : EncodedPacketSha256) (attemptToken : Option RadioTraceAttemptToken) :
    Option RadioTracePacketEvidence :=
  if h : packetLen = 0 then none
  else some ⟨interfaceId, packetLen, encodedPacketSha256, attemptToken, h⟩

/-- Detailed terminal result of one dispatch. -/
inductive RadioTraceTxOutcome where
  | transmitted
  | accessRejected
  | permitDenied
  | authorizationExpired
  | postGrantAccessRejected
  | airtimeRejected
  | deadlineConversionOverflow
  | radioInactive
  | interfaceConfigurationMismatch
  | radioConfigurationChangedBeforePermit
  | radioConfigurationChangedAfterPermit
  | cadFault
  | txFault
  | controlPlaneRecovery
  | frameInvariantRecovery
  | cancelledRadioOperation
  deriving DecidableEq

/-- The code of an outcome. -/
def RadioTraceTxOutcome.wireCode : RadioTraceTxOutcome → BitVec 8
  | transmitted => 0
  | accessRejected => 1
  | permitDenied => 2
  | authorizationExpired => 3
  | postGrantAccessRejected => 4
  | airtimeRejected => 5
  | deadlineConversionOverflow => 6
  | radioInactive => 7
  | interfaceConfigurationMismatch => 8
  | radioConfigurationChangedBeforePermit => 9
  | radioConfigurationChangedAfterPermit => 10
  | cadFault => 11
  | txFault => 12
  | controlPlaneRecovery => 13
  | frameInvariantRecovery => 14
  | cancelledRadioOperation => 15

/-- Why values are not a transmission. -/
inductive InvalidRadioTraceDataTx where
  | invalidPlannedFrames
  | completedFramesExceedPlanned
  | sparseCompletionTimestamps
  | completionTimestampCountMismatch
  deriving DecidableEq

/-- The number of completion timestamps, which must be dense. -/
def timestampCount : Option (BitVec 64) × Option (BitVec 64) → Except InvalidRadioTraceDataTx ℕ
  | (none, some _) => .error .sparseCompletionTimestamps
  | (some _, some _) => .ok 2
  | (some _, none) => .ok 1
  | (none, none) => .ok 0

/-- One terminal dispatch of a DATA packet. -/
structure RadioTraceDataTx where
  packet : RadioTracePacketEvidence
  outcome : RadioTraceTxOutcome
  plannedFrames : BitVec 8
  completedFrames : BitVec 8
  authorizationObserved : Bool
  frameCompletedAtUs : Option (BitVec 64) × Option (BitVec 64)
  planned : 0 < plannedFrames.toNat ∧ plannedFrames.toNat ≤ 2
  completed : completedFrames.toNat ≤ plannedFrames.toNat
  counted : timestampCount frameCompletedAtUs = .ok completedFrames.toNat
  deriving DecidableEq

/-- A transmission, after its checks. -/
def RadioTraceDataTx.tryNew (packet : RadioTracePacketEvidence) (outcome : RadioTraceTxOutcome)
    (plannedFrames completedFrames : BitVec 8) (authorizationObserved : Bool)
    (frameCompletedAtUs : Option (BitVec 64) × Option (BitVec 64)) :
    Except InvalidRadioTraceDataTx RadioTraceDataTx :=
  if hplanned : 0 < plannedFrames.toNat ∧ plannedFrames.toNat ≤ 2 then
    if hcompleted : completedFrames.toNat ≤ plannedFrames.toNat then
      match hcount : timestampCount frameCompletedAtUs with
      | .error error => .error error
      | .ok count =>
        if hsame : count = completedFrames.toNat then
          .ok ⟨packet, outcome, plannedFrames, completedFrames, authorizationObserved,
            frameCompletedAtUs, hplanned, hcompleted, hcount.trans (congrArg _ hsame)⟩
        else .error .completionTimestampCountMismatch
    else .error .completedFramesExceedPlanned
  else .error .invalidPlannedFrames

/-- One complete logical packet that the receive pipeline accepted. -/
structure RadioTraceLogicalRx where
  packet : RadioTracePacketEvidence
  rssiDbm : BitVec 16
  snrDb : BitVec 16
  deriving DecidableEq

/-- How the interface of a route was resolved. -/
inductive RouteDiagnosticResolution where
  | exactReady
  | exactOffline
  | exactMissing
  | broadcastReady
  | broadcastUnavailable
  deriving DecidableEq

/-- The code of a resolution. -/
def RouteDiagnosticResolution.wireCode : RouteDiagnosticResolution → BitVec 8
  | exactReady => 0
  | exactOffline => 1
  | exactMissing => 2
  | broadcastReady => 3
  | broadcastUnavailable => 4

/-- Why values are not a selected route. -/
inductive InvalidRadioTraceRouteSelected where
  | zeroSubmissionId
  | missingAttemptToken
  deriving DecidableEq

/-- One exact route selected before dispatch. -/
structure RadioTraceRouteSelected where
  submissionId : SubmissionId
  destination : DestinationHash
  nextHopIdentity : Option IdentityHash
  hops : BitVec 8
  resolution : RouteDiagnosticResolution
  packet : RadioTracePacketEvidence
  submitted : submissionId ≠ 0
  correlated : packet.attemptToken.isSome
  deriving DecidableEq

/-- A selected route, after its checks. -/
def RadioTraceRouteSelected.tryNew (submissionId : SubmissionId) (destination : DestinationHash)
    (nextHopIdentity : Option IdentityHash) (hops : BitVec 8)
    (resolution : RouteDiagnosticResolution) (packet : RadioTracePacketEvidence) :
    Except InvalidRadioTraceRouteSelected RadioTraceRouteSelected :=
  if hzero : submissionId = 0 then .error .zeroSubmissionId
  else if htoken : packet.attemptToken.isSome then
    .ok ⟨submissionId, destination, nextHopIdentity, hops, resolution, packet, hzero, htoken⟩
  else .error .missingAttemptToken

/-- How an attempt ended. -/
inductive RadioTraceAttemptOutcome where
  | delivered
  | deliveryTimeout
  | unsent
  deriving DecidableEq

/-- The code of the end of an attempt. -/
def RadioTraceAttemptOutcome.wireCode : RadioTraceAttemptOutcome → BitVec 8
  | delivered => 0
  | deliveryTimeout => 1
  | unsent => 2

/-- One proof-correlated attempt that reached a terminal state. -/
structure RadioTraceAttemptTerminal where
  attemptToken : RadioTraceAttemptToken
  outcome : RadioTraceAttemptOutcome
  proofIngress : Option IngressObservation
  deriving DecidableEq

/-- How far the proof of a received packet has come. -/
inductive RadioTraceInboundProofStage where
  | dataLogicalRx
  | ordinaryQueued
  | physicalTxDone
  | physicalTxFailed
  deriving DecidableEq

/-- The code of a stage. -/
def RadioTraceInboundProofStage.wireCode : RadioTraceInboundProofStage → BitVec 8
  | dataLogicalRx => 0
  | ordinaryQueued => 4
  | physicalTxDone => 5
  | physicalTxFailed => 6

/-- Packet identity of a receiver-side proof stage. -/
structure RadioTraceInboundProofPacket where
  packetLen : BitVec 16
  encodedPacketSha256 : EncodedPacketSha256
  nonempty : packetLen ≠ 0
  deriving DecidableEq

/-- A packet of a proof, which is not empty. -/
def RadioTraceInboundProofPacket.tryNew (packetLen : BitVec 16)
    (encodedPacketSha256 : EncodedPacketSha256) : Option RadioTraceInboundProofPacket :=
  if h : packetLen = 0 then none else some ⟨packetLen, encodedPacketSha256, h⟩

/-- Why values are not a proof observation. -/
inductive InvalidRadioTraceInboundProof where
  | signalWithoutInterface
  | invalidPhysicalTxDoneOutcome
  | invalidPhysicalTxFailedOutcome
  | unexpectedDispatchOutcome
  deriving DecidableEq

/-- Whether a stage may report a dispatch outcome. -/
def checkDispatchOutcome : RadioTraceInboundProofStage → Option RadioTraceTxOutcome →
    Except InvalidRadioTraceInboundProof Unit
  | .physicalTxDone, some .transmitted => .ok ()
  | .physicalTxDone, _ => .error .invalidPhysicalTxDoneOutcome
  | .physicalTxFailed, none | .physicalTxFailed, some .transmitted =>
    .error .invalidPhysicalTxFailedOutcome
  | .physicalTxFailed, some _ => .ok ()
  | _, some _ => .error .unexpectedDispatchOutcome
  | _, none => .ok ()

/-- One correlated receiver-side observation. -/
structure RadioTraceInboundProof where
  correlationToken : RadioTraceAttemptToken
  stage : RadioTraceInboundProofStage
  messageId : Option (Vector Byte 32)
  packet : Option RadioTraceInboundProofPacket
  interfaceId : Option ReticulumInterfaceId
  signal : Option IngressSignal
  dispatchOutcome : Option RadioTraceTxOutcome
  received : signal.isSome → interfaceId.isSome
  dispatched : checkDispatchOutcome stage dispatchOutcome = .ok ()
  deriving DecidableEq

/-- A proof observation, after its checks. -/
def RadioTraceInboundProof.tryNew (correlationToken : RadioTraceAttemptToken)
    (stage : RadioTraceInboundProofStage) (messageId : Option (Vector Byte 32))
    (packet : Option RadioTraceInboundProofPacket) (interfaceId : Option ReticulumInterfaceId)
    (signal : Option IngressSignal) (dispatchOutcome : Option RadioTraceTxOutcome) :
    Except InvalidRadioTraceInboundProof RadioTraceInboundProof :=
  if hsignal : signal.isSome → interfaceId.isSome then
    match hcheck : checkDispatchOutcome stage dispatchOutcome with
    | .error error => .error error
    | .ok () => .ok ⟨correlationToken, stage, messageId, packet, interfaceId, signal,
        dispatchOutcome, hsignal, hcheck⟩
  else .error .signalWithoutInterface

/-- Event-specific payload of one trace record. -/
inductive RadioTraceEventKind where
  | dataTx (tx : RadioTraceDataTx)
  | logicalRx (rx : RadioTraceLogicalRx)
  | routeSelected (route : RadioTraceRouteSelected)
  | attemptTerminal (terminal : RadioTraceAttemptTerminal)
  | inboundProof (proof : RadioTraceInboundProof)
  deriving DecidableEq

/-- The code of a kind of events. -/
def RadioTraceEventKind.wireCode : RadioTraceEventKind → BitVec 8
  | dataTx _ => 0
  | logicalRx _ => 1
  | routeSelected _ => 2
  | attemptTerminal _ => 3
  | inboundProof _ => 4

/-- One immutable boot-scoped trace record. -/
structure RadioTraceEvent where
  sequence : BitVec 64
  observedAtUs : BitVec 64
  kind : RadioTraceEventKind
  deriving DecidableEq

end DeviceApi
