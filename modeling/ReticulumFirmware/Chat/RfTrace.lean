import ReticulumFirmware.Chat.Model

/-!
# RF trace events

The radio observations that the chat store imports from the appliance, and the message
attempt an event is correlated with.
-/

namespace Chat

open Nor

/-- The identifier of a boot that traces events. -/
abbrev RfTraceBootId := UInt64

/-- The identifier of a retained trace event. -/
abbrev RfTraceEventId := NonZeroU64

/-- The place of an event among those of its boot. -/
abbrev RfTraceEventSequence := NonZeroU64

/-- The identifier of an interface of the device. -/
abbrev RfTraceInterfaceId := Vector Byte 8

/-- The token that correlates the events of one attempt. -/
abbrev RnsAttemptToken := Vector Byte 32

/-- Boots are ordered by their number. -/
instance : LinearOrder RfTraceBootId :=
  LinearOrder.lift' UInt64.toNat fun _ _ h => UInt64.toNat_inj.mp h

/-- Applied radio profile of a trace-producing boot. -/
structure RfTraceRadioProfile where
  fingerprint : Vector Byte 16
  frequencyHz : UInt32
  bandwidthHz : UInt32
  preambleSymbols : UInt16
  requestedPowerDbm : Int16
  spreadingFactor : UInt8
  codingRateDenominator : UInt8
  explicitHeader : Bool
  crc : Bool
  iqInverted : Bool
  deriving DecidableEq

/-- How a local transmission ended. -/
inductive RfTraceTxOutcome where
  | transmitted
  | accessRejected
  | permitDenied
  | authorizationExpired
  | postGrantAccessRejected
  | airtimeRejected
  | deadlineConversionOverflow
  | radioInactive
  | interfaceConfigurationMismatch
  | radioConfigurationChangedBeforePermit
  | radioConfigurationChangedAfterPermit
  | cadFault
  | txFault
  | controlPlaneRecovery
  | frameInvariantRecovery
  | cancelledRadioOperation
  deriving DecidableEq

/-- How the interface of a route was resolved. -/
inductive RfTraceRouteResolution where
  | exactReady
  | exactOffline
  | exactMissing
  | broadcastReady
  | broadcastUnavailable
  deriving DecidableEq

/-- Route facts of one prepared packet. -/
structure RfTraceRouteObservation where
  destination : DestinationHash
  nextHop : Option (Vector Byte 16)
  hops : UInt8
  selectedInterface : RfTraceInterfaceId
  resolution : RfTraceRouteResolution
  packetEvidence : PacketEvidence
  rnsAttemptToken : RnsAttemptToken
  submissionId : SubmissionId
  deriving DecidableEq

/-- Terminal evidence of one local dispatch. -/
structure RfTraceTxObservation where
  rnsAttemptToken : RnsAttemptToken
  interface : RfTraceInterfaceId
  packetEvidence : PacketEvidence
  outcome : RfTraceTxOutcome
  plannedPhysicalFrames : UInt8
  completedPhysicalFrames : UInt8
  frameCompletedAtUs : Option UInt64 × Option UInt64
  authorizedFrameObserved : Bool
  submissionId : Option SubmissionId
  deriving DecidableEq

/-- Receiver-local values of one packet. -/
structure RfTraceRxObservation where
  interface : RfTraceInterfaceId
  packetEvidence : PacketEvidence
  rnsPacketHash : Option RnsAttemptToken
  rssiDbm : Int16
  snrDb : Int16
  deriving DecidableEq

/-- How an attempt ended. -/
inductive RfTraceAttemptOutcome where
  | delivered
  | deliveryTimeout
  | unsent
  deriving DecidableEq

/-- Where a proof of delivery came in. -/
structure RfTraceProofIngress where
  interface : RfTraceInterfaceId
  signal : Option (Int16 × Int16)
  deriving DecidableEq

/-- Terminal receipt evidence of one attempt. -/
structure RfTraceAttemptObservation where
  rnsAttemptToken : RnsAttemptToken
  outcome : RfTraceAttemptOutcome
  proofIngress : Option RfTraceProofIngress
  deriving DecidableEq

/-- How far the proof of a received packet has come. -/
inductive RfTraceInboundProofStage where
  | dataLogicalRx
  | ordinaryQueued
  | physicalTxDone
  | physicalTxFailed
  deriving DecidableEq

/-- One receiver-side proof observation. -/
structure RfTraceInboundProofObservation where
  rnsAttemptToken : RnsAttemptToken
  stage : RfTraceInboundProofStage
  messageId : Option MessageId
  packetEvidence : Option PacketEvidence
  interface : Option RfTraceInterfaceId
  signal : Option (Int16 × Int16)
  dispatchOutcome : Option RfTraceTxOutcome
  deriving DecidableEq

/-- What a trace event observes. -/
inductive RfTraceObservationKind where
  | routeSelected (route : RfTraceRouteObservation)
  | dataTx (tx : RfTraceTxObservation)
  | logicalRx (rx : RfTraceRxObservation)
  | attemptTerminal (terminal : RfTraceAttemptObservation)
  | inboundProof (proof : RfTraceInboundProofObservation)
  deriving DecidableEq

/-- One observation supplied by the board. -/
structure RfTraceObservation where
  eventSequence : RfTraceEventSequence
  observedAtUs : UInt64
  kind : RfTraceObservationKind
  deriving DecidableEq

namespace RfTraceObservation

/-- Device submission named by the observation. -/
def submissionId (observation : RfTraceObservation) : Option SubmissionId :=
  match observation.kind with
  | .routeSelected route => some route.submissionId
  | .dataTx tx => tx.submissionId
  | .logicalRx _ | .attemptTerminal _ | .inboundProof _ => none

/-- Attempt token named by the observation. -/
def rnsAttemptToken (observation : RfTraceObservation) : Option RnsAttemptToken :=
  match observation.kind with
  | .routeSelected route => some route.rnsAttemptToken
  | .dataTx tx => some tx.rnsAttemptToken
  | .logicalRx rx => rx.rnsPacketHash
  | .attemptTerminal terminal => some terminal.rnsAttemptToken
  | .inboundProof proof => some proof.rnsAttemptToken

end RfTraceObservation

/-- Association of a trace with one outbox attempt. -/
structure RfTraceMessageCorrelation where
  timelineSequence : TimelineSequence
  outboxId : OutboxId
  attemptNumber : MessageAttemptNumber
  attemptLocation : AttemptLocationStamp
  deriving DecidableEq

/-- One imported trace event. -/
structure RfTraceEvent where
  id : RfTraceEventId
  bootId : RfTraceBootId
  profile : RfTraceRadioProfile
  importedAtUnixMs : UInt64
  observation : RfTraceObservation
  correlation : Option RfTraceMessageCorrelation
  deriving DecidableEq

end Chat
