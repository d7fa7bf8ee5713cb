import ReticulumFirmware.DeviceApi.RadioTrace

/-!
# Radio-trace events on the wire

The compact arrays of `device-api/src/cbor.rs`: one for each kind of event, with null in the place
of what is absent.
-/

namespace DeviceApi

open Nor (Byte)
open Cbor (Reader Writer)
open Decode

section Decoding

variable (reader : Reader)

/-- The outcome of a code. -/
def RadioTraceTxOutcome.ofWireCode : ℕ → Option RadioTraceTxOutcome
  | 0 => some .transmitted
  | 1 => some .accessRejected
  | 2 => some .permitDenied
  | 3 => some .authorizationExpired
  | 4 => some .postGrantAccessRejected
  | 5 => some .airtimeRejected
  | 6 => some .deadlineConversionOverflow
  | 7 => some .radioInactive
  | 8 => some .interfaceConfigurationMismatch
  | 9 => some .radioConfigurationChangedBeforePermit
  | 10 => some .radioConfigurationChangedAfterPermit
  | 11 => some .cadFault
  | 12 => some .txFault
  | 13 => some .controlPlaneRecovery
  | 14 => some .frameInvariantRecovery
  | 15 => some .cancelledRadioOperation
  | _ => none

/-- The resolution of a code. -/
def RouteDiagnosticResolution.ofWireCode : ℕ → Option RouteDiagnosticResolution
  | 0 => some .exactReady
  | 1 => some .exactOffline
  | 2 => some .exactMissing
  | 3 => some .broadcastReady
  | 4 => some .broadcastUnavailable
  | _ => none

/-- The end of an attempt of a code. -/
def RadioTraceAttemptOutcome.ofWireCode : ℕ → Option RadioTraceAttemptOutcome
  | 0 => some .delivered
  | 1 => some .deliveryTimeout
  | 2 => some .unsent
  | _ => none

/-- The stage of a code. -/
def RadioTraceInboundProofStage.ofWireCode : ℕ → Option RadioTraceInboundProofStage
  | 0 => some .dataLogicalRx
  | 4 => some .ordinaryQueued
  | 5 => some .physicalTxDone
  | 6 => some .physicalTxFailed
  | _ => none

/-- The value of a wire code that is in use. -/
def decodeCode {α : Type} (ofWireCode : ℕ → Option α) (field : RequiredField) (value : BitVec 8) :
    Decode α :=
  orFail (ofWireCode value.toNat) (.invalidValue field value.toNat)

/-- A known outcome. -/
def decodeRadioTraceTxOutcome : BitVec 8 → Decode RadioTraceTxOutcome :=
  decodeCode RadioTraceTxOutcome.ofWireCode .radioTraceTxOutcome

/-- A known resolution. -/
def decodeRadioTraceRouteResolution : BitVec 8 → Decode RouteDiagnosticResolution :=
  decodeCode RouteDiagnosticResolution.ofWireCode .radioTraceRouteResolution

/-- A known end of an attempt. -/
def decodeRadioTraceAttemptOutcome : BitVec 8 → Decode RadioTraceAttemptOutcome :=
  decodeCode RadioTraceAttemptOutcome.ofWireCode .radioTraceTerminalOutcome

/-- A known stage. -/
def decodeRadioTraceInboundProofStage : BitVec 8 → Decode RadioTraceInboundProofStage :=
  decodeCode RadioTraceInboundProofStage.ofWireCode .radioTraceInboundProofStage

/-- What is known of an ingress observation while its map is read. -/
structure IngressFields where
  interface : Option (Vector Byte 8)
  rssi : Option (BitVec 16)
  snr : Option (BitVec 16)
  rssiSeen : Bool
  snrSeen : Bool

/-- No field of an ingress observation has been read. -/
def IngressFields.empty : IngressFields := ⟨none, none, none, false, false⟩

/-- One entry of the map of an ingress observation. -/
def decodeIngressEntry (fields : IngressFields) : Decode IngressFields := do
  let key ← primitive reader.u64
  match key.toNat with
  | 0 => do
    rejectDuplicate fields.interface.isSome .ingressInterface
    let interface ← decodeFixedBytes reader 8 .ingressInterface
    pure { fields with interface := some interface }
  | 1 => do
    rejectDuplicate fields.rssiSeen .ingressRssi
    let rssi ← primitive reader.i16
    pure { fields with rssi := some rssi, rssiSeen := true }
  | 2 => do
    rejectDuplicate fields.snrSeen .ingressSnr
    let snr ← primitive reader.i16
    pure { fields with snr := some snr, snrSeen := true }
  | _ => do
    skipStrict reader 0
    pure fields

/-- Both signal values, or neither. -/
def pairSignal : Option (BitVec 16) → Option (BitVec 16) → Option (Option IngressSignal)
  | none, none => some none
  | some rssi, some snr => some (some ⟨rssi, snr⟩)
  | _, _ => none

/-- Read an ingress observation, whose signal values come together. -/
def decodeIngressObservation (invalidPair : DecodeError) : Decode IngressObservation := do
  let entries ← decodeMapLen reader
  let fields ← times (decodeIngressEntry reader) entries .empty
  let signal ← orFail (pairSignal fields.rssi fields.snr) invalidPair
  let interface ← require fields.interface .ingressInterface
  pure ⟨interface, signal⟩

/-- Read the elements of the evidence of a packet. -/
def decodeRadioTracePacketEvidence : Decode RadioTracePacketEvidence := do
  let interfaceId ← decodeFixedBytes reader 8 .radioTracePacketInterface
  let packetLen ← primitive reader.u16
  let sha256 ← decodeFixedBytes reader 32 .radioTracePacketSha256
  let attemptToken ← decodeOptionalFixedBytes reader 32 .radioTracePacketAttemptToken
  orFail (RadioTracePacketEvidence.tryNew interfaceId packetLen sha256 attemptToken)
    .invalidRadioTraceDataTx

/-- Read the times of the two frames of a transmission. -/
def decodeRadioTraceFrameTimestamps : Decode (Option (BitVec 64) × Option (BitVec 64)) := do
  let _ ← decodeExactArrayLen reader 2 .radioTraceTxFrameCompletedAt
  let first ← nullable reader (primitive reader.u64)
  let second ← nullable reader (primitive reader.u64)
  pure (first, second)

/-- Read the array of a transmission. -/
def decodeRadioTraceDataTxCompact : Decode RadioTraceDataTx := do
  let _ ← decodeExactArrayLen reader 9 .radioTraceEventValue
  let packet ← decodeRadioTracePacketEvidence reader
  let outcome ← primitive reader.u8 >>= decodeRadioTraceTxOutcome
  let plannedFrames ← primitive reader.u8
  let completedFrames ← primitive reader.u8
  let authorizationObserved ← primitive reader.bool
  let frameCompletedAtUs ← decodeRadioTraceFrameTimestamps reader
  orFail (RadioTraceDataTx.tryNew packet outcome plannedFrames completedFrames
    authorizationObserved frameCompletedAtUs).toOption .invalidRadioTraceDataTx

/-- Read the array of a reception. -/
def decodeRadioTraceLogicalRxCompact : Decode RadioTraceLogicalRx := do
  let _ ← decodeExactArrayLen reader 6 .radioTraceEventValue
  let packet ← decodeRadioTracePacketEvidence reader
  let rssi ← primitive reader.i16
  let snr ← primitive reader.i16
  pure ⟨packet, rssi, snr⟩

/-- Read the array of a selected route. -/
def decodeRadioTraceRouteSelectedCompact : Decode RadioTraceRouteSelected := do
  let _ ← decodeExactArrayLen reader 9 .radioTraceEventValue
  let packet ← decodeRadioTracePacketEvidence reader
  let destination ← decodeFixedBytes reader 16 .radioTraceRouteDestination
  let nextHop ← decodeOptionalFixedBytes reader 16 .radioTraceRouteNextHop
  let hops ← primitive reader.u8
  let resolution ← primitive reader.u8 >>= decodeRadioTraceRouteResolution
  let submissionId ← primitive reader.u64
  orFail (RadioTraceRouteSelected.tryNew submissionId destination nextHop hops resolution
    packet).toOption .invalidRadioTraceRouteSelected

/-- Read the array of the end of an attempt. -/
def decodeRadioTraceAttemptTerminalCompact : Decode RadioTraceAttemptTerminal := do
  let _ ← decodeExactArrayLen reader 3 .radioTraceEventValue
  let attemptToken ← decodeFixedBytes reader 32 .radioTraceTerminalAttemptToken
  let outcome ← primitive reader.u8 >>= decodeRadioTraceAttemptOutcome
  let proofIngress ←
    nullable reader (decodeIngressObservation reader .invalidRadioTraceAttemptTerminal)
  pure ⟨attemptToken, outcome, proofIngress⟩

/-- The packet of a proof stage, from its digest and its length. -/
def pairPacket : Option EncodedPacketSha256 → Option (BitVec 16) →
    Option (Option RadioTraceInboundProofPacket)
  | none, none => some none
  -- an empty packet is absent, not a failure
  | some sha256, some packetLen => some (RadioTraceInboundProofPacket.tryNew packetLen sha256)
  | _, _ => none

/-- Read the array of a signal. -/
def decodeInboundProofSignal : Decode IngressSignal := do
  let _ ← decodeExactArrayLen reader 2 .radioTraceInboundProofSignal
  let rssi ← primitive reader.i16
  let snr ← primitive reader.i16
  pure ⟨rssi, snr⟩

/-- Read the array of a proof observation. -/
def decodeRadioTraceInboundProofCompact : Decode RadioTraceInboundProof := do
  let _ ← decodeExactArrayLen reader 8 .radioTraceEventValue
  let correlationToken ← decodeFixedBytes reader 32 .radioTraceInboundProofCorrelationToken
  let stage ← primitive reader.u8 >>= decodeRadioTraceInboundProofStage
  let messageId ← decodeOptionalFixedBytes reader 32 .radioTraceInboundProofMessageId
  let packetSha256 ← decodeOptionalFixedBytes reader 32 .radioTraceInboundProofPacketSha256
  let packetLen ← nullable reader (primitive reader.u16)
  let packet ← orFail (pairPacket packetSha256 packetLen) .invalidRadioTraceInboundProof
  let interfaceId ← nullable reader (decodeFixedBytes reader 8 .radioTraceInboundProofInterface)
  let signal ← nullable reader (decodeInboundProofSignal reader)
  let dispatchOutcome ← nullable reader (primitive reader.u8 >>= decodeRadioTraceTxOutcome)
  orFail (RadioTraceInboundProof.tryNew correlationToken stage messageId packet interfaceId signal
    dispatchOutcome).toOption .invalidRadioTraceInboundProof

/-- The payload of an event, by the code of its kind. -/
def decodeRadioTraceEventKind (kindCode : BitVec 8) : Decode RadioTraceEventKind :=
  match kindCode.toNat with
  | 0 => .dataTx <$> decodeRadioTraceDataTxCompact reader
  | 1 => .logicalRx <$> decodeRadioTraceLogicalRxCompact reader
  | 2 => .routeSelected <$> decodeRadioTraceRouteSelectedCompact reader
  | 3 => .attemptTerminal <$> decodeRadioTraceAttemptTerminalCompact reader
  | 4 => .inboundProof <$> decodeRadioTraceInboundProofCompact reader
  | other => fail (.invalidValue .radioTraceEventKind other)

/-- Read an event: its place, its time, its kind and the array of its kind. -/
def decodeRadioTraceEventCompact : Decode RadioTraceEvent := do
  let _ ← decodeExactArrayLen reader 4 .radioTraceEventValue
  let sequence ← primitive reader.u64
  let observedAtUs ← primitive reader.u64
  let kindCode ← primitive reader.u8
  let kind ← decodeRadioTraceEventKind reader kindCode
  pure ⟨sequence, observedAtUs, kind⟩

end Decoding

section Encoding

variable (writer : Writer)

/-- An element, or null. -/
def encodeOptional {α : Type} (encode : α → List Byte) : Option α → List Byte
  | some value => encode value
  | none => writer.null

/-- The map of an ingress observation. -/
def encodeIngressObservation (ingress : IngressObservation) : List Byte :=
  writer.map (1 + 2 * ingress.signal.isSome.toNat) ++
    writer.u8 0 ++ encodeFixedBytes writer ingress.interfaceId ++
    match ingress.signal with
    | some signal =>
      writer.u8 1 ++ writer.i16 signal.rssiDbm ++ writer.u8 2 ++ writer.i16 signal.snrDb
    | none => []

/-- The elements of the evidence of a packet. -/
def encodeRadioTracePacketEvidence (packet : RadioTracePacketEvidence) : List Byte :=
  encodeFixedBytes writer packet.interfaceId ++ writer.u16 packet.packetLen ++
    encodeFixedBytes writer packet.encodedPacketSha256 ++
    encodeOptional writer (encodeFixedBytes writer) packet.attemptToken

/-- The array of a transmission. -/
def encodeRadioTraceDataTx (tx : RadioTraceDataTx) : List Byte :=
  writer.array 9 ++ encodeRadioTracePacketEvidence writer tx.packet ++
    writer.u8 tx.outcome.wireCode ++ writer.u8 tx.plannedFrames ++ writer.u8 tx.completedFrames ++
    writer.bool tx.authorizationObserved ++ writer.array 2 ++
    encodeOptional writer writer.u64 tx.frameCompletedAtUs.1 ++
    encodeOptional writer writer.u64 tx.frameCompletedAtUs.2

/-- The array of a reception. -/
def encodeRadioTraceLogicalRx (rx : RadioTraceLogicalRx) : List Byte :=
  writer.array 6 ++ encodeRadioTracePacketEvidence writer rx.packet ++ writer.i16 rx.rssiDbm ++
    writer.i16 rx.snrDb

/-- The array of a selected route. -/
def encodeRadioTraceRouteSelected (route : RadioTraceRouteSelected) : List Byte :=
  writer.array 9 ++ encodeRadioTracePacketEvidence writer route.packet ++
    encodeFixedBytes writer route.destination ++
    encodeOptional writer (encodeFixedBytes writer) route.nextHopIdentity ++
    writer.u8 route.hops ++ writer.u8 route.resolution.wireCode ++ writer.u64 route.submissionId

/-- The array of the end of an attempt. -/
def encodeRadioTraceAttemptTerminal (terminal : RadioTraceAttemptTerminal) : List Byte :=
  writer.array 3 ++ encodeFixedBytes writer terminal.attemptToken ++
    writer.u8 terminal.outcome.wireCode ++
    encodeOptional writer (encodeIngressObservation writer) terminal.proofIngress

/-- The array of a signal. -/
def encodeInboundProofSignal (signal : IngressSignal) : List Byte :=
  writer.array 2 ++ writer.i16 signal.rssiDbm ++ writer.i16 signal.snrDb

/-- The two elements of the packet of a proof. -/
def encodeInboundProofPacket : Option RadioTraceInboundProofPacket → List Byte
  | some packet => encodeFixedBytes writer packet.encodedPacketSha256 ++ writer.u16 packet.packetLen
  | none => writer.null ++ writer.null

/-- The array of a proof observation. -/
def encodeRadioTraceInboundProof (proof : RadioTraceInboundProof) : List Byte :=
  writer.array 8 ++ encodeFixedBytes writer proof.correlationToken ++
    writer.u8 proof.stage.wireCode ++
    encodeOptional writer (encodeFixedBytes writer) proof.messageId ++
    encodeInboundProofPacket writer proof.packet ++
    encodeOptional writer (encodeFixedBytes writer) proof.interfaceId ++
    encodeOptional writer (encodeInboundProofSignal writer) proof.signal ++
    encodeOptional writer (fun outcome => writer.u8 outcome.wireCode) proof.dispatchOutcome

/-- The array of an event, by its kind. -/
def encodeRadioTraceEventKind : RadioTraceEventKind → List Byte
  | .dataTx tx => encodeRadioTraceDataTx writer tx
  | .logicalRx rx => encodeRadioTraceLogicalRx writer rx
  | .routeSelected route => encodeRadioTraceRouteSelected writer route
  | .attemptTerminal terminal => encodeRadioTraceAttemptTerminal writer terminal
  | .inboundProof proof => encodeRadioTraceInboundProof writer proof

/-- The array of an event. -/
def encodeRadioTraceEvent (event : RadioTraceEvent) : List Byte :=
  writer.array 4 ++ writer.u64 event.sequence ++ writer.u64 event.observedAtUs ++
    writer.u8 event.kind.wireCode ++ encodeRadioTraceEventKind writer event.kind

end Encoding

end DeviceApi
