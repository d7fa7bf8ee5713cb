import Mathlib.Data.List.Forall2
import ReticulumFirmware.Codec.CborBytes
import ReticulumFirmware.DeviceApi.DecodeItems
import ReticulumFirmware.DeviceApi.RadioTraceWire

/-!
# The evidence of a decoded event

Each compact array is read element by element. The elements that a decoded event is written with
are compared with those that it was read from.
-/

namespace DeviceApi

open Nor (Byte)
open Cbor
open Decode

section Elements

/-- An element, or null. -/
def optionalItem {α : Type} (item : α → Item) : Option α → Item
  | some value => item value
  | none => .null

/-- The item of a byte string of one length. -/
def fixedItem {n : ℕ} (bytes : Vector Byte n) : Item := .bytes bytes.toList

/-- The entries of the map of an ingress observation. -/
def IngressObservation.entries (ingress : IngressObservation) : List (Item × Item) :=
  (.uint 0, fixedItem ingress.interfaceId) ::
    match ingress.signal with
    | some signal => [(.uint 1, .int signal.rssiDbm.toInt), (.uint 2, .int signal.snrDb.toInt)]
    | none => []

/-- The item of a signal. -/
def IngressSignal.item (signal : IngressSignal) : Item :=
  .array [.int signal.rssiDbm.toInt, .int signal.snrDb.toInt]

/-- The elements of the evidence of a packet. -/
def RadioTracePacketEvidence.elements (packet : RadioTracePacketEvidence) : List Item :=
  [fixedItem packet.interfaceId, .uint packet.packetLen.toNat,
    fixedItem packet.encodedPacketSha256, optionalItem fixedItem packet.attemptToken]

/-- The two elements of the packet of a proof stage. -/
def proofPacketElements : Option RadioTraceInboundProofPacket → List Item
  | some packet => [fixedItem packet.encodedPacketSha256, .uint packet.packetLen.toNat]
  | none => [.null, .null]

/-- The compact array of an event. -/
def RadioTraceEventKind.elements : RadioTraceEventKind → List Item
  | dataTx tx => tx.packet.elements ++
      [.uint tx.outcome.wireCode.toNat, .uint tx.plannedFrames.toNat,
        .uint tx.completedFrames.toNat, .bool tx.authorizationObserved,
        .array [optionalItem (fun at_ => .uint at_.toNat) tx.frameCompletedAtUs.1,
          optionalItem (fun at_ => .uint at_.toNat) tx.frameCompletedAtUs.2]]
  | logicalRx rx => rx.packet.elements ++ [.int rx.rssiDbm.toInt, .int rx.snrDb.toInt]
  | routeSelected route => route.packet.elements ++
      [fixedItem route.destination, optionalItem fixedItem route.nextHopIdentity,
        .uint route.hops.toNat, .uint route.resolution.wireCode.toNat,
        .uint route.submissionId.toNat]
  | attemptTerminal terminal =>
      [fixedItem terminal.attemptToken, .uint terminal.outcome.wireCode.toNat,
        optionalItem (fun ingress => .map ingress.entries) terminal.proofIngress]
  | inboundProof proof =>
      [fixedItem proof.correlationToken, .uint proof.stage.wireCode.toNat,
        optionalItem fixedItem proof.messageId] ++ proofPacketElements proof.packet ++
      [optionalItem fixedItem proof.interfaceId, optionalItem IngressSignal.item proof.signal,
        optionalItem (fun outcome => .uint outcome.wireCode.toNat) proof.dispatchOutcome]

/-- The item of an event with its compact array. -/
def eventItem (sequence observedAtUs kindCode : ℕ) (elements : List Item) : Item :=
  .array [.uint sequence, .uint observedAtUs, .uint kindCode, .array elements]

/-- The item that an event is written as. -/
def RadioTraceEvent.item (event : RadioTraceEvent) : Item :=
  eventItem event.sequence.toNat event.observedAtUs.toNat event.kind.wireCode.toNat
    event.kind.elements

/-- The same element. Maps agree in the entries of the known keys, and other keys are passed
over. -/
def SameElement (wire shown : Item) : Prop :=
  wire = shown ∨ ∃ entries entries', wire = .map entries ∧ shown = .map entries' ∧
    ∀ key < 3, ∀ value, (.uint key, value) ∈ entries ↔ (.uint key, value) ∈ entries'

/-- Every element that is not null is shown as it is. -/
def Kept (wire shown : List Item) : Prop :=
  List.Forall₂ (fun wire shown => wire ≠ .null → SameElement wire shown) wire shown

/-- A proof stage with the digest of a packet of no bytes. -/
def EmptyProofPacket (kindCode : ℕ) (elements : List Item) : Prop :=
  kindCode = 4 ∧ (∃ digest, elements[3]? = some digest ∧ digest ≠ .null) ∧
    elements[4]? = some (.uint 0)

end Elements

section Codes

/-- A transmission outcome has the code that it was decoded from. -/
theorem toNat_wireCode_txOutcome {code : ℕ} {outcome : RadioTraceTxOutcome}
    (h : RadioTraceTxOutcome.ofWireCode code = some outcome) : outcome.wireCode.toNat = code := by
  unfold RadioTraceTxOutcome.ofWireCode at h
  split at h <;> cases h <;> rfl

/-- A route resolution has the code that it was decoded from. -/
theorem toNat_wireCode_resolution {code : ℕ} {resolution : RouteDiagnosticResolution}
    (h : RouteDiagnosticResolution.ofWireCode code = some resolution) :
    resolution.wireCode.toNat = code := by
  unfold RouteDiagnosticResolution.ofWireCode at h
  split at h <;> cases h <;> rfl

/-- An attempt outcome has the code that it was decoded from. -/
theorem toNat_wireCode_attemptOutcome {code : ℕ} {outcome : RadioTraceAttemptOutcome}
    (h : RadioTraceAttemptOutcome.ofWireCode code = some outcome) :
    outcome.wireCode.toNat = code := by
  unfold RadioTraceAttemptOutcome.ofWireCode at h
  split at h <;> cases h <;> rfl

/-- A proof stage has the code that it was decoded from. -/
theorem toNat_wireCode_stage {code : ℕ} {stage : RadioTraceInboundProofStage}
    (h : RadioTraceInboundProofStage.ofWireCode code = some stage) :
    stage.wireCode.toNat = code := by
  unfold RadioTraceInboundProofStage.ofWireCode at h
  split at h <;> cases h <;> rfl

/-- The code that a value is read from is the code that it is written with. -/
theorem reads_code {reader : Reader} {next : List Byte → Option (Token × List Byte)}
    (h : reader.Lawful next) {α : Type} {ofWireCode : ℕ → Option α} {wireCode : α → BitVec 8}
    (hcode : ∀ {code value}, ofWireCode code = some value → (wireCode value).toNat = code)
    {field : RequiredField} {value : α} {input rest : List Byte}
    (hdecode : (primitive reader.u8 >>= decodeCode ofWireCode field) input = .ok (value, rest)) :
    Reads next input [.uint (wireCode value).toNat] rest := by
  obtain ⟨code, middle, hread, hvalue⟩ := bind_eq_ok.mp hdecode
  obtain ⟨hsome, rfl⟩ := orFail_eq_ok.mp hvalue
  rw [hcode hsome]
  exact reads_u8 h hread

end Codes

section Ingress

variable {reader : Reader} {next : List Byte → Option (Token × List Byte)}
  {input rest : List Byte}

/-- What the fields say of the entries that were read. -/
structure FieldsOf (entries : List (Item × Item)) (fields : IngressFields) : Prop where
  interface : ∀ value, (.uint 0, value) ∈ entries ↔ ∃ bytes, fields.interface = some bytes ∧
    value = fixedItem bytes
  rssi : ∀ value, (.uint 1, value) ∈ entries ↔ ∃ rssi, fields.rssi = some rssi ∧
    value = .int rssi.toInt
  snr : ∀ value, (.uint 2, value) ∈ entries ↔ ∃ snr, fields.snr = some snr ∧
    value = .int snr.toInt
  rssiSeen : fields.rssiSeen = fields.rssi.isSome
  snrSeen : fields.snrSeen = fields.snr.isSome

/-- Before any entry no field is known. -/
theorem fieldsOf_empty : FieldsOf [] .empty := by
  constructor <;> simp [IngressFields.empty]

/-- An entry with a key is an old one or the one behind them. -/
theorem mem_concat_uint {entries : List (Item × Item)} {key key' : ℕ} {value value' : Item} :
    (.uint key, value) ∈ entries ++ [(.uint key', value')] ↔
      (.uint key, value) ∈ entries ∨ key = key' ∧ value = value' := by
  rw [List.mem_append, List.mem_singleton, Prod.mk.injEq, Item.atom.injEq, Token.uint.injEq]

/-- A field that is still vacant takes the value of one more entry. -/
theorem iff_of_vacant {α : Type} {entries : List (Item × Item)} {key : ℕ} (shape : α → Item)
    {bound : Option α} (h : ∀ value, (.uint key, value) ∈ entries ↔
      ∃ a, bound = some a ∧ value = shape a) (hvacant : bound = none) (a : α) (value : Item) :
    (.uint key, value) ∈ entries ++ [(.uint key, shape a)] ↔
      ∃ b, some a = some b ∧ value = shape b := by
  rw [mem_concat_uint, h, hvacant]
  simp

/-- The entry of another key changes nothing. -/
theorem iff_of_other {entries : List (Item × Item)} {key key' : ℕ} (hne : key ≠ key')
    {P : Item → Prop} (h : ∀ value, (.uint key, value) ∈ entries ↔ P value) (value' value : Item) :
    (.uint key, value) ∈ entries ++ [(.uint key', value')] ↔ P value := by
  rw [mem_concat_uint, h]
  exact or_iff_left fun hkey => hne hkey.1

/-- One more entry is read. -/
theorem FieldsOf.step (h : reader.Lawful next) {entries : List (Item × Item)}
    {fields fields' : IngressFields} (hfields : FieldsOf entries fields)
    (hstep : decodeIngressEntry reader fields input = .ok (fields', rest)) :
    ∃ entry : Item × Item, Reads next input [entry.1, entry.2] rest ∧
      FieldsOf (entries ++ [entry]) fields' := by
  unfold decodeIngressEntry at hstep
  obtain ⟨key, middle, hkey, hstep⟩ := bind_eq_ok.mp hstep
  have hread := reads_u64 h hkey
  generalize key.toNat = number at hstep hread
  match number with
  | 0 =>
    obtain ⟨_, after, hfresh, hstep⟩ := bind_eq_ok.mp hstep
    obtain ⟨hvacant, rfl⟩ := rejectDuplicate_eq_ok.mp hfresh
    obtain ⟨bytes, after, hbytes, hstep⟩ := bind_eq_ok.mp hstep
    obtain ⟨rfl, rfl⟩ := pure_eq_ok.mp hstep
    have hnone : fields.interface = none := by simpa using hvacant
    exact ⟨(.uint 0, fixedItem bytes), hread.append (reads_fixedBytes h hbytes),
      iff_of_vacant fixedItem hfields.interface hnone bytes,
      iff_of_other (by decide) hfields.rssi _, iff_of_other (by decide) hfields.snr _,
      hfields.rssiSeen, hfields.snrSeen⟩
  | 1 =>
    obtain ⟨_, after, hfresh, hstep⟩ := bind_eq_ok.mp hstep
    obtain ⟨hvacant, rfl⟩ := rejectDuplicate_eq_ok.mp hfresh
    obtain ⟨rssi, after, hrssi, hstep⟩ := bind_eq_ok.mp hstep
    obtain ⟨rfl, rfl⟩ := pure_eq_ok.mp hstep
    rw [hfields.rssiSeen] at hvacant
    have hnone : fields.rssi = none := by simpa using hvacant
    exact ⟨(.uint 1, .int rssi.toInt), hread.append (reads_i16 h hrssi),
      iff_of_other (by decide) hfields.interface _,
      iff_of_vacant (fun rssi => .int rssi.toInt) hfields.rssi hnone rssi,
      iff_of_other (by decide) hfields.snr _, rfl, hfields.snrSeen⟩
  | 2 =>
    obtain ⟨_, after, hfresh, hstep⟩ := bind_eq_ok.mp hstep
    obtain ⟨hvacant, rfl⟩ := rejectDuplicate_eq_ok.mp hfresh
    obtain ⟨snr, after, hsnr, hstep⟩ := bind_eq_ok.mp hstep
    obtain ⟨rfl, rfl⟩ := pure_eq_ok.mp hstep
    rw [hfields.snrSeen] at hvacant
    have hnone : fields.snr = none := by simpa using hvacant
    exact ⟨(.uint 2, .int snr.toInt), hread.append (reads_i16 h hsnr),
      iff_of_other (by decide) hfields.interface _, iff_of_other (by decide) hfields.rssi _,
      iff_of_vacant (fun snr => .int snr.toInt) hfields.snr hnone snr,
      hfields.rssiSeen, rfl⟩
  | other + 3 =>
    obtain ⟨_, after, hskip, hstep⟩ := bind_eq_ok.mp hstep
    obtain ⟨rfl, rfl⟩ := pure_eq_ok.mp hstep
    obtain ⟨item, -, hitem⟩ := reads_skipWithin h hskip
    exact ⟨(.uint (other + 3), item), hread.append hitem,
      iff_of_other (by omega) hfields.interface _, iff_of_other (by omega) hfields.rssi _,
      iff_of_other (by omega) hfields.snr _, hfields.rssiSeen, hfields.snrSeen⟩

/-- An observation has the known entries of its map. -/
theorem reads_ingressObservation (h : reader.Lawful next) {invalidPair : DecodeError}
    {ingress : IngressObservation}
    (hdecode : decodeIngressObservation reader invalidPair input = .ok (ingress, rest)) :
    ∃ entries, Reads next input [.map entries] rest ∧
      ∀ key < 3, ∀ value, (.uint key, value) ∈ entries ↔ (.uint key, value) ∈ ingress.entries := by
  unfold decodeIngressObservation at hdecode
  obtain ⟨count, body, hcount, hdecode⟩ := bind_eq_ok.mp hdecode
  obtain ⟨fields, middle, hfields, hdecode⟩ := bind_eq_ok.mp hdecode
  obtain ⟨signal, after, hsignal, hdecode⟩ := bind_eq_ok.mp hdecode
  obtain ⟨interface, last, hinterface, hdecode⟩ := bind_eq_ok.mp hdecode
  obtain ⟨rfl, rfl⟩ := pure_eq_ok.mp hdecode
  obtain ⟨hbound, rfl⟩ := require_eq_ok.mp hinterface
  obtain ⟨hmap, -⟩ := decodeMapLen_eq_ok.mp hcount
  obtain ⟨entries, hlength, hentries, hof⟩ := reads_times
    (fun entry : Item × Item => [entry.1, entry.2]) FieldsOf
    (fun _ _ _ _ _ hread hstep => hread.step h hstep) [] fieldsOf_empty hfields
  rw [List.nil_append] at hof
  rw [h.map, ← hlength] at hmap
  obtain ⟨hpair, rfl⟩ := orFail_eq_ok.mp hsignal
  refine ⟨entries, reads_map hmap hentries, fun key hkey value => ?_⟩
  have hknown : fields.rssi = signal.map (·.rssiDbm) ∧ fields.snr = signal.map (·.snrDb) := by
    unfold pairSignal at hpair
    split at hpair <;> cases hpair <;> exact ⟨by assumption, by assumption⟩
  unfold IngressObservation.entries
  match key with
  | 0 =>
    rw [hof.interface, hbound]
    cases signal <;> simp
  | 1 =>
    rw [hof.rssi, hknown.1]
    cases signal <;> simp [eq_comm]
  | 2 =>
    rw [hof.snr, hknown.2]
    cases signal <;> simp [eq_comm]

end Ingress

section Constructors

/-- A result is a value exactly where it is no error. -/
theorem toOption_eq_some {ε α : Type} {x : Except ε α} {a : α} :
    x.toOption = some a ↔ x = .ok a := by
  cases x <;> simp [Except.toOption]

/-- Accepted evidence of a packet shows the values that it was made of. -/
theorem RadioTracePacketEvidence.of_tryNew {interfaceId : ReticulumInterfaceId}
    {packetLen : BitVec 16} {sha256 : EncodedPacketSha256}
    {attemptToken : Option RadioTraceAttemptToken} {packet : RadioTracePacketEvidence}
    (h : tryNew interfaceId packetLen sha256 attemptToken = some packet) :
    packet.elements = [fixedItem interfaceId, .uint packetLen.toNat, fixedItem sha256,
      optionalItem fixedItem attemptToken] := by
  unfold tryNew at h
  split_ifs at h
  cases h
  rfl

/-- An accepted transmission holds the values that it was made of. -/
theorem RadioTraceDataTx.of_tryNew {packet : RadioTracePacketEvidence}
    {outcome : RadioTraceTxOutcome} {plannedFrames completedFrames : BitVec 8}
    {authorizationObserved : Bool} {frameCompletedAtUs : Option (BitVec 64) × Option (BitVec 64)}
    {tx : RadioTraceDataTx}
    (h : tryNew packet outcome plannedFrames completedFrames authorizationObserved
      frameCompletedAtUs = .ok tx) :
    tx.packet = packet ∧ tx.outcome = outcome ∧ tx.plannedFrames = plannedFrames ∧
      tx.completedFrames = completedFrames ∧ tx.authorizationObserved = authorizationObserved ∧
      tx.frameCompletedAtUs = frameCompletedAtUs := by
  unfold tryNew at h
  split_ifs at h
  split at h
  · cases h
  · split_ifs at h
    cases h
    exact ⟨rfl, rfl, rfl, rfl, rfl, rfl⟩

/-- An accepted route holds the values that it was made of. -/
theorem RadioTraceRouteSelected.of_tryNew {submissionId : SubmissionId}
    {destination : DestinationHash} {nextHopIdentity : Option IdentityHash} {hops : BitVec 8}
    {resolution : RouteDiagnosticResolution} {packet : RadioTracePacketEvidence}
    {route : RadioTraceRouteSelected}
    (h : tryNew submissionId destination nextHopIdentity hops resolution packet = .ok route) :
    route.submissionId = submissionId ∧ route.destination = destination ∧
      route.nextHopIdentity = nextHopIdentity ∧ route.hops = hops ∧
      route.resolution = resolution ∧ route.packet = packet := by
  unfold tryNew at h
  split_ifs at h
  cases h
  exact ⟨rfl, rfl, rfl, rfl, rfl, rfl⟩

/-- An accepted proof stage holds the values that it was made of. -/
theorem RadioTraceInboundProof.of_tryNew {correlationToken : RadioTraceAttemptToken}
    {stage : RadioTraceInboundProofStage} {messageId : Option (Vector Byte 32)}
    {packet : Option RadioTraceInboundProofPacket} {interfaceId : Option ReticulumInterfaceId}
    {signal : Option IngressSignal} {dispatchOutcome : Option RadioTraceTxOutcome}
    {proof : RadioTraceInboundProof}
    (h : tryNew correlationToken stage messageId packet interfaceId signal dispatchOutcome =
      .ok proof) :
    proof.correlationToken = correlationToken ∧ proof.stage = stage ∧
      proof.messageId = messageId ∧ proof.packet = packet ∧ proof.interfaceId = interfaceId ∧
      proof.signal = signal ∧ proof.dispatchOutcome = dispatchOutcome := by
  unfold tryNew at h
  split_ifs at h
  split at h
  · cases h
  · cases h
    exact ⟨rfl, rfl, rfl, rfl, rfl, rfl, rfl⟩

end Constructors

section Kinds

variable {reader : Reader} {next : List Byte → Option (Token × List Byte)}
  {input rest : List Byte}

/-- An optional element whose values are spelled in one way. -/
theorem reads_optional (h : reader.Lawful next) {α : Type} {decode : Decode α} {item : α → Item}
    (hdecode : ∀ input value rest, decode input = .ok (value, rest) →
      Reads next input [item value] rest)
    {value : Option α} (hvalue : nullable reader decode input = .ok (value, rest)) :
    Reads next input [optionalItem item value] rest := by
  obtain ⟨shown, hread, hshown⟩ := reads_nullable h (fun value shown => shown = item value)
    (fun input value rest hvalue => ⟨_, hdecode input value rest hvalue, rfl⟩) hvalue
  cases value with
  | none =>
    obtain rfl : shown = .null := hshown
    exact hread
  | some value =>
    rw [hshown.2] at hread
    exact hread

/-- Optional fixed bytes are decoded from a null or the byte string that holds them. -/
theorem reads_optionalFixedBytes (h : reader.Lawful next) {n : ℕ} {field : RequiredField}
    {bytes : Option (Vector Byte n)}
    (hdecode : decodeOptionalFixedBytes reader n field input = .ok (bytes, rest)) :
    Reads next input [optionalItem fixedItem bytes] rest :=
  reads_optional h (fun _ _ _ => reads_fixedBytes h) hdecode

/-- The head of a compact array. -/
theorem next_exactArray (h : reader.Lawful next) {expected length : ℕ} {field : RequiredField}
    (hdecode : decodeExactArrayLen reader expected field input = .ok (length, rest)) :
    next input = some (.array expected, rest) :=
  (h.array _ _ _).mp (decodeExactArrayLen_eq_ok.mp hdecode).1

/-- The evidence of a packet is decoded from its elements. -/
theorem reads_packetEvidence (h : reader.Lawful next) {packet : RadioTracePacketEvidence}
    (hdecode : decodeRadioTracePacketEvidence reader input = .ok (packet, rest)) :
    Reads next input packet.elements rest := by
  unfold decodeRadioTracePacketEvidence at hdecode
  obtain ⟨interfaceId, input₁, hinterface, hdecode⟩ := bind_eq_ok.mp hdecode
  obtain ⟨packetLen, input₂, hlength, hdecode⟩ := bind_eq_ok.mp hdecode
  obtain ⟨sha256, input₃, hsha256, hdecode⟩ := bind_eq_ok.mp hdecode
  obtain ⟨attemptToken, input₄, htoken, hdecode⟩ := bind_eq_ok.mp hdecode
  obtain ⟨hpacket, rfl⟩ := orFail_eq_ok.mp hdecode
  rw [RadioTracePacketEvidence.of_tryNew hpacket]
  exact (reads_fixedBytes h hinterface).append ((reads_u16 h hlength).append
    ((reads_fixedBytes h hsha256).append (reads_optionalFixedBytes h htoken)))

/-- The times of the frames are decoded from an array of two elements. -/
theorem reads_frameTimestamps (h : reader.Lawful next)
    {timestamps : Option (BitVec 64) × Option (BitVec 64)}
    (hdecode : decodeRadioTraceFrameTimestamps reader input = .ok (timestamps, rest)) :
    Reads next input [.array [optionalItem (fun at_ => .uint at_.toNat) timestamps.1,
      optionalItem (fun at_ => .uint at_.toNat) timestamps.2]] rest := by
  unfold decodeRadioTraceFrameTimestamps at hdecode
  obtain ⟨_, input₁, harray, hdecode⟩ := bind_eq_ok.mp hdecode
  obtain ⟨first, input₂, hfirst, hdecode⟩ := bind_eq_ok.mp hdecode
  obtain ⟨second, input₃, hsecond, hdecode⟩ := bind_eq_ok.mp hdecode
  obtain ⟨rfl, rfl⟩ := pure_eq_ok.mp hdecode
  exact reads_array (next_exactArray h harray)
    ((reads_optional h (fun _ _ _ => reads_u64 h) hfirst).append
      (reads_optional h (fun _ _ _ => reads_u64 h) hsecond))

/-- A transmission is decoded from the array of its elements. -/
theorem reads_dataTx (h : reader.Lawful next) {tx : RadioTraceDataTx}
    (hdecode : decodeRadioTraceDataTxCompact reader input = .ok (tx, rest)) :
    Reads next input [.array (RadioTraceEventKind.dataTx tx).elements] rest := by
  unfold decodeRadioTraceDataTxCompact at hdecode
  obtain ⟨_, input₁, harray, hdecode⟩ := bind_eq_ok.mp hdecode
  obtain ⟨packet, input₂, hpacket, hdecode⟩ := bind_eq_ok.mp hdecode
  obtain ⟨outcome, input₃, houtcome, hdecode⟩ := bind_eq_ok.mp hdecode
  obtain ⟨plannedFrames, input₄, hplanned, hdecode⟩ := bind_eq_ok.mp hdecode
  obtain ⟨completedFrames, input₅, hcompleted, hdecode⟩ := bind_eq_ok.mp hdecode
  obtain ⟨authorized, input₆, hauthorized, hdecode⟩ := bind_eq_ok.mp hdecode
  obtain ⟨timestamps, input₇, htimestamps, hdecode⟩ := bind_eq_ok.mp hdecode
  obtain ⟨htx, rfl⟩ := orFail_eq_ok.mp hdecode
  obtain ⟨rfl, rfl, rfl, rfl, rfl, rfl⟩ := RadioTraceDataTx.of_tryNew (toOption_eq_some.mp htx)
  exact reads_array (next_exactArray h harray) ((reads_packetEvidence h hpacket).append
    ((reads_code h toNat_wireCode_txOutcome houtcome).append ((reads_u8 h hplanned).append
      ((reads_u8 h hcompleted).append ((reads_bool h hauthorized).append
        (reads_frameTimestamps h htimestamps))))))

/-- A logical reception is decoded from the array of its elements. -/
theorem reads_logicalRx (h : reader.Lawful next) {rx : RadioTraceLogicalRx}
    (hdecode : decodeRadioTraceLogicalRxCompact reader input = .ok (rx, rest)) :
    Reads next input [.array (RadioTraceEventKind.logicalRx rx).elements] rest := by
  unfold decodeRadioTraceLogicalRxCompact at hdecode
  obtain ⟨_, input₁, harray, hdecode⟩ := bind_eq_ok.mp hdecode
  obtain ⟨packet, input₂, hpacket, hdecode⟩ := bind_eq_ok.mp hdecode
  obtain ⟨rssi, input₃, hrssi, hdecode⟩ := bind_eq_ok.mp hdecode
  obtain ⟨snr, input₄, hsnr, hdecode⟩ := bind_eq_ok.mp hdecode
  obtain ⟨rfl, rfl⟩ := pure_eq_ok.mp hdecode
  exact reads_array (next_exactArray h harray) ((reads_packetEvidence h hpacket).append
    ((reads_i16 h hrssi).append (reads_i16 h hsnr)))

/-- A selected route is decoded from the array of its elements. -/
theorem reads_routeSelected (h : reader.Lawful next) {route : RadioTraceRouteSelected}
    (hdecode : decodeRadioTraceRouteSelectedCompact reader input = .ok (route, rest)) :
    Reads next input [.array (RadioTraceEventKind.routeSelected route).elements] rest := by
  unfold decodeRadioTraceRouteSelectedCompact at hdecode
  obtain ⟨_, input₁, harray, hdecode⟩ := bind_eq_ok.mp hdecode
  obtain ⟨packet, input₂, hpacket, hdecode⟩ := bind_eq_ok.mp hdecode
  obtain ⟨destination, input₃, hdestination, hdecode⟩ := bind_eq_ok.mp hdecode
  obtain ⟨nextHop, input₄, hnextHop, hdecode⟩ := bind_eq_ok.mp hdecode
  obtain ⟨hops, input₅, hhops, hdecode⟩ := bind_eq_ok.mp hdecode
  obtain ⟨resolution, input₆, hresolution, hdecode⟩ := bind_eq_ok.mp hdecode
  obtain ⟨submissionId, input₇, hsubmission, hdecode⟩ := bind_eq_ok.mp hdecode
  obtain ⟨hroute, rfl⟩ := orFail_eq_ok.mp hdecode
  obtain ⟨rfl, rfl, rfl, rfl, rfl, rfl⟩ :=
    RadioTraceRouteSelected.of_tryNew (toOption_eq_some.mp hroute)
  exact reads_array (next_exactArray h harray) ((reads_packetEvidence h hpacket).append
    ((reads_fixedBytes h hdestination).append ((reads_optionalFixedBytes h hnextHop).append
      ((reads_u8 h hhops).append ((reads_code h toNat_wireCode_resolution hresolution).append
        (reads_u64 h hsubmission))))))

/-- The ingress of a proof is known by the entries of its map. -/
theorem reads_attemptTerminal (h : reader.Lawful next) {terminal : RadioTraceAttemptTerminal}
    (hdecode : decodeRadioTraceAttemptTerminalCompact reader input = .ok (terminal, rest)) :
    ∃ ingress, Reads next input [.array [fixedItem terminal.attemptToken,
        .uint terminal.outcome.wireCode.toNat, ingress]] rest ∧
      SameElement ingress
        (optionalItem (fun ingress => .map ingress.entries) terminal.proofIngress) := by
  unfold decodeRadioTraceAttemptTerminalCompact at hdecode
  obtain ⟨_, input₁, harray, hdecode⟩ := bind_eq_ok.mp hdecode
  obtain ⟨attemptToken, input₂, htoken, hdecode⟩ := bind_eq_ok.mp hdecode
  obtain ⟨outcome, input₃, houtcome, hdecode⟩ := bind_eq_ok.mp hdecode
  obtain ⟨proofIngress, input₄, hingress, hdecode⟩ := bind_eq_ok.mp hdecode
  obtain ⟨rfl, rfl⟩ := pure_eq_ok.mp hdecode
  obtain ⟨item, hitem, hshape⟩ := reads_nullable h
    (fun ingress item => SameElement item (.map (IngressObservation.entries ingress)))
    (fun input ingress rest hread => by
      obtain ⟨entries, hentries, hsame⟩ := reads_ingressObservation h hread
      exact ⟨_, hentries, Or.inr ⟨entries, _, rfl, rfl, hsame⟩⟩) hingress
  refine ⟨item, reads_array (next_exactArray h harray) ((reads_fixedBytes h htoken).append
    ((reads_code h toNat_wireCode_attemptOutcome houtcome).append hitem)), ?_⟩
  cases proofIngress with
  | none => exact Or.inl hshape
  | some ingress => exact hshape.2

end Kinds

section Proof

variable {reader : Reader} {next : List Byte → Option (Token × List Byte)}
  {input rest : List Byte}

/-- The compact array of a proof stage with a digest and a length as they were read. -/
def proofElements (proof : RadioTraceInboundProof) (sha256 : Option EncodedPacketSha256)
    (packetLen : Option (BitVec 16)) : List Item :=
  [fixedItem proof.correlationToken, .uint proof.stage.wireCode.toNat,
      optionalItem fixedItem proof.messageId] ++
    [optionalItem fixedItem sha256, optionalItem (fun length => .uint length.toNat) packetLen] ++
    [optionalItem fixedItem proof.interfaceId, optionalItem IngressSignal.item proof.signal,
      optionalItem (fun outcome => .uint outcome.wireCode.toNat) proof.dispatchOutcome]

/-- The signal of a proof is decoded from its item. -/
theorem reads_inboundProofSignal (h : reader.Lawful next) {signal : IngressSignal}
    (hdecode : decodeInboundProofSignal reader input = .ok (signal, rest)) :
    Reads next input [signal.item] rest := by
  unfold decodeInboundProofSignal at hdecode
  obtain ⟨_, input₁, harray, hdecode⟩ := bind_eq_ok.mp hdecode
  obtain ⟨rssi, input₂, hrssi, hdecode⟩ := bind_eq_ok.mp hdecode
  obtain ⟨snr, input₃, hsnr, hdecode⟩ := bind_eq_ok.mp hdecode
  obtain ⟨rfl, rfl⟩ := pure_eq_ok.mp hdecode
  exact reads_array (next_exactArray h harray) ((reads_i16 h hrssi).append (reads_i16 h hsnr))

/-- A proof stage is decoded from the array of its elements, its packet from two of them. -/
theorem reads_inboundProof (h : reader.Lawful next) {proof : RadioTraceInboundProof}
    (hdecode : decodeRadioTraceInboundProofCompact reader input = .ok (proof, rest)) :
    ∃ sha256 packetLen, pairPacket sha256 packetLen = some proof.packet ∧
      Reads next input [.array (proofElements proof sha256 packetLen)] rest := by
  unfold decodeRadioTraceInboundProofCompact at hdecode
  obtain ⟨_, input₁, harray, hdecode⟩ := bind_eq_ok.mp hdecode
  obtain ⟨correlationToken, input₂, htoken, hdecode⟩ := bind_eq_ok.mp hdecode
  obtain ⟨stage, input₃, hstage, hdecode⟩ := bind_eq_ok.mp hdecode
  obtain ⟨messageId, input₄, hmessage, hdecode⟩ := bind_eq_ok.mp hdecode
  obtain ⟨sha256, input₅, hsha256, hdecode⟩ := bind_eq_ok.mp hdecode
  obtain ⟨packetLen, input₆, hlength, hdecode⟩ := bind_eq_ok.mp hdecode
  obtain ⟨packet, input₇, hpacket, hdecode⟩ := bind_eq_ok.mp hdecode
  obtain ⟨hpair, rfl⟩ := orFail_eq_ok.mp hpacket
  obtain ⟨interfaceId, input₈, hinterface, hdecode⟩ := bind_eq_ok.mp hdecode
  obtain ⟨signal, input₉, hsignal, hdecode⟩ := bind_eq_ok.mp hdecode
  obtain ⟨dispatchOutcome, input₁₀, houtcome, hdecode⟩ := bind_eq_ok.mp hdecode
  obtain ⟨hproof, rfl⟩ := orFail_eq_ok.mp hdecode
  obtain ⟨rfl, rfl, rfl, rfl, rfl, rfl, rfl⟩ :=
    RadioTraceInboundProof.of_tryNew (toOption_eq_some.mp hproof)
  refine ⟨sha256, packetLen, hpair, reads_array (next_exactArray h harray) ?_⟩
  exact (reads_fixedBytes h htoken).append ((reads_code h toNat_wireCode_stage hstage).append
    ((reads_optionalFixedBytes h hmessage).append ((reads_optionalFixedBytes h hsha256).append
      ((reads_optional h (fun _ _ _ => reads_u16 h) hlength).append
        ((reads_optional h (fun _ _ _ => reads_fixedBytes h) hinterface).append
          ((reads_optional h (fun _ _ _ => reads_inboundProofSignal h) hsignal).append
            (reads_optional h (fun _ _ _ => reads_code h toNat_wireCode_txOutcome)
              houtcome)))))))

end Proof

section Kept

variable {reader : Reader} {writer : Writer} {next : List Byte → Option (Token × List Byte)}
  {input rest : List Byte}

/-- Elements that are shown as they are have been kept. -/
theorem kept_refl (elements : List Item) : Kept elements elements :=
  List.forall₂_same.mpr fun _ _ _ => Or.inl rfl

/-- Only a proof stage can have the digest of an empty packet. -/
theorem not_emptyProofPacket {kindCode : ℕ} (h : kindCode ≠ 4) (elements : List Item) :
    ¬ EmptyProofPacket kindCode elements := fun hempty => h hempty.1

/-- The packet of a proof stage is kept exactly if it is not empty. -/
theorem kept_proofElements {proof : RadioTraceInboundProof} {sha256 : Option EncodedPacketSha256}
    {packetLen : Option (BitVec 16)} (h : pairPacket sha256 packetLen = some proof.packet) :
    Kept (proofElements proof sha256 packetLen) (RadioTraceEventKind.inboundProof proof).elements ↔
      ¬ EmptyProofPacket 4 (proofElements proof sha256 packetLen) := by
  unfold RadioTraceEventKind.elements
  dsimp only
  cases sha256 with
  | none =>
    cases packetLen with
    | none =>
      rw [← Option.some.inj h]
      refine iff_of_true (kept_refl _) ?_
      rintro ⟨-, ⟨digest, hdigest, hne⟩, -⟩
      exact hne (Option.some.inj hdigest).symm
    | some packetLen => cases h
  | some sha256 =>
    cases packetLen with
    | none => cases h
    | some packetLen =>
      rw [← Option.some.inj h]
      unfold RadioTraceInboundProofPacket.tryNew
      split_ifs with hzero
      · subst hzero
        refine iff_of_false (fun hkept => ?_) (not_not.mpr ⟨rfl, ⟨_, rfl, ?_⟩, rfl⟩)
        · -- the digest is not null, and nothing is shown for it
          obtain ⟨-, -, -, hdigest, -⟩ : True ∧ True ∧ True ∧
              (fixedItem sha256 ≠ .null → SameElement (fixedItem sha256) .null) ∧ True := by
            unfold Kept proofElements at hkept
            simp only [proofPacketElements, List.cons_append, List.nil_append,
              List.forall₂_cons] at hkept
            exact ⟨trivial, trivial, trivial, hkept.2.2.2.1, trivial⟩
          rcases hdigest (by simp [fixedItem]) with hsame | ⟨entries, -, hsame, -⟩
          · simp [fixedItem] at hsame
          · simp [fixedItem] at hsame
        · simp [fixedItem, optionalItem]
      · refine iff_of_true (kept_refl _) ?_
        rintro ⟨-, -, hlength⟩
        have hnumber : packetLen.toNat = 0 := by
          simpa [proofElements, optionalItem] using hlength
        exact hzero (BitVec.eq_of_toNat_eq hnumber)

/-- The payload of each kind of event. -/
theorem reads_eventKind (h : reader.Lawful next) {kindCode : BitVec 8} {kind : RadioTraceEventKind}
    (hdecode : decodeRadioTraceEventKind reader kindCode input = .ok (kind, rest)) :
    kind.wireCode.toNat = kindCode.toNat ∧ ∃ elements, Reads next input [.array elements] rest ∧
      (Kept elements kind.elements ↔ ¬ EmptyProofPacket kind.wireCode.toNat elements) := by
  unfold decodeRadioTraceEventKind at hdecode
  generalize kindCode.toNat = code at hdecode
  match code with
  | 0 =>
    obtain ⟨tx, htx, rfl⟩ := map_eq_ok.mp hdecode
    exact ⟨rfl, _, reads_dataTx h htx,
      iff_of_true (kept_refl _) (not_emptyProofPacket (show 0 ≠ 4 by decide) _)⟩
  | 1 =>
    obtain ⟨rx, hrx, rfl⟩ := map_eq_ok.mp hdecode
    exact ⟨rfl, _, reads_logicalRx h hrx,
      iff_of_true (kept_refl _) (not_emptyProofPacket (show 1 ≠ 4 by decide) _)⟩
  | 2 =>
    obtain ⟨route, hroute, rfl⟩ := map_eq_ok.mp hdecode
    exact ⟨rfl, _, reads_routeSelected h hroute,
      iff_of_true (kept_refl _) (not_emptyProofPacket (show 2 ≠ 4 by decide) _)⟩
  | 3 =>
    obtain ⟨terminal, hterminal, rfl⟩ := map_eq_ok.mp hdecode
    obtain ⟨ingress, hread, hsame⟩ := reads_attemptTerminal h hterminal
    refine ⟨rfl, _, hread, iff_of_true ?_ (not_emptyProofPacket (show 3 ≠ 4 by decide) _)⟩
    exact .cons (fun _ => Or.inl rfl) (.cons (fun _ => Or.inl rfl) (.cons (fun _ => hsame) .nil))
  | 4 =>
    obtain ⟨proof, hproof, rfl⟩ := map_eq_ok.mp hdecode
    obtain ⟨sha256, packetLen, hpair, hread⟩ := reads_inboundProof h hproof
    exact ⟨rfl, _, hread, kept_proofElements hpair⟩
  | other + 5 => exact absurd hdecode fail_ne_ok

end Kept

section Rewritten

variable {writer : Writer} {next : List Byte → Option (Token × List Byte)}

/-- Written fixed bytes spell their item. -/
theorem spells_fixed (h : writer.Lawful next) {n : ℕ} (hn : n < 2 ^ 64) (bytes : Vector Byte n) :
    Spells next (encodeFixedBytes writer bytes) [fixedItem bytes] :=
  (h.bytes bytes.toList (by rwa [Vector.length_toList])).spells (Or.inl rfl)

/-- A written optional value spells a null or its item. -/
theorem spells_optional (h : writer.Lawful next) {α : Type} {encode : α → List Byte}
    {item : α → Item} (hencode : ∀ value, Spells next (encode value) [item value])
    (value : Option α) : Spells next (encodeOptional writer encode value)
      [optionalItem item value] := by
  cases value with
  | none => exact h.null.spells (Or.inr rfl)
  | some value => exact hencode value

/-- A written signed number spells its item. -/
theorem spells_i16 (h : writer.Lawful next) (value : BitVec 16) :
    Spells next (writer.i16 value) [.int value.toInt] :=
  (h.i16 value).spells (Token.isAtom_int _)

/-- Written evidence of a packet spells its elements. -/
theorem spells_packetEvidence (h : writer.Lawful next) (packet : RadioTracePacketEvidence) :
    Spells next (encodeRadioTracePacketEvidence writer packet) packet.elements :=
  (((spells_fixed h (by decide) _).append ((h.u16 _).spells (Or.inl rfl))).append
    (spells_fixed h (by decide) _)).append (spells_optional h (spells_fixed h (by decide)) _)

/-- A written ingress observation spells its map. -/
theorem spells_ingress (h : writer.Lawful next) (ingress : IngressObservation) :
    Spells next (encodeIngressObservation writer ingress) [.map ingress.entries] := by
  obtain ⟨interfaceId, signal⟩ := ingress
  unfold encodeIngressObservation
  rw [List.append_assoc, List.append_assoc]
  refine Writes.spells_map ?_ ?_
  · cases signal with
    | none => exact h.map 1 (by decide)
    | some signal => exact h.map 3 (by decide)
  · refine ((h.u8 0).spells (Or.inl rfl)).append ((spells_fixed h (by decide) _).append ?_)
    cases signal with
    | none => exact fun tail => .nil
    | some signal =>
      exact ((((h.u8 1).spells (Or.inl rfl)).append (spells_i16 h _)).append
        ((h.u8 2).spells (Or.inl rfl))).append (spells_i16 h _)

/-- The written signal of a proof spells its item. -/
theorem spells_proofSignal (h : writer.Lawful next) (signal : IngressSignal) :
    Spells next (encodeInboundProofSignal writer signal) [signal.item] := by
  unfold encodeInboundProofSignal
  rw [List.append_assoc]
  exact Writes.spells_array (h.array 2 (by decide)) ((spells_i16 h _).append (spells_i16 h _))

/-- The written packet of a proof spells its two elements. -/
theorem spells_proofPacket (h : writer.Lawful next) (packet : Option RadioTraceInboundProofPacket) :
    Spells next (encodeInboundProofPacket writer packet) (proofPacketElements packet) := by
  cases packet with
  | none => exact (h.null.spells (Or.inr rfl)).append (h.null.spells (Or.inr rfl))
  | some packet => exact (spells_fixed h (by decide) _).append ((h.u16 _).spells (Or.inl rfl))

/-- The packet of a proof has two elements. -/
theorem length_proofPacketElements (packet : Option RadioTraceInboundProofPacket) :
    (proofPacketElements packet).length = 2 := by
  cases packet <;> rfl

/-- The written kind of an event spells the array of its elements. -/
theorem spells_eventKind (h : writer.Lawful next) (kind : RadioTraceEventKind) :
    Spells next (encodeRadioTraceEventKind writer kind) [.array kind.elements] := by
  have hu8 : ∀ value, Spells next (writer.u8 value) [.uint value.toNat] := fun value =>
    (h.u8 value).spells (Or.inl rfl)
  have hu16 : ∀ value, Spells next (writer.u16 value) [.uint value.toNat] := fun value =>
    (h.u16 value).spells (Or.inl rfl)
  have hu64 : ∀ value, Spells next (writer.u64 value) [.uint value.toNat] := fun value =>
    (h.u64 value).spells (Or.inl rfl)
  cases kind with
  | dataTx tx =>
    change Spells next (encodeRadioTraceDataTx writer tx) _
    unfold encodeRadioTraceDataTx
    simp only [List.append_assoc]
    refine Writes.spells_array (h.array 9 (by decide)) ?_
    refine (spells_packetEvidence h _).append ((hu8 _).append ((hu8 _).append ((hu8 _).append
      (((h.bool _).spells (Or.inl rfl)).append ?_))))
    exact Writes.spells_array (h.array 2 (by decide))
      ((spells_optional h hu64 _).append (spells_optional h hu64 _))
  | logicalRx rx =>
    change Spells next (encodeRadioTraceLogicalRx writer rx) _
    unfold encodeRadioTraceLogicalRx
    simp only [List.append_assoc]
    exact Writes.spells_array (h.array 6 (by decide))
      ((spells_packetEvidence h _).append ((spells_i16 h _).append (spells_i16 h _)))
  | routeSelected route =>
    change Spells next (encodeRadioTraceRouteSelected writer route) _
    unfold encodeRadioTraceRouteSelected
    simp only [List.append_assoc]
    exact Writes.spells_array (h.array 9 (by decide)) ((spells_packetEvidence h _).append
      ((spells_fixed h (by decide) _).append
        ((spells_optional h (spells_fixed h (by decide)) _).append
          ((hu8 _).append ((hu8 _).append (hu64 _))))))
  | attemptTerminal terminal =>
    change Spells next (encodeRadioTraceAttemptTerminal writer terminal) _
    unfold encodeRadioTraceAttemptTerminal
    simp only [List.append_assoc]
    exact Writes.spells_array (h.array 3 (by decide)) ((spells_fixed h (by decide) _).append
      ((hu8 _).append (spells_optional h (spells_ingress h) _)))
  | inboundProof proof =>
    change Spells next (encodeRadioTraceInboundProof writer proof) _
    unfold encodeRadioTraceInboundProof
    simp only [List.append_assoc]
    have hlength : (RadioTraceEventKind.inboundProof proof).elements.length = 8 := by
      simp [RadioTraceEventKind.elements, length_proofPacketElements]
    refine Writes.spells_array (hlength.symm ▸ h.array 8 (by decide)) ?_
    have hpacket : Spells next
        (encodeInboundProofPacket writer proof.packet ++
          (encodeOptional writer (encodeFixedBytes writer) proof.interfaceId ++
            (encodeOptional writer (encodeInboundProofSignal writer) proof.signal ++
              encodeOptional writer (fun outcome => writer.u8 outcome.wireCode)
                proof.dispatchOutcome)))
        (proofPacketElements proof.packet ++ _) :=
      (spells_proofPacket h proof.packet).append
        ((spells_optional h (spells_fixed h (by decide)) proof.interfaceId).append
          ((spells_optional h (spells_proofSignal h) proof.signal).append
            (spells_optional h (fun outcome => hu8 (RadioTraceTxOutcome.wireCode outcome))
              proof.dispatchOutcome)))
    have hall := (spells_fixed h (by decide) proof.correlationToken).append
      ((hu8 proof.stage.wireCode).append
        ((spells_optional h (spells_fixed h (by decide)) proof.messageId).append hpacket))
    unfold RadioTraceEventKind.elements
    simpa only [List.append_assoc, List.cons_append, List.nil_append] using hall

/-- An event is written as its item. -/
theorem spells_event (h : writer.Lawful next) (event : RadioTraceEvent) :
    Spells next (encodeRadioTraceEvent writer event) [event.item] := by
  unfold encodeRadioTraceEvent
  simp only [List.append_assoc]
  exact Writes.spells_array (h.array 4 (by decide)) (((h.u64 _).spells (Or.inl rfl)).append
    (((h.u64 _).spells (Or.inl rfl)).append (((h.u8 _).spells (Or.inl rfl)).append
      (spells_eventKind h event.kind))))

end Rewritten

section Evidence

variable {reader : Reader} {writer : Writer} {next : List Byte → Option (Token × List Byte)}
  {input rest : List Byte}

/-- An event is decoded from an item with its number, its time, its kind and elements that are kept
unless they are a proof of an empty packet. -/
theorem reads_event (h : reader.Lawful next) {event : RadioTraceEvent}
    (hdecode : decodeRadioTraceEventCompact reader input = .ok (event, rest)) :
    ∃ elements, Reads next input [eventItem event.sequence.toNat event.observedAtUs.toNat
        event.kind.wireCode.toNat elements] rest ∧
      (Kept elements event.kind.elements ↔
        ¬ EmptyProofPacket event.kind.wireCode.toNat elements) := by
  unfold decodeRadioTraceEventCompact at hdecode
  obtain ⟨_, input₁, harray, hdecode⟩ := bind_eq_ok.mp hdecode
  obtain ⟨sequence, input₂, hsequence, hdecode⟩ := bind_eq_ok.mp hdecode
  obtain ⟨observedAtUs, input₃, hobserved, hdecode⟩ := bind_eq_ok.mp hdecode
  obtain ⟨kindCode, input₄, hcode, hdecode⟩ := bind_eq_ok.mp hdecode
  obtain ⟨kind, input₅, hkind, hdecode⟩ := bind_eq_ok.mp hdecode
  obtain ⟨rfl, rfl⟩ := pure_eq_ok.mp hdecode
  obtain ⟨hwire, elements, helements, hkept⟩ := reads_eventKind h hkind
  have hread := reads_u8 h hcode
  rw [← hwire] at hread
  exact ⟨elements, reads_array (next_exactArray h harray) ((reads_u64 h hsequence).append
    ((reads_u64 h hobserved).append (hread.append helements))), hkept⟩

/-- A decoded event is written with the elements that it was read from, unless it is a proof stage
whose packet has a digest and no bytes. -/
theorem evidence_kept (hreader : reader.Lawful next) (hwriter : writer.Lawful next)
    {event : RadioTraceEvent}
    (h : decodeRadioTraceEventCompact reader input = .ok (event, rest)) :
    (∀ tail, Reads next (encodeRadioTraceEvent writer event ++ tail) [event.item] tail) ∧
    (∃ elements, Reads next input [eventItem event.sequence.toNat event.observedAtUs.toNat
      event.kind.wireCode.toNat elements] rest) ∧
    ∀ elements, Reads next input [eventItem event.sequence.toNat event.observedAtUs.toNat
        event.kind.wireCode.toNat elements] rest →
      (Kept elements event.kind.elements ↔
        ¬ EmptyProofPacket event.kind.wireCode.toNat elements) := by
  obtain ⟨elements, helements, hkept⟩ := reads_event hreader h
  refine ⟨spells_event hwriter event, ⟨elements, helements⟩, fun elements' helements' => ?_⟩
  obtain ⟨hsame, -⟩ := helements'.unique helements rfl
  injection (List.cons.inj hsame).1 with hitems
  simp only [List.cons.injEq, true_and, and_true] at hitems
  injection hitems with hitems
  rw [hitems]
  exact hkept

/-- The bytes of a reception with the digest of a packet and a length. -/
def packetInput (packetLen : BitVec 16) : List Byte :=
  byteWriter.array 4 ++ (byteWriter.u64 7 ++ (byteWriter.u64 9 ++ (byteWriter.u8 4 ++
    (byteWriter.array 8 ++ (encodeFixedBytes byteWriter (Vector.replicate 32 0xaa) ++
      (byteWriter.u8 0 ++ (byteWriter.null ++
        (encodeFixedBytes byteWriter (Vector.replicate 32 0xbb) ++ (byteWriter.u16 packetLen ++
          (byteWriter.null ++ (byteWriter.null ++ byteWriter.null)))))))))))

/-- The elements of that reception. -/
def packetElements (packetLen : BitVec 16) : List Item :=
  [fixedItem (Vector.replicate 32 0xaa), .uint 0, .null, fixedItem (Vector.replicate 32 0xbb),
    .uint packetLen.toNat, .null, .null, .null]

/-- The bytes of the reception are read as its elements. -/
theorem reads_packetInput (packetLen : BitVec 16) :
    Reads nextToken (packetInput packetLen) [eventItem 7 9 4 (packetElements packetLen)] [] := by
  have hwriter := byteWriter_lawful
  have hu8 : ∀ value, Spells nextToken (byteWriter.u8 value) [.uint value.toNat] := fun value =>
    (hwriter.u8 value).spells (Or.inl rfl)
  have hu16 := (hwriter.u16 packetLen).spells (Or.inl rfl)
  have hnull : Spells nextToken byteWriter.null [.null] := hwriter.null.spells (Or.inr rfl)
  have hfixed : ∀ bytes : Vector Byte 32, Spells nextToken (encodeFixedBytes byteWriter bytes)
      [fixedItem bytes] := spells_fixed hwriter (by decide)
  have hproof := Writes.spells_array (hwriter.array 8 (by decide))
    ((hfixed (Vector.replicate 32 0xaa)).append ((hu8 0).append (hnull.append
      ((hfixed (Vector.replicate 32 0xbb)).append (hu16.append
        (hnull.append (hnull.append hnull)))))))
  have hevent := Writes.spells_array (hwriter.array 4 (by decide))
    (((hwriter.u64 7).spells (Or.inl rfl)).append (((hwriter.u64 9).spells (Or.inl rfl)).append
      ((hu8 4).append hproof)))
  have hread := hevent []
  rw [List.append_nil] at hread
  exact hread

/-- The bytes of a reception with the digest of a packet and the length zero. -/
def emptyPacketInput : List Byte := packetInput 0

/-- The event that they are decoded to. -/
def emptyPacketEvent : RadioTraceEvent :=
  ⟨7, 9, .inboundProof ⟨Vector.replicate 32 0xaa, .dataLogicalRx, none, none, none, none, none,
    by decide, rfl⟩⟩

/-- The input with the digest of an empty packet is decoded. -/
theorem decode_emptyPacketInput :
    decodeRadioTraceEventCompact byteReader emptyPacketInput = .ok (emptyPacketEvent, []) := by
  decide

/-- A packet of five bytes is not empty. -/
theorem fivePacket_ne_zero : (5 : BitVec 16) ≠ 0 := by decide

/-- The event of a reception with a packet of five bytes. -/
def filledPacketEvent : RadioTraceEvent :=
  ⟨7, 9, .inboundProof ⟨Vector.replicate 32 0xaa, .dataLogicalRx, none,
    some ⟨5, Vector.replicate 32 0xbb, fivePacket_ne_zero⟩, none, none, none, by decide, rfl⟩⟩

/-- The input with a packet of five bytes is decoded. -/
theorem decode_filledPacketInput :
    decodeRadioTraceEventCompact byteReader (packetInput 5) = .ok (filledPacketEvent, []) := by
  decide

/-- The evidence of the event with an empty packet, and of one with a packet of five bytes, which
is kept. -/
theorem evidence_kept_packets :
    ((∀ tail, Reads nextToken (encodeRadioTraceEvent byteWriter emptyPacketEvent ++ tail)
        [emptyPacketEvent.item] tail) ∧
      (∃ elements, Reads nextToken emptyPacketInput [eventItem 7 9 4 elements] []) ∧
      ∀ elements, Reads nextToken emptyPacketInput [eventItem 7 9 4 elements] [] →
        (Kept elements emptyPacketEvent.kind.elements ↔ ¬ EmptyProofPacket 4 elements)) ∧
    Kept (packetElements 5) filledPacketEvent.kind.elements := by
  refine ⟨evidence_kept byteReader_lawful byteWriter_lawful decode_emptyPacketInput, ?_⟩
  have hkept := evidence_kept byteReader_lawful byteWriter_lawful decode_filledPacketInput
  refine (hkept.2.2 (packetElements 5) (reads_packetInput 5)).mpr ?_
  rintro ⟨-, -, hlength⟩
  cases hlength

/-- The digest of a packet of no bytes is accepted and dropped. -/
theorem emptyPacket_dropped :
    decodeRadioTraceEventCompact byteReader emptyPacketInput = .ok (emptyPacketEvent, []) ∧
      ∃ elements, Reads nextToken emptyPacketInput [eventItem 7 9 4 elements] [] ∧
        elements[3]? = some (fixedItem (Vector.replicate 32 0xbb)) ∧
        ¬ Kept elements emptyPacketEvent.kind.elements := by
  have hempty : ∀ proof : RadioTraceInboundProof, proof.packet = none →
      ¬ Kept (proofElements proof (some (Vector.replicate 32 0xbb)) (some 0))
        (RadioTraceEventKind.inboundProof proof).elements := by
    intro proof hnone
    rw [kept_proofElements (by rw [hnone]; rfl), not_not]
    exact ⟨rfl, ⟨_, rfl, fun h => nomatch h⟩, rfl⟩
  refine ⟨decode_emptyPacketInput, _, ?_, ?_, hempty _ rfl⟩
  · exact reads_packetInput 0
  · rfl

end Evidence

end DeviceApi
