import ReticulumFirmware.Codec.CborBytes
import ReticulumFirmware.DeviceApi.DecodeOutput
import ReticulumFirmware.DeviceApi.RadioTraceWire

/-!
# The byte budget of a radio-trace page

A page is built within a budget of bytes for its events. The budget of an event is compared with
the bytes that its encoder writes.
-/

namespace DeviceApi

open Nor (Byte)
open Cbor

/-- The bytes that a page reserves for an event. -/
def RadioTraceEventKind.maximumEventBytes : RadioTraceEventKind → ℕ
  | dataTx _ => 117
  | logicalRx _ => 100
  | routeSelected _ => 140
  | attemptTerminal _ => 68
  | inboundProof _ => 137

/-- Why values are not a page. -/
inductive InvalidRadioTracePage where
  | invalidSequenceWindow
  | sparseEntries
  | eventOutsideWindow
  | notStrictlyOrdered
  | eventCombinationExceedsWireBudget
  | invalidNextCursor
  deriving DecidableEq

/-- One ascending page of the radio trace. -/
structure RadioTracePage where
  bootId : BitVec 64
  appliedLoraProfile : RadioTraceAppliedLoraProfile
  oldestSequence : BitVec 64
  nextSequence : BitVec 64
  historyLost : Bool
  entries : Vector (Option RadioTraceEvent) maxRadioTracePageEntries
  nextCursor : Option RadioTraceCursor

/-- What the entries before an entry have shown. -/
structure PageScan where
  previous : Option (BitVec 64)
  sawEmpty : Bool
  maximumEventBytes : ℕ

/-- Check one entry against those before it. -/
def scanEntry (oldestSequence nextSequence : BitVec 64) (scan : PageScan) :
    Option RadioTraceEvent → Except InvalidRadioTracePage PageScan
  | none => .ok { scan with sawEmpty := true }
  | some entry =>
    if scan.sawEmpty then .error .sparseEntries
    else if entry.sequence < oldestSequence ∨ nextSequence ≤ entry.sequence then
      .error .eventOutsideWindow
    else if scan.previous.any fun previous => decide (entry.sequence ≤ previous) then
      .error .notStrictlyOrdered
    else .ok { scan with
      previous := some entry.sequence
      maximumEventBytes := scan.maximumEventBytes + entry.kind.maximumEventBytes }

/-- A page, after the checks of its window, its entries, its size and its cursor. -/
def RadioTracePage.new (bootId : BitVec 64) (appliedLoraProfile : RadioTraceAppliedLoraProfile)
    (oldestSequence nextSequence : BitVec 64) (historyLost : Bool)
    (entries : Vector (Option RadioTraceEvent) maxRadioTracePageEntries)
    (nextCursor : Option RadioTraceCursor) : Except InvalidRadioTracePage RadioTracePage :=
  if nextSequence < oldestSequence then .error .invalidSequenceWindow
  else
    (entries.toList.foldlM (scanEntry oldestSequence nextSequence) ⟨none, false, 0⟩).bind
      fun scan =>
        let eventBudget := if nextCursor.isSome then 358 else 376
        if eventBudget < scan.maximumEventBytes then .error .eventCombinationExceedsWireBudget
        else if nextCursor.any fun cursor => decide (cursor.bootId ≠ bootId ∨
            scan.previous ≠ some cursor.afterSequence) then .error .invalidNextCursor
        else .ok ⟨bootId, appliedLoraProfile, oldestSequence, nextSequence, historyLost, entries,
          nextCursor⟩

section Encoding

variable (writer : Writer)

/-- The array of a cursor. -/
def encodeRadioTraceCursor (cursor : RadioTraceCursor) : List Byte :=
  writer.array 2 ++ writer.u64 cursor.bootId ++ writer.u64 cursor.afterSequence

/-- The array of a radio profile. -/
def encodeRadioTraceAppliedProfile (profile : RadioTraceAppliedLoraProfile) : List Byte :=
  writer.array 10 ++ encodeFixedBytes writer profile.configurationFingerprint ++
    writer.u32 profile.frequencyHz ++ writer.u32 profile.bandwidthHz ++
    writer.u16 profile.preambleSymbols ++ writer.i16 profile.requestedPowerDbm ++
    writer.u8 profile.spreadingFactor ++ writer.u8 profile.codingRateDenominator ++
    writer.bool profile.explicitHeader ++ writer.bool profile.crc ++
    writer.bool profile.iqInverted

/-- The body of a page. -/
def encodeRadioTracePage (page : RadioTracePage) : List Byte :=
  writer.array 7 ++ writer.u64 page.bootId ++
    encodeRadioTraceAppliedProfile writer page.appliedLoraProfile ++
    writer.u64 page.oldestSequence ++ writer.u64 page.nextSequence ++
    writer.bool page.historyLost ++ writer.array maxRadioTracePageEntries ++
    page.entries.toList.flatMap (encodeOptional writer (encodeRadioTraceEvent writer)) ++
    encodeOptional writer (encodeRadioTraceCursor writer) page.nextCursor

end Encoding

section Spare

/-- The bytes that a number leaves of the widest head of its type. -/
def spare64 (value : BitVec 64) : ℕ := 9 - headLength value.toNat

/-- The same for two bytes. -/
def spare16 (value : BitVec 16) : ℕ := 3 - headLength value.toNat

/-- The same for one byte. -/
def spare8 (value : BitVec 8) : ℕ := 2 - headLength value.toNat

/-- The same for a signed number of two bytes. -/
def spareInt16 (value : BitVec 16) : ℕ := 3 - (Token.int value.toInt).width

/-- The bytes that an element leaves of its `widest` form, all but the null when it is absent. -/
def spareOptional {α : Type} (widest : ℕ) (spare : α → ℕ) : Option α → ℕ
  | some value => spare value
  | none => widest - 1

/-- The bytes that a signal leaves of its widest form. -/
def spareSignal (signal : IngressSignal) : ℕ := spareInt16 signal.rssiDbm + spareInt16 signal.snrDb

/-- The bytes that the evidence of a packet leaves of its widest form. -/
def sparePacketEvidence (packet : RadioTracePacketEvidence) : ℕ :=
  spare16 packet.packetLen + spareOptional 34 (fun _ => 0) packet.attemptToken

/-- The two signal entries of an ingress map are left out together. -/
def spareIngress (ingress : IngressObservation) : ℕ :=
  match ingress.signal with
  | some signal => spareSignal signal
  | none => 8

/-- The bytes that an event leaves of the widest one of its kind. -/
def RadioTraceEventKind.spareBytes : RadioTraceEventKind → ℕ
  | dataTx tx => sparePacketEvidence tx.packet +
      spareOptional 9 spare64 tx.frameCompletedAtUs.1 +
      spareOptional 9 spare64 tx.frameCompletedAtUs.2
  | logicalRx rx => sparePacketEvidence rx.packet + spareInt16 rx.rssiDbm + spareInt16 rx.snrDb
  | routeSelected route => sparePacketEvidence route.packet +
      spareOptional 17 (fun _ => 0) route.nextHopIdentity + spare8 route.hops +
      spare64 route.submissionId
  | attemptTerminal terminal => spareOptional 19 spareIngress terminal.proofIngress
  | inboundProof proof => spareOptional 34 (fun _ => 0) proof.messageId +
      (match proof.packet with
        | some packet => spare16 packet.packetLen
        | none => 35) +
      spareOptional 9 (fun _ => 0) proof.interfaceId + spareOptional 7 spareSignal proof.signal

/-- The bytes that an event leaves of its widest form. -/
def RadioTraceEvent.spareBytes (event : RadioTraceEvent) : ℕ :=
  spare64 event.sequence + spare64 event.observedAtUs + event.kind.spareBytes

end Spare

section Lengths

variable {writer : Writer} {next : List Byte → Option (Token × List Byte)}

/-- A number of eight bytes takes nine but what it spares. -/
theorem length_u64 (h : writer.Lawful next) (value : BitVec 64) :
    (writer.u64 value).length + spare64 value = 9 := by
  have hle := headLength_le value.toNat
  rw [(h.u64 value).length, spare64, Token.width]
  omega

/-- A number of two bytes takes three but what it spares. -/
theorem length_u16 (h : writer.Lawful next) (value : BitVec 16) :
    (writer.u16 value).length + spare16 value = 3 := by
  have hle := headLength_le_three value.isLt
  rw [(h.u16 value).length, spare16, Token.width]
  omega

/-- A number of one byte takes two but what it spares. -/
theorem length_u8 (h : writer.Lawful next) (value : BitVec 8) :
    (writer.u8 value).length + spare8 value = 2 := by
  have hle := headLength_le_two value.isLt
  rw [(h.u8 value).length, spare8, Token.width]
  omega

/-- A signed number takes three bytes but what it spares. -/
theorem length_i16 (h : writer.Lawful next) (value : BitVec 16) :
    (writer.i16 value).length + spareInt16 value = 3 := by
  have hle := width_int16_le value
  rw [(h.i16 value).length, spareInt16]
  omega

/-- An element and what it leaves of its widest form. -/
theorem length_optional (h : writer.Lawful next) {α : Type} {encode : α → List Byte}
    (spare : α → ℕ) {widest : ℕ} (hwidest : 0 < widest)
    (hencode : ∀ value, (encode value).length + spare value = widest) (value : Option α) :
    (encodeOptional writer encode value).length + spareOptional widest spare value = widest := by
  cases value with
  | none =>
    rw [encodeOptional, spareOptional, h.length_null]
    omega
  | some value => exact hencode value

/-- Optional fixed bytes take their width but what a null spares. -/
theorem length_optionalFixed (h : writer.Lawful next) {n width : ℕ} (hn : n < 2 ^ 64)
    (hwidth : headLength n + n = width) (bytes : Option (Vector Byte n)) :
    (encodeOptional writer (encodeFixedBytes writer) bytes).length +
      spareOptional width (fun _ => 0) bytes = width := by
  refine length_optional h _ ?_ (fun bytes => (length_fixed h hn bytes).trans hwidth) bytes
  rw [← hwidth]
  unfold headLength
  split_ifs <;> omega

/-- The evidence of a packet takes 80 bytes but what it spares. -/
theorem length_packetEvidence (h : writer.Lawful next) (packet : RadioTracePacketEvidence) :
    (encodeRadioTracePacketEvidence writer packet).length + sparePacketEvidence packet = 80 := by
  have hlength := length_u16 h packet.packetLen
  have htoken : (encodeOptional writer (encodeFixedBytes writer) packet.attemptToken).length +
      spareOptional 34 (fun _ => 0) packet.attemptToken = 34 :=
    length_optionalFixed h (by decide) rfl _
  have hinterface := length_fixed h (by decide) packet.interfaceId
  have hsha256 := length_fixed h (by decide) packet.encodedPacketSha256
  have h8 : headLength 8 = 1 := rfl
  have h32 : headLength 32 = 2 := rfl
  unfold encodeRadioTracePacketEvidence sparePacketEvidence
  simp only [List.length_append]
  omega

/-- The wire code of an outcome fits into a head. -/
theorem toNat_wireCode_lt (outcome : RadioTraceTxOutcome) : outcome.wireCode.toNat < 24 := by
  cases outcome <;> decide

/-- A transmission takes 104 bytes but what it spares. -/
theorem length_dataTx (h : writer.Lawful next) (tx : RadioTraceDataTx) :
    (encodeRadioTraceDataTx writer tx).length +
      (RadioTraceEventKind.dataTx tx).spareBytes = 104 := by
  have hpacket := length_packetEvidence h tx.packet
  have houtcome := h.length_code (toNat_wireCode_lt tx.outcome)
  have hplanned := h.length_code (tx.planned.2.trans_lt (by decide) : tx.plannedFrames.toNat < 24)
  have hcompleted := h.length_code
    ((tx.completed.trans tx.planned.2).trans_lt (by decide) : tx.completedFrames.toNat < 24)
  have hauthorized := h.length_bool tx.authorizationObserved
  have hfirst := length_optional h spare64 (by decide) (length_u64 h) tx.frameCompletedAtUs.1
  have hsecond := length_optional h spare64 (by decide) (length_u64 h) tx.frameCompletedAtUs.2
  have hnine := h.length_array (by decide : 9 < 24)
  have htwo := h.length_array (by decide : 2 < 24)
  unfold encodeRadioTraceDataTx RadioTraceEventKind.spareBytes
  simp only [List.length_append]
  omega

/-- A logical reception takes 87 bytes but what it spares. -/
theorem length_logicalRx (h : writer.Lawful next) (rx : RadioTraceLogicalRx) :
    (encodeRadioTraceLogicalRx writer rx).length +
      (RadioTraceEventKind.logicalRx rx).spareBytes = 87 := by
  have hpacket := length_packetEvidence h rx.packet
  have hrssi := length_i16 h rx.rssiDbm
  have hsnr := length_i16 h rx.snrDb
  have hsix := h.length_array (by decide : 6 < 24)
  unfold encodeRadioTraceLogicalRx RadioTraceEventKind.spareBytes
  simp only [List.length_append]
  omega

/-- A selected route takes 127 bytes but what it spares. -/
theorem length_routeSelected (h : writer.Lawful next) (route : RadioTraceRouteSelected) :
    (encodeRadioTraceRouteSelected writer route).length +
      (RadioTraceEventKind.routeSelected route).spareBytes = 127 := by
  have hpacket := length_packetEvidence h route.packet
  have hdestination := length_fixed h (by decide) route.destination
  have hnextHop : (encodeOptional writer (encodeFixedBytes writer) route.nextHopIdentity).length +
      spareOptional 17 (fun _ => 0) route.nextHopIdentity = 17 :=
    length_optionalFixed h (by decide) rfl _
  have hhops := length_u8 h route.hops
  have hresolution : (writer.u8 route.resolution.wireCode).length = 1 :=
    h.length_code (by cases route.resolution <;> decide)
  have hsubmission := length_u64 h route.submissionId
  have hnine := h.length_array (by decide : 9 < 24)
  have h16 : headLength 16 = 1 := rfl
  unfold encodeRadioTraceRouteSelected RadioTraceEventKind.spareBytes
  simp only [List.length_append]
  omega

/-- An ingress observation takes 19 bytes but what it spares. -/
theorem length_ingress (h : writer.Lawful next) (ingress : IngressObservation) :
    (encodeIngressObservation writer ingress).length + spareIngress ingress = 19 := by
  obtain ⟨interfaceId, signal⟩ := ingress
  have hinterface := length_fixed h (by decide) interfaceId
  have h8 : headLength 8 = 1 := rfl
  have hkey : ∀ key : BitVec 8, key.toNat < 24 → (writer.u8 key).length = 1 :=
    fun _ => h.length_code
  have hzero := hkey 0 (by decide)
  have hone := hkey 1 (by decide)
  have htwo := hkey 2 (by decide)
  unfold encodeIngressObservation spareIngress
  cases signal with
  | none =>
    have hmap := h.length_map (by decide : 1 + 2 * false.toNat < 24)
    simp only [List.length_append, Option.isSome_none, hmap, List.length_nil]
    omega
  | some signal =>
    have hmap := h.length_map (by decide : 1 + 2 * true.toNat < 24)
    have hrssi := length_i16 h signal.rssiDbm
    have hsnr := length_i16 h signal.snrDb
    simp only [List.length_append, Option.isSome_some, hmap, spareSignal]
    omega

/-- The end of an attempt takes 55 bytes but what it spares. -/
theorem length_attemptTerminal (h : writer.Lawful next) (terminal : RadioTraceAttemptTerminal) :
    (encodeRadioTraceAttemptTerminal writer terminal).length +
      (RadioTraceEventKind.attemptTerminal terminal).spareBytes = 55 := by
  have htoken := length_fixed h (by decide) terminal.attemptToken
  have houtcome : (writer.u8 terminal.outcome.wireCode).length = 1 :=
    h.length_code (by cases terminal.outcome <;> decide)
  have hingress := length_optional h spareIngress (by decide) (length_ingress h)
    terminal.proofIngress
  have hthree := h.length_array (by decide : 3 < 24)
  have h32 : headLength 32 = 2 := rfl
  unfold encodeRadioTraceAttemptTerminal RadioTraceEventKind.spareBytes
  simp only [List.length_append]
  omega

/-- The signal of a proof takes seven bytes but what it spares. -/
theorem length_proofSignal (h : writer.Lawful next) (signal : IngressSignal) :
    (encodeInboundProofSignal writer signal).length + spareSignal signal = 7 := by
  have hrssi := length_i16 h signal.rssiDbm
  have hsnr := length_i16 h signal.snrDb
  have htwo := h.length_array (by decide : 2 < 24)
  unfold encodeInboundProofSignal spareSignal
  simp only [List.length_append]
  omega

/-- An inbound proof takes 124 bytes but what it spares. -/
theorem length_inboundProof (h : writer.Lawful next) (proof : RadioTraceInboundProof) :
    (encodeRadioTraceInboundProof writer proof).length +
      (RadioTraceEventKind.inboundProof proof).spareBytes = 124 := by
  have htoken := length_fixed h (by decide) proof.correlationToken
  have hstage : (writer.u8 proof.stage.wireCode).length = 1 :=
    h.length_code (by cases proof.stage <;> decide)
  have hmessage : (encodeOptional writer (encodeFixedBytes writer) proof.messageId).length +
      spareOptional 34 (fun _ => 0) proof.messageId = 34 :=
    length_optionalFixed h (by decide) rfl _
  have hinterface : (encodeOptional writer (encodeFixedBytes writer) proof.interfaceId).length +
      spareOptional 9 (fun _ => 0) proof.interfaceId = 9 :=
    length_optionalFixed h (by decide) rfl _
  have hsignal := length_optional h spareSignal (by decide) (length_proofSignal h) proof.signal
  have hdispatch : (encodeOptional writer (fun outcome => writer.u8 outcome.wireCode)
      proof.dispatchOutcome).length = 1 := by
    cases proof.dispatchOutcome with
    | none => exact h.length_null
    | some outcome => exact h.length_code (toNat_wireCode_lt outcome)
  have hpacket : (encodeInboundProofPacket writer proof.packet).length +
      (match proof.packet with
        | some packet => spare16 packet.packetLen
        | none => 35) = 37 := by
    cases proof.packet with
    | none =>
      rw [encodeInboundProofPacket, List.length_append, h.length_null]
      rfl
    | some packet =>
      have hsha256 := length_fixed h (by decide) packet.encodedPacketSha256
      have hlength := length_u16 h packet.packetLen
      have h32 : headLength 32 = 2 := rfl
      simp only [encodeInboundProofPacket, List.length_append]
      omega
  have height := h.length_array (by decide : 8 < 24)
  have h32 : headLength 32 = 2 := rfl
  unfold encodeRadioTraceInboundProof RadioTraceEventKind.spareBytes
  simp only [List.length_append]
  omega

/-- The wire code of a kind fits into a head. -/
theorem toNat_wireCode_kind_lt (kind : RadioTraceEventKind) : kind.wireCode.toNat < 24 := by
  cases kind <;> simp [RadioTraceEventKind.wireCode]

/-- The widest form of an event is seven bytes wider than what a page reserves for it. -/
theorem length_event (h : writer.Lawful next) (event : RadioTraceEvent) :
    (encodeRadioTraceEvent writer event).length + event.spareBytes =
      event.kind.maximumEventBytes + 7 := by
  have hsequence := length_u64 h event.sequence
  have hobserved := length_u64 h event.observedAtUs
  have hcode : (writer.u8 event.kind.wireCode).length = 1 :=
    h.length_code (toNat_wireCode_kind_lt event.kind)
  have hfour := h.length_array (by decide : 4 < 24)
  unfold encodeRadioTraceEvent RadioTraceEvent.spareBytes
  simp only [List.length_append]
  cases hkind : event.kind with
  | dataTx tx =>
    have htx := length_dataTx h tx
    rw [hkind] at hcode
    simp only [encodeRadioTraceEventKind, RadioTraceEventKind.maximumEventBytes]
    omega
  | logicalRx rx =>
    have hrx := length_logicalRx h rx
    rw [hkind] at hcode
    simp only [encodeRadioTraceEventKind, RadioTraceEventKind.maximumEventBytes]
    omega
  | routeSelected route =>
    have hroute := length_routeSelected h route
    rw [hkind] at hcode
    simp only [encodeRadioTraceEventKind, RadioTraceEventKind.maximumEventBytes]
    omega
  | attemptTerminal terminal =>
    have hterminal := length_attemptTerminal h terminal
    rw [hkind] at hcode
    simp only [encodeRadioTraceEventKind, RadioTraceEventKind.maximumEventBytes]
    omega
  | inboundProof proof =>
    have hproof := length_inboundProof h proof
    rw [hkind] at hcode
    simp only [encodeRadioTraceEventKind, RadioTraceEventKind.maximumEventBytes]
    omega

/-- No kind claims a maximum above 140 bytes. -/
theorem maximumEventBytes_le (kind : RadioTraceEventKind) : kind.maximumEventBytes ≤ 140 := by
  cases kind <;> simp [RadioTraceEventKind.maximumEventBytes]

/-- A profile is written in at most 41 bytes. -/
theorem length_profile (h : writer.Lawful next) (profile : RadioTraceAppliedLoraProfile) :
    (encodeRadioTraceAppliedProfile writer profile).length ≤ 41 := by
  have hfingerprint := length_fixed h (by decide) profile.configurationFingerprint
  have hfrequency : (writer.u32 profile.frequencyHz).length ≤ 5 := h.length_u32_le _
  have hbandwidth : (writer.u32 profile.bandwidthHz).length ≤ 5 := h.length_u32_le _
  have hpreamble := length_u16 h profile.preambleSymbols
  have hpower := length_i16 h profile.requestedPowerDbm
  have hspreading := length_u8 h profile.spreadingFactor
  have hcoding := length_u8 h profile.codingRateDenominator
  have hheader := h.length_bool profile.explicitHeader
  have hcrc := h.length_bool profile.crc
  have hiq := h.length_bool profile.iqInverted
  have hten := h.length_array (by decide : 10 < 24)
  have h16 : headLength 16 = 1 := rfl
  unfold encodeRadioTraceAppliedProfile
  simp only [List.length_append]
  omega

/-- A cursor is written in at most 19 bytes. -/
theorem length_cursor (h : writer.Lawful next) (cursor : RadioTraceCursor) :
    (encodeRadioTraceCursor writer cursor).length ≤ 19 := by
  have hboot := length_u64 h cursor.bootId
  have hafter := length_u64 h cursor.afterSequence
  have htwo := h.length_array (by decide : 2 < 24)
  unfold encodeRadioTraceCursor
  simp only [List.length_append]
  omega

/-- The slots of a page, whatever they hold. -/
theorem length_entries (h : writer.Lawful next) (entries : List (Option RadioTraceEvent)) :
    (entries.flatMap (encodeOptional writer (encodeRadioTraceEvent writer))).length ≤
      147 * entries.length := by
  induction entries with
  | nil => exact le_refl 0
  | cons entry rest ih =>
    have hentry : (encodeOptional writer (encodeRadioTraceEvent writer) entry).length ≤ 147 := by
      cases entry with
      | none => exact (h.length_null).le.trans (by decide)
      | some event =>
        have hlength := length_event h event
        have hle := maximumEventBytes_le event.kind
        change (encodeRadioTraceEvent writer event).length ≤ 147
        omega
    rw [List.flatMap_cons, List.length_append, List.length_cons]
    omega

/-- Every page fits the body of a response. -/
theorem length_page (h : writer.Lawful next) (page : RadioTracePage) :
    (encodeRadioTracePage writer page).length ≤ maxBodyBytes := by
  have hboot := length_u64 h page.bootId
  have hprofile := length_profile h page.appliedLoraProfile
  have holdest := length_u64 h page.oldestSequence
  have hnext := length_u64 h page.nextSequence
  have hlost := h.length_bool page.historyLost
  have hentries := length_entries h page.entries.toList
  have hcursor : (encodeOptional writer (encodeRadioTraceCursor writer) page.nextCursor).length ≤
      19 := by
    cases page.nextCursor with
    | none => exact (h.length_null).le.trans (by decide)
    | some cursor => exact length_cursor h cursor
  have hseven := h.length_array (by decide : 7 < 24)
  have htwo := h.length_array (by decide : maxRadioTracePageEntries < 24)
  rw [Vector.length_toList] at hentries
  unfold encodeRadioTracePage
  simp only [List.length_append]
  simp only [maxRadioTracePageEntries] at hentries htwo ⊢
  rw [maxBodyBytes]
  omega

end Lengths

section Budget

variable {writer : Writer} {next : List Byte → Option (Token × List Byte)}

/-- An event fits what a page reserves for it exactly if it leaves seven bytes of its widest form.
A page that is accepted fits the body of a response all the same. -/
theorem event_budget_exact (h : writer.Lawful next) :
    (∀ event : RadioTraceEvent,
      (encodeRadioTraceEvent writer event).length ≤ event.kind.maximumEventBytes ↔
        7 ≤ event.spareBytes) ∧
    ∀ bootId profile oldestSequence nextSequence historyLost entries nextCursor page,
      RadioTracePage.new bootId profile oldestSequence nextSequence historyLost entries nextCursor =
        .ok page → (encodeRadioTracePage writer page).length ≤ maxBodyBytes := by
  refine ⟨fun event => ?_, fun _ _ _ _ _ _ _ page _ => length_page h page⟩
  have hlength := length_event h event
  omega

/-- The budget of events on the bytes of the shortest heads. -/
theorem event_budget_exact_bytes :
    (∀ event : RadioTraceEvent,
      (encodeRadioTraceEvent byteWriter event).length ≤ event.kind.maximumEventBytes ↔
        7 ≤ event.spareBytes) ∧
    ∀ bootId profile oldestSequence nextSequence historyLost entries nextCursor page,
      RadioTracePage.new bootId profile oldestSequence nextSequence historyLost entries nextCursor =
        .ok page → (encodeRadioTracePage byteWriter page).length ≤ maxBodyBytes :=
  event_budget_exact byteWriter_lawful

/-- A dispatch with two completed frames and the largest numbers. -/
def widestDataTx : RadioTraceEvent :=
  ⟨BitVec.allOnes 64, BitVec.allOnes 64, .dataTx ⟨⟨Vector.replicate 8 0xff, BitVec.allOnes 16,
    Vector.replicate 32 0xff, some (Vector.replicate 32 0xfe), by decide⟩, .cancelledRadioOperation,
    2, 2, true, (some (BitVec.allOnes 64), some (BitVec.allOnes 64)), by decide, by decide, rfl⟩⟩

/-- The budget of this dispatch is 117 bytes, and it takes 124. -/
theorem widestDataTx_exceeds :
    widestDataTx.kind.maximumEventBytes = 117 ∧
      (encodeRadioTraceEvent byteWriter widestDataTx).length = 124 ∧
      ¬ (encodeRadioTraceEvent byteWriter widestDataTx).length ≤
        widestDataTx.kind.maximumEventBytes := by
  have hspare : widestDataTx.spareBytes = 0 := by decide
  have hlength : (encodeRadioTraceEvent byteWriter widestDataTx).length + 0 = 117 + 7 :=
    hspare ▸ length_event byteWriter_lawful widestDataTx
  have hbudget : widestDataTx.kind.maximumEventBytes = 117 := rfl
  refine ⟨hbudget, hlength, ?_⟩
  omega

end Budget

end DeviceApi
