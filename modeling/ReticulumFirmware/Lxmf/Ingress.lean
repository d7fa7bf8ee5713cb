import ReticulumFirmware.DeviceApi.Lxmf
import ReticulumFirmware.Lxmf.Stampless
import ReticulumFirmware.Lxmf.WireGrammar

/-!
# Parsing a carrier

`lib.rs` of the ingress crate: a carrier is parsed without taking it over, and what its signature
comes to is evidence and not a reason to reject it. The carrier forms differ in where they hold the
destination, so one body for one destination is one message in each of them.
-/

namespace Lxmf

open Nor MessagePack Codec
open DeviceApi (minimumMsgpackBinaryBytes minimumWireLen)

section Forms

/-- The exact bytes of the callback. -/
def CarrierIngress.payload : CarrierIngress → List Byte
  | .opportunistic _ payload => payload
  | .linkDataContextNone _ payload => payload
  | .resourceComplete _ payload => payload

/-- The provenance that a carrier form gives. -/
def CarrierIngress.kind : CarrierIngress → CarrierProvenance
  | .opportunistic .. => .opportunistic
  | .linkDataContextNone .. => .linkDataContextNone
  | .resourceComplete .. => .resourceComplete

/-- A carrier brings a body to a destination. -/
def CarrierIngress.Delivers (destination : DestinationHash) (body : List Byte) :
    CarrierIngress → Prop
  | .opportunistic impliedDestination payload =>
    impliedDestination = destination ∧ payload = body
  | .linkDataContextNone expectedDestination payload =>
    expectedDestination = destination ∧ payload = destination.toList ++ body
  | .resourceComplete expectedDestination payload =>
    expectedDestination = destination ∧ payload = destination.toList ++ body

/-- A carrier brings one body to one destination. -/
theorem CarrierIngress.Delivers.unique {carrier : CarrierIngress} {destination : DestinationHash}
    {destination' : DestinationHash} {body body' : List Byte}
    (h : carrier.Delivers destination body) (h' : carrier.Delivers destination' body') :
    destination = destination' ∧ body = body' := by
  cases carrier with
  | opportunistic => exact ⟨h.1.symm.trans h'.1, h.2.symm.trans h'.2⟩
  | linkDataContextNone =>
    obtain ⟨rfl, hpayload⟩ := h
    obtain ⟨rfl, hpayload'⟩ := h'
    exact ⟨rfl, List.append_cancel_left (hpayload.symm.trans hpayload')⟩
  | resourceComplete =>
    obtain ⟨rfl, hpayload⟩ := h
    obtain ⟨rfl, hpayload'⟩ := h'
    exact ⟨rfl, List.append_cancel_left (hpayload.symm.trans hpayload')⟩

/-- A field in front is read from the front. -/
theorem fixedField_append {n : ℕ} (field : Vector Byte n) (bytes : List Byte) :
    fixedField n 0 (field.toList ++ bytes) = field := by
  refine Vector.ext fun i hi => ?_
  have hlength : i < field.toList.length := by
    rw [Vector.length_toList]
    exact hi
  simp [fixedField, List.getElem?_append_left hlength, hi]

/-- A field that a wire starts with, and the bytes behind it. -/
theorem eq_append_drop {n : ℕ} {wire : List Byte} (h : n ≤ wire.length) :
    wire = (fixedField n 0 wire).toList ++ wire.drop n := by
  have hfield : (fixedField n 0 wire).toList = wire.take n := by
    refine List.ext_getElem (by simp [h]) fun i hi hi' => ?_
    have hlength : i < wire.length := by
      rw [List.length_take] at hi'
      omega
    simp [fixedField, hlength]
  rw [hfield, List.take_append_drop]

variable {limits : WireLimits} {view : MessageView} {destination : DestinationHash}
  {body wire : List Byte}

/-- A body for a destination is parsed. -/
def ParsesBody (limits : WireLimits) (destination : DestinationHash) (body : List Byte)
    (carrier : CarrierProvenance) (destinationBound : Bool) (view : MessageView) : Prop :=
  opportunisticHeaderLength + 1 ≤ body.length ∧
    body.length + destinationHashLength ≤ limits.maxWireBytes ∧
    parseParts limits destination body (body.length + destinationHashLength) carrier
      destinationBound = .ok view

/-- What follows the length check runs exactly within the limit. -/
theorem enforceWireLimit_bind {α : Type} {actual : ℕ} {next : Except WireError α} {result : α} :
    (enforceWireLimit limits actual >>= fun _ => next) = .ok result ↔
      actual ≤ limits.maxWireBytes ∧ next = .ok result := by
  rw [enforceWireLimit, checkLimit]
  split_ifs with hlimit
  · exact ⟨by rintro ⟨⟩, fun h => absurd h.1 (not_le.mpr hlimit)⟩
  · exact ⟨fun h => ⟨not_lt.mp hlimit, h⟩, fun h => h.2⟩

/-- A wire is parsed as the body behind its destination. -/
theorem parsesBody_wire {carrier : CarrierProvenance} {destinationBound : Bool} :
    ParsesBody limits destination body carrier destinationBound view ↔
      ¬(destination.toList ++ body).length < wireHeaderLength + 1 ∧
      (enforceWireLimit limits (destination.toList ++ body).length >>= fun _ =>
        parseParts limits (fixedField 16 0 (destination.toList ++ body))
          ((destination.toList ++ body).drop destinationHashLength)
          (destination.toList ++ body).length carrier destinationBound) = .ok view := by
  have hlength : (destination.toList ++ body).length = body.length + destinationHashLength := by
    rw [List.length_append, Vector.length_toList, Nat.add_comm]
  have hdrop : (destination.toList ++ body).drop destinationHashLength = body :=
    List.drop_left' (Vector.length_toList ..)
  have hshort : opportunisticHeaderLength + 1 ≤ body.length ↔
      ¬body.length + destinationHashLength < wireHeaderLength + 1 := by
    simp only [opportunisticHeaderLength, wireHeaderLength, destinationHashLength]
    omega
  rw [fixedField_append, hdrop, hlength, enforceWireLimit_bind, ParsesBody, hshort]

/-- A complete wire is parsed as its destination and its body. -/
theorem parseComplete_append :
    parseComplete limits (destination.toList ++ body) = .ok view ↔
      ParsesBody limits destination body .complete false view := by
  rw [parsesBody_wire, parseComplete]
  split_ifs with hshort
  · exact ⟨by rintro ⟨⟩, fun h => absurd hshort h.1⟩
  · exact ⟨fun h => ⟨hshort, h⟩, fun h => h.2⟩

/-- A complete wire in a carrier is parsed as its destination and its body. -/
theorem parseCompleteWithCarrier_append {carrier : CarrierProvenance} :
    parseCompleteWithCarrier limits (destination.toList ++ body) destination carrier = .ok view ↔
      ParsesBody limits destination body carrier true view := by
  have hbound : ¬fixedField 16 0 (destination.toList ++ body) ≠ destination :=
    not_not.mpr (fixedField_append destination body)
  rw [parsesBody_wire, parseCompleteWithCarrier]
  split_ifs with hshort
  · exact ⟨by rintro ⟨⟩, fun h => absurd hshort h.1⟩
  · exact ⟨fun h => ⟨hshort, h⟩, fun h => h.2⟩

/-- A wire that is accepted for a destination starts with it. -/
theorem eq_append_of_parse {carrier : CarrierProvenance}
    (h : parseCompleteWithCarrier limits wire destination carrier = .ok view) :
    wire = destination.toList ++ wire.drop destinationHashLength := by
  unfold parseCompleteWithCarrier at h
  obtain ⟨hshort, h⟩ : ¬wire.length < wireHeaderLength + 1 ∧ _ := by
    split at h
    · cases h
    · exact ⟨‹_›, h⟩
  obtain ⟨-, h⟩ := enforceWireLimit_bind.mp h
  split_ifs at h with hbound
  rw [not_not] at hbound
  have hwire := @eq_append_drop destinationHashLength wire
    (by simp only [wireHeaderLength] at hshort; simp only [destinationHashLength]; omega)
  rwa [hbound] at hwire

/-- A carrier is accepted exactly if it brings a body to its destination and the body is parsed:
its form decides nothing else. -/
theorem parseIngress_ok_iff {carrier : CarrierIngress} :
    parseIngress limits carrier = .ok view ↔
      ∃ destination body, carrier.Delivers destination body ∧
        ParsesBody limits destination body carrier.kind true view := by
  cases carrier with
  | opportunistic impliedDestination payload =>
    have hparse : parseIngress limits (.opportunistic impliedDestination payload) = .ok view ↔
        ParsesBody limits impliedDestination payload .opportunistic true view := by
      rw [parseIngress, ParsesBody]
      split_ifs with hshort
      · exact ⟨by rintro ⟨⟩, fun h => absurd hshort (not_lt.mpr h.1)⟩
      · rw [enforceWireLimit_bind, and_iff_right (not_lt.mp hshort)]
    rw [hparse]
    exact ⟨fun h => ⟨_, _, ⟨rfl, rfl⟩, h⟩, by rintro ⟨_, _, ⟨rfl, rfl⟩, h⟩; exact h⟩
  | linkDataContextNone expectedDestination payload =>
    constructor
    · intro h
      have hwire := eq_append_of_parse h
      refine ⟨expectedDestination, payload.drop destinationHashLength, ⟨rfl, hwire⟩, ?_⟩
      rw [parseIngress, hwire] at h
      exact parseCompleteWithCarrier_append.mp h
    · rintro ⟨destination, body, ⟨rfl, rfl⟩, h⟩
      exact parseCompleteWithCarrier_append.mpr h
  | resourceComplete expectedDestination payload =>
    constructor
    · intro h
      have hwire := eq_append_of_parse h
      refine ⟨expectedDestination, payload.drop destinationHashLength, ⟨rfl, hwire⟩, ?_⟩
      rw [parseIngress, hwire] at h
      exact parseCompleteWithCarrier_append.mp h
    · rintro ⟨destination, body, ⟨rfl, rfl⟩, h⟩
      exact parseCompleteWithCarrier_append.mpr h

/-- The view of a parsed body. -/
theorem parsesBody_iff {carrier : CarrierProvenance} {destinationBound : Bool} :
    ParsesBody limits destination body carrier destinationBound view ↔
      opportunisticHeaderLength + 1 ≤ body.length ∧
      body.length + destinationHashLength ≤ limits.maxWireBytes ∧
      ∃ payload, parsePayload limits (body.drop opportunisticHeaderLength) = .ok payload ∧
        view = { destinationHash := destination, sourceHash := fixedField 16 0 body,
                 signature := fixedField 64 16 body, body, payload,
                 normalizedWireLen := body.length + destinationHashLength, carrier,
                 destinationBound } := by
  refine and_congr_right fun _ => and_congr_right fun _ => ?_
  constructor
  · intro h
    obtain ⟨payload, hpayload, hview⟩ := bind_ok.mp h
    exact ⟨payload, hpayload, (Except.ok.inj hview).symm⟩
  · rintro ⟨payload, hpayload, rfl⟩
    exact bind_ok.mpr ⟨payload, hpayload, rfl⟩

/-- The same message in another form of carrier. -/
def MessageView.retag (view : MessageView) (carrier : CarrierProvenance) (destinationBound : Bool) :
    MessageView :=
  { view with carrier, destinationBound }

/-- A body that is parsed in one form is parsed in each, to the same view but for the form. -/
theorem ParsesBody.retag {carrier : CarrierProvenance} {destinationBound : Bool}
    (h : ParsesBody limits destination body carrier destinationBound view)
    (other : CarrierProvenance) (bound : Bool) :
    ParsesBody limits destination body other bound (view.retag other bound) := by
  obtain ⟨hlength, hlimit, payload, hpayload, rfl⟩ := parsesBody_iff.mp h
  exact parsesBody_iff.mpr ⟨hlength, hlimit, payload, hpayload, rfl⟩

end Forms

section Lengths

variable {limits : WireLimits} {raw : List Byte} {view : PayloadView}

/-- An encoded byte string is no shorter than the minimum for its length. -/
theorem minimum_le_of_encodes {widen : BitVec 32 → BitVec 64} {depth : ℕ} {bytes : List Byte}
    {shortest : Bool} (h : Encodes widen depth (.bin bytes) raw shortest) :
    minimumMsgpackBinaryBytes bytes.length ≤ raw.length := by
  obtain ⟨levels, head, body, all, -, hform, hbody, rfl⟩ := encodes_parts h
  cases hbody
  cases hform with
  | @bin k n hk hn =>
    rw [List.length_append, length_tagged]
    unfold minimumMsgpackBinaryBytes
    dsimp only
    interval_cases k
    · have : bytes.length ≤ 255 := by simpa [range] using Nat.le_of_lt_succ hn
      rw [if_pos this]
      omega
    · have : bytes.length ≤ 65535 := by simpa [range] using Nat.le_of_lt_succ hn
      split_ifs <;> omega
    · split_ifs <;> omega

/-- A wire has room for the shortest encodings of what its payload shows. -/
theorem parts_le_of_parse (h : parsePayload limits raw = .ok view) :
    minimumWireLen view.title.bytes.length view.content.bytes.length view.fields.raw.length ≤
        raw.length + wireHeaderLength ∧
      0 < view.fields.raw.length := by
  obtain ⟨head, timestamp, title, content, fields, hshows, -, hlaid⟩ :=
    parsePayload_cases (fun _ => 0) h
  obtain ⟨rest, hlaid⟩ : ∃ rest, LaidOut limits (fun _ => 0) raw head
      (timestamp :: title :: content :: fields :: rest) := by
    obtain ⟨hlaid, -⟩ | ⟨fifth, -, hlaid, -⟩ := hlaid
    · exact ⟨[], hlaid⟩
    · exact ⟨[fifth], hlaid⟩
  have hencoded := hlaid.encoded
  have htimestamp := hencoded timestamp (by simp)
  have htitle := hencoded title (by simp)
  have hcontent := hencoded content (by simp)
  have hfields := hencoded fields (by simp)
  rw [hshows.isTimestamp] at htimestamp
  rw [hshows.isTitle] at htitle
  rw [hshows.isContent] at hcontent
  have htitleLen := minimum_le_of_encodes htitle
  have hcontentLen := minimum_le_of_encodes hcontent
  have htimestampLen : timestamp.raw.length = 9 := by
    obtain ⟨levels, head, body, all, -, hform, hbody, hraw⟩ := encodes_parts htimestamp
    cases hbody
    cases hform
    rw [hraw]
    simp
  have hfieldsLen := List.length_pos_of_ne_nil (ne_nil_of_encodes hfields)
  have hhead := length_pos_of_form hlaid.form
  have hraw := congrArg List.length hlaid.raw_eq
  simp only [flatItems_cons, List.length_append] at hraw
  rw [hshows.isFields]
  refine ⟨?_, hfieldsLen⟩
  simp only [minimumWireLen, DeviceApi.lxmfNormalizedWirePrefixBytes,
    DeviceApi.lxmfPayloadArrayHeaderBytes, DeviceApi.lxmfTimestampBytes, wireHeaderLength]
  omega

end Lengths

section Evidence

/-- Recall the public key that was announced at a destination. -/
abbrev SourceIdentityResolver := SourceHash → Option (Vector Byte 64)

/-- Receiver-local evidence of the stamp policy. -/
inductive StampAdmission where
  | notRequired (stampPresent : Bool)
  | trustedPriorTicket
  | proofOfWork (targetCost : RequiredStampCost) (value : BitVec 16)

/-- The policy did not look at the stamp. -/
def StampAdmission.Unenforced : StampAdmission → Prop
  | .notRequired _ => True
  | _ => False

/-- A structural failure to parse a carrier. -/
inductive RejectedIngress where
  | wire (error : WireError)
  deriving DecidableEq

/-- Evidence copied from one parsed message. Parsing never enforces a stamp. -/
structure ParsedIngressEvidence where
  messageId : MessageId
  authenticatedMaterialFingerprint : AuthenticatedMaterialFingerprint
  destination : DestinationHash
  source : SourceHash
  signatureVerification : SignatureVerification
  timestampBits : BitVec 64
  carrier : CarrierProvenance
  normalizedWireLen : ℕ
  carrierPayloadLen : ℕ
  titleLen : ℕ
  contentLen : ℕ
  fieldsEncodedLen : ℕ
  stampAdmission : StampAdmission
  unenforced : stampAdmission.Unenforced

/-- A parsed message with the exact bytes of its carrier. -/
structure ParsedIngress where
  carrierPayload : List Byte
  evidence : ParsedIngressEvidence

variable (sha256 : Sha256) (ed25519 : Ed25519) (resolver : SourceIdentityResolver)

/-- The signature result of a parsed message. A source without a key is unknown. -/
def MessageView.signatureVerification (view : MessageView) : SignatureVerification :=
  match resolver view.sourceHash with
  | none => .sourceUnknown
  | some publicKey =>
    match (view.bindSourceIdentity sha256 ed25519 publicKey).bind
        (view.verifySignature sha256 ed25519) with
    | .ok _ => .validated
    | .error _ => .invalid

/-- The evidence of a parsed message. -/
def MessageView.evidence (view : MessageView) (carrierPayloadLen : ℕ) : ParsedIngressEvidence where
  messageId := view.messageId sha256
  authenticatedMaterialFingerprint := view.authenticatedMaterialFingerprint sha256
  destination := view.destinationHash
  source := view.sourceHash
  signatureVerification := view.signatureVerification sha256 ed25519 resolver
  timestampBits := view.payload.timestampBits
  carrier := view.carrier
  normalizedWireLen := view.normalizedWireLen
  carrierPayloadLen
  titleLen := view.payload.title.bytes.length
  contentLen := view.payload.content.bytes.length
  fieldsEncodedLen := view.payload.fields.raw.length
  stampAdmission := .notRequired view.payload.stamp.isSome
  unenforced := trivial

/-- Parse one carrier: a missing identity or an invalid signature does not reject it. -/
def parseLxmfCarrier (limits : WireLimits) (carrier : CarrierIngress) :
    Except RejectedIngress ParsedIngress :=
  match parseIngress limits carrier with
  | .error error => .error (.wire error)
  | .ok view =>
    .ok ⟨carrier.payload, view.evidence sha256 ed25519 resolver carrier.payload.length⟩

/-- The limits of the product. -/
def wireLimits : WireLimits where
  maxWireBytes := 4096
  maxValueBytes := 2048
  maxContainerItems := 256
  maxTotalValues := 2048
  maxScanSteps := 65536
  maxNestingDepth := 16

end Evidence

section Sample

/-- A payload without text. -/
def samplePayload : PayloadView where
  raw := payloadArray4 :: msgpackF64 :: List.replicate 8 0 ++ [0xc4, 0, 0xc4, 0, 0x80]
  firstFour := [msgpackF64 :: List.replicate 8 0, [0xc4, 0], [0xc4, 0], [0x80]]
  timestampBits := 0
  title := ⟨[], 2⟩
  content := ⟨[], 2⟩
  fields := ⟨[0x80], .map, .canonical⟩
  stamp := none

/-- A body without text from a source of zeros. -/
def sampleBody : List Byte := List.replicate 80 0 ++ samplePayload.raw

/-- The sample payload is parsed. -/
theorem parse_sample : parsePayload wireLimits samplePayload.raw = .ok samplePayload := rfl

/-- A destination. -/
def sampleDestination : DestinationHash := Vector.replicate 16 4

/-- The sample body is parsed in every carrier. -/
theorem parsesBody_sample (carrier : CarrierProvenance) :
    ∃ view, ParsesBody wireLimits sampleDestination sampleBody carrier true view ∧
      view.payload = samplePayload :=
  ⟨_, parsesBody_iff.mpr ⟨by decide, by decide, _, parse_sample, rfl⟩, rfl⟩

end Sample

end Lxmf
