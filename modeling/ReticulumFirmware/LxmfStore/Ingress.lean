import ReticulumFirmware.Lxmf.Ingress
import ReticulumFirmware.LxmfStore.FirstArrival

/-!
# Durable ownership of a carrier

`lib.rs` of the durable ingress crate: a parsed carrier becomes a candidate of the message store.
The candidate of an accepted carrier contradicts neither its metadata nor its bytes, and once one
carrier of a message is durable, every other carrier of it is answered with the same receipt.
-/

namespace LxmfStore

open Nor Lxmf

section Model

/-- Whether a carrier created a durable message or replayed one. -/
inductive DurableIngressCommitKind where
  | new
  | replay
  deriving DecidableEq

/-- A carrier whose message is durable. -/
structure DurableCarrierSuccess where
  receipt : DurableMessageReceipt
  kind : DurableIngressCommitKind
  deriving DecidableEq

/-- Failure to translate evidence into a candidate. -/
inductive DurableCandidateError where
  | lengthOverflow (error : MessageLengthOverflow)
  | carrierLength (error : CarrierLengthMismatch)
  | candidate (error : CandidateError)
  deriving DecidableEq

/-- Why a carrier stays with its caller. -/
inductive DurableCarrierRetentionReason (ε : Type) where
  | rejected (reason : RejectedIngress)
  | candidate (error : DurableCandidateError)
  | store (error : LxmfCommitError ε)
  deriving DecidableEq

/-- What became of a carrier. -/
inductive DurableCarrierOutcome (ε : Type) where
  | durable (success : DurableCarrierSuccess)
  | retained (reason : DurableCarrierRetentionReason ε)
  deriving DecidableEq

/-- The provenance of a stamp that the policy did not look at. -/
def stampProvenance : (admission : StampAdmission) → admission.Unenforced →
    StampAdmissionProvenance
  | .notRequired stampPresent, _ => .notRequired stampPresent

/-- The metadata of a message with the given evidence. -/
def metadataFromParsedEvidence (evidence : ParsedIngressEvidence)
    (ingress : Option InboundTransportObservation) :
    Except DurableCandidateError InboundMessageMetadata :=
  match InboundMessageLengths.new evidence.normalizedWireLen evidence.carrierPayloadLen
      evidence.titleLen evidence.contentLen evidence.fieldsEncodedLen with
  | .error error => .error (.lengthOverflow error)
  | .ok lengths =>
    match InboundMessageMetadata.new evidence.messageId evidence.authenticatedMaterialFingerprint
        evidence.destination evidence.source evidence.signatureVerification evidence.timestampBits
        evidence.carrier (stampProvenance evidence.stampAdmission evidence.unenforced) lengths with
    | .error error => .error (.carrierLength error)
    | .ok metadata => .ok (metadata.withIngressObservation ingress)

/-- The exact bytes of a parsed carrier. -/
def normalizedWire (parsed : ParsedIngress) : NormalizedWire :=
  match parsed.evidence.carrier with
  | .opportunistic => .opportunistic parsed.evidence.destination parsed.carrierPayload
  | .complete | .linkDataContextNone | .resourceComplete => .contiguous parsed.carrierPayload

/-- The candidate of a parsed carrier. -/
def parsedCandidate (parsed : ParsedIngress) (ingress : Option InboundTransportObservation) :
    Except DurableCandidateError InboundMessageCandidate :=
  match metadataFromParsedEvidence parsed.evidence ingress with
  | .error error => .error error
  | .ok metadata =>
    match InboundMessageCandidate.new metadata (normalizedWire parsed) with
    | .error error => .error (.candidate error)
    | .ok candidate => .ok candidate

/-- Whether the message was new, and its receipt. -/
def commitParts : LxmfCommitOutcome → DurableIngressCommitKind × DurableMessageReceipt
  | .committed receipt => (.new, receipt)
  | .alreadyDurable receipt => (.replay, receipt)

/-- What the commit of its candidate comes to for a carrier. -/
def carrierOutcome {ε : Type} :
    Except (LxmfCommitError ε) LxmfCommitOutcome → DurableCarrierOutcome ε
  | .error error => .retained (.store error)
  | .ok outcome => .durable ⟨(commitParts outcome).2, (commitParts outcome).1⟩

/-- Parse one carrier and commit its message. -/
def commitParsedCarrier {ε : Type} (sha256 : Sha256) (ed25519 : Ed25519) (carrier : CarrierIngress)
    (ingress : Option InboundTransportObservation) (limits : WireLimits)
    (resolver : SourceIdentityResolver) (store : MountedLxmfStore) (access : BoundLxmfStore) :
    Prog ε (DurableCarrierOutcome ε × MountedLxmfStore) :=
  match parseLxmfCarrier sha256 ed25519 resolver limits carrier with
  | .error reason => .pure (.retained (.rejected reason), store)
  | .ok parsed =>
    match parsedCandidate parsed ingress with
    | .error error => .pure (.retained (.candidate error), store)
    | .ok candidate =>
      commit sha256 access store candidate >>= fun (answer, store) =>
        .pure (carrierOutcome answer, store)

end Model

section Candidates

variable {sha256 : Sha256} {ed25519 : Ed25519} {resolver : SourceIdentityResolver}
  {limits : WireLimits} {view : MessageView} {destination : DestinationHash} {body : List Byte}
  {carrier : CarrierIngress} {ingress : Option InboundTransportObservation}
  {candidate : InboundMessageCandidate}

/-- What two carriers of one message agree on. -/
def authenticatedFingerprint (sha256 : Sha256) (view : MessageView) :
    AuthenticatedMessageFingerprint where
  messageId := view.messageId sha256
  authenticatedMaterial := view.authenticatedMaterialFingerprint sha256
  destination := view.destinationHash
  source := view.sourceHash
  timestampBits := view.payload.timestampBits
  titleLen := view.payload.title.bytes.length
  contentLen := view.payload.content.bytes.length
  fieldsEncodedLen := view.payload.fields.raw.length

/-- A candidate of a parsed message. -/
structure IsCandidateOf (sha256 : Sha256) (view : MessageView)
    (verification : SignatureVerification) (ingress : Option InboundTransportObservation)
    (candidate : InboundMessageCandidate) : Prop where
  bytes : candidate.bytes = view.destinationHash.toList ++ view.body
  fingerprint : candidate.metadata.authenticatedFingerprint = authenticatedFingerprint sha256 view
  verification : candidate.metadata.signatureVerification = verification
  carrier : candidate.metadata.carrier = view.carrier
  stamp : candidate.metadata.stampAdmission = .notRequired view.payload.stamp.isSome
  ingress : candidate.metadata.ingress = ingress
  normalizedWire : candidate.metadata.lengths.normalizedWire = view.normalizedWireLen

/-- Lengths that are consistent and fit into four bytes are accepted. -/
theorem exists_lengths {normalizedWire carrierPayload title content fieldsEncoded : ℕ}
    (hwire : normalizedWire < 2 ^ 32) (hpayload : carrierPayload ≤ normalizedWire)
    (htitle : title ≤ normalizedWire) (hcontent : content ≤ normalizedWire)
    (hfields : fieldsEncoded ≤ normalizedWire) :
    ∃ lengths, InboundMessageLengths.new normalizedWire carrierPayload title content fieldsEncoded =
        .ok lengths ∧
      lengths.normalizedWire = normalizedWire ∧ lengths.carrierPayload = carrierPayload ∧
      lengths.title = title ∧ lengths.content = content ∧
      lengths.fieldsEncoded = fieldsEncoded := by
  have hlengths := InboundMessageLengths.new_self ⟨normalizedWire, carrierPayload, title, content,
    fieldsEncoded, hwire, hpayload.trans_lt hwire, htitle.trans_lt hwire, hcontent.trans_lt hwire,
    hfields.trans_lt hwire⟩
  exact ⟨_, hlengths, rfl, rfl, rfl, rfl, rfl⟩

/-- Metadata with lengths that normalize. -/
theorem metadata_eq {evidence : ParsedIngressEvidence} {lengths : InboundMessageLengths}
    (hlengths : InboundMessageLengths.new evidence.normalizedWireLen evidence.carrierPayloadLen
      evidence.titleLen evidence.contentLen evidence.fieldsEncodedLen = .ok lengths)
    (hnormalizes : evidence.carrier.normalizedLength lengths.carrierPayload =
      some lengths.normalizedWire) :
    metadataFromParsedEvidence evidence ingress =
      .ok ⟨evidence.messageId, evidence.authenticatedMaterialFingerprint, evidence.destination,
        evidence.source, evidence.signatureVerification, evidence.timestampBits, evidence.carrier,
        stampProvenance evidence.stampAdmission evidence.unenforced, lengths, ingress,
        hnormalizes⟩ := by
  rw [metadataFromParsedEvidence, hlengths]
  dsimp only
  rw [InboundMessageMetadata.new, dif_pos hnormalizes]
  rfl

/-- A candidate whose bytes are those that its metadata describes. -/
theorem candidate_eq {parsed : ParsedIngress} {metadata : InboundMessageMetadata}
    (hmetadata : metadataFromParsedEvidence parsed.evidence ingress = .ok metadata)
    (shape : metadata.carrier.omitsDestinationPrefix = (normalizedWire parsed).isOpportunistic)
    (length_eq : (normalizedWire parsed).segments.totalLen = metadata.lengths.normalizedWire)
    (length_le : destinationHashLength ≤ metadata.lengths.normalizedWire)
    (destination_eq : (normalizedWire parsed).segments.bytes.take destinationHashLength =
      metadata.destination.toList) :
    parsedCandidate parsed ingress =
      .ok ⟨metadata, normalizedWire parsed, shape, length_eq, length_le, destination_eq⟩ := by
  rw [parsedCandidate, hmetadata]
  dsimp only
  rw [InboundMessageCandidate.new, dif_neg (not_not.mpr shape), dif_neg (not_not.mpr length_eq),
    dif_neg (not_lt.mpr length_le), dif_neg (not_not.mpr destination_eq)]

/-- A parsed message has the bytes that a summary of its parts requires. -/
theorem minimum_le_wire {destinationBound : Bool} {kind : CarrierProvenance}
    (h : ParsesBody limits destination body kind destinationBound view) :
    DeviceApi.minimumWireLen view.payload.title.bytes.length view.payload.content.bytes.length
        view.payload.fields.raw.length ≤ view.normalizedWireLen ∧
      0 < view.payload.fields.raw.length := by
  obtain ⟨hlength, -, payload, hpayload, rfl⟩ := parsesBody_iff.mp h
  obtain ⟨hminimum, hfields⟩ := parts_le_of_parse hpayload
  refine ⟨hminimum.trans ?_, hfields⟩
  simp only [List.length_drop, wireHeaderLength, opportunisticHeaderLength,
    destinationHashLength] at hlength ⊢
  omega

/-- The parts of a parsed message are no longer than its wire. -/
theorem parts_le_wire {destinationBound : Bool} {kind : CarrierProvenance}
    (h : ParsesBody limits destination body kind destinationBound view) :
    view.payload.title.bytes.length ≤ view.normalizedWireLen ∧
      view.payload.content.bytes.length ≤ view.normalizedWireLen ∧
      view.payload.fields.raw.length ≤ view.normalizedWireLen := by
  obtain ⟨hminimum, -⟩ := minimum_le_wire h
  simp only [DeviceApi.minimumWireLen, DeviceApi.minimumMsgpackBinaryBytes] at hminimum
  refine ⟨?_, ?_, ?_⟩
  · omega
  · omega
  · omega

/-- Each form of carrier normalizes to the destination and the body. -/
theorem normalizedWire_of_delivers (hdelivers : carrier.Delivers destination body)
    {evidence : ParsedIngressEvidence} (hcarrier : evidence.carrier = carrier.kind)
    (hdestination : evidence.destination = destination) :
    (normalizedWire ⟨carrier.payload, evidence⟩).segments.bytes = destination.toList ++ body ∧
      carrier.kind.omitsDestinationPrefix =
        (normalizedWire ⟨carrier.payload, evidence⟩).isOpportunistic ∧
      (body.length + destinationHashLength < 2 ^ 32 →
        carrier.kind.normalizedLength carrier.payload.length =
          some (body.length + destinationHashLength)) := by
  rw [normalizedWire, hcarrier, hdestination]
  cases carrier with
  | opportunistic =>
    obtain ⟨-, rfl⟩ := hdelivers
    exact ⟨rfl, rfl, fun hfits => if_pos hfits⟩
  | linkDataContextNone =>
    obtain ⟨-, rfl⟩ := hdelivers
    refine ⟨List.append_nil _, rfl, fun _ => congrArg some ?_⟩
    rw [CarrierIngress.payload, List.length_append, Vector.length_toList, Nat.add_comm]
  | resourceComplete =>
    obtain ⟨-, rfl⟩ := hdelivers
    refine ⟨List.append_nil _, rfl, fun _ => congrArg some ?_⟩
    rw [CarrierIngress.payload, List.length_append, Vector.length_toList, Nat.add_comm]

/-- A carrier that delivers a body is no longer than it and the destination. -/
theorem payload_le_of_delivers (hdelivers : carrier.Delivers destination body) :
    carrier.payload.length ≤ body.length + destinationHashLength := by
  cases carrier with
  | opportunistic =>
    obtain ⟨-, rfl⟩ := hdelivers
    exact Nat.le_add_right ..
  | linkDataContextNone =>
    obtain ⟨-, rfl⟩ := hdelivers
    rw [CarrierIngress.payload, List.length_append, Vector.length_toList, Nat.add_comm]
  | resourceComplete =>
    obtain ⟨-, rfl⟩ := hdelivers
    rw [CarrierIngress.payload, List.length_append, Vector.length_toList, Nat.add_comm]

/-- The candidate of an accepted carrier whose wire fits the model is consistent. -/
theorem exists_candidate (h : parseIngress limits carrier = .ok view)
    (hfits : view.normalizedWireLen < 2 ^ 32) :
    ∃ candidate, parsedCandidate ⟨carrier.payload,
        view.evidence sha256 ed25519 resolver carrier.payload.length⟩ ingress = .ok candidate ∧
      IsCandidateOf sha256 view (view.signatureVerification sha256 ed25519 resolver) ingress
        candidate := by
  obtain ⟨destination, body, hdelivers, hparses⟩ := parseIngress_ok_iff.mp h
  obtain ⟨htitle, hcontent, hfields⟩ := parts_le_wire hparses
  obtain ⟨hdestination, hbody, hlength, hkind⟩ : view.destinationHash = destination ∧
      view.body = body ∧ view.normalizedWireLen = body.length + destinationHashLength ∧
      view.carrier = carrier.kind := by
    obtain ⟨-, -, payload, -, rfl⟩ := parsesBody_iff.mp hparses
    exact ⟨rfl, rfl, rfl, rfl⟩
  obtain ⟨lengths, hlengths, hnormalized, hcarried, htitleLen, hcontentLen, hfieldsLen⟩ :=
    exists_lengths hfits (hlength ▸ payload_le_of_delivers hdelivers) htitle hcontent hfields
  obtain ⟨hbytes, hshape, hnormalizes⟩ := @normalizedWire_of_delivers _ _ _ hdelivers
    (view.evidence sha256 ed25519 resolver carrier.payload.length) hkind hdestination
  have htotal : (normalizedWire ⟨carrier.payload, view.evidence sha256 ed25519 resolver
      carrier.payload.length⟩).segments.totalLen = lengths.normalizedWire := by
    rw [← NormalizedWireSegments.length_bytes, hbytes, List.length_append, Vector.length_toList,
      Nat.add_comm, hnormalized, hlength]
  have hnormal : view.carrier.normalizedLength lengths.carrierPayload =
      some lengths.normalizedWire := by
    rw [hcarried, hnormalized, hkind, hlength]
    exact hnormalizes (hlength ▸ hfits)
  have hmetadata := @metadata_eq ingress (view.evidence sha256 ed25519 resolver
    carrier.payload.length) lengths hlengths hnormal
  have hcandidate := @candidate_eq ingress ⟨carrier.payload, view.evidence sha256 ed25519 resolver
    carrier.payload.length⟩ _ hmetadata ((congrArg _ hkind).trans hshape) htotal
    (by rw [hnormalized, hlength]; exact Nat.le_add_left ..)
    (by rw [hbytes, hdestination.symm]; exact List.take_left' (Vector.length_toList ..))
  refine ⟨_, hcandidate, ?_, ?_, rfl, rfl, rfl, rfl, hnormalized⟩
  · exact hbytes.trans (by rw [hdestination, hbody])
  · simp [InboundMessageMetadata.authenticatedFingerprint, htitleLen, hcontentLen, hfieldsLen,
      authenticatedFingerprint, MessageView.evidence]

/-- A wire that does not fit the model is the only contradiction of an accepted carrier. -/
theorem parsedCandidate_error (hfits : ¬view.normalizedWireLen < 2 ^ 32)
    (carrierPayload : List Byte) :
    parsedCandidate ⟨carrierPayload, view.evidence sha256 ed25519 resolver carrierPayload.length⟩
      ingress = .error (.lengthOverflow ⟨.normalizedWire, view.normalizedWireLen⟩) := by
  have hlengths : InboundMessageLengths.new view.normalizedWireLen carrierPayload.length
      view.payload.title.bytes.length view.payload.content.bytes.length
      view.payload.fields.raw.length = .error ⟨.normalizedWire, view.normalizedWireLen⟩ :=
    dif_pos hfits
  rw [parsedCandidate, metadataFromParsedEvidence, MessageView.evidence, hlengths]

/-- The candidate of an accepted carrier. -/
abbrev CarriesCandidate (sha256 : Sha256) (ed25519 : Ed25519) (resolver : SourceIdentityResolver)
    (carrier : CarrierIngress) (view : MessageView) (ingress : Option InboundTransportObservation)
    (candidate : InboundMessageCandidate) : Prop :=
  parsedCandidate ⟨carrier.payload, view.evidence sha256 ed25519 resolver carrier.payload.length⟩
    ingress = .ok candidate

/-- The candidate of an accepted carrier is consistent, and its wire fits the model. -/
theorem CarriesCandidate.isCandidateOf (h : parseIngress limits carrier = .ok view)
    (hcandidate : CarriesCandidate sha256 ed25519 resolver carrier view ingress candidate) :
    view.normalizedWireLen < 2 ^ 32 ∧ IsCandidateOf sha256 view
      (view.signatureVerification sha256 ed25519 resolver) ingress candidate := by
  have hfits : view.normalizedWireLen < 2 ^ 32 := by
    by_contra hfits
    exact absurd (hcandidate.symm.trans (parsedCandidate_error hfits carrier.payload)) (by simp)
  obtain ⟨owned, howned, his⟩ := @exists_candidate sha256 ed25519 resolver limits view carrier
    ingress h hfits
  obtain rfl := Except.ok.inj (hcandidate.symm.trans howned)
  exact ⟨hfits, his⟩

/-- An accepted carrier commits its candidate. -/
theorem commitParsedCarrier_eq {ε : Type} {access : BoundLxmfStore} {store : MountedLxmfStore}
    (h : parseIngress limits carrier = .ok view)
    (hcandidate : CarriesCandidate sha256 ed25519 resolver carrier view ingress candidate) :
    commitParsedCarrier (ε := ε) sha256 ed25519 carrier ingress limits resolver store access =
      commit sha256 access store candidate >>= fun (answer, store) =>
        .pure (carrierOutcome answer, store) := by
  rw [commitParsedCarrier, parseLxmfCarrier, h]
  dsimp only
  rw [hcandidate]

/-- A run of a carrier is a run of its candidate. -/
theorem exec_commitParsedCarrier {ε : Type} {φ : Faults} {access : BoundLxmfStore}
    {store store' : MountedLxmfStore} {f g : Flash} {tr : List Mutation}
    {outcome : DurableCarrierOutcome ε} (h : parseIngress limits carrier = .ok view)
    (hcandidate : CarriesCandidate sha256 ed25519 resolver carrier view ingress candidate)
    (hrun : Prog.Exec φ (commitParsedCarrier (ε := ε) sha256 ed25519 carrier ingress limits resolver
      store access) f tr (some (outcome, store')) g) :
    ∃ answer tr', Prog.Exec φ (commit (ε := ε) sha256 access store candidate) f tr'
      (some (answer, store')) g ∧ outcome = carrierOutcome answer := by
  rw [commitParsedCarrier_eq h hcandidate] at hrun
  obtain ⟨hnone, -⟩ | ⟨⟨answer, final⟩, f', tr₁, tr₂, -, hfirst, hrest⟩ := hrun.bind_cases
  · cases hnone
  · cases hrest
    exact ⟨answer, tr₁, hfirst, rfl⟩

/-- A carrier that is rejected, or whose wire does not fit the model, reaches no store. -/
theorem commitParsedCarrier_durable {ε : Type} {φ : Faults} {access : BoundLxmfStore}
    {store store' : MountedLxmfStore} {f g : Flash} {tr : List Mutation}
    {success : DurableCarrierSuccess}
    (hrun : Prog.Exec φ (commitParsedCarrier (ε := ε) sha256 ed25519 carrier ingress limits resolver
      store access) f tr (some (.durable success, store')) g) :
    ∃ view, parseIngress limits carrier = .ok view ∧ view.normalizedWireLen < 2 ^ 32 := by
  cases hparse : parseIngress limits carrier with
  | error error =>
    rw [commitParsedCarrier, parseLxmfCarrier, hparse] at hrun
    cases hrun
  | ok view =>
    refine ⟨view, rfl, ?_⟩
    by_contra hfits
    rw [commitParsedCarrier, parseLxmfCarrier, hparse] at hrun
    dsimp only at hrun
    rw [parsedCandidate_error hfits] at hrun
    cases hrun

end Candidates

end LxmfStore
