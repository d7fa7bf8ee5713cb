import ReticulumFirmware.Lxmf.StampIdentity
import ReticulumFirmware.LxmfStore.Ingress

/-!
# One message in several carriers

Once a carrier is durable its message is indexed, and a carrier of the same message is answered
with the receipt of the first arrival: whatever its form, whatever its source is known as by then,
and wherever it comes from.
-/

namespace LxmfStore

open Nor Lxmf

variable {ε : Type} {φ : Faults} {sha256 : Sha256} {ed25519 : Ed25519} {access : BoundLxmfStore}
  {store store' : MountedLxmfStore} {f g : Flash} {candidate other : InboundMessageCandidate}

section Indexed

/-- The receipt of a commit that completed. -/
def LxmfCommitOutcome.receipt (outcome : LxmfCommitOutcome) : DurableMessageReceipt :=
  (commitParts outcome).2

/-- The message of a fingerprint is indexed with its receipt. -/
structure Indexes (access : BoundLxmfStore) (store : MountedLxmfStore)
    (fingerprint : AuthenticatedMessageFingerprint) (receipt : DurableMessageReceipt) : Prop where
  writable : validateWriteAccess access = .ok ()
  same : validateSameBinding store.binding access.binding = .ok ()
  entry : ∃ entry, store.entryForMessage fingerprint.messageId = some entry ∧
    entry.receipt = receipt
  fingerprint : receipt.fingerprint.authenticated = fingerprint

/-- An allocation never answers that the message is durable already. -/
theorem allocate_ne_alreadyDurable (receipt : DurableMessageReceipt) :
    (allocate sha256 access store candidate : Except (LxmfCommitError ε) Admission) ≠
      .ok (.alreadyDurable receipt) := by
  intro h
  unfold allocate at h
  dsimp only at h
  split at h
  · cases h
  · split_ifs at h
    split at h
    · split_ifs at h
      cases h
    · split at h
      · cases h
      · cases h

/-- The checks find the entry of an indexed message. -/
theorem indexes_of_known {receipt : DurableMessageReceipt}
    (h : (admission sha256 access store candidate : Except (LxmfCommitError ε) Admission) =
      .ok (.alreadyDurable receipt)) :
    Indexes access store candidate.metadata.authenticatedFingerprint receipt := by
  unfold admission at h
  split at h
  · cases h
  next hvalid =>
  obtain ⟨_, hwritable, hsame⟩ := Codec.bind_ok.mp hvalid
  split at h
  · next entry hentry =>
    unfold classifyReplay at h
    have hreceipt : entry.receipt = receipt ∧ (candidateReplay sha256 candidate).classifyAgainst
        entry.receipt.fingerprint ∈ [ReplayRelation.exactReplay, .equivalentReplay] := by
      split at h
      · next hrelation => exact ⟨by cases h; rfl, by rw [hrelation]; simp⟩
      · next hrelation => exact ⟨by cases h; rfl, by rw [hrelation]; simp⟩
      · cases h
      · cases h
    obtain ⟨rfl, hrelation⟩ := hreceipt
    refine ⟨hwritable, hsame, ⟨entry, hentry, rfl⟩, ?_⟩
    rw [ReplayFingerprint.classifyAgainst] at hrelation
    split_ifs at hrelation with hid hfingerprint hdigest
    · simp at hrelation
    · simp at hrelation
    · exact (not_not.mp hfingerprint).symm
    · exact (not_not.mp hfingerprint).symm
  · split at h
    · cases h
    · split_ifs at h
      exact absurd h (allocate_ne_alreadyDurable receipt)

/-- A completed mutation is indexed. -/
theorem Admitted.indexes {pending : PendingMutation} {resumed : Bool}
    (h : Admitted sha256 access store candidate pending resumed) :
    Indexes access (store.complete pending (pendingEntry pending))
      candidate.metadata.authenticatedFingerprint (pendingEntry pending).receipt :=
  indexes_of_known (ε := Unit) h.durable

/-- A commit that completes leaves its message indexed with the receipt that it returns. -/
theorem Serving.indexes (h : Serving ε sha256 access f store) {tr : List Mutation}
    {outcome : LxmfCommitOutcome}
    (hrun : Prog.Exec φ (LxmfStore.commit (ε := ε) sha256 access store candidate) f tr
      (some (.ok outcome, store')) g) :
    Indexes access store' candidate.metadata.authenticatedFingerprint outcome.receipt := by
  generalize hanswer : (Except.ok outcome : Except (LxmfCommitError ε) LxmfCommitOutcome) = answer
    at hrun
  cases h.step hrun with
  | refused => cases hanswer
  | failed => cases hanswer
  | known hknown =>
    cases hanswer
    exact indexes_of_known hknown
  | @completed pending resumed recovered g hadmitted =>
    have hreceipt : outcome.receipt = (pendingEntry pending).receipt := by
      rw [Except.ok.inj hanswer]
      cases recovered
      · rfl
      · rfl
    rw [hreceipt]
    exact hadmitted.indexes

/-- A candidate of an indexed message is answered with its receipt, whatever else it holds. -/
theorem Indexes.commit {receipt : DurableMessageReceipt}
    (h : Indexes access store other.metadata.authenticatedFingerprint receipt) :
    LxmfStore.commit (ε := ε) sha256 access store other =
      .pure (.ok (.alreadyDurable receipt), store) := by
  obtain ⟨entry, hentry, rfl⟩ := h.entry
  have hid : other.metadata.messageId = entry.receipt.messageId :=
    (congrArg AuthenticatedMessageFingerprint.messageId h.fingerprint).symm
  rw [commit_of_indexed h.writable h.same hentry hid, if_pos h.fingerprint.symm]

end Indexed

section Carriers

variable {limits : WireLimits} {view : MessageView} {destination : DestinationHash}
  {body : List Byte} {carrier : CarrierIngress}

/-- A carrier of an indexed message is answered with its receipt. -/
theorem Indexes.answers {receipt : DurableMessageReceipt}
    (h : Indexes access store (authenticatedFingerprint sha256 view) receipt)
    (hparse : parseIngress limits carrier = .ok view) (hfits : view.normalizedWireLen < 2 ^ 32)
    (ingress : Option InboundTransportObservation) (resolver : SourceIdentityResolver) :
    commitParsedCarrier (ε := ε) sha256 ed25519 carrier ingress limits resolver store access =
      .pure (.durable ⟨receipt, .replay⟩, store) := by
  obtain ⟨candidate, hcandidate, his⟩ :=
    @exists_candidate sha256 ed25519 resolver limits view carrier ingress hparse hfits
  rw [← his.fingerprint] at h
  rw [commitParsedCarrier_eq hparse hcandidate, h.commit]
  rfl

/-- A durable carrier leaves its message indexed. -/
theorem Live.indexes_carrier (hlive : Live ε φ sha256 access f store)
    (h : parseIngress limits carrier = .ok view) {ingress : Option InboundTransportObservation}
    {resolver : SourceIdentityResolver} {tr : List Mutation} {success : DurableCarrierSuccess}
    (hrun : Prog.Exec φ (commitParsedCarrier (ε := ε) sha256 ed25519 carrier ingress limits resolver
      store access) f tr (some (.durable success, store')) g) :
    Indexes access store' (authenticatedFingerprint sha256 view) success.receipt := by
  obtain ⟨view', hview, hfits⟩ := commitParsedCarrier_durable hrun
  obtain rfl := Except.ok.inj (hview.symm.trans h)
  obtain ⟨candidate, hcandidate, his⟩ :=
    @exists_candidate sha256 ed25519 resolver limits view' carrier ingress h hfits
  obtain ⟨answer, tr', hcommit, houtcome⟩ := exec_commitParsedCarrier h hcandidate hrun
  cases answer with
  | error error => cases houtcome
  | ok outcome =>
    cases houtcome
    rw [← his.fingerprint]
    exact hlive.serving.indexes hcommit

/-- A body that one carrier delivers is accepted in every form that delivers it, as one message. -/
theorem parse_of_delivers {other : CarrierIngress} (hcarrier : carrier.Delivers destination body)
    (hother : other.Delivers destination body) (h : parseIngress limits carrier = .ok view) :
    parseIngress limits other = .ok { view with carrier := other.kind } := by
  obtain ⟨destination', body', hdelivers, hparses⟩ := parseIngress_ok_iff.mp h
  obtain ⟨rfl, rfl⟩ := hdelivers.unique hcarrier
  obtain ⟨hlength, hlimit, payload, hpayload, rfl⟩ := parsesBody_iff.mp hparses
  exact parseIngress_ok_iff.mpr ⟨_, _, hother,
    parsesBody_iff.mpr ⟨hlength, hlimit, payload, hpayload, rfl⟩⟩

/-- One body for one destination is one message in every form of carrier: where one form is
accepted, every other form is, with the same view but for the form. A wire that fits the durable
model never contradicts its metadata, and its exact bytes are the destination and the body. After
one of the forms became durable on a live store, each of them is answered as a replay with the same
receipt and changes nothing, whatever transport it came over and whatever its source is known as
by then. -/
theorem carriers_agree {other : CarrierIngress} (hcarrier : carrier.Delivers destination body)
    (hother : other.Delivers destination body) (h : parseIngress limits carrier = .ok view) :
    parseIngress limits other = .ok { view with carrier := other.kind } ∧
    (view.normalizedWireLen < 2 ^ 32 → ∀ resolver ingress, ∃ candidate,
      parsedCandidate ⟨other.payload, ({ view with carrier := other.kind } : MessageView).evidence
        sha256 ed25519 resolver other.payload.length⟩ ingress = .ok candidate ∧
      candidate.bytes = destination.toList ++ body ∧
      candidate.metadata.authenticatedFingerprint = authenticatedFingerprint sha256 view) ∧
    ∀ f store, Live ε φ sha256 access f store → ∀ ingress resolver tr success store' g,
      Prog.Exec φ (commitParsedCarrier (ε := ε) sha256 ed25519 carrier ingress limits resolver store
        access) f tr (some (.durable success, store')) g →
      ∀ ingress' resolver', commitParsedCarrier (ε := ε) sha256 ed25519 other ingress' limits
        resolver' store' access = .pure (.durable ⟨success.receipt, .replay⟩, store') := by
  have hparse := parse_of_delivers hcarrier hother h
  refine ⟨hparse, fun hfits resolver ingress => ?_, ?_⟩
  · obtain ⟨candidate, hcandidate, his⟩ := @exists_candidate sha256 ed25519 resolver limits _ other
      ingress hparse hfits
    obtain ⟨hdestination, hbody⟩ : view.destinationHash = destination ∧ view.body = body := by
      obtain ⟨destination', body', hdelivers, hparses⟩ := parseIngress_ok_iff.mp h
      obtain ⟨rfl, rfl⟩ := hdelivers.unique hcarrier
      obtain ⟨-, -, payload, -, rfl⟩ := parsesBody_iff.mp hparses
      exact ⟨rfl, rfl⟩
    refine ⟨candidate, hcandidate, ?_, his.fingerprint⟩
    rw [his.bytes, hdestination, hbody]
  · intro f store hlive ingress resolver tr success store' g hrun ingress' resolver'
    obtain ⟨view', hview, hfits⟩ := commitParsedCarrier_durable hrun
    obtain rfl := Except.ok.inj (hview.symm.trans h)
    have hindexes : Indexes access store' (authenticatedFingerprint sha256
        { view' with carrier := other.kind }) success.receipt := hlive.indexes_carrier h hrun
    exact hindexes.answers hparse hfits ingress' resolver'

/-- A scheme that decompresses no key. -/
def noKeys : Ed25519 where
  Point := Unit
  decompress _ := none
  isSmallOrder _ := true
  isTorsionFree _ := true
  VerifyingKey := Unit
  fromBytes _ := none
  verifyStream _ _ := none

/-- A message without text is accepted over a packet and as a resource. -/
theorem carriers_agree_sample :
    ∃ view, parseIngress wireLimits (.opportunistic sampleDestination sampleBody) = .ok view ∧
      parseIngress wireLimits (.resourceComplete sampleDestination
        (sampleDestination.toList ++ sampleBody)) =
        .ok { view with carrier := .resourceComplete } := by
  obtain ⟨view, hparses, -⟩ := parsesBody_sample .opportunistic
  have hparse : parseIngress wireLimits (.opportunistic sampleDestination sampleBody) = .ok view :=
    parseIngress_ok_iff.mpr ⟨_, _, ⟨rfl, rfl⟩, hparses⟩
  obtain ⟨hother, -⟩ := @carriers_agree Unit Faults.none Nor.sha256 noKeys twoExtents wireLimits
    view sampleDestination sampleBody (.opportunistic sampleDestination sampleBody)
    (.resourceComplete sampleDestination (sampleDestination.toList ++ sampleBody)) ⟨rfl, rfl⟩
    ⟨rfl, rfl⟩ hparse
  exact ⟨view, hparse, hother⟩

/-- The carrier without the stamp is accepted as the same message. -/
theorem exists_unstamped {other : CarrierIngress}
    (hother : other.Delivers destination view.stamplessBody) {kind : CarrierProvenance}
    (h : ParsesBody limits destination body kind true view) :
    ∃ unstamped, parseIngress limits other = .ok unstamped ∧ unstamped.payload.stamp = none ∧
      unstamped.payload.raw = view.payload.stampless ∧
      unstamped.signatureInput sha256 = view.signatureInput sha256 ∧
      (∀ resolver, unstamped.signatureVerification sha256 ed25519 resolver =
        view.signatureVerification sha256 ed25519 resolver) ∧
      authenticatedFingerprint sha256 unstamped = authenticatedFingerprint sha256 view ∧
      unstamped.normalizedWireLen ≤ view.normalizedWireLen := by
  have hauthenticated := authenticated_withoutStamp view other.kind true
  refine ⟨view.withoutStamp.retag other.kind true, parseIngress_ok_iff.mpr ⟨_, _, hother,
    h.withoutStamp.retag other.kind true⟩, rfl, rfl, signatureInput_congr sha256 hauthenticated,
    signatureVerification_congr view sha256 hauthenticated rfl rfl ed25519, ?_,
    h.length_withoutStamp⟩
  rw [authenticatedFingerprint, messageId_congr sha256 hauthenticated,
    fingerprint_congr sha256 hauthenticated]
  rfl

/-- Any accepted carrier, and any form that delivers its body with a four-item head and without the
fifth item: it is accepted under the same limits, without a stamp, and has the same identifier,
fingerprint and signature input; its signature comes to the same whatever is known of its source.
Everything that leaves out a stamp uses the same bytes. Whichever of the two becomes durable first
on a live store, the other is then answered as a replay with the same receipt. -/
theorem stamp_keeps_identity {other : CarrierIngress} (hcarrier : carrier.Delivers destination body)
    (h : parseIngress limits carrier = .ok view)
    (hother : other.Delivers destination view.stamplessBody) :
    ∃ unstamped, parseIngress limits other = .ok unstamped ∧ unstamped.payload.stamp = none ∧
      unstamped.payload.raw = view.payload.stampless ∧
      unstamped.messageId sha256 = view.messageId sha256 ∧
      unstamped.authenticatedMaterialFingerprint sha256 =
        view.authenticatedMaterialFingerprint sha256 ∧
      unstamped.signatureInput sha256 = view.signatureInput sha256 ∧
      (∀ resolver, unstamped.signatureVerification sha256 ed25519 resolver =
        view.signatureVerification sha256 ed25519 resolver) ∧
      UsesStampless sha256 view ∧
      ∀ f store, Live ε φ sha256 access f store → ∀ ingress resolver tr success store' g,
        (Prog.Exec φ (commitParsedCarrier (ε := ε) sha256 ed25519 carrier ingress limits resolver
            store access) f tr (some (.durable success, store')) g →
          ∀ ingress' resolver', commitParsedCarrier (ε := ε) sha256 ed25519 other ingress' limits
            resolver' store' access = .pure (.durable ⟨success.receipt, .replay⟩, store')) ∧
        (Prog.Exec φ (commitParsedCarrier (ε := ε) sha256 ed25519 other ingress limits resolver
            store access) f tr (some (.durable success, store')) g →
          view.normalizedWireLen < 2 ^ 32 →
          ∀ ingress' resolver', commitParsedCarrier (ε := ε) sha256 ed25519 carrier ingress' limits
            resolver' store' access = .pure (.durable ⟨success.receipt, .replay⟩, store')) := by
  obtain ⟨destination', body', hdelivers, hparses⟩ := parseIngress_ok_iff.mp h
  obtain ⟨rfl, rfl⟩ := hdelivers.unique hcarrier
  obtain ⟨unstamped, hunstamped, hstamp, hraw, hinput, hverification, hsame, hshorter⟩ :=
    exists_unstamped hother hparses
  have hid : unstamped.messageId sha256 = view.messageId sha256 :=
    congrArg AuthenticatedMessageFingerprint.messageId hsame
  have hmaterial : unstamped.authenticatedMaterialFingerprint sha256 =
      view.authenticatedMaterialFingerprint sha256 :=
    congrArg AuthenticatedMessageFingerprint.authenticatedMaterial hsame
  refine ⟨unstamped, hunstamped, hstamp, hraw, hid, hmaterial, hinput, hverification,
    usesStampless view sha256, ?_⟩
  intro f store hlive ingress resolver tr success store' g
  constructor
  · intro hrun ingress' resolver'
    obtain ⟨view', hview, hfits⟩ := commitParsedCarrier_durable hrun
    obtain rfl := Except.ok.inj (hview.symm.trans h)
    have hindexes := hlive.indexes_carrier h hrun
    rw [← hsame] at hindexes
    exact hindexes.answers hunstamped (hshorter.trans_lt hfits) ingress' resolver'
  · intro hrun hfits ingress' resolver'
    have hindexes := hlive.indexes_carrier hunstamped hrun
    rw [hsame] at hindexes
    exact hindexes.answers h hfits ingress' resolver'

/-- The message without text and with a ticket is the message without the ticket. -/
theorem stamp_keeps_identity_sample :
    ∃ unstamped, parseIngress wireLimits (.opportunistic sampleDestination sampleBody) =
      .ok unstamped ∧ unstamped.payload.stamp = none := by
  obtain ⟨view, hparses, hbody⟩ := parsesBody_stamped .linkDataContextNone
  have hparse : parseIngress wireLimits (.linkDataContextNone sampleDestination
      (sampleDestination.toList ++ stampedBody)) = .ok view :=
    parseIngress_ok_iff.mpr ⟨_, _, ⟨rfl, rfl⟩, hparses⟩
  obtain ⟨unstamped, hunstamped, hstamp, -⟩ := @stamp_keeps_identity Unit Faults.none Nor.sha256
    noKeys twoExtents wireLimits view sampleDestination stampedBody
    (.linkDataContextNone sampleDestination (sampleDestination.toList ++ stampedBody))
    (.opportunistic sampleDestination sampleBody) ⟨rfl, rfl⟩ hparse ⟨rfl, hbody.symm⟩
  exact ⟨unstamped, hunstamped, hstamp⟩

end Carriers

end LxmfStore
