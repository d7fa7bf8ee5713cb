import Mathlib.Logic.Relation
import ReticulumFirmware.LxmfStore.Carriers

/-!
# Carriers that are retained

A carrier stays with its caller while the mutation of its message is not finished. The pending
mutation is matched with metadata that every attempt derives anew, the signature result among them.
-/

namespace LxmfStore

open Nor Lxmf

section Ownership

variable {ε : Type} {φ : Faults} {sha256 : Sha256} {access : BoundLxmfStore} {f g : Flash}
  {store store' : MountedLxmfStore} {candidate other : InboundMessageCandidate}
  {answer : Except (LxmfCommitError ε) LxmfCommitOutcome} {tr : List Mutation}

variable (ε φ) in
/-- The pending mutation of the store is that of a candidate, where attempts of it have come to. -/
def OwnedBy (sha256 : Sha256) (access : BoundLxmfStore) (candidate : InboundMessageCandidate)
    (f : Flash) (store : MountedLxmfStore) : Prop :=
  ∃ f₀ store₀ pending, Live ε φ sha256 access f₀ store₀ ∧ store₀.pending = none ∧
    (admission sha256 access store₀ candidate : Except (LxmfCommitError ε) Admission) =
      .ok (.append pending false) ∧
    Tracked ε sha256 access candidate pending f₀ f ∧
    store = { store₀ with pending := some pending }

/-- A store that is owned by a candidate has its mutation pending. -/
theorem OwnedBy.pending (h : OwnedBy ε φ sha256 access candidate f store) :
    ∃ pending, store.pending = some pending ∧ pending.replay = candidateReplay sha256 candidate ∧
      pending.metadata = candidate.metadata := by
  obtain ⟨f₀, store₀, pending, -, -, hadmission, -, rfl⟩ := h
  exact ⟨pending, rfl, (admitted hadmission).replay, (admitted hadmission).metadata⟩

/-- What an attempt comes to where nothing is pending, or its own mutation: it completes, or it is
refused by its checks and changes nothing, or its mutation stays pending and the backend failed. -/
inductive AttemptEnd (ε : Type) (φ : Faults) (sha256 : Sha256) (access : BoundLxmfStore)
    (candidate : InboundMessageCandidate) (f : Flash) (store : MountedLxmfStore) :
    Except (LxmfCommitError ε) LxmfCommitOutcome → Flash → MountedLxmfStore → Prop
  | completed {outcome : LxmfCommitOutcome} {g : Flash} {store' : MountedLxmfStore}
      (hpending : store'.pending = none) :
      AttemptEnd ε φ sha256 access candidate f store (.ok outcome) g store'
  | refused {error : LxmfCommitError ε} (hidle : store.pending = none)
      (h : (admission sha256 access store candidate : Except (LxmfCommitError ε) Admission) =
        .error error) : AttemptEnd ε φ sha256 access candidate f store (.error error) f store
  | owned {error : LxmfCommitError ε} {g : Flash} {store' : MountedLxmfStore}
      (h : OwnedBy ε φ sha256 access candidate g store') (hfailure : AppendFailure error) :
      AttemptEnd ε φ sha256 access candidate f store (.error error) g store'

/-- An attempt of an admitted mutation completes or leaves it pending. -/
theorem Retried.attemptEnd {f₀ : Flash} {store₀ : MountedLxmfStore} {pending : PendingMutation}
    (hlive : Live ε φ sha256 access f₀ store₀) (hidle : store₀.pending = none)
    (hadmission : (admission sha256 access store₀ candidate :
      Except (LxmfCommitError ε) Admission) = .ok (.append pending false))
    (hretried : Retried ε sha256 access candidate pending f₀ store₀ (f, store))
    (hserving : Serving ε sha256 access f store)
    (happend : ∃ pending resumed, (admission sha256 access store candidate :
      Except (LxmfCommitError ε) Admission) = .ok (.append pending resumed))
    (hrun : Prog.Exec φ (commit (ε := ε) sha256 access store candidate) f tr
      (some (answer, store')) g) :
    AttemptEnd ε φ sha256 access candidate f store answer g store' := by
  have hadmitted := admitted hadmission
  obtain ⟨hspan, herased⟩ := hlive.serving.ready hadmitted
  have hattempted : Attempted ε φ sha256 access candidate pending f₀ store₀ answer (g, store') :=
    hretried.attempt hspan.allocated hadmission (herased rfl) hrun
  cases hserving.step hrun with
  | refused hrefused =>
    obtain ⟨pending, resumed, happend⟩ := happend
    exact absurd (hrefused.symm.trans happend) (by simp)
  | known hknown =>
    obtain ⟨pending, resumed, happend⟩ := happend
    exact absurd (hknown.symm.trans happend) (by simp)
  | completed hcompleted =>
    refine .completed ?_
    rw [hcompleted.complete_eq]
  | @failed left resumed error g hfailed hresumable hkept hfailure =>
    refine .owned ?_ hfailure
    have hsome : ∀ {final : MountedLxmfStore}, final.pending = none →
        { store with pending := some left } ≠ final := by
      rintro final hnone rfl
      cases hnone
    generalize hafter : (g, { store with pending := some left }) = after at hattempted
    cases hattempted.retried with
    | fresh => exact absurd (congrArg Prod.snd hafter) (hsome hidle)
    | pending htracked =>
      obtain ⟨rfl, hstore⟩ := Prod.mk.inj hafter
      exact ⟨f₀, store₀, pending, hlive, hidle, hadmission, htracked, hstore⟩
    | done =>
      refine absurd (congrArg Prod.snd hafter) (hsome ?_)
      rw [hadmitted.complete_eq]

/-- An attempt where nothing is pending. -/
theorem attempt_idle (hlive : Live ε φ sha256 access f store) (hidle : store.pending = none)
    (hrun : Prog.Exec φ (commit (ε := ε) sha256 access store candidate) f tr
      (some (answer, store')) g) :
    AttemptEnd ε φ sha256 access candidate f store answer g store' := by
  cases hadmission : (admission sha256 access store candidate :
      Except (LxmfCommitError ε) Admission) with
  | error error =>
    rw [commit, hadmission] at hrun
    cases hrun
    exact .refused hidle hadmission
  | ok admission =>
    cases admission with
    | alreadyDurable receipt =>
      rw [commit, hadmission] at hrun
      cases hrun
      exact .completed hidle
    | append pending resumed =>
      have hfresh : resumed = false := by
        cases resumed with
        | false => rfl
        | true => exact absurd (hidle.symm.trans ((admitted hadmission).resumes rfl)) (by simp)
      rw [hfresh] at hadmission
      exact Retried.fresh.attemptEnd hlive hidle hadmission hlive.serving ⟨_, _, hadmission⟩ hrun

/-- An attempt where its own mutation is pending. -/
theorem OwnedBy.attempt (h : OwnedBy ε φ sha256 access candidate f store)
    (hserving : Serving ε sha256 access f store)
    (hrun : Prog.Exec φ (commit (ε := ε) sha256 access store candidate) f tr
      (some (answer, store')) g) :
    AttemptEnd ε φ sha256 access candidate f store answer g store' := by
  obtain ⟨f₀, store₀, pending, hlive, hidle, hadmission, htracked, rfl⟩ := h
  exact (Retried.pending htracked).attemptEnd hlive hidle hadmission hserving
    ⟨_, _, (admitted hadmission).resume⟩ hrun

/-- On a backend that reports nothing, an attempt of an admitted mutation completes. -/
theorem Retried.completes {f₀ : Flash} {store₀ : MountedLxmfStore} {pending : PendingMutation}
    (hserving : Serving ε sha256 access f₀ store₀)
    (hadmission : (admission sha256 access store₀ candidate :
      Except (LxmfCommitError ε) Admission) = .ok (.append pending false))
    (hretried : Retried ε sha256 access candidate pending f₀ store₀ (f, store)) :
    ∃ outcome final g, (commit (ε := ε) sha256 access store candidate).run f =
      ((.ok outcome, final), g) ∧ final.pending = none := by
  have hadmitted := admitted hadmission
  obtain ⟨hspan, herased⟩ := hserving.ready hadmitted
  obtain ⟨tr, hrun⟩ := Prog.exec_run Faults.none (commit (ε := ε) sha256 access store candidate) f
  generalize (commit (ε := ε) sha256 access store candidate).run f = result at hrun
  obtain ⟨⟨answer, final⟩, g⟩ := result
  have hattempted : Attempted ε Faults.none sha256 access candidate pending f₀ store₀ answer
      (g, final) := hretried.attempt hspan.allocated hadmission (herased rfl) hrun
  cases answer with
  | error error => exact absurd hattempted.answered (by simp [Faults.none])
  | ok outcome =>
    obtain ⟨hfinal, -⟩ := hattempted.answered
    refine ⟨outcome, final, g, rfl, ?_⟩
    rw [show final = _ from hfinal, hadmitted.complete_eq]

/-- A commit of the owner on a backend that reports nothing completes. -/
theorem OwnedBy.completes (h : OwnedBy ε φ sha256 access candidate f store) :
    ∃ outcome final g, (commit (ε := ε) sha256 access store candidate).run f =
      ((.ok outcome, final), g) ∧ final.pending = none := by
  obtain ⟨f₀, store₀, pending, hlive, hidle, hadmission, htracked, rfl⟩ := h
  exact (Retried.pending htracked).completes hlive.serving hadmission

/-- Where nothing is pending, an attempt on a backend that reports nothing leaves nothing
pending. -/
theorem attempt_idle_settles (hlive : Live ε φ sha256 access f store)
    (hidle : store.pending = none) :
    ∃ answer final g, (commit (ε := ε) sha256 access store candidate).run f = ((answer, final), g) ∧
      final.pending = none := by
  cases hadmission : (admission sha256 access store candidate :
      Except (LxmfCommitError ε) Admission) with
  | error error =>
    rw [commit, hadmission]
    exact ⟨_, _, _, rfl, hidle⟩
  | ok admission =>
    cases admission with
    | alreadyDurable receipt =>
      rw [commit, hadmission]
      exact ⟨_, _, _, rfl, hidle⟩
    | append pending resumed =>
      cases resumed with
      | false =>
        obtain ⟨outcome, final, g, hrun, hfinal⟩ := Retried.fresh.completes hlive.serving hadmission
        exact ⟨_, final, g, hrun, hfinal⟩
      | true => exact absurd (hidle.symm.trans ((admitted hadmission).resumes rfl)) (by simp)

/-- A store whose pending mutation is another one's refuses a candidate, and names the owner. -/
theorem commit_blocked {pending : PendingMutation} (hvalid : validateWriteAccess access = .ok ())
    (hsame : validateSameBinding store.binding access.binding = .ok ())
    (hpending : store.pending = some pending)
    (hfresh : store.entryForMessage candidate.metadata.messageId = none)
    (hother : pending.metadata ≠ candidate.metadata) :
    commit (ε := ε) sha256 access store candidate =
      .pure (.error (.ambiguousMutationPending pending.replay.authenticated.messageId), store) := by
  have hconflict : conflictingPending sha256 store candidate = some pending := by
    rw [conflictingPending, hpending]
    exact Option.filter_some_pos (by simp [hother])
  rw [commit, admission, checks_ok hvalid hsame]
  dsimp only
  rw [hfresh, hconflict]

end Ownership

section Retained

variable {ε : Type} {φ : Faults} {sha256 : Sha256} {ed25519 : Ed25519} {access : BoundLxmfStore}
  {f : Flash} {store : MountedLxmfStore} {limits : WireLimits} {carrier : CarrierIngress}
  {ingress : Option InboundTransportObservation} {view : MessageView}
  {resolver resolver' : SourceIdentityResolver} {candidate candidate' : InboundMessageCandidate}

variable (ε φ) in
/-- One more attempt of a carrier, whatever its source is known as and the backend reports. -/
def CarrierAttempt (sha256 : Sha256) (ed25519 : Ed25519) (access : BoundLxmfStore)
    (carrier : CarrierIngress) (ingress : Option InboundTransportObservation) (limits : WireLimits)
    (before after : Flash × MountedLxmfStore) : Prop :=
  ∃ resolver tr outcome, Prog.Exec φ (commitParsedCarrier (ε := ε) sha256 ed25519 carrier ingress
    limits resolver before.2 access) before.1 tr (some (outcome, after.2)) after.1

/-- The candidate of a carrier depends on its source only through the signature result. -/
theorem candidate_unique
    (h : CarriesCandidate sha256 ed25519 resolver carrier view ingress candidate)
    (h' : CarriesCandidate sha256 ed25519 resolver' carrier view ingress candidate')
    (hsame : view.signatureVerification sha256 ed25519 resolver =
      view.signatureVerification sha256 ed25519 resolver') : candidate = candidate' := by
  have hevidence : view.evidence sha256 ed25519 resolver carrier.payload.length =
      view.evidence sha256 ed25519 resolver' carrier.payload.length := by
    simp only [MessageView.evidence, hsame]
  unfold CarriesCandidate at h
  rw [hevidence] at h
  exact Except.ok.inj (h.symm.trans h')

/-- Where attempts of a carrier come to: nothing is pending, or the mutation of one of them. -/
structure CarrierState (ε : Type) (φ : Faults) (sha256 : Sha256) (ed25519 : Ed25519)
    (access : BoundLxmfStore) (carrier : CarrierIngress) (view : MessageView)
    (ingress : Option InboundTransportObservation) (state : Flash × MountedLxmfStore) : Prop where
  live : Live ε φ sha256 access state.1 state.2
  pending : state.2.pending = none ∨ ∃ resolver candidate,
    CarriesCandidate sha256 ed25519 resolver carrier view ingress candidate ∧
      OwnedBy ε φ sha256 access candidate state.1 state.2

/-- A store that is owned by a candidate passes the checks of its commit. -/
theorem OwnedBy.checks (h : OwnedBy ε φ sha256 access candidate f store) :
    validateWriteAccess access = .ok () ∧
      validateSameBinding store.binding access.binding = .ok () ∧
      store.entryForMessage candidate.metadata.messageId = none := by
  obtain ⟨f₀, store₀, pending, -, -, hadmission, -, rfl⟩ := h
  have hadmitted := admitted hadmission
  exact ⟨hadmitted.writable, hadmitted.same, hadmitted.fresh⟩

/-- An attempt with another signature result than the one whose mutation is pending is refused as
ambiguous, and names its own message. -/
theorem OwnedBy.blocks (h : OwnedBy ε φ sha256 access candidate f store)
    (his : IsCandidateOf sha256 view (view.signatureVerification sha256 ed25519 resolver) ingress
      candidate)
    (his' : IsCandidateOf sha256 view (view.signatureVerification sha256 ed25519 resolver') ingress
      candidate')
    (hother : view.signatureVerification sha256 ed25519 resolver ≠
      view.signatureVerification sha256 ed25519 resolver') :
    commit (ε := ε) sha256 access store candidate' =
      .pure (.error (.ambiguousMutationPending (view.messageId sha256)), store) := by
  obtain ⟨pending, hpending, hreplay, hmetadata⟩ := h.pending
  obtain ⟨hvalid, hsame, hfresh⟩ := h.checks
  have hid : candidate.metadata.messageId = view.messageId sha256 :=
    congrArg AuthenticatedMessageFingerprint.messageId his.fingerprint
  have hid' : candidate'.metadata.messageId = view.messageId sha256 :=
    congrArg AuthenticatedMessageFingerprint.messageId his'.fingerprint
  rw [hid, ← hid'] at hfresh
  have hmetadata' : pending.metadata ≠ candidate'.metadata := by
    intro hequal
    rw [hmetadata] at hequal
    exact hother (his.verification.symm.trans ((congrArg _ hequal).trans his'.verification))
  have hpendingId : pending.replay.authenticated.messageId = view.messageId sha256 := by
    rw [hreplay]
    exact hid
  rw [commit_blocked hvalid hsame hpending hfresh hmetadata', hpendingId]

/-- An attempt keeps the state of a carrier. -/
theorem CarrierState.attempt (hparse : parseIngress limits carrier = .ok view)
    (hfits : view.normalizedWireLen < 2 ^ 32) {before after : Flash × MountedLxmfStore}
    (h : CarrierState ε φ sha256 ed25519 access carrier view ingress before)
    (hstep : CarrierAttempt ε φ sha256 ed25519 access carrier ingress limits before after) :
    CarrierState ε φ sha256 ed25519 access carrier view ingress after := by
  obtain ⟨resolver, tr, outcome, hrun⟩ := hstep
  obtain ⟨candidate, hcandidate, his⟩ :=
    @exists_candidate sha256 ed25519 resolver limits view carrier ingress hparse hfits
  obtain ⟨answer, tr', hcommit, -⟩ := exec_commitParsedCarrier hparse hcandidate hrun
  refine ⟨.committed h.live hcommit, ?_⟩
  have hend : AttemptEnd ε φ sha256 access candidate before.1 before.2 answer after.1 after.2 ∨
      after.1 = before.1 ∧ after.2 = before.2 := by
    obtain hidle | ⟨owner, owned, howned, howner⟩ := h.pending
    · exact .inl (attempt_idle h.live hidle hcommit)
    · by_cases hsame : view.signatureVerification sha256 ed25519 owner =
        view.signatureVerification sha256 ed25519 resolver
      · obtain rfl := candidate_unique howned hcandidate hsame
        exact .inl (howner.attempt h.live.serving hcommit)
      · obtain ⟨owned', howned', hisOwned⟩ :=
          @exists_candidate sha256 ed25519 owner limits view carrier ingress hparse hfits
        obtain rfl := Except.ok.inj (howned.symm.trans howned')
        rw [howner.blocks hisOwned his hsame] at hcommit
        obtain ⟨g, final⟩ := after
        cases hcommit
        exact .inr ⟨rfl, rfl⟩
  obtain hend | ⟨hflash, hstore⟩ := hend
  · obtain ⟨g, final⟩ := after
    cases hend with
    | completed hpending => exact .inl hpending
    | refused hidle => exact .inl hidle
    | owned howned => exact .inr ⟨resolver, candidate, hcandidate, howned⟩
  · rw [hflash, hstore]
    exact h.pending

/-- A carrier that a live store without a pending mutation is offered again and again, whatever its
source is known as at each attempt and the backend reports: at every point, an attempt with another
signature result than the pending mutation has is refused as ambiguous under the identifier of its
own message and changes nothing. Every other attempt on a backend that reports nothing leaves
nothing pending, and the message is durable if a mutation was pending. -/
theorem retained_carrier (hlive : Live ε φ sha256 access f store) (hidle : store.pending = none)
    (hparse : parseIngress limits carrier = .ok view) (hfits : view.normalizedWireLen < 2 ^ 32)
    {state : Flash × MountedLxmfStore}
    (hattempts : Relation.ReflTransGen
      (CarrierAttempt ε φ sha256 ed25519 access carrier ingress limits) (f, store) state)
    (resolver : SourceIdentityResolver) :
    (∀ pending, state.2.pending = some pending →
      pending.metadata.signatureVerification ≠
        view.signatureVerification sha256 ed25519 resolver →
      commitParsedCarrier (ε := ε) sha256 ed25519 carrier ingress limits resolver state.2 access =
        .pure (.retained (.store (.ambiguousMutationPending (view.messageId sha256))), state.2)) ∧
    ((∀ pending, state.2.pending = some pending →
      pending.metadata.signatureVerification =
        view.signatureVerification sha256 ed25519 resolver) →
      ∃ outcome final g, (commitParsedCarrier (ε := ε)
        sha256 ed25519 carrier ingress limits resolver
          state.2 access).run state.1 = ((outcome, final), g) ∧ final.pending = none ∧
        (state.2.pending ≠ none → ∃ success, outcome = .durable success)) := by
  have hstate : CarrierState ε φ sha256 ed25519 access carrier view ingress state := by
    induction hattempts with
    | refl => exact ⟨hlive, .inl hidle⟩
    | tail _ hstep ih => exact ih.attempt hparse hfits hstep
  obtain ⟨candidate, hcandidate, his⟩ :=
    @exists_candidate sha256 ed25519 resolver limits view carrier ingress hparse hfits
  rw [commitParsedCarrier_eq hparse hcandidate]
  refine ⟨fun pending hpending hother => ?_, fun hsame => ?_⟩
  · obtain hidle | ⟨owner, owned, howned, howner⟩ := hstate.pending
    · exact absurd (hpending.symm.trans hidle) (by simp)
    · obtain ⟨owned', howned', hisOwned⟩ :=
        @exists_candidate sha256 ed25519 owner limits view carrier ingress hparse hfits
      obtain rfl := Except.ok.inj (howned.symm.trans howned')
      obtain ⟨pending', hpending', -, hmetadata⟩ := howner.pending
      obtain rfl := Option.some.inj (hpending.symm.trans hpending')
      rw [hmetadata, hisOwned.verification] at hother
      rw [howner.blocks hisOwned his hother]
      rfl
  · obtain hidle | ⟨owner, owned, howned, howner⟩ := hstate.pending
    · obtain ⟨answer, final, g, hrun, hfinal⟩ :=
        @attempt_idle_settles _ _ _ _ _ _ candidate hstate.live hidle
      refine ⟨carrierOutcome answer, final, g, ?_, hfinal, fun hsome => absurd hidle hsome⟩
      rw [Prog.run_bind, hrun]
      rfl
    · obtain ⟨owned', howned', hisOwned⟩ :=
        @exists_candidate sha256 ed25519 owner limits view carrier ingress hparse hfits
      obtain rfl := Except.ok.inj (howned.symm.trans howned')
      obtain ⟨pending, hpending, -, hmetadata⟩ := howner.pending
      have hverification := hsame pending hpending
      rw [hmetadata, hisOwned.verification] at hverification
      obtain rfl := candidate_unique howned hcandidate hverification
      obtain ⟨outcome, final, g, hrun, hfinal⟩ := howner.completes
      refine ⟨carrierOutcome (.ok outcome), final, g, ?_, hfinal, fun _ => ⟨_, rfl⟩⟩
      rw [Prog.run_bind, hrun]
      rfl

/-- A source without a key. -/
def noSourceIdentity : SourceIdentityResolver := fun _ => none

/-- A source with a key that no signature fits. -/
def someSourceIdentity : SourceIdentityResolver := fun _ => some (Vector.replicate 64 0)

/-- Without keys no signature is valid. -/
theorem noKeys_invalid : view.signatureVerification sha256 noKeys someSourceIdentity =
    .invalid := by
  rw [MessageView.signatureVerification]
  dsimp only [someSourceIdentity, MessageView.bindSourceIdentity, BoundSourceIdentity.new]
  split_ifs
  · rfl
  · rfl

/-- The mutation that commits a message of one extent to an empty partition. -/
def firstPending (sha256 : Sha256) (candidate : InboundMessageCandidate) : PendingMutation :=
  ⟨candidateReplay sha256 candidate, candidate.metadata, 0, 1, ⟨1, Nat.one_pos, one_lt_two_pow_64⟩⟩

/-- A message of 111 bytes is admitted to an empty partition. -/
theorem admission_first (sha256 : Sha256) (hlength : candidate.wire.segments.totalLen = 111) :
    (admission sha256 twoExtents (emptyStore twoExtents) candidate :
      Except (LxmfCommitError ε) Admission) =
        .ok (.append (firstPending sha256 candidate) false) := by
  have hrequired : requiredExtents twoExtents.usizeValues candidate.wire.segments.totalLen =
      some 1 := by
    rw [hlength]
    decide
  exact (admission_of_fresh twoExtents_writable twoExtents_same rfl (by decide) rfl).trans
    (allocate_fresh rfl hrequired (by decide) rfl)

/-- An attempt at an empty partition of two extents whose first read fails. -/
theorem failedRead_sample (sha256 : Sha256)
    (hcandidate : CarriesCandidate sha256 ed25519 noSourceIdentity carrier view ingress candidate)
    (hparse : parseIngress limits carrier = .ok view)
    (hlength : candidate.wire.segments.totalLen = 111) :
    Prog.Exec Faults.all (commitParsedCarrier (ε := Unit) sha256 ed25519 carrier ingress limits
      noSourceIdentity (emptyStore twoExtents) twoExtents) Flash.erased []
      (some (.retained (.store (.backend .verification ())),
        { emptyStore twoExtents with pending := some (firstPending sha256 candidate) }))
      Flash.erased := by
  rw [commitParsedCarrier_eq hparse hcandidate, commit, admission_first sha256 hlength]
  exact .readError rfl () (.done _ _)

/-- A first attempt whose read fails, and the key of the source announced after it: the carrier is
refused under its own identifier. -/
theorem retained_carrier_sample : ∃ (state : Flash × MountedLxmfStore) (view : MessageView),
    state.2.pending ≠ none ∧
      commitParsedCarrier (ε := Unit) Nor.sha256 noKeys
        (.opportunistic sampleDestination sampleBody)
        none wireLimits someSourceIdentity state.2 twoExtents =
        .pure (.retained (.store (.ambiguousMutationPending (view.messageId Nor.sha256))),
          state.2) := by
  obtain ⟨view, hparses, -⟩ := parsesBody_sample .opportunistic
  have hparse : parseIngress wireLimits (.opportunistic sampleDestination sampleBody) = .ok view :=
    parseIngress_ok_iff.mpr ⟨_, _, ⟨rfl, rfl⟩, hparses⟩
  have hlength : view.normalizedWireLen = 111 := by
    obtain ⟨-, -, payload, -, rfl⟩ := parsesBody_iff.mp hparses
    rfl
  have hfits : view.normalizedWireLen < 2 ^ 32 := by
    rw [hlength]
    decide
  obtain ⟨candidate, hcandidate, his⟩ := @exists_candidate Nor.sha256 noKeys noSourceIdentity
    wireLimits view (.opportunistic sampleDestination sampleBody) none hparse hfits
  have hfailed := failedRead_sample Nor.sha256 hcandidate hparse
    (by rw [candidate.length_eq, his.normalizedWire, hlength])
  have hattempt : CarrierAttempt Unit Faults.all Nor.sha256 noKeys twoExtents
      (.opportunistic sampleDestination sampleBody) none wireLimits
      (Flash.erased, emptyStore twoExtents) (Flash.erased, _) := ⟨noSourceIdentity, [], _, hfailed⟩
  obtain ⟨hblocked, -⟩ := retained_carrier (.mounted (mount_twoExtents Nor.sha256)) rfl hparse hfits
    (.single hattempt) someSourceIdentity
  refine ⟨_, view, by simp, hblocked _ rfl ?_⟩
  change candidate.metadata.signatureVerification ≠ _
  rw [his.verification, noKeys_invalid]
  exact fun hsame => SignatureVerification.noConfusion hsame

end Retained

end LxmfStore
