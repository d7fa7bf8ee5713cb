import ReticulumFirmware.Ota.Activation
import Mathlib.Data.List.Induction

/-!
# The status of an update

Over every run the public status is the projection of the session in progress, or says how the
last one ended. The log tells what that is: the status is compared with the events, not with the
coordinator that produced it.
-/

namespace Ota

open Nor

variable {ε : Type} {sha256 : Sha256}

/-- Resources that a whole image takes. -/
def OtaManifest.chunkCount (manifest : OtaManifest) : ℕ :=
  (manifest.imageBytes + otaImageChunkBytes - 1) / otaImageChunkBytes

/-- The projection of a session in progress. -/
def ActiveSession.receivingStatus (session : ActiveSession) : OtaStatus :=
  ⟨.receiving, some session.id, some session.slot, some session.manifest.version,
    session.manifest.imageBytes, session.verifiedBytes, session.nextChunk, session.resourceArmed,
    none⟩

/-- The projection of a session that ended with a failure. -/
def ActiveSession.failedStatus (session : ActiveSession) (failure : OtaFailure) : OtaStatus :=
  ⟨.failed, some session.id, some session.slot, some session.manifest.version,
    session.manifest.imageBytes, session.verifiedBytes, session.nextChunk, false, some failure⟩

/-- The projection of a start that was refused. -/
def refusedStatus (manifest : OtaManifest) (failure : OtaFailure) : OtaStatus :=
  ⟨.failed, none, none, some manifest.version, manifest.imageBytes, 0, 0, false, some failure⟩

/-- A session in progress has whole chunks behind it and bytes before it. -/
structure ActiveSession.Sound (session : ActiveSession) : Prop where
  verified : session.verifiedBytes = session.nextChunk * otaImageChunkBytes
  incomplete : session.verifiedBytes < session.manifest.imageBytes
  next_lt : session.nextChunk < session.manifest.chunkCount
  /-- Accounting for an admitted resource does not overflow. -/
  exact : ∀ link metadata data, session.Admits link metadata data →
    (session.advance data).verifiedBytes = session.verifiedBytes + data.length ∧
      (session.advance data).nextChunk = session.nextChunk + 1

/-- Why a start was refused, with the backend calls it made. -/
inductive Refuses (manifest : OtaManifest) : List (OtaEvent ε) → OtaFailure → Prop
  | tooLarge (hsize : maxOtaImageBytes < manifest.imageBytes) : Refuses manifest [] .protocol
  | unprepared (error : ε) :
      Refuses manifest [.prepareInactive manifest.imageBytes (.error error)] .flash

/-- The resource is the next one of the session, whatever its bytes are. -/
structure ActiveSession.Expects (session : ActiveSession) (link : LinkId)
    (metadata data : List Byte) : Prop where
  link : session.link = link
  armed : session.resourceArmed = true
  decoded : OtaChunkMetadata.decode metadata =
    .ok ⟨session.id, session.nextChunk, session.verifiedBytes⟩
  length : data.length = min (session.manifest.imageBytes - session.verifiedBytes)
    otaImageChunkBytes
  nonempty : data ≠ []

/-- Why a resource ended a session, with the backend calls it made and the session as it was
then. -/
inductive Fails (sha256 : Sha256) (link : LinkId) (metadata data : List Byte)
    (session : ActiveSession) : List (OtaEvent ε) → ActiveSession → OtaFailure → Prop
  | protocol (error : OtaProtocolError)
      (hdecode : OtaChunkMetadata.decode metadata = .error error) :
      Fails sha256 link metadata data session [] session .protocol
  | wrongLink {decoded : OtaChunkMetadata}
      (hdecode : OtaChunkMetadata.decode metadata = .ok decoded) (hlink : session.link ≠ link) :
      Fails sha256 link metadata data session [] session .wrongLink
  | unexpectedChunk {decoded : OtaChunkMetadata}
      (hdecode : OtaChunkMetadata.decode metadata = .ok decoded) (hlink : session.link = link)
      (hunexpected : ¬ session.Expects link metadata data) :
      Fails sha256 link metadata data session [] session .unexpectedChunk
  | invalidEspImage (hexpects : session.Expects link metadata data)
      (hfirst : session.verifiedBytes = 0) (hmagic : data.head? ≠ some espImageMagic) :
      Fails sha256 link metadata data session [] session .invalidEspImage
  | flash (hadmits : session.Admits link metadata data) (error : ε) :
      Fails sha256 link metadata data session
        [.writeVerified session.slot session.verifiedBytes data (.error error)] session .flash
  | digestMismatch (hadmits : session.Admits link metadata data)
      (hcomplete : (session.advance data).verifiedBytes = session.manifest.imageBytes)
      (hdigest : sha256 (session.digest ++ data) ≠ session.manifest.imageSha256) :
      Fails sha256 link metadata data session
        [.writeVerified session.slot session.verifiedBytes data (.ok ())]
        (session.advance data) .digestMismatch
  | imageValidation (hadmits : session.Admits link metadata data)
      (hcomplete : (session.advance data).verifiedBytes = session.manifest.imageBytes)
      (hdigest : sha256 (session.digest ++ data) = session.manifest.imageSha256) (error : ε) :
      Fails sha256 link metadata data session
        [.writeVerified session.slot session.verifiedBytes data (.ok ()),
          .validateStagedImage session.slot session.manifest.imageBytes (.error error)]
        (session.advance data) .imageValidation
  | activation (hadmits : session.Admits link metadata data)
      (hcomplete : (session.advance data).verifiedBytes = session.manifest.imageBytes)
      (hdigest : sha256 (session.digest ++ data) = session.manifest.imageSha256) (error : ε) :
      Fails sha256 link metadata data session
        [.writeVerified session.slot session.verifiedBytes data (.ok ()),
          .validateStagedImage session.slot session.manifest.imageBytes (.ok ()),
          .activate session.slot (.error error)]
        (session.advance data) .activation

/-- What handing over a resource does to the coordinator, with the backend calls it makes. -/
inductive Consumed (sha256 : Sha256) (link : LinkId) (metadata data : List Byte) :
    OtaCoordinator → List (OtaEvent ε) → OtaCoordinator → Prop
  | unattended {c : OtaCoordinator} (hnone : c.active = none) :
      Consumed sha256 link metadata data c [] c
  | failed {c : OtaCoordinator} {session ended : ActiveSession} {tail : List (OtaEvent ε)}
      {failure : OtaFailure} (hactive : c.active = some session)
      (hfails : Fails sha256 link metadata data session tail ended failure) :
      Consumed sha256 link metadata data c tail ⟨none, ended.failedStatus failure⟩
  | received {c : OtaCoordinator} {session : ActiveSession} (hactive : c.active = some session)
      (hadmits : session.Admits link metadata data)
      (hincomplete : (session.advance data).verifiedBytes ≠ session.manifest.imageBytes) :
      Consumed sha256 link metadata data c
        [.writeVerified session.slot session.verifiedBytes data (.ok ())]
        ⟨some (session.advance data), (session.advance data).receivingStatus⟩
  | completed {c : OtaCoordinator} {session : ActiveSession} (hactive : c.active = some session)
      (hadmits : session.Admits link metadata data)
      (hcomplete : (session.advance data).verifiedBytes = session.manifest.imageBytes)
      (hdigest : sha256 (session.digest ++ data) = session.manifest.imageSha256) :
      Consumed sha256 link metadata data c
        [.writeVerified session.slot session.verifiedBytes data (.ok ()),
          .validateStagedImage session.slot session.manifest.imageBytes (.ok ()),
          .activate session.slot (.ok ())]
        ⟨none, OtaCoordinator.completedStatus (session.advance data)⟩

/-- Ending a session projects its failure. -/
theorem failActive_some {c : OtaCoordinator} {session : ActiveSession}
    (hactive : c.active = some session) (failure : OtaFailure) :
    c.failActive failure = ⟨none, session.failedStatus failure⟩ := by
  rw [OtaCoordinator.failActive, hactive]
  rfl

/-- Without a session there is nothing to end. -/
theorem failActive_none {c : OtaCoordinator} (hnone : c.active = none) (failure : OtaFailure) :
    c.failActive failure = c := by
  rw [OtaCoordinator.failActive, hnone]

/-- Verifying, validating and activating a written image ends the session with the projection of
its failure or of its completion. -/
theorem finish_consumed (outcomes : Outcomes ε) {c : OtaCoordinator} {session : ActiveSession}
    {link : LinkId} {metadata data : List Byte} {before : OtaCoordinator}
    (hbefore : before.active = some session) (hactive : c.active = some (session.advance data))
    (hadmits : session.Admits link metadata data)
    (hcomplete : (session.advance data).verifiedBytes = session.manifest.imageBytes)
    (log : List (OtaEvent ε)) :
    ∃ tail, (c.finish sha256 outcomes.backend (session.advance data) log).2 = log ++ tail ∧
      Consumed sha256 link metadata data before
        (.writeVerified session.slot session.verifiedBytes data (.ok ()) :: tail)
        (c.finish sha256 outcomes.backend (session.advance data) log).1.1 := by
  unfold OtaCoordinator.finish
  split
  · rename_i hdigest
    refine ⟨[], (List.append_nil log).symm, ?_⟩
    show Consumed sha256 link metadata data before _ (c.failActive .digestMismatch)
    rw [failActive_some hactive]
    exact .failed hbefore (.digestMismatch hadmits hcomplete hdigest)
  rename_i hdigest
  rw [not_not] at hdigest
  simp only [Outcomes.backend, logged_bind]
  cases outcomes.validateStagedImage log (session.advance data).slot
      (session.advance data).manifest.imageBytes with
  | error error =>
    refine ⟨_, rfl, ?_⟩
    show Consumed sha256 link metadata data before _ (c.failActive .imageValidation)
    rw [failActive_some hactive]
    exact .failed hbefore (.imageValidation hadmits hcomplete hdigest error)
  | ok _ =>
    simp only [logged_bind, List.append_assoc]
    cases outcomes.activate _ (session.advance data).slot with
    | error error =>
      refine ⟨_, rfl, ?_⟩
      show Consumed sha256 link metadata data before _ (c.failActive .activation)
      rw [failActive_some hactive]
      exact .failed hbefore (.activation hadmits hcomplete hdigest error)
    | ok _ => exact ⟨_, rfl, .completed hbefore hadmits hcomplete hdigest⟩

/-- The checks of a resource before it is written. -/
theorem ingestResource_rejected {m : Type → Type} [Monad m] (backend : OtaBackend m ε)
    (c : OtaCoordinator) (link : LinkId) (metadata data : List Byte) :
    (∃ c' error, Consumed sha256 link metadata data c ([] : List (OtaEvent ε)) c' ∧
      c.ingestResource sha256 backend link metadata data = pure (c', .error error)) ∨
    ∃ session, c.active = some session ∧ session.Admits link metadata data ∧
      c.ingestResource sha256 backend link metadata data =
        OtaCoordinator.writeChunk sha256 backend
          { c with active := some { session with resourceArmed := false } }
          { session with resourceArmed := false } data := by
  unfold OtaCoordinator.ingestResource
  cases hdecoded : OtaChunkMetadata.decode metadata with
  | error error =>
    cases hactive : c.active with
    | none => exact Or.inl ⟨c, _, .unattended hactive, by rw [failActive_none hactive]⟩
    | some session =>
      refine Or.inl ⟨_, .protocol error, .failed hactive (.protocol error hdecoded), ?_⟩
      rw [failActive_some hactive]
  | ok decoded =>
    cases hactive : c.active with
    | none => exact Or.inl ⟨c, _, .unattended hactive, rfl⟩
    | some session =>
      simp only
      split
      · rename_i hlink
        exact Or.inl ⟨_, _, .failed hactive (.wrongLink hdecoded hlink), rfl⟩
      rename_i hlink
      rw [not_not] at hlink
      split
      · rename_i hchunk
        refine Or.inl ⟨_, _, .failed hactive (.unexpectedChunk hdecoded hlink fun h => ?_), rfl⟩
        obtain rfl := Except.ok.inj (hdecoded.symm.trans h.decoded)
        simp [h.armed] at hchunk
      rename_i hchunk
      split
      · rename_i hlength
        refine Or.inl ⟨_, _, .failed hactive (.unexpectedChunk hdecoded hlink fun h => ?_), rfl⟩
        exact hlength.elim (fun hlength => hlength h.length) fun hempty => h.nonempty hempty
      rename_i hlength
      simp only [not_or, not_not, ne_eq, Bool.not_eq_true', Bool.not_eq_false] at hchunk hlength
      obtain ⟨harmed, hsession, hindex, hoffset⟩ := hchunk
      have hexpects : session.Expects link metadata data :=
        ⟨hlink, harmed, by rw [hdecoded, ← hsession, ← hindex, ← hoffset], hlength.1, hlength.2⟩
      split
      · rename_i hmagic
        exact Or.inl ⟨_, _, .failed hactive (.invalidEspImage hexpects hmagic.1 hmagic.2), rfl⟩
      · rename_i hmagic
        exact Or.inr ⟨session, rfl, ⟨hexpects.link, hexpects.armed, hexpects.decoded,
          hexpects.length, hexpects.nonempty, fun hfirst => not_not.mp fun h => hmagic ⟨hfirst, h⟩⟩,
          rfl⟩

/-- Handing over a resource has one of the listed outcomes. -/
theorem consumed (outcomes : Outcomes ε) (c : OtaCoordinator) (link : LinkId)
    (metadata data : List Byte) (log : List (OtaEvent ε)) :
    ∃ tail, (c.ingestResource sha256 outcomes.backend link metadata data log).2 = log ++ tail ∧
      Consumed sha256 link metadata data c tail
        (c.ingestResource sha256 outcomes.backend link metadata data log).1.1 := by
  obtain ⟨c', error, hconsumed, heq⟩ | ⟨session, hactive, hadmits, heq⟩ :=
    @ingestResource_rejected ε sha256 _ _ outcomes.backend c link metadata data
  · rw [heq]
    exact ⟨[], (List.append_nil log).symm, hconsumed⟩
  rw [heq, OtaCoordinator.writeChunk]
  simp only [Outcomes.backend, logged_bind]
  cases outcomes.writeVerified log session.slot session.verifiedBytes data with
  | error error =>
    have hfailed : Consumed sha256 link metadata data c _ ⟨none, session.failedStatus .flash⟩ :=
      .failed hactive (.flash hadmits error)
    exact ⟨_, rfl, hfailed⟩
  | ok _ =>
    simp only
    split
    · rename_i hincomplete
      exact ⟨_, rfl, .received hactive hadmits hincomplete⟩
    · rename_i hcomplete
      rw [not_not] at hcomplete
      obtain ⟨tail, hlog, hconsumed⟩ := @finish_consumed ε sha256 outcomes
        ⟨some (session.advance data), c.status⟩ session link metadata data c hactive rfl hadmits
        hcomplete (log ++ [.writeVerified session.slot session.verifiedBytes data (.ok ())])
      exact ⟨_, hlog.trans (List.append_assoc ..), hconsumed⟩

/-- An event that starts nothing and calls no backend. -/
def OtaEvent.isQuiet : OtaEvent ε → Bool
  | .armNext .. | .disarm | .ingestResource .. | .linkClosed .. => true
  | _ => false

/-- Whether an event is a write or an activation. -/
def OtaEvent.isMutation : OtaEvent ε → Bool
  | .writeVerified .. | .activate .. => true
  | _ => false

/-- What the log says about the status while no session is active: nothing was started yet, or
the last start was refused, or its session failed or was activated, and only quiet events
followed. -/
inductive Settled (sha256 : Sha256) : List (OtaEvent ε) → OtaStatus → Prop
  | idle {quiet : List (OtaEvent ε)} (hquiet : ∀ e ∈ quiet, e.isQuiet = true) :
      Settled sha256 quiet .idle
  | refused {earlier tail quiet : List (OtaEvent ε)} {link : LinkId} {nowMillis : UInt64}
      {manifest : OtaManifest} {failure : OtaFailure} (hrefuses : Refuses manifest tail failure)
      (hquiet : ∀ e ∈ quiet, e.isQuiet = true) :
      Settled sha256 (earlier ++ .begin link nowMillis manifest :: tail ++ quiet)
        (refusedStatus manifest failure)
  | failed {before tail quiet : List (OtaEvent ε)} {session ended : ActiveSession} {link : LinkId}
      {metadata data : List Byte} {failure : OtaFailure}
      (hsession : SessionInv sha256 session before)
      (hfails : Fails sha256 link metadata data session tail ended failure)
      (hquiet : ∀ e ∈ quiet, e.isQuiet = true) :
      Settled sha256 (before ++ .ingestResource link metadata data :: tail ++ quiet)
        (ended.failedStatus failure)
  | interrupted {before quiet : List (OtaEvent ε)} {session : ActiveSession}
      (hsession : SessionInv sha256 session before) (hquiet : ∀ e ∈ quiet, e.isQuiet = true) :
      Settled sha256 (before ++ [.linkClosed session.link] ++ quiet)
        (session.failedStatus .interrupted)
  | activated {before quiet : List (OtaEvent ε)} {session : ActiveSession} {link : LinkId}
      {metadata data : List Byte} (hsession : SessionInv sha256 session before)
      (hadmits : session.Admits link metadata data)
      (hcomplete : (session.advance data).verifiedBytes = session.manifest.imageBytes)
      (hdigest : sha256 (session.digest ++ data) = session.manifest.imageSha256)
      (hquiet : ∀ e ∈ quiet, e.isQuiet = true) :
      Settled sha256 (before ++ .ingestResource link metadata data ::
          [.writeVerified session.slot session.verifiedBytes data (.ok ()),
            .validateStagedImage session.slot session.manifest.imageBytes (.ok ()),
            .activate session.slot (.ok ())] ++ quiet)
        (OtaCoordinator.completedStatus (session.advance data))

/-- A quiet event settles nothing anew. -/
theorem Settled.quiet {log : List (OtaEvent ε)} {status : OtaStatus} (h : Settled sha256 log status)
    {e : OtaEvent ε} (he : e.isQuiet = true) : Settled sha256 (log ++ [e]) status := by
  have hall : ∀ {quiet : List (OtaEvent ε)}, (∀ e ∈ quiet, e.isQuiet = true) →
      ∀ e' ∈ quiet ++ [e], e'.isQuiet = true := by
    intro quiet hquiet e' he'
    obtain he' | he' := List.mem_append.mp he'
    · exact hquiet e' he'
    · rwa [List.mem_singleton.mp he']
  cases h with
  | idle hquiet => exact .idle (hall hquiet)
  | refused hrefuses hquiet =>
    rw [List.append_assoc]
    exact .refused hrefuses (hall hquiet)
  | failed hsession hfails hquiet =>
    rw [List.append_assoc]
    exact .failed hsession hfails (hall hquiet)
  | interrupted hsession hquiet =>
    rw [List.append_assoc]
    exact .interrupted hsession (hall hquiet)
  | activated hsession hadmits hcomplete hdigest hquiet =>
    rw [List.append_assoc]
    exact .activated hsession hadmits hcomplete hdigest (hall hquiet)

/-- The status of a run is the projection of its session, or what the log says. -/
structure Truthful (sha256 : Sha256) (run : Run ε) : Prop where
  receiving : ∀ session, run.1.active = some session →
    session.Sound ∧ run.1.status = session.receivingStatus
  settled : run.1.active = none → Settled sha256 run.2 run.1.status

/-- With a session, the status is its projection. -/
theorem Truthful.ofActive {run : Run ε} {session : ActiveSession}
    (hactive : run.1.active = some session) (hsound : session.Sound)
    (hstatus : run.1.status = session.receivingStatus) : Truthful sha256 run where
  receiving other hother := by
    obtain rfl := Option.some.inj (hactive.symm.trans hother)
    exact ⟨hsound, hstatus⟩
  settled hnone := absurd (hactive.symm.trans hnone) (Option.some_ne_none session)

/-- Without a session, the status is what the log says. -/
theorem Truthful.ofIdle {run : Run ε} (hactive : run.1.active = none)
    (hsettled : Settled sha256 run.2 run.1.status) : Truthful sha256 run where
  receiving session hsession :=
    absurd (hsession.symm.trans hactive) (Option.some_ne_none session)
  settled _ := hsettled

/-- Whole chunks behind and bytes before a session of a bounded image make it sound. -/
theorem ActiveSession.sound_of_progress {session : ActiveSession}
    (hverified : session.verifiedBytes = session.nextChunk * otaImageChunkBytes)
    (hincomplete : session.verifiedBytes < session.manifest.imageBytes)
    (hslot : session.manifest.imageBytes ≤ maxOtaImageBytes) : session.Sound := by
  simp only [maxOtaImageBytes, ota0Len, otaImageChunkBytes] at hverified hslot
  refine ⟨hverified, hincomplete, ?_, fun link metadata data hadmits => ?_⟩
  · simp only [OtaManifest.chunkCount, otaImageChunkBytes]
    omega
  · have hlength : data.length = min (session.manifest.imageBytes - session.verifiedBytes)
        (7 * 1024) := hadmits.length
    constructor
    · show (session.verifiedBytes + data.length % 2 ^ 32) % 2 ^ 32 = _
      omega
    · show (session.nextChunk + 1) % 2 ^ 32 = _
      omega

/-- A session that a resource does not complete stays sound. -/
theorem ActiveSession.Sound.advance {session : ActiveSession} (h : session.Sound) {link : LinkId}
    {metadata data : List Byte} (hadmits : session.Admits link metadata data)
    (hincomplete : (session.advance data).verifiedBytes ≠ session.manifest.imageBytes)
    (hslot : session.manifest.imageBytes ≤ maxOtaImageBytes) : (session.advance data).Sound := by
  obtain ⟨hadvanced, hnext⟩ := h.exact link metadata data hadmits
  have hlength := hadmits.length
  have hverified := h.verified
  have hroom := h.incomplete
  simp only [otaImageChunkBytes] at hlength hverified
  refine ActiveSession.sound_of_progress ?_ ?_ hslot
  · rw [hadvanced, hnext]
    simp only [otaImageChunkBytes]
    omega
  · rw [hadvanced, ActiveSession.advance_manifest]
    omega

/-- Opening or closing the gate keeps a session sound. -/
theorem ActiveSession.Sound.gate {session : ActiveSession} (h : session.Sound) (armed : Bool)
    (hslot : session.manifest.imageBytes ≤ maxOtaImageBytes) :
    ActiveSession.Sound { session with resourceArmed := armed } :=
  ActiveSession.sound_of_progress h.verified h.incomplete hslot

/-- The image of a session in progress fits a slot. -/
theorem SessionInv.slotBound {session : ActiveSession} {log : List (OtaEvent ε)}
    (h : SessionInv sha256 session log) : session.manifest.imageBytes ≤ maxOtaImageBytes := by
  obtain ⟨-, -, since, -, -, hlog⟩ := h
  exact hlog.slotBound

section Step

variable {outcomes : Outcomes ε} {run : Run ε}

/-- A start is truthful about what it did. -/
theorem Truthful.begin (h : Truthful sha256 run) (link : LinkId) (nowMillis : UInt64)
    (manifest : OtaManifest) :
    Truthful sha256 (Ota.step sha256 outcomes run (.begin link nowMillis manifest)) := by
  rw [Ota.step, OtaCoordinator.begin]
  cases hactive : run.1.active with
  | some session =>
    exact .ofActive hactive (h.receiving session hactive).1 (h.receiving session hactive).2
  | none =>
    rw [if_neg (by simp)]
    split
    · rename_i hsize
      refine .ofIdle hactive ?_
      have hsettled := @Settled.refused ε sha256 run.2 [] [] link nowMillis manifest .protocol
        (.tooLarge hsize) (List.forall_mem_nil _)
      rwa [List.append_nil] at hsettled
    · rename_i hsize
      simp only [Outcomes.backend, logged_bind]
      cases outcomes.prepareInactive (run.2 ++ [.begin link nowMillis manifest])
          manifest.imageBytes with
      | error error =>
        refine .ofIdle hactive ?_
        have hsettled := @Settled.refused ε sha256 run.2 _ [] link nowMillis manifest .flash
          (.unprepared error) (List.forall_mem_nil _)
        rw [List.append_nil] at hsettled
        rwa [List.append_assoc]
      | ok slot =>
        have hminimum : 64 ≤ manifest.imageBytes := manifest.minimum
        refine .ofActive rfl (ActiveSession.sound_of_progress (Nat.zero_mul _).symm ?_ ?_) rfl
        · dsimp only
          omega
        · dsimp only
          omega

/-- Arming is mirrored by the status. -/
theorem Truthful.armNext (h : Truthful sha256 run) (hinv : RunInv sha256 run) (link : LinkId)
    (id : OtaSessionId) (index : ℕ) :
    Truthful sha256 (Ota.step sha256 outcomes run (.armNext link id index)) := by
  simp only [Ota.step, OtaCoordinator.armNext]
  cases hactive : run.1.active with
  | none => exact .ofIdle hactive ((h.settled hactive).quiet rfl)
  | some active =>
    dsimp only
    split
    · exact .ofActive hactive (h.receiving active hactive).1 (h.receiving active hactive).2
    · exact .ofActive rfl
        ((h.receiving active hactive).1.gate true (hinv.session active hactive).slotBound) rfl

/-- Disarming is mirrored by the status. -/
theorem Truthful.disarm (h : Truthful sha256 run) (hinv : RunInv sha256 run) :
    Truthful sha256 (Ota.step sha256 outcomes run .disarm) := by
  simp only [Ota.step, OtaCoordinator.disarm]
  cases hactive : run.1.active with
  | none => exact .ofIdle hactive ((h.settled hactive).quiet rfl)
  | some active =>
    exact .ofActive rfl
      ((h.receiving active hactive).1.gate false (hinv.session active hactive).slotBound) rfl

/-- The end of a link interrupts its session and no other. -/
theorem Truthful.linkClosed (h : Truthful sha256 run) (hinv : RunInv sha256 run) (link : LinkId) :
    Truthful sha256 (Ota.step sha256 outcomes run (.linkClosed link)) := by
  simp only [Ota.step, OtaCoordinator.linkClosed]
  cases hactive : run.1.active with
  | none => exact .ofIdle hactive ((h.settled hactive).quiet rfl)
  | some active =>
    dsimp only
    split
    · rename_i hlink
      subst hlink
      rw [failActive_some hactive]
      refine .ofIdle rfl ?_
      have hsettled := Settled.interrupted (hinv.session active hactive)
        (List.forall_mem_nil fun e : OtaEvent ε => e.isQuiet = true)
      rwa [List.append_nil] at hsettled
    · exact .ofActive hactive (h.receiving active hactive).1 (h.receiving active hactive).2

/-- A resource is accounted for in the status, whatever becomes of it. -/
theorem Truthful.ingestResource (h : Truthful sha256 run) (hinv : RunInv sha256 run)
    (link : LinkId) (metadata data : List Byte) :
    Truthful sha256 (Ota.step sha256 outcomes run (.ingestResource link metadata data)) := by
  obtain ⟨tail, hlog, hconsumed⟩ := @consumed ε sha256 outcomes run.1 link metadata data
    (run.2 ++ [.ingestResource link metadata data])
  rw [Ota.step]
  simp only [hlog]
  generalize (run.1.ingestResource sha256 outcomes.backend link metadata data
    (run.2 ++ [.ingestResource link metadata data])).1.1 = c' at hconsumed
  have hnil := List.forall_mem_nil fun e : OtaEvent ε => e.isQuiet = true
  rw [List.append_assoc, List.singleton_append]
  cases hconsumed with
  | unattended hnone => exact .ofIdle hnone ((h.settled hnone).quiet rfl)
  | failed hactive hfails =>
    refine .ofIdle rfl ?_
    have hsettled := Settled.failed (hinv.session _ hactive) hfails hnil
    rwa [List.append_nil] at hsettled
  | received hactive hadmits hincomplete =>
    exact .ofActive rfl ((h.receiving _ hactive).1.advance hadmits hincomplete
      (hinv.session _ hactive).slotBound) rfl
  | completed hactive hadmits hcomplete hdigest =>
    refine .ofIdle rfl ?_
    have hsettled := Settled.activated (hinv.session _ hactive) hadmits hcomplete hdigest hnil
    rwa [List.append_nil] at hsettled

/-- Every operation leaves a truthful status. -/
theorem Truthful.step (h : Truthful sha256 run) (hinv : RunInv sha256 run) (op : OtaOp) :
    Truthful sha256 (Ota.step sha256 outcomes run op) := by
  cases op with
  | begin link nowMillis manifest => exact h.begin link nowMillis manifest
  | armNext link session index => exact h.armNext hinv link session index
  | disarm => exact h.disarm hinv
  | ingestResource link metadata data => exact h.ingestResource hinv link metadata data
  | linkClosed link => exact h.linkClosed hinv link

end Step

/-- The operation is a start that succeeds. -/
def Begins (sha256 : Sha256) (outcomes : Outcomes ε) (run : Run ε) (op : OtaOp) : Prop :=
  ∃ link nowMillis manifest id, op = .begin link nowMillis manifest ∧
    (run.1.begin sha256 outcomes.backend link nowMillis manifest
      (run.2 ++ [.begin link nowMillis manifest])).1.2 = .ok id

/-- Without a session, an operation that is no successful start changes no slot. -/
theorem step_inactive {outcomes : Outcomes ε} {run : Run ε} {op : OtaOp}
    (hnone : run.1.active = none) (hop : ¬ Begins sha256 outcomes run op) :
    (step sha256 outcomes run op).1.active = none ∧
      ∃ tail, (step sha256 outcomes run op).2 = run.2 ++ tail ∧
        ∀ e ∈ tail, e.isMutation = false := by
  cases op with
  | begin link nowMillis manifest =>
    have hbegin : ∀ id, (run.1.begin sha256 outcomes.backend link nowMillis manifest
        (run.2 ++ [.begin link nowMillis manifest])).1.2 ≠ .ok id :=
      fun id hok => hop ⟨link, nowMillis, manifest, id, rfl, hok⟩
    simp only [step, OtaCoordinator.begin, hnone] at hbegin ⊢
    rw [if_neg (by simp)] at hbegin ⊢
    split
    · exact ⟨hnone, _, rfl, by simp [OtaEvent.isMutation]⟩
    · rename_i hsize
      rw [if_neg hsize] at hbegin
      simp only [Outcomes.backend, logged_bind] at hbegin ⊢
      cases hprepared : outcomes.prepareInactive (run.2 ++ [.begin link nowMillis manifest])
          manifest.imageBytes with
      | error error =>
        refine ⟨hnone, _, List.append_assoc .., ?_⟩
        simp [OtaEvent.isMutation]
      | ok slot =>
        rw [hprepared] at hbegin
        exact absurd rfl (hbegin _)
  | armNext link session index =>
    simp only [step, OtaCoordinator.armNext, hnone]
    exact ⟨trivial, _, rfl, by simp [OtaEvent.isMutation]⟩
  | disarm =>
    simp only [step, OtaCoordinator.disarm, hnone]
    exact ⟨trivial, _, rfl, by simp [OtaEvent.isMutation]⟩
  | linkClosed link =>
    simp only [step, OtaCoordinator.linkClosed, hnone]
    exact ⟨trivial, _, rfl, by simp [OtaEvent.isMutation]⟩
  | ingestResource link metadata data =>
    obtain ⟨tail, hlog, hconsumed⟩ := @consumed ε sha256 outcomes run.1 link metadata data
      (run.2 ++ [.ingestResource link metadata data])
    rw [step]
    simp only [hlog]
    generalize (run.1.ingestResource sha256 outcomes.backend link metadata data
      (run.2 ++ [.ingestResource link metadata data])).1.1 = c' at hconsumed
    cases hconsumed with
    | unattended _ =>
      exact ⟨hnone, _, List.append_assoc .., by simp [OtaEvent.isMutation]⟩
    | failed hactive _ | received hactive _ _ | completed hactive _ _ _ =>
      exact absurd (hactive.symm.trans hnone) (Option.some_ne_none _)

/-- Without a session, nothing is written or activated before the next successful start. -/
theorem run_inactive {outcomes : Outcomes ε} {run : Run ε} (hnone : run.1.active = none)
    (ops : List OtaOp)
    (hops : ∀ before op after, ops = before ++ op :: after →
      ¬ Begins sha256 outcomes (before.foldl (step sha256 outcomes) run) op) :
    ∃ tail, (ops.foldl (step sha256 outcomes) run).2 = run.2 ++ tail ∧
      ∀ e ∈ tail, e.isMutation = false := by
  induction ops generalizing run with
  | nil => exact ⟨[], (List.append_nil _).symm, List.forall_mem_nil _⟩
  | cons op ops ih =>
    obtain ⟨hnext, head, hhead, hquiet⟩ := step_inactive hnone (hops [] op ops rfl)
    obtain ⟨tail, htail, hrest⟩ := ih hnext fun before op' after hsplit =>
      hops (op :: before) op' after (congrArg (op :: ·) hsplit)
    refine ⟨head ++ tail, ?_, fun e he => ?_⟩
    · rw [List.foldl_cons, htail, hhead, List.append_assoc]
    · exact (List.mem_append.mp he).elim (hquiet e) (hrest e)

/-- The status of every run is truthful. -/
theorem truthful_runOps (sha256 : Sha256) (outcomes : Outcomes ε) (ops : List OtaOp) :
    Truthful sha256 (runOps sha256 outcomes ops) := by
  induction ops using List.reverseRecOn with
  | nil => exact .ofIdle rfl (.idle (List.forall_mem_nil _))
  | append_singleton ops op ih =>
    rw [runOps, List.foldl_append]
    exact ih.step (runInv_runOps sha256 outcomes ops) op

/-- In every run, with every backend, the status mirrors the session in progress, which has
exact whole chunks behind it, or reports how the last one ended; and once no session is in
progress nothing is written or activated before a start succeeds. -/
theorem status_truthful (sha256 : Sha256) (outcomes : Outcomes ε) (ops : List OtaOp) :
    Truthful sha256 (runOps sha256 outcomes ops) ∧
      ∀ more, (runOps sha256 outcomes ops).1.status.phase ≠ .receiving →
        (∀ before op after, more = before ++ op :: after →
          ¬ Begins sha256 outcomes (runOps sha256 outcomes (ops ++ before)) op) →
        ∃ tail, (runOps sha256 outcomes (ops ++ more)).2 =
            (runOps sha256 outcomes ops).2 ++ tail ∧
          ∀ e ∈ tail, e.isMutation = false := by
  have htruthful := truthful_runOps sha256 outcomes ops
  refine ⟨htruthful, fun more hphase hmore => ?_⟩
  have hnone : (runOps sha256 outcomes ops).1.active = none := by
    cases hactive : (runOps sha256 outcomes ops).1.active with
    | none => rfl
    | some session =>
      rw [(htruthful.receiving session hactive).2] at hphase
      exact absurd rfl hphase
  have hsplit : ∀ later, runOps sha256 outcomes (ops ++ later) =
      later.foldl (step sha256 outcomes) (runOps sha256 outcomes ops) :=
    fun later => List.foldl_append
  rw [hsplit]
  exact run_inactive hnone more fun before op after hbefore => by
    rw [← hsplit]
    exact hmore before op after hbefore

end Ota
