import ReticulumFirmware.Ota.Coordinator

/-!
# Logged runs of the update coordinator

Every operation of the coordinator and every call of its backend is written to a log. The
backend's answers are arbitrary functions of that log. Handing over a resource is the one
operation with several outcomes; they are listed once.
-/

namespace Ota

open Nor

/-- One operation of the coordinator or one call of its backend with the answer. -/
inductive OtaEvent (ε : Type) where
  | begin (link : LinkId) (nowMillis : UInt64) (manifest : OtaManifest)
  | armNext (link : LinkId) (session : OtaSessionId) (index : ℕ) (armed : Bool)
  | disarm
  | ingestResource (link : LinkId) (metadata data : List Byte)
  | linkClosed (link : LinkId)
  | prepareInactive (imageBytes : ℕ) (result : Except ε OtaSlot)
  | writeVerified (slot : OtaSlot) (offset : ℕ) (data : List Byte) (result : Except ε Unit)
  | validateStagedImage (slot : OtaSlot) (imageBytes : ℕ) (result : Except ε Unit)
  | activate (slot : OtaSlot) (result : Except ε Unit)

/-- What a backend answers, depending on everything that happened before. -/
structure Outcomes (ε : Type) where
  prepareInactive : List (OtaEvent ε) → ℕ → Except ε OtaSlot
  writeVerified : List (OtaEvent ε) → OtaSlot → ℕ → List Byte → Except ε Unit
  validateStagedImage : List (OtaEvent ε) → OtaSlot → ℕ → Except ε Unit
  activate : List (OtaEvent ε) → OtaSlot → Except ε Unit

variable {ε : Type}

/-- Write an event to the log and return its answer. -/
def logged {α : Type} (answer : List (OtaEvent ε) → α) (event : α → OtaEvent ε) :
    StateM (List (OtaEvent ε)) α :=
  fun log => (answer log, log ++ [event (answer log)])

/-- What follows a logged event runs on its answer. -/
@[simp] theorem logged_bind {α β : Type} (answer : List (OtaEvent ε) → α)
    (event : α → OtaEvent ε) (next : α → StateM (List (OtaEvent ε)) β) (log : List (OtaEvent ε)) :
    (logged answer event >>= next) log = next (answer log) (log ++ [event (answer log)]) := rfl

/-- A backend with the given answers that logs its calls. -/
def Outcomes.backend (outcomes : Outcomes ε) : OtaBackend (StateM (List (OtaEvent ε))) ε where
  prepareInactive imageBytes :=
    logged (outcomes.prepareInactive · imageBytes) (.prepareInactive imageBytes)
  writeVerified slot offset data :=
    logged (outcomes.writeVerified · slot offset data) (.writeVerified slot offset data)
  validateStagedImage slot imageBytes :=
    logged (outcomes.validateStagedImage · slot imageBytes) (.validateStagedImage slot imageBytes)
  activate slot := logged (outcomes.activate · slot) (.activate slot)

/-- An operation of the coordinator. -/
inductive OtaOp where
  | begin (link : LinkId) (nowMillis : UInt64) (manifest : OtaManifest)
  | armNext (link : LinkId) (session : OtaSessionId) (index : ℕ)
  | disarm
  | ingestResource (link : LinkId) (metadata data : List Byte)
  | linkClosed (link : LinkId)

/-- A coordinator with the log of everything that happened. -/
abbrev Run (ε : Type) := OtaCoordinator × List (OtaEvent ε)

/-- Run one operation. -/
def step (sha256 : Sha256) (outcomes : Outcomes ε) (run : Run ε) : OtaOp → Run ε
  | .begin link nowMillis manifest =>
    let r := run.1.begin sha256 outcomes.backend link nowMillis manifest
      (run.2 ++ [.begin link nowMillis manifest])
    (r.1.1, r.2)
  | .armNext link session index =>
    let r : OtaCoordinator × Except (OtaCoordinatorError ε) Unit := run.1.armNext link session index
    (r.1, run.2 ++ [.armNext link session index r.2.toBool])
  | .disarm => (run.1.disarm, run.2 ++ [.disarm])
  | .ingestResource link metadata data =>
    let r := run.1.ingestResource sha256 outcomes.backend link metadata data
      (run.2 ++ [.ingestResource link metadata data])
    (r.1.1, r.2)
  | .linkClosed link => (run.1.linkClosed link, run.2 ++ [.linkClosed link])

/-- Run operations in order from an idle coordinator. -/
def runOps (sha256 : Sha256) (outcomes : Outcomes ε) (ops : List OtaOp) : Run ε :=
  ops.foldl (step sha256 outcomes) (.new, [])

/-- Whether an event is a preparation of a slot. -/
def OtaEvent.isPrepare : OtaEvent ε → Bool
  | .prepareInactive .. => true
  | _ => false

/-- Whether an event is an activation of a slot. -/
def OtaEvent.isActivate : OtaEvent ε → Bool
  | .activate .. => true
  | _ => false

/-- The session after an admitted resource was written. -/
def ActiveSession.advance (session : ActiveSession) (data : List Byte) : ActiveSession :=
  ({ session with resourceArmed := false } : ActiveSession).absorb data

/-- A chunk keeps the link of the session. -/
@[simp] theorem ActiveSession.advance_link (session : ActiveSession) (data : List Byte) :
    (session.advance data).link = session.link := rfl

/-- A chunk keeps the manifest of the session. -/
@[simp] theorem ActiveSession.advance_manifest (session : ActiveSession) (data : List Byte) :
    (session.advance data).manifest = session.manifest := rfl

/-- A chunk keeps the slot of the session. -/
@[simp] theorem ActiveSession.advance_slot (session : ActiveSession) (data : List Byte) :
    (session.advance data).slot = session.slot := rfl

/-- What handing over a resource does, apart from the status: the backend calls it makes and
the session it leaves. -/
inductive Ingested (sha256 : Sha256) (link : LinkId) (metadata data : List Byte) :
    Option ActiveSession → List (OtaEvent ε) → Option ActiveSession → Prop
  | rejected {active : Option ActiveSession} {tail : List (OtaEvent ε)}
      (htail : ∀ e ∈ tail, e.isPrepare = false ∧ e.isActivate = false) :
      Ingested sha256 link metadata data active tail none
  | received {session : ActiveSession} (hadmits : session.Admits link metadata data) :
      Ingested sha256 link metadata data (some session)
        [.writeVerified session.slot session.verifiedBytes data (.ok ())]
        (some (session.advance data))
  | completed {session : ActiveSession} (hadmits : session.Admits link metadata data)
      (hcomplete : (session.advance data).verifiedBytes = session.manifest.imageBytes)
      (hdigest : sha256 (session.digest ++ data) = session.manifest.imageSha256)
      (result : Except ε Unit) :
      Ingested sha256 link metadata data (some session)
        [.writeVerified session.slot session.verifiedBytes data (.ok ()),
          .validateStagedImage session.slot session.manifest.imageBytes (.ok ()),
          .activate session.slot result] none

/-- Verifying, validating and activating a written image ends the session. -/
theorem finish_cases (sha256 : Sha256) (outcomes : Outcomes ε) (c : OtaCoordinator)
    (active : ActiveSession) (log : List (OtaEvent ε)) :
    ∃ tail, (c.finish sha256 outcomes.backend active log).2 = log ++ tail ∧
      (c.finish sha256 outcomes.backend active log).1.1.active = none ∧
      ((∀ e ∈ tail, e.isPrepare = false ∧ e.isActivate = false) ∨
        (sha256 active.digest = active.manifest.imageSha256 ∧ ∃ result, tail =
          [.validateStagedImage active.slot active.manifest.imageBytes (.ok ()),
            .activate active.slot result])) := by
  unfold OtaCoordinator.finish
  split
  · exact ⟨[], (List.append_nil log).symm, OtaCoordinator.active_failActive .., Or.inl (by simp)⟩
  next hdigest =>
  rw [not_not] at hdigest
  simp only [Outcomes.backend, logged_bind]
  cases outcomes.validateStagedImage log active.slot active.manifest.imageBytes with
  | error error =>
    exact ⟨_, rfl, OtaCoordinator.active_failActive .., Or.inl (by
      simp [OtaEvent.isPrepare, OtaEvent.isActivate])⟩
  | ok _ =>
    simp only [logged_bind, List.append_assoc]
    cases outcomes.activate _ active.slot with
    | error error =>
      exact ⟨_, rfl, OtaCoordinator.active_failActive .., Or.inr ⟨hdigest, _, rfl⟩⟩
    | ok _ => exact ⟨_, rfl, rfl, Or.inr ⟨hdigest, _, rfl⟩⟩

/-- Handing over a resource is rejected, received or completes the transfer. -/
theorem ingested (sha256 : Sha256) (outcomes : Outcomes ε) (c : OtaCoordinator)
    (link : LinkId) (metadata data : List Byte) (log : List (OtaEvent ε)) :
    ∃ tail, (c.ingestResource sha256 outcomes.backend link metadata data log).2 = log ++ tail ∧
      Ingested sha256 link metadata data c.active tail
        (c.ingestResource sha256 outcomes.backend link metadata data log).1.1.active := by
  rcases c.ingestResource_cases sha256 outcomes.backend link metadata data with
    ⟨c', error, hactive, heq⟩ | ⟨session, hactive, hadmits, heq⟩
  · rw [heq]
    exact ⟨[], (List.append_nil log).symm, hactive ▸ .rejected (by simp)⟩
  rw [heq, hactive, OtaCoordinator.writeChunk]
  simp only [Outcomes.backend, logged_bind]
  cases outcomes.writeVerified log session.slot session.verifiedBytes data with
  | error error =>
    refine ⟨_, rfl, ?_⟩
    have hnone := OtaCoordinator.active_failActive
      ⟨some { session with resourceArmed := false }, c.status⟩ .flash
    exact hnone ▸ .rejected (by simp [OtaEvent.isPrepare, OtaEvent.isActivate])
  | ok _ =>
    simp only
    split
    · refine ⟨_, rfl, ?_⟩
      have hsome := OtaCoordinator.active_refreshReceivingStatus
        ⟨some (session.advance data), c.status⟩
      exact hsome ▸ .received hadmits
    · next hcomplete =>
      rw [not_not] at hcomplete
      obtain ⟨tail, hlog, hnone, htail⟩ := finish_cases sha256 outcomes
        ⟨some (session.advance data), c.status⟩ (session.advance data)
        (log ++ [.writeVerified session.slot session.verifiedBytes data (.ok ())])
      refine ⟨_, hlog.trans (List.append_assoc ..), ?_⟩
      refine hnone ▸ ?_
      rcases htail with htail | ⟨hdigest, result, rfl⟩
      · exact .rejected (List.forall_mem_cons.mpr ⟨⟨rfl, rfl⟩, htail⟩)
      · exact .completed hadmits hcomplete hdigest result

end Ota
