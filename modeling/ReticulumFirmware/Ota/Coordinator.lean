import ReticulumFirmware.Ota.Protocol

/-!
# The update coordinator

The operations of `ota.rs`. The coordinator is generic in the backend, as the source is:
its four operations are functions in an arbitrary monad. The running digest is the list
of absorbed bytes; hashing is a parameter.
-/

namespace Ota

open Nor

/-- Inactive-slot operations of the board. -/
structure OtaBackend (m : Type → Type) (ε : Type) where
  /-- Select and erase the inactive slot. -/
  prepareInactive : ℕ → m (Except ε OtaSlot)
  /-- Write one chunk and verify it. -/
  writeVerified : OtaSlot → ℕ → List Byte → m (Except ε Unit)
  /-- Validate the staged image. -/
  validateStagedImage : OtaSlot → ℕ → m (Except ε Unit)
  /-- Select the slot for the next boot. -/
  activate : OtaSlot → m (Except ε Unit)

/-- Bytes of the first update slot. -/
abbrev ota0Len : ℕ := 0x00500000

/-- Largest image that fits a slot. -/
abbrev maxOtaImageBytes : ℕ := ota0Len

/-- Domain separation of session identities. -/
def sessionDomain : List Byte := ascii "reticulum-e290-ota-session-v1"

/-- One transfer in progress. -/
structure ActiveSession where
  link : LinkId
  id : OtaSessionId
  manifest : OtaManifest
  slot : OtaSlot
  verifiedBytes : ℕ
  nextChunk : ℕ
  resourceArmed : Bool
  /-- The bytes absorbed by the running digest. -/
  digest : List Byte

/-- The session after one more written chunk. -/
def ActiveSession.absorb (active : ActiveSession) (data : List Byte) : ActiveSession :=
  { active with
    digest := active.digest ++ data
    verifiedBytes := (active.verifiedBytes + data.length % 2 ^ 32) % 2 ^ 32
    nextChunk := (active.nextChunk + 1) % 2 ^ 32 }

/-- Why an operation of the coordinator failed. -/
inductive OtaCoordinatorError (ε : Type) where
  | busy
  | notExpected
  | protocol (error : OtaProtocolError)
  | backend (error : ε)

/-- The owner of one update. -/
structure OtaCoordinator where
  active : Option ActiveSession
  status : OtaStatus

/-- The identity of a transfer. -/
def deriveSessionId (sha256 : Sha256) (link : LinkId) (nowMillis : UInt64)
    (manifest : OtaManifest) : OtaSessionId :=
  copyArray 16 ((sha256 (sessionDomain ++ link.toList ++ beBytes 8 nowMillis.toNat ++
    beBytes 4 manifest.imageBytes ++ manifest.imageSha256.toList)).toList.take 16)

namespace OtaCoordinator

/-- An idle coordinator. -/
def new : OtaCoordinator := ⟨none, .idle⟩

/-- Project the session in progress. -/
def refreshReceivingStatus (c : OtaCoordinator) : OtaCoordinator :=
  match c.active with
  | none => c
  | some active =>
    { c with status := ⟨.receiving, some active.id, some active.slot, some active.manifest.version,
        active.manifest.imageBytes, active.verifiedBytes, active.nextChunk, active.resourceArmed,
        none⟩ }

/-- Project a failure before a session exists. -/
def failWithoutActive (c : OtaCoordinator) (manifest : OtaManifest) (failure : OtaFailure) :
    OtaCoordinator :=
  { c with status := ⟨.failed, none, none, some manifest.version, manifest.imageBytes, 0, 0, false,
      some failure⟩ }

/-- End the session in progress with a failure. -/
def failActive (c : OtaCoordinator) (failure : OtaFailure) : OtaCoordinator :=
  match c.active with
  | none => c
  | some active =>
    ⟨none, ⟨.failed, some active.id, some active.slot, some active.manifest.version,
      active.manifest.imageBytes, active.verifiedBytes, active.nextChunk, false, some failure⟩⟩

/-- Mark the exact next resource admissible. -/
def armNext {ε : Type} (c : OtaCoordinator) (link : LinkId) (session : OtaSessionId) (index : ℕ) :
    OtaCoordinator × Except (OtaCoordinatorError ε) Unit :=
  match c.active with
  | none => (c, .error .notExpected)
  | some active =>
    if active.link ≠ link ∨ active.id ≠ session ∨ active.nextChunk ≠ index then
      (c, .error .notExpected)
    else
      (({ c with active := some { active with resourceArmed := true } }).refreshReceivingStatus,
        .ok ())

/-- Close the application gate. -/
def disarm (c : OtaCoordinator) : OtaCoordinator :=
  match c.active with
  | none => c
  | some active =>
    ({ c with active := some { active with resourceArmed := false } }).refreshReceivingStatus

/-- Fail the transfer of a link that closed. -/
def linkClosed (c : OtaCoordinator) (link : LinkId) : OtaCoordinator :=
  match c.active with
  | none => c
  | some active => if active.link = link then c.failActive .interrupted else c

section Backend

variable {m : Type → Type} [Monad m] {ε : Type}
variable (sha256 : Sha256) (backend : OtaBackend m ε)

/-- Start a transfer into the slot the backend selects and erases. -/
def begin (c : OtaCoordinator) (link : LinkId) (nowMillis : UInt64) (manifest : OtaManifest) :
    m (OtaCoordinator × Except (OtaCoordinatorError ε) OtaSessionId) :=
  if c.active.isSome then pure (c, .error .busy)
  else if manifest.imageBytes > maxOtaImageBytes then
    pure (c.failWithoutActive manifest .protocol, .error (.protocol .invalidImageSize))
  else do
    let id := deriveSessionId sha256 link nowMillis manifest
    match ← backend.prepareInactive manifest.imageBytes with
    | .error error => pure (c.failWithoutActive manifest .flash, .error (.backend error))
    | .ok slot =>
      pure (({ c with active := some ⟨link, id, manifest, slot, 0, 0, false, []⟩
        }).refreshReceivingStatus, .ok id)

/-- The projection of a completed transfer. -/
def completedStatus (completed : ActiveSession) : OtaStatus :=
  ⟨.activated, some completed.id, some completed.slot, some completed.manifest.version,
    completed.manifest.imageBytes, completed.verifiedBytes, completed.nextChunk, false, none⟩

/-- Verify, validate and activate a session whose last byte is written. -/
def finish (c : OtaCoordinator) (active : ActiveSession) :
    m (OtaCoordinator × Except (OtaCoordinatorError ε) OtaStatus) :=
  if sha256 active.digest ≠ active.manifest.imageSha256 then
    pure (c.failActive .digestMismatch, .error .notExpected)
  else do
    match ← backend.validateStagedImage active.slot active.manifest.imageBytes with
    | .error error => pure (c.failActive .imageValidation, .error (.backend error))
    | .ok _ =>
      match ← backend.activate active.slot with
      | .error error => pure (c.failActive .activation, .error (.backend error))
      | .ok _ => pure (⟨none, completedStatus active⟩, .ok (completedStatus active))

/-- Write an admitted chunk and account for it. -/
def writeChunk (c : OtaCoordinator) (active : ActiveSession) (data : List Byte) :
    m (OtaCoordinator × Except (OtaCoordinatorError ε) OtaStatus) := do
  match ← backend.writeVerified active.slot active.verifiedBytes data with
  | .error error => pure (c.failActive .flash, .error (.backend error))
  | .ok _ =>
    let active := active.absorb data
    let c := { c with active := some active }
    if active.verifiedBytes ≠ active.manifest.imageBytes then
      let c := c.refreshReceivingStatus
      pure (c, .ok c.status)
    else finish sha256 backend c active

/-- Commit one resource to the inactive slot. -/
def ingestResource (c : OtaCoordinator) (link : LinkId) (metadata data : List Byte) :
    m (OtaCoordinator × Except (OtaCoordinatorError ε) OtaStatus) :=
  match OtaChunkMetadata.decode metadata with
  | .error error => pure (c.failActive .protocol, .error (.protocol error))
  | .ok decoded =>
    match c.active with
    | none => pure (c, .error .notExpected)
    | some session =>
      -- the gate is consumed before anything else is looked at
      let active := { session with resourceArmed := false }
      let c := { c with active := some active }
      if active.link ≠ link then pure (c.failActive .wrongLink, .error .notExpected)
      else if !session.resourceArmed ∨ decoded.session ≠ active.id
          ∨ decoded.index ≠ active.nextChunk ∨ decoded.offset ≠ active.verifiedBytes then
        pure (c.failActive .unexpectedChunk, .error .notExpected)
      else if data.length ≠ min (active.manifest.imageBytes - active.verifiedBytes)
          otaImageChunkBytes ∨ data = [] then
        pure (c.failActive .unexpectedChunk, .error .notExpected)
      else if active.verifiedBytes = 0 ∧ data.head? ≠ some espImageMagic then
        pure (c.failActive .invalidEspImage, .error .notExpected)
      else writeChunk sha256 backend c active data

end Backend

/-- A new status keeps the session. -/
@[simp] theorem active_refreshReceivingStatus (c : OtaCoordinator) :
    c.refreshReceivingStatus.active = c.active := by
  unfold refreshReceivingStatus
  split <;> simp_all

/-- A failure without a session keeps it so. -/
@[simp] theorem active_failWithoutActive (c : OtaCoordinator) (manifest : OtaManifest)
    (failure : OtaFailure) : (c.failWithoutActive manifest failure).active = c.active := rfl

/-- A failure ends the session. -/
@[simp] theorem active_failActive (c : OtaCoordinator) (failure : OtaFailure) :
    (c.failActive failure).active = none := by
  unfold failActive
  split <;> simp_all

end OtaCoordinator

/-- The checks that a resource passes before it is written. -/
structure ActiveSession.Admits (session : ActiveSession) (link : LinkId)
    (metadata data : List Byte) : Prop where
  link : session.link = link
  armed : session.resourceArmed = true
  decoded : OtaChunkMetadata.decode metadata =
    .ok ⟨session.id, session.nextChunk, session.verifiedBytes⟩
  length : data.length = min (session.manifest.imageBytes - session.verifiedBytes)
    otaImageChunkBytes
  nonempty : data ≠ []
  magic : session.verifiedBytes = 0 → data.head? = some espImageMagic

namespace OtaCoordinator

variable {m : Type → Type} [Monad m] {ε : Type}
variable (sha256 : Sha256) (backend : OtaBackend m ε)

/-- A start is rejected without a backend call, or it prepares a slot for an admissible
image while no session is active. -/
theorem begin_cases (c : OtaCoordinator) (link : LinkId) (nowMillis : UInt64)
    (manifest : OtaManifest) :
    (∃ c' error, c'.active = c.active ∧
      c.begin sha256 backend link nowMillis manifest = pure (c', .error error)) ∨
    (c.active = none ∧ manifest.imageBytes ≤ maxOtaImageBytes) := by
  unfold begin
  split
  · exact Or.inl ⟨c, _, rfl, rfl⟩
  · next hactive =>
    split
    · exact Or.inl ⟨_, _, active_failWithoutActive .., rfl⟩
    · next hsize => exact Or.inr ⟨by simpa using hactive, by omega⟩

/-- A resource is rejected without a backend call, which ends the session, or it passes
every check and is written. -/
theorem ingestResource_cases (c : OtaCoordinator) (link : LinkId) (metadata data : List Byte) :
    (∃ c' error, c'.active = none ∧
      c.ingestResource sha256 backend link metadata data = pure (c', .error error)) ∨
    ∃ session, c.active = some session ∧ session.Admits link metadata data ∧
      c.ingestResource sha256 backend link metadata data =
        writeChunk sha256 backend { c with active := some { session with resourceArmed := false } }
          { session with resourceArmed := false } data := by
  unfold ingestResource
  cases hdecoded : OtaChunkMetadata.decode metadata with
  | error error => exact Or.inl ⟨_, _, active_failActive .., rfl⟩
  | ok decoded =>
    cases hactive : c.active with
    | none => exact Or.inl ⟨c, _, hactive, rfl⟩
    | some session =>
      simp only
      split
      · exact Or.inl ⟨_, _, active_failActive .., rfl⟩
      next hlink =>
      split
      · exact Or.inl ⟨_, _, active_failActive .., rfl⟩
      next hexpected =>
      split
      · exact Or.inl ⟨_, _, active_failActive .., rfl⟩
      next hlength =>
      split
      · exact Or.inl ⟨_, _, active_failActive .., rfl⟩
      next hmagic =>
      simp only [not_or, not_not, ne_eq, Bool.not_eq_true', Bool.not_eq_false] at *
      refine Or.inr ⟨session, rfl, ⟨hlink, hexpected.1, ?_, hlength.1, hlength.2, ?_⟩, rfl⟩
      · rw [hdecoded, ← hexpected.2.1, ← hexpected.2.2.1, ← hexpected.2.2.2]
      · simpa using hmagic

end OtaCoordinator

end Ota
