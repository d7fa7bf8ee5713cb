import ReticulumFirmware.ProductIdentity.Format

/-!
# Loading, provisioning and repairing the device identity

The programs of `product_identity.rs` over a fallible NOR backend, down to each read,
program and erase. The entropy source is asked at most once during a boot, so its
answer is an argument.
-/

namespace ProductIdentity

open Nor

/-- How the identity became available. -/
inductive IdentityBootSource where
  | loaded
  | provisioned
  | repaired
  deriving DecidableEq, Repr

/-- How many mirrors were verified before returning. -/
inductive IdentityMirrorCoverage where
  | redundant
  | single
  deriving DecidableEq, Repr

/-- Result metadata of a successful boot. -/
structure IdentityBootReport where
  source : IdentityBootSource
  coverage : IdentityMirrorCoverage
  repairDeferred : Bool
  deriving DecidableEq, Repr

/-- Why a boot failed, for backend errors `ε` and entropy errors `ρ`. -/
inductive IdentityStoreError (ε ρ : Type) where
  | backend (error : ε)
  | incompatibleFlash
  | entropy (error : ρ)
  | committedCorrupt (mirror : IdentityMirror)
  | unknownProgrammedData (mirror : IdentityMirror)
  | mirrorConflict
  | readbackMismatch (mirror : IdentityMirror)
  | noCommittedIdentity

/-- The boot error of a failed selection. -/
def mapSelectionError {ε ρ : Type} : SelectionError → IdentityStoreError ε ρ
  | .committedCorrupt mirror => .committedCorrupt mirror
  | .unknown mirror => .unknownProgrammedData mirror
  | .conflict => .mirrorConflict

variable {ε ρ : Type}

/-- A program of the identity store. -/
abbrev IdentityAction (ε ρ α : Type) := Action ε (IdentityStoreError ε ρ) α

/-- The read geometry the format requires. -/
def validateReadFlash (geometry : Geometry) : Bool :=
  !(geometry.capacity ≠ partitionSize
    || geometry.readSize = 0
    || mirrorSectorSize % geometry.readSize ≠ 0
    || recordSize % geometry.readSize ≠ 0
    || tailScanChunkSize % geometry.readSize ≠ 0)

/-- The geometry the format requires. -/
def validateFlash (geometry : Geometry) : Bool :=
  validateReadFlash geometry &&
    !(geometry.writeSize = 0
      || geometry.eraseSize ≠ mirrorSectorSize
      || claimSize % geometry.writeSize ≠ 0
      || bodyWriteSize % geometry.writeSize ≠ 0
      || commitSize % geometry.writeSize ≠ 0)

/-- Chunks of the tail scan. -/
abbrev tailChunks : ℕ := (mirrorSectorSize - recordSize) / tailScanChunkSize

/-- Read one tail chunk and keep whether every tail byte so far was erased. -/
def scanTailChunk (mirror : IdentityMirror) (tailIsErased : Bool) (chunk : ℕ) :
    IdentityAction ε ρ Bool := do
  let tail ← Action.read .backend
    (mirror.offset + (recordSize + chunk * tailScanChunkSize)) tailScanChunkSize
  pure (tailIsErased && tail.all (· == erasedByte))

/-- An expected private key, or a conflict. -/
def ensureExpected (record expected : PrivateKey) : IdentityAction ε ρ Unit :=
  Action.ensure (record = expected) .mirrorConflict

/-- Program bytes of a mirror and verify the exact readback. -/
def writeVerified (mirror : IdentityMirror) (offset : ℕ) (bytes : List Byte) :
    IdentityAction ε ρ Unit := do
  Action.write .backend (mirror.offset + offset) bytes
  let readback ← Action.read .backend (mirror.offset + offset) bytes.length
  Action.ensure (readback = bytes) (.readbackMismatch mirror)

section Programs

variable (sha256 : Sha256)

/-- Read and classify one mirror. -/
def scanMirror (mirror : IdentityMirror) : IdentityAction ε ρ SectorState := do
  let record ← Action.read .backend mirror.offset recordSize
  let tailIsErased ← (List.range tailChunks).foldlM (scanTailChunk mirror) true
  pure (classify sha256 record tailIsErased)

/-- Scan both mirrors and decide between them. -/
def selectBoth : IdentityAction ε ρ Selection := do
  let a ← scanMirror sha256 .a
  let b ← scanMirror sha256 .b
  match select a b with
  | .ok selection => pure selection
  | .error error => throw (mapSelectionError error)

/-- Erase a mirror and verify that it is erased. -/
def eraseMirror (mirror : IdentityMirror) : IdentityAction ε ρ Unit := do
  Action.erase .backend mirror.offset (mirror.offset + mirrorSectorSize)
  match ← scanMirror sha256 mirror with
  | .erased => pure ()
  | _ => throw (.readbackMismatch mirror)

/-- Verify that a mirror holds the given key. -/
def verifyRecord (mirror : IdentityMirror) (privateKey : PrivateKey) :
    IdentityAction ε ρ Unit := do
  match ← scanMirror sha256 mirror with
  | .valid record => Action.ensure (record = privateKey) (.readbackMismatch mirror)
  | _ => throw (.readbackMismatch mirror)

/-- Program claim, body and commit marker, verifying each stage. -/
def writeRecord (mirror : IdentityMirror) (privateKey : PrivateKey) : IdentityAction ε ρ Unit := do
  let encoded := encodeRecord sha256 privateKey
  writeVerified mirror claimOffset (slice encoded claimOffset claimSize)
  writeVerified mirror headerOffset (slice encoded headerOffset bodyWriteSize)
  Action.write .backend (mirror.offset + commitOffset) (slice encoded commitOffset commitSize)
  verifyRecord sha256 mirror privateKey

/-- Bring a mirror in the given state to hold the given key. -/
def repairMirror (mirror : IdentityMirror) (state : SectorState) (privateKey : PrivateKey) :
    IdentityAction ε ρ Unit :=
  match state with
  | .erased => writeRecord sha256 mirror privateKey
  | .torn | .committedCorrupt | .unknown => do
    eraseMirror sha256 mirror
    writeRecord sha256 mirror privateKey
  | .valid existing => ensureExpected existing privateKey

/-- Repair the peer of the sole valid mirror and decide again. -/
def finishSingle (authoritative : IdentityMirror) (record : PrivateKey) (other : SectorState)
    (provisioned : Bool) : IdentityAction ε ρ (PrivateKey × IdentityBootReport) := do
  let repaired ← Action.attempt (repairMirror sha256 authoritative.other other record)
  match ← selectBoth sha256 with
  | .redundant reloaded =>
    ensureExpected reloaded record
    pure (reloaded, ⟨if provisioned then .provisioned else .repaired, .redundant, false⟩)
  | .single _ reloaded _ =>
    ensureExpected reloaded record
    match repaired with
    | .ok _ => throw (.readbackMismatch authoritative.other)
    | .error _ =>
      pure (reloaded, ⟨if provisioned then .provisioned else .loaded, .single, true⟩)
  | .vacant _ _ =>
    match repaired with
    | .ok _ => throw .noCommittedIdentity
    | .error error => throw error

/-- The canonical representation of freshly generated key bytes. -/
def clampGenerated (generated : PrivateKey) : PrivateKey :=
  let generated := generated.set 0 (generated[0] &&& 248)
  let generated := generated.set 31 (generated[31] &&& 127)
  generated.set 31 (generated[31] ||| 64)

/-- Load, reconcile or first-provision the device identity. -/
def bootLoadOrProvision (geometry : Geometry) (rng : Except ρ PrivateKey) :
    IdentityAction ε ρ (PrivateKey × IdentityBootReport) := do
  Action.ensure (validateFlash geometry = true) .incompatibleFlash
  match ← selectBoth sha256 with
  | .redundant record => pure (record, ⟨.loaded, .redundant, false⟩)
  | .single authoritative record other =>
    finishSingle sha256 authoritative record other false
  | .vacant a _ =>
    match rng with
    | .error error => throw (.entropy error)
    | .ok bytes =>
      let generated := clampGenerated bytes
      let primary ← Action.attempt (repairMirror sha256 .a a generated)
      match ← selectBoth sha256 with
      | .redundant record =>
        ensureExpected record generated
        pure (record, ⟨.provisioned, .redundant, false⟩)
      | .single authoritative record other =>
        ensureExpected record generated
        finishSingle sha256 authoritative record other true
      | .vacant _ _ =>
        match primary with
        | .ok _ => throw (.readbackMismatch .a)
        | .error error => throw error

end Programs

end ProductIdentity
