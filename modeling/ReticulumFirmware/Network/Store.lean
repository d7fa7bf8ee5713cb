import ReticulumFirmware.Nor.CommitLast
import ReticulumFirmware.Network.Record

/-!
# The network configuration store

Two erase sectors hold alternating snapshots. A mount classifies both and selects the newer
one; a commit erases the inactive sector, writes the complete successor there, commit marker
last, and mounts again to verify it. This file embeds the operations of the crate.
-/

namespace Network

open Nor

/-- Bytes of one read of an inspection. -/
abbrev inspectionChunkSize : ℕ := 256

/-- Copy-safe token of one exact revision. -/
structure NetworkConfigRevision where
  binding : NetworkConfigStoreBinding
  sector : NetworkConfigStoreSector
  generation : NonZeroU64
  digest : SnapshotDigest
  deriving DecidableEq

/-- Cleanup reported by a mount. -/
inductive NetworkConfigStoreCleanup where
  | clean
  | eraseInactive (sector : NetworkConfigStoreSector)
  deriving DecidableEq

/-- A mounted authoritative configuration. -/
structure MountedNetworkConfigStore where
  revision : NetworkConfigRevision
  configuration : NetworkConfig
  cleanup : NetworkConfigStoreCleanup
  deriving DecidableEq

/-- A committed snapshot that passed every check. -/
structure ValidSnapshot where
  revision : NetworkConfigRevision
  predecessorGeneration : ℕ
  predecessorDigest : SnapshotDigest
  configuration : NetworkConfig
  deriving DecidableEq

/-- Why a sector is rejected. -/
inductive InvalidSectorKind where
  | unsupportedPhysical (version : ℕ)
  | unsupportedSemantic (version : ℕ)
  | wrongBinding
  | committedCorrupt
  | unknown
  deriving DecidableEq

/-- What one sector holds. -/
inductive SectorStatus where
  | erased
  | uncommitted (sector : NetworkConfigStoreSector)
  | valid (snapshot : ValidSnapshot)
  | invalid (sector : NetworkConfigStoreSector) (kind : InvalidSectorKind)
  deriving DecidableEq

/-- Media and operation faults. -/
inductive NetworkConfigStoreFault where
  | unformattedErased
  | unformattedNonErased
  | unsupportedPhysicalVersion (version : ℕ)
  | unsupportedSemanticVersion (version : ℕ)
  | deviceBindingMismatch (sector : NetworkConfigStoreSector)
  | committedSnapshotCorrupt (sector : NetworkConfigStoreSector)
  | unknownProgrammedData (sector : NetworkConfigStoreSector)
  | snapshotConflict
  | generationExhausted
  | alreadyProvisioned
  | staleRevision
  | readbackMismatch (sector : NetworkConfigStoreSector)
  | successorVerificationFailed
  deriving DecidableEq

/-- Failures found before any store I/O. -/
inductive NetworkConfigStoreBindingError where
  | deviceMismatch (expected actual : Vector Byte 16)
  | rangeMismatch (expectedOffset expectedLength actualOffset actualLength : ℕ)
  | rangeOverflow (absoluteOffset length : ℕ)
  | formatVersionMismatch (expected actual : ℕ)
  | lengthMismatch (expected actual : ℕ)
  | capacityMismatch (expected actual : ℕ)
  | readAlignmentMismatch (readSize : ℕ)
  | writeAlignmentMismatch (writeSize eraseSize : ℕ)
  deriving DecidableEq

/-- A binding, backend or store failure. -/
inductive NetworkConfigStoreError (ε : Type) where
  | binding (error : NetworkConfigStoreBindingError)
  | backend (error : ε)
  | fault (fault : NetworkConfigStoreFault)
  deriving DecidableEq

/-- One operation-scoped view of the partition. -/
structure BoundNetworkConfigStore where
  binding : NetworkConfigStoreBinding
  geometry : Geometry
  /-- Number of values of `usize` on the platform. -/
  usizeValues : ℕ

/-- A program over the partition. -/
abbrev NetworkConfigAction (ε α : Type) := Action ε (NetworkConfigStoreError ε) α

/-- The binding is a whole partition in the address space. -/
def validateBindingShape (access : BoundNetworkConfigStore) :
    Except NetworkConfigStoreBindingError Unit :=
  let binding := access.binding
  if binding.formatVersion ≠ physicalFormatVersion then
    .error (.formatVersionMismatch physicalFormatVersion binding.formatVersion)
  else if binding.length ≠ partitionSize then
    .error (.lengthMismatch partitionSize binding.length)
  else if access.usizeValues ≤ binding.absoluteOffset + binding.length
    ∨ 2 ^ 64 ≤ binding.absoluteOffset
  then .error (.rangeOverflow binding.absoluteOffset binding.length)
  else .ok ()

/-- The partition can be read as well. -/
def validateReadBinding (access : BoundNetworkConfigStore) :
    Except NetworkConfigStoreBindingError Unit := do
  validateBindingShape access
  if access.geometry.capacity ≠ partitionSize then
    .error (.capacityMismatch partitionSize access.geometry.capacity)
  else
    let readSize := access.geometry.readSize
    if readSize = 0 ∨ access.binding.absoluteOffset % readSize ≠ 0 ∨ partitionSize % readSize ≠ 0
      ∨ recordSize % readSize ≠ 0 ∨ inspectionChunkSize % readSize ≠ 0
    then .error (.readAlignmentMismatch readSize)
    else .ok ()

/-- The partition can be written as well. -/
def validateWriteBinding (access : BoundNetworkConfigStore) :
    Except NetworkConfigStoreBindingError Unit := do
  validateReadBinding access
  let writeSize := access.geometry.writeSize
  let eraseSize := access.geometry.eraseSize
  if writeSize = 0 ∨ eraseSize = 0 ∨ access.binding.absoluteOffset % writeSize ≠ 0
    ∨ access.binding.absoluteOffset % eraseSize ≠ 0 ∨ commitOffset % writeSize ≠ 0
    ∨ commitSize % writeSize ≠ 0 ∨ sectorSize % eraseSize ≠ 0
  then .error (.writeAlignmentMismatch writeSize eraseSize)
  else .ok ()

/-- The view is one of the store's own binding. -/
def validateSameBinding (expected actual : NetworkConfigStoreBinding) :
    Except NetworkConfigStoreBindingError Unit :=
  if expected.device ≠ actual.device then .error (.deviceMismatch expected.device actual.device)
  else if expected.absoluteOffset ≠ actual.absoluteOffset ∨ expected.length ≠ actual.length then
    .error (.rangeMismatch expected.absoluteOffset expected.length actual.absoluteOffset
      actual.length)
  else if expected.formatVersion ≠ actual.formatVersion then
    .error (.formatVersionMismatch expected.formatVersion actual.formatVersion)
  else .ok ()

/-- A token names the binding of a view exactly when the two are equal. -/
theorem validateSameBinding_iff {expected actual : NetworkConfigStoreBinding} :
    validateSameBinding expected actual = .ok () ↔ expected = actual := by
  cases expected with
  | mk device absoluteOffset length formatVersion =>
    cases actual with
    | mk device' absoluteOffset' length' formatVersion' =>
      unfold validateSameBinding
      simp only [NetworkConfigStoreBinding.mk.injEq]
      split
      · next hdevice => exact ⟨(nomatch ·), fun h => absurd h.1 hdevice⟩
      · next hdevice =>
        split
        · next hrange =>
          exact ⟨(nomatch ·), fun h => absurd hrange (by simp [h.2.1, h.2.2.1])⟩
        · next hrange =>
          split
          · next hversion => exact ⟨(nomatch ·), fun h => absurd h.2.2.2 hversion⟩
          · next hversion =>
            refine ⟨fun _ => ?_, fun _ => rfl⟩
            simp only [not_or, not_not] at hdevice hrange hversion
            exact ⟨hdevice, hrange.1, hrange.2, hversion⟩

/-- Fail with a binding error. -/
def requireBinding {ε : Type} (check : Except NetworkConfigStoreBindingError Unit) :
    NetworkConfigAction ε Unit :=
  match check with
  | .ok () => pure ()
  | .error error => throw (.binding error)

/-- `observed | intended == *observed` on every byte. -/
def monotonicProgrammingCompatible (observed intended : List Byte) : Bool :=
  covers observed intended

section Scan

variable (sha256 : Sha256) (binding : NetworkConfigStoreBinding)

/-- Whether the predecessor fields do not fit the generation. -/
def badPredecessor (generation predecessorGeneration : ℕ) (predecessorDigest : SnapshotDigest) :
    Prop :=
  (generation = 1 ∧ (predecessorGeneration ≠ 0 ∨ predecessorDigest ≠ zeroDigest)) ∨
    (1 < generation ∧
      (predecessorGeneration ≠ generation - 1 ∨ predecessorDigest = zeroDigest))

/-- The fields are compared. -/
instance (generation predecessorGeneration : ℕ) (predecessorDigest : SnapshotDigest) :
    Decidable (badPredecessor generation predecessorGeneration predecessorDigest) :=
  inferInstanceAs (Decidable (_ ∨ _))

/-- The checks of a committed record after its digest. -/
def decodeSnapshot (sector : NetworkConfigStoreSector) (record : List Byte) : SectorStatus :=
  let predecessorGeneration := leNat (slice record 24 8)
  let predecessorDigest := copyArray digestSize (slice record 32 32)
  match NonZeroU64.new (leNat (slice record 16 8)) with
  | none => .invalid sector .committedCorrupt
  | some generation =>
    if badPredecessor generation.get predecessorGeneration predecessorDigest then
      .invalid sector .committedCorrupt
    else
      match decodeConfiguration (record.take protectedSize) with
      | none => .invalid sector .committedCorrupt
      | some configuration =>
        .valid {
          revision := {
            binding
            sector
            generation
            digest := copyArray digestSize (slice record digestOffset digestSize) }
          predecessorGeneration
          predecessorDigest
          configuration }

/-- The checks of a record that carries the commit marker. -/
def decodeCommitted (sector : NetworkConfigStoreSector) (record : List Byte) : SectorStatus :=
  let physical := leNat (slice record 8 2)
  let semantic := leNat (slice record 10 2)
  if slice record 0 8 ≠ magic then .invalid sector .committedCorrupt
  else if physical ≠ physicalFormatVersion then .invalid sector (.unsupportedPhysical physical)
  else if semantic ≠ semanticFormatVersion then .invalid sector (.unsupportedSemantic semantic)
  else if record.getD 12 0 ≠ sector.id ∨ record.getD 15 0 ≠ 0
    ∨ (slice record 108 20).any (· != 0) ∨ leNat (slice record 96 4) ≠ wifiProfileCapacity
    ∨ leNat (slice record 100 4) ≠ wifiSlotSize ∨ leNat (slice record 104 4) ≠ tcpPeerSlotSize
  then .invalid sector .committedCorrupt
  else if slice record 64 16 ≠ binding.device.toList
    ∨ leNat (slice record 80 8) ≠ binding.absoluteOffset % 2 ^ 64
    ∨ leNat (slice record 88 8) ≠ binding.length % 2 ^ 64
  then .invalid sector .wrongBinding
  else if slice record digestOffset digestSize ≠
      (snapshotDigest sha256 (record.take protectedSize)).toList
  then .invalid sector .committedCorrupt
  else decodeSnapshot binding sector record

/-- The status of a sector with this record area and this answer of the tail scan. -/
def sectorStatus (sector : NetworkConfigStoreSector) (record : List Byte) (tailErased : Bool) :
    SectorStatus :=
  let commit := slice record commitOffset commitSize
  if record.all (· == erasedByte) && tailErased then .erased
  else if tailErased = false then .invalid sector .unknown
  else if commit ≠ commitMarker then
    if monotonicProgrammingCompatible commit commitMarker then .uncommitted sector
    else .invalid sector .unknown
  else decodeCommitted sha256 binding sector record

/-- Whether every byte of a region is erased. -/
def regionIsErased {ε : Type} (offset length : ℕ) : NetworkConfigAction ε Bool :=
  Action.chunksErased .backend offset (Action.chunkLengths inspectionChunkSize length)

/-- Read and classify one sector. -/
def scanSector {ε : Type} (sector : NetworkConfigStoreSector) :
    NetworkConfigAction ε SectorStatus := do
  let record ← Action.read .backend sector.offset recordSize
  let tailErased ← regionIsErased (sector.offset + recordSize) (sectorSize - recordSize)
  pure (sectorStatus sha256 binding sector record tailErased)

end Scan

/-- `checked_add(1).unwrap_or(0)` on a generation. -/
def successorOrZero (generation : ℕ) : ℕ :=
  if generation + 1 < 2 ^ 64 then generation + 1 else 0

/-- Mount the newer of two snapshots if it follows the older one. -/
def linkTwoValid (newer older : ValidSnapshot) :
    Except NetworkConfigStoreFault MountedNetworkConfigStore :=
  if newer.revision.generation.get ≠ successorOrZero older.revision.generation.get
    ∨ newer.predecessorGeneration ≠ older.revision.generation.get
    ∨ newer.predecessorDigest ≠ older.revision.digest
  then .error .snapshotConflict
  else .ok {
    revision := newer.revision
    configuration := newer.configuration
    cleanup := .eraseInactive older.revision.sector }

/-- Order two valid snapshots by generation and link them. -/
def selectTwoValid (a b : ValidSnapshot) :
    Except NetworkConfigStoreFault MountedNetworkConfigStore :=
  if b.revision.generation.get < a.revision.generation.get then linkTwoValid a b
  else linkTwoValid b a

/-- A snapshot beside a sector that is erased, or `uncommitted` as named. -/
def selectOneValid (valid : ValidSnapshot) (uncommitted : Option NetworkConfigStoreSector) :
    Except NetworkConfigStoreFault MountedNetworkConfigStore :=
  match uncommitted with
  | none => .ok ⟨valid.revision, valid.configuration, .clean⟩
  | some sector =>
    if sector = valid.revision.sector then .error .snapshotConflict
    else .ok ⟨valid.revision, valid.configuration, .eraseInactive sector⟩

/-- The fault of a rejected sector. -/
def mapInvalid (sector : NetworkConfigStoreSector) : InvalidSectorKind → NetworkConfigStoreFault
  | .unsupportedPhysical version => .unsupportedPhysicalVersion version
  | .unsupportedSemantic version => .unsupportedSemanticVersion version
  | .wrongBinding => .deviceBindingMismatch sector
  | .committedCorrupt => .committedSnapshotCorrupt sector
  | .unknown => .unknownProgrammedData sector

/-- Decide between the two sectors. -/
def select : SectorStatus → SectorStatus →
    Except NetworkConfigStoreFault MountedNetworkConfigStore
  | .erased, .erased => .error .unformattedErased
  | .invalid sector kind, _ => .error (mapInvalid sector kind)
  | _, .invalid sector kind => .error (mapInvalid sector kind)
  | .valid a, .valid b => selectTwoValid a b
  | .valid valid, .erased | .erased, .valid valid => selectOneValid valid none
  | .valid valid, .uncommitted sector | .uncommitted sector, .valid valid =>
    selectOneValid valid (some sector)
  | .uncommitted _, .uncommitted _ | .uncommitted _, .erased | .erased, .uncommitted _ =>
    .error .unformattedNonErased

/-- Compare two secrets without an early exit. -/
def constantTimeEq (left right : List Byte) : Bool :=
  if left.length ≠ right.length then false
  else (left.zip right).foldl (fun difference (l, r) => difference ||| (l ^^^ r)) (0 : Byte) == 0

/-- Whether two configurations retain the same values; vacant slots do not matter. -/
def configurationEq (left right : NetworkConfig) : Bool :=
  if left.wifiProfileCount ≠ right.wifiProfileCount ∨ left.tcpPeer ≠ right.tcpPeer
    ∨ left.wifiTransportEnabled ≠ right.wifiTransportEnabled
    ∨ left.automaticAnnouncesEnabled ≠ right.automaticAnnouncesEnabled
    ∨ left.rmapDiscoveryEnabled ≠ right.rmapDiscoveryEnabled
    ∨ left.rmapShareLocation ≠ right.rmapShareLocation
    ∨ left.phoneLocation ≠ right.phoneLocation ∨ left.loraProfile ≠ right.loraProfile
  then false
  else (left.wifiProfiles.zip right.wifiProfiles).all fun (l, r) =>
    l.id == r.id && l.ssid == r.ssid && constantTimeEq l.password r.password &&
      l.enabled == r.enabled && l.priority == r.priority

section Operations

variable {ε : Type} (sha256 : Sha256) (access : BoundNetworkConfigStore)

/-- Mount the newest valid committed snapshot without changing the flash. -/
def mount : NetworkConfigAction ε MountedNetworkConfigStore := do
  requireBinding (validateReadBinding access)
  let a ← scanSector sha256 access.binding .a
  let b ← scanSector sha256 access.binding .b
  match select a b with
  | .ok mounted => pure mounted
  | .error fault => throw (.fault fault)

/-- Program bytes and compare the readback in chunks. -/
def writeVerified (sector : NetworkConfigStoreSector) (relativeOffset : ℕ) (bytes : List Byte) :
    NetworkConfigAction ε Unit := do
  Action.write .backend (sector.offset + relativeOffset) bytes
  Action.verifyChunks .backend (.fault (.readbackMismatch sector)) (sector.offset + relativeOffset)
    bytes (Action.chunkLengths inspectionChunkSize bytes.length)

/-- Erase a sector and check that it reads erased. -/
def eraseVerified (sector : NetworkConfigStoreSector) : NetworkConfigAction ε Unit := do
  Action.erase .backend sector.offset (sector.offset + sectorSize)
  let erased ← regionIsErased sector.offset sectorSize
  Action.ensure (erased = true) (.fault (.readbackMismatch sector))

/-- Write a snapshot, commit marker last. -/
def writeSnapshot (binding : NetworkConfigStoreBinding) (sector : NetworkConfigStoreSector)
    (generation : NonZeroU64) (predecessorGeneration : ℕ) (predecessorDigest : SnapshotDigest)
    (configuration : NetworkConfig) : NetworkConfigAction ε Unit := do
  let encoded := encodeRecord sha256 binding sector generation predecessorGeneration
    predecessorDigest configuration
  writeVerified sector 0 (slice encoded 0 commitOffset)
  writeVerified sector commitOffset (slice encoded commitOffset commitSize)

/-- Mount again and compare with the intended successor. -/
def verifySuccessor (sector : NetworkConfigStoreSector) (generation : NonZeroU64)
    (configuration : NetworkConfig) : NetworkConfigAction ε MountedNetworkConfigStore := do
  let mounted ← mount sha256 access
  Action.ensure (mounted.revision.sector = sector ∧ mounted.revision.generation = generation ∧
    configurationEq mounted.configuration configuration = true)
    (.fault .successorVerificationFailed)
  pure mounted

/-- Commit generation one to exactly erased media. -/
def provisionErased (configuration : NetworkConfig) :
    NetworkConfigAction ε MountedNetworkConfigStore := do
  requireBinding (validateWriteBinding access)
  match ← Action.attempt (mount sha256 access) with
  | .error (.fault .unformattedErased) => pure ()
  | .ok _ => throw (.fault .alreadyProvisioned)
  | .error error => throw error
  let generation : NonZeroU64 := ⟨1, Nat.one_pos, one_lt_two_pow_64⟩
  writeSnapshot sha256 access.binding .a generation 0 zeroDigest configuration
  verifySuccessor sha256 access .a generation configuration

/-- Commit a complete successor snapshot to the inactive sector. -/
def commitSuccessor (predecessor : NetworkConfigRevision) (configuration : NetworkConfig) :
    NetworkConfigAction ε MountedNetworkConfigStore := do
  requireBinding (validateWriteBinding access)
  requireBinding (validateSameBinding predecessor.binding access.binding)
  let observed ← mount sha256 access
  Action.ensure (observed.revision = predecessor) (.fault .staleRevision)
  match NonZeroU64.new (predecessor.generation.get + 1) with
  | none => throw (.fault .generationExhausted)
  | some generation =>
    let target := predecessor.sector.other
    eraseVerified target
    writeSnapshot sha256 predecessor.binding target generation predecessor.generation.get
      predecessor.digest configuration
    verifySuccessor sha256 access target generation configuration

/-- Erase a reported non-authoritative sector and mount again. -/
def cleanup (revision : NetworkConfigRevision) :
    NetworkConfigAction ε MountedNetworkConfigStore := do
  requireBinding (validateWriteBinding access)
  requireBinding (validateSameBinding revision.binding access.binding)
  let mounted ← mount sha256 access
  Action.ensure (mounted.revision = revision) (.fault .staleRevision)
  match mounted.cleanup with
  | .clean => pure mounted
  | .eraseInactive sector =>
    eraseVerified sector
    mount sha256 access

end Operations

end Network
