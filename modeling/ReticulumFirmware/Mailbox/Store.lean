import ReticulumFirmware.Nor.CommitLast

/-!
# The mailbox watermark store

`lxmf-mailbox-store` keeps the highest collected message of the mailbox in two erase
sectors. A snapshot is a protected prefix of fixed fields, its digest and a commit marker,
written by three programs to the inactive sector, which is erased first. This file embeds
the format and the operations of the crate.
-/

namespace Mailbox

open Nor

abbrev partitionSize : ℕ := 8192
abbrev sectorSize : ℕ := 4096
abbrev physicalFormatVersion : ℕ := 2
abbrev protectedSize : ℕ := 256
abbrev digestSize : ℕ := 32
abbrev commitSize : ℕ := 32
abbrev digestOffset : ℕ := 256
abbrev commitOffset : ℕ := 288
abbrev recordSize : ℕ := 320
abbrev claimOffset : ℕ := 0
abbrev magicOffset : ℕ := 32
abbrev versionOffset : ℕ := 40
abbrev deviceOffset : ℕ := 48
abbrev generationOffset : ℕ := 80
abbrev acknowledgedThroughOffset : ℕ := 88
abbrev acknowledgedMessageIdOffset : ℕ := 96
abbrev acknowledgedWireDigestOffset : ℕ := 128
abbrev reservedOffset : ℕ := 160

/-- What a snapshot begins with. -/
def claimMarker : List Byte := [
  0x5e, 0x17, 0xa4, 0xc9, 0x32, 0x6b, 0xf0, 0x48, 0x91, 0x2d, 0x73, 0xbe, 0x0a, 0xd6, 0x45, 0x8f,
  0xc1, 0x39, 0x64, 0xea, 0x27, 0x95, 0x0d, 0xb8, 0x52, 0xfc, 0x16, 0x7a, 0xa3, 0x40, 0xdd, 0x69]

/-- What a complete snapshot ends with. -/
def commitMarker : List Byte := [
  0x83, 0x2a, 0xd1, 0x57, 0xbc, 0x09, 0x6e, 0xf4, 0x35, 0x98, 0x41, 0xca, 0x70, 0x1d, 0xe6, 0x5b,
  0x24, 0xaf, 0x62, 0x0c, 0xd8, 0x93, 0x47, 0xb1, 0x7e, 0x30, 0xf9, 0x15, 0x56, 0xcb, 0x08, 0xe2]

/-- What tells a snapshot, behind its claim. -/
def magic : List Byte := ascii "LXMFBX01"

/-- What the digest of a snapshot begins with. -/
def digestDomain : List Byte :=
  ascii "reticulum-rs-firmware/lxmf-mailbox-store/snapshot/v1" ++ [0]

/-- The flash range a store belongs to. -/
structure MailboxStoreBinding where
  device : Vector Byte 16
  absoluteOffset : ℕ
  length : ℕ
  formatVersion : ℕ
  deriving DecidableEq

/-- One of the two alternating sectors. -/
inductive MailboxStoreSector where
  | a
  | b
  deriving DecidableEq

namespace MailboxStoreSector

/-- First byte of a sector. -/
def offset : MailboxStoreSector → ℕ
  | a => 0
  | b => sectorSize

/-- The sector beside this one. -/
def other : MailboxStoreSector → MailboxStoreSector
  | a => b
  | b => a

/-- The other sector of the other one is the sector. -/
@[simp] theorem other_other (sector : MailboxStoreSector) : sector.other.other = sector := by
  cases sector <;> rfl

end MailboxStoreSector

/-- An acknowledged receipt, with the identity that its handle stands for. -/
structure MailboxStoreCursor where
  handle : NonZeroU64
  messageId : Vector Byte 32
  exactWireDigest : Vector Byte 32
  deriving DecidableEq

/-- The watermark of a committed snapshot. -/
structure MountedMailboxStore where
  binding : MailboxStoreBinding
  generation : NonZeroU64
  acknowledged : Option MailboxStoreCursor
  activeSector : MailboxStoreSector
  deriving DecidableEq

/-- The highest collected handle, or zero before any message. -/
def MountedMailboxStore.acknowledgedThrough (store : MountedMailboxStore) : ℕ :=
  match store.acknowledged with
  | some cursor => cursor.handle.get
  | none => 0

/-- Contradictions of the binding or of the media. -/
inductive MailboxStoreFault where
  | invalidBinding
  | unsupportedPhysicalVersion (sector : MailboxStoreSector) (actual : ℕ)
  | unknownProgrammedData (sector : MailboxStoreSector)
  | conflictingGeneration
  | cursorIdentityConflict
  | generationExhausted
  | readbackMismatch (sector : MailboxStoreSector)
  deriving DecidableEq

/-- A backend failure or a fault. -/
inductive MailboxStoreError (ε : Type) where
  | backend (error : ε)
  | fault (fault : MailboxStoreFault)
  deriving DecidableEq

/-- The answer of a mount. -/
inductive MailboxStoreMount where
  | mounted (store : MountedMailboxStore)
  | unprovisioned
  deriving DecidableEq

/-- What one sector holds. -/
inductive SectorState where
  | erased
  | torn
  | unknown
  | valid (store : MountedMailboxStore)
  deriving DecidableEq

/-- A program over the partition. -/
abbrev MailboxAction (ε α : Type) := Action ε (MailboxStoreError ε) α

/-- The cursor fields of a snapshot; all zero before any message. -/
def cursorFields : Option MailboxStoreCursor → List (List Byte)
  | some cursor =>
    [leBytes 8 cursor.handle.get, cursor.messageId.toList, cursor.exactWireDigest.toList]
  | none => [List.replicate 8 0, List.replicate 32 0, List.replicate 32 0]

/-- The protected fields of a snapshot, in offset order. -/
def protectedFields (binding : MailboxStoreBinding) (generation : ℕ)
    (acknowledged : Option MailboxStoreCursor) : List (List Byte) := [
  claimMarker,
  magic,
  leBytes 2 physicalFormatVersion,
  leBytes 2 recordSize,
  List.replicate 4 0,
  binding.device.toList,
  leBytes 8 binding.absoluteOffset,
  leBytes 8 binding.length,
  leBytes 8 generation] ++ cursorFields acknowledged ++ [List.replicate 96 0]

/-- The bytes a snapshot digest covers. -/
def encodeProtectedPrefix (binding : MailboxStoreBinding) (generation : ℕ)
    (acknowledged : Option MailboxStoreCursor) : List Byte :=
  (protectedFields binding generation acknowledged).flatten

/-- Whether programming `intended` over these bytes can still succeed. -/
def monotonicPartial (observed intended : List Byte) : Bool :=
  observed.length == intended.length && covers observed intended

/-- Whether a record area may hold part of a snapshot of this binding. The generation and the
cursor fields may hold anything. -/
def tornPrefixCompatible (binding : MailboxStoreBinding) (record : List Byte) : Bool :=
  let reference := encodeProtectedPrefix binding (2 ^ 64 - 1) none
  [(claimOffset, 32), (magicOffset, 8), (versionOffset, 4), (deviceOffset, 32),
    (reservedOffset, 96)].all fun (offset, length) =>
      monotonicPartial (slice record offset length) (slice reference offset length)

section Programs

variable {ε : Type} (sha256 : Sha256) (binding : MailboxStoreBinding) (geometry : Geometry)

/-- The digest of a protected prefix. -/
def snapshotDigest (protected_ : List Byte) : Vector Byte 32 := sha256 (digestDomain ++ protected_)

/-- The cursor of a record area, unless its fields contradict each other. -/
def decodeCursor (record : List Byte) : Option (Option MailboxStoreCursor) :=
  let acknowledgedThrough := leNat (slice record acknowledgedThroughOffset 8)
  if acknowledgedThrough = 0 then
    if (slice record acknowledgedMessageIdOffset 64).any (· != 0) then none else some none
  else (NonZeroU64.new acknowledgedThrough).map fun handle => some {
    handle
    messageId := copyArray 32 (slice record acknowledgedMessageIdOffset 32)
    exactWireDigest := copyArray 32 (slice record acknowledgedWireDigestOffset 32) }

/-- The watermark of a record area that is exactly the snapshot its fields describe. -/
def decodeSnapshot (sector : MailboxStoreSector) (record : List Byte) :
    Option MountedMailboxStore := do
  let generation := leNat (slice record generationOffset 8)
  let acknowledged ← decodeCursor record
  let expected := encodeProtectedPrefix binding generation acknowledged
  if slice record 0 digestOffset ≠ expected ∨ slice record commitOffset commitSize ≠ commitMarker
    ∨ (slice record reservedOffset 96).any (· != 0) = true then none
  else if slice record digestOffset digestSize ≠ (snapshotDigest sha256 expected).toList then none
  else (NonZeroU64.new generation).map fun generation => {
    binding, generation, acknowledged, activeSector := sector }

/-- The state of a sector whose record area is programmed and whose rest is erased. -/
def inspectRecord (sector : MailboxStoreSector) (record : List Byte) :
    Except MailboxStoreFault SectorState :=
  if slice record commitOffset commitSize ≠ commitMarker then
    if monotonicPartial (slice record commitOffset commitSize) commitMarker
      && tornPrefixCompatible binding record then .ok .torn
    else .ok .unknown
  else
    let version := leNat (slice record versionOffset 2)
    if slice record claimOffset 32 = claimMarker ∧ slice record magicOffset 8 = magic
      ∧ version ≠ physicalFormatVersion
    then .error (.unsupportedPhysicalVersion sector version)
    else match decodeSnapshot sha256 binding sector record with
      | some store => .ok (.valid store)
      | none => .ok .unknown

/-- Whether everything behind the record area is erased. -/
def remainderIsErased (sector : MailboxStoreSector) : MailboxAction ε Bool :=
  Action.chunksErased .backend (sector.offset + recordSize) (List.replicate 59 64)

/-- Read and classify one sector. -/
def inspectSector (sector : MailboxStoreSector) : MailboxAction ε SectorState := do
  let record ← Action.read .backend sector.offset recordSize
  let allErased ← if record.all (· == erasedByte) then remainderIsErased sector else pure false
  if allErased then pure .erased
  else do
    let remainder ← remainderIsErased sector
    if !remainder then pure .unknown
    else match inspectRecord sha256 binding sector record with
      | .ok state => pure state
      | .error fault => throw (.fault fault)

/-- The binding and the geometry that reads require. -/
def validReadAccess : Bool :=
  !(binding.length ≠ partitionSize || binding.formatVersion ≠ physicalFormatVersion
    || binding.absoluteOffset % sectorSize ≠ 0 || geometry.capacity ≠ partitionSize
    || geometry.readSize = 0 || recordSize % geometry.readSize ≠ 0
    || sectorSize % geometry.readSize ≠ 0)

/-- The geometry that programs and erases require. -/
def validWriteAccess : Bool :=
  !(geometry.writeSize = 0 || geometry.eraseSize = 0 || digestOffset % geometry.writeSize ≠ 0
    || commitSize % geometry.writeSize ≠ 0 || sectorSize % geometry.eraseSize ≠ 0)

/-- The partition can be read. -/
def validateReadAccess : MailboxAction ε Unit :=
  Action.ensure (validReadAccess binding geometry = true) (.fault .invalidBinding)

/-- The partition can be written as well. -/
def validateWriteAccess : MailboxAction ε Unit := do
  validateReadAccess binding geometry
  Action.ensure (validWriteAccess geometry = true) (.fault .invalidBinding)

/-- Decide between the two sectors. -/
def selectSnapshot : SectorState → SectorState → Except MailboxStoreFault MailboxStoreMount
  | .valid a, .valid b =>
    if a.generation = b.generation ∧ a.acknowledged ≠ b.acknowledged then
      .error .conflictingGeneration
    else .ok (.mounted (if b.generation.get > a.generation.get then b else a))
  | .valid value, _ | _, .valid value => .ok (.mounted value)
  | .erased, .erased | .erased, .torn | .torn, .erased | .torn, .torn => .ok .unprovisioned
  | .unknown, _ => .error (.unknownProgrammedData .a)
  | _, .unknown => .error (.unknownProgrammedData .b)

/-- Mount the newest snapshot without changing the flash. -/
def mount : MailboxAction ε MailboxStoreMount := do
  validateReadAccess binding geometry
  let a ← inspectSector sha256 binding .a
  let b ← inspectSector sha256 binding .b
  match selectSnapshot a b with
  | .ok result => pure result
  | .error fault => throw (.fault fault)

/-- Erase a sector and check that it is erased. -/
def ensureErased (sector : MailboxStoreSector) : MailboxAction ε Unit := do
  Action.erase .backend sector.offset (sector.offset + sectorSize)
  let erased ← Action.chunksErased .backend sector.offset (List.replicate 16 256)
  Action.ensure (erased = true) (.fault (.readbackMismatch sector))

/-- The three programs of a snapshot. -/
def snapshotScript (sector : MailboxStoreSector) (generation : NonZeroU64)
    (acknowledged : Option MailboxStoreCursor) : List Patch :=
  let protected_ := encodeProtectedPrefix binding generation.get acknowledged
  [⟨sector.offset, protected_⟩,
    ⟨sector.offset + digestOffset, (snapshotDigest sha256 protected_).toList⟩,
    ⟨sector.offset + commitOffset, commitMarker⟩]

/-- Write a snapshot to an erased sector and read it back. -/
def writeSnapshot (sector : MailboxStoreSector) (generation : NonZeroU64)
    (acknowledged : Option MailboxStoreCursor) : MailboxAction ε MountedMailboxStore := do
  Action.writeAll .backend (snapshotScript sha256 binding sector generation acknowledged)
  let record ← Action.read .backend sector.offset recordSize
  match decodeSnapshot sha256 binding sector record with
  | some store => pure store
  | none => throw (.fault (.readbackMismatch sector))

/-- The generation of the first snapshot. -/
def firstGeneration : NonZeroU64 := ⟨1, by decide, by decide⟩

/-- Write the first watermark of a partition that holds none. -/
def provision : MailboxAction ε MountedMailboxStore := do
  validateWriteAccess binding geometry
  match ← mount sha256 binding geometry with
  | .mounted _ => throw (.fault .conflictingGeneration)
  | .unprovisioned => do
    ensureErased .a
    writeSnapshot sha256 binding .a firstGeneration none

/-- Write the next snapshot to the inactive sector. -/
def writeSuccessor (current : MountedMailboxStore) (acknowledged : Option MailboxStoreCursor) :
    MailboxAction ε MountedMailboxStore :=
  match NonZeroU64.new (current.generation.get + 1) with
  | none => throw (.fault .generationExhausted)
  | some generation => do
    ensureErased current.activeSector.other
    writeSnapshot sha256 current.binding current.activeSector.other generation acknowledged

/-- Advance the watermark. An equal or lower request changes nothing. -/
def acknowledgeThrough (current : MountedMailboxStore) (acknowledged : MailboxStoreCursor) :
    MailboxAction ε MountedMailboxStore := do
  validateWriteAccess binding geometry
  if binding ≠ current.binding then throw (.fault .invalidBinding)
  else if acknowledged.handle.get < current.acknowledgedThrough then pure current
  else if acknowledged.handle.get = current.acknowledgedThrough then
    if current.acknowledged = some acknowledged then pure current
    else throw (.fault .cursorIdentityConflict)
  else writeSuccessor sha256 current (some acknowledged)

end Programs

end Mailbox
