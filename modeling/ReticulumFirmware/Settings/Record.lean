import ReticulumFirmware.Nor.CommitLast

/-!
# Mirrored settings records

`appliance_settings.rs` and `management_authorization.rs` keep one record format in two
erase sectors: a 256-byte record of magic, version, generation, predecessor link, payload,
digest and commit marker. A new generation is written to the inactive sector, commit
marker last. The functions the two files share are given here once, over the values in
which the formats differ.
-/

namespace Settings

open Nor

abbrev sectorSize : ℕ := 4096
abbrev recordSize : ℕ := 256
abbrev formatVersion : ℕ := 1
abbrev versionOffset : ℕ := 8
abbrev extraOffset : ℕ := 12
abbrev generationOffset : ℕ := 16
abbrev predecessorGenerationOffset : ℕ := 24
abbrev predecessorDigestOffset : ℕ := 32
abbrev payloadOffset : ℕ := 64
abbrev digestOffset : ℕ := 192
abbrev digestSize : ℕ := 32
abbrev commitOffset : ℕ := 224
abbrev commitSize : ℕ := 32

/-- Bytes of the two-sector quota. -/
abbrev quotaBytes : ℕ := 2 * sectorSize

/-- A record digest. -/
abbrev RecordDigest := Vector Byte digestSize

/-- The predecessor digest of a first generation. -/
def zeroDigest : RecordDigest := Vector.replicate digestSize 0

/-- The values in which the two formats differ, over the payload type. -/
structure Format (α : Type) where
  magic : List Byte
  commitMarker : List Byte
  /-- The value of erased media. -/
  empty : α
  /-- The four bytes between version and generation. -/
  extra : α → List Byte
  /-- The bytes between predecessor digest and digest. -/
  payload : α → List Byte
  /-- The payload checks of `parse_record`, on the whole record. -/
  parsePayload : List Byte → Option α
  length_magic : magic.length = 8
  length_commitMarker : commitMarker.length = 32
  length_extra : ∀ value, (extra value).length = 4
  length_payload : ∀ value, (payload value).length = 128
  /-- Programming the marker over an erased range changes it. -/
  commitMarker_ne_erased : commitMarker ≠ List.replicate 32 erasedByte
  /-- A record with the bytes of a payload is parsed to it. -/
  parsePayload_of_fields : ∀ value record, slice record extraOffset 4 = extra value →
    slice record payloadOffset 128 = payload value → parsePayload record = some value

/-- A mounted generation. -/
structure Generation (α : Type) where
  generation : ℕ
  activeSector : Option ℕ
  digest : RecordDigest
  predecessorGeneration : ℕ
  predecessorDigest : RecordDigest
  value : α
  deriving DecidableEq

/-- Faults of the format, and those of the owner's policy. -/
inductive Fault (π : Type) where
  | incompatibleFlashGeometry
  | corrupt
  | generationExhausted
  | verification
  | unavailable
  | policy (fault : π)
  deriving DecidableEq

/-- An access failure. -/
inductive AccessError (ε π : Type) where
  | storage (error : ε)
  | fault (fault : Fault π)
  deriving DecidableEq

/-- A program over the quota. -/
abbrev SettingsAction (ε π α : Type) := Action ε (AccessError ε π) α

/-- What one sector holds. -/
inductive SectorState (α : Type) where
  | erased
  | incomplete
  | valid (settings : Generation α)
  | corrupt
  deriving DecidableEq

/-- First byte of a sector. -/
def sectorOffset (sector : ℕ) : ℕ := sector * sectorSize

/-- Whether programming `target` over these bytes can still succeed. -/
def monotonicPartial (candidate target : List Byte) : Bool := covers candidate target

/-- `checked_add(1).unwrap_or(0)` on a 64-bit value. -/
def successorOrZero (generation : ℕ) : ℕ :=
  if generation + 1 < 2 ^ 64 then generation + 1 else 0

/-- The read geometry the format requires. -/
def validReadGeometry (geometry : Geometry) : Bool :=
  !(geometry.readSize = 0 || recordSize % geometry.readSize ≠ 0 || recordSize < geometry.readSize)

/-- The write geometry the format requires. -/
def validWriteGeometry (geometry : Geometry) : Bool :=
  !(geometry.writeSize = 0 || geometry.eraseSize = 0 || commitOffset % geometry.writeSize ≠ 0
    || commitSize % geometry.writeSize ≠ 0 || sectorSize % geometry.eraseSize ≠ 0)

section Programs

variable {α ε π : Type} (format : Format α) (sha256 : Sha256) (geometry : Geometry)

/-- The generation of erased media. -/
def empty : Generation α := ⟨0, none, zeroDigest, 0, zeroDigest, format.empty⟩

/-- The digest of everything before the digest field. -/
def digestRecord (record : List Byte) : RecordDigest := sha256 (record.take digestOffset)

/-- The fields before the digest, in offset order. -/
def digestedFields (generation predecessorGeneration : ℕ) (predecessorDigest : RecordDigest)
    (value : α) : List (List Byte) := [
  format.magic,
  beBytes 4 formatVersion,
  format.extra value,
  beBytes 8 generation,
  beBytes 8 predecessorGeneration,
  predecessorDigest.toList,
  format.payload value]

/-- All fields of a record, in offset order. -/
def recordFields (generation predecessorGeneration : ℕ) (predecessorDigest : RecordDigest)
    (value : α) : List (List Byte) :=
  let fields := digestedFields format generation predecessorGeneration predecessorDigest value
  fields ++ [(digestRecord sha256 fields.flatten).toList, format.commitMarker]

/-- The record of a generation. -/
def encodeRecord (generation predecessorGeneration : ℕ) (predecessorDigest : RecordDigest)
    (value : α) : List Byte :=
  (recordFields format sha256 generation predecessorGeneration predecessorDigest value).flatten

/-- The generation of a canonical record. -/
def parseRecord (record : List Byte) (sector : ℕ) : Option (Generation α) :=
  if slice record 0 8 ≠ format.magic
    ∨ beNat (slice record versionOffset 4) ≠ formatVersion
    ∨ slice record digestOffset digestSize ≠ (digestRecord sha256 record).toList
  then none
  else
    let generation := beNat (slice record generationOffset 8)
    let predecessorGeneration := beNat (slice record predecessorGenerationOffset 8)
    let predecessorDigest := copyArray digestSize (slice record predecessorDigestOffset digestSize)
    if generation = 0
      ∨ (generation = 1 ∧ (predecessorGeneration ≠ 0 ∨ predecessorDigest ≠ zeroDigest))
      ∨ (1 < generation ∧
          (predecessorGeneration ≠ generation - 1 ∨ predecessorDigest = zeroDigest))
    then none
    else (format.parsePayload record).map fun value => {
      generation
      activeSector := some sector
      digest := copyArray digestSize (slice record digestOffset digestSize)
      predecessorGeneration
      predecessorDigest
      value }

/-- The state of a sector with this record area and this answer of the erased scan. -/
def classify (record : List Byte) (erased : Bool) (sector : ℕ) : SectorState α :=
  if erased then .erased
  else if slice record commitOffset commitSize ≠ format.commitMarker then
    if monotonicPartial (slice record commitOffset commitSize) format.commitMarker then .incomplete
    else .corrupt
  else match parseRecord format sha256 record sector with
    | some settings => .valid settings
    | none => .corrupt

/-- Read and classify one sector. -/
def inspectSector (sector : ℕ) : SettingsAction ε π (SectorState α) := do
  let record ← Action.read .storage (sectorOffset sector) recordSize
  let rest ← Action.scanErased .storage (sectorOffset sector + recordSize) recordSize 15
  pure (classify format sha256 record (record.all (· == erasedByte) && rest) sector)

/-- The newer of two generations that follow each other. -/
def linked (newer older : Generation α) : Except (Fault π) (Generation α) :=
  if newer.generation ≠ successorOrZero older.generation
    ∨ (newer.predecessorGeneration, newer.predecessorDigest) ≠ (older.generation, older.digest)
  then .error .corrupt
  else .ok newer

/-- Decide between the two sectors. -/
def selectGeneration : SectorState α → SectorState α → Except (Fault π) (Generation α)
  | .erased, .erased => .ok (empty format)
  | .corrupt, _ | _, .corrupt => .error .corrupt
  | .valid current, .erased | .valid current, .incomplete
  | .erased, .valid current | .incomplete, .valid current => .ok current
  | .valid first, .valid second =>
    if second.generation < first.generation then linked first second
    else if first.generation < second.generation then linked second first
    else .error .corrupt
  | .erased, .incomplete | .incomplete, .erased | .incomplete, .incomplete => .error .corrupt

/-- Mount the newest valid generation without changing the flash. -/
def mount : SettingsAction ε π (Generation α) := do
  Action.ensure (validReadGeometry geometry = true) (.fault .incompatibleFlashGeometry)
  Action.ensure (quotaBytes ≤ geometry.capacity) (.fault .incompatibleFlashGeometry)
  let first ← inspectSector format sha256 0
  let second ← inspectSector format sha256 1
  match selectGeneration format first second with
  | .ok settings => pure settings
  | .error fault => throw (.fault fault)

/-- Program bytes and verify the exact readback. -/
def writeVerified (offset : ℕ) (bytes : List Byte) : SettingsAction ε π Unit :=
  Action.writeVerified .storage (.fault .verification) offset bytes

/-- The geometry checks before a change. -/
def validateGeometry : SettingsAction ε π Unit := do
  Action.ensure (validReadGeometry geometry = true) (.fault .incompatibleFlashGeometry)
  Action.ensure (validWriteGeometry geometry = true) (.fault .incompatibleFlashGeometry)
  Action.ensure (quotaBytes ≤ geometry.capacity) (.fault .incompatibleFlashGeometry)

/-- The sector a successor of a generation is written to. -/
def targetSector (current : Generation α) : SettingsAction ε π ℕ :=
  match current.activeSector with
  | some 0 => pure 1
  | some 1 | none => pure 0
  | some _ => throw (.fault .corrupt)

/-- Write the successor of a generation to the inactive sector, commit marker last, and
verify that it mounts. `accepts` is the owner's check of the mounted value. -/
def commitSuccessor (current : Generation α) (value : α) (accepts : α → Bool) :
    SettingsAction ε π (Generation α) := do
  Action.ensure (current.generation + 1 < 2 ^ 64) (.fault .generationExhausted)
  let generation := current.generation + 1
  let target ← targetSector current
  let record := encodeRecord format sha256 generation current.generation current.digest value
  Action.erase .storage (sectorOffset target) (sectorOffset target + sectorSize)
  writeVerified (sectorOffset target) (slice record 0 commitOffset)
  writeVerified (sectorOffset target + commitOffset) (slice record commitOffset commitSize)
  let mounted ← mount format sha256 geometry
  Action.ensure (mounted.generation = generation ∧ accepts mounted.value = true ∧
    mounted.activeSector = some target) (.fault .verification)
  pure mounted

end Programs

end Settings
