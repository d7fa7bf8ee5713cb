import ReticulumFirmware.Nor.Action
import ReticulumFirmware.Ota.Coordinator

/-!
# The update backend of the product store

The operations of `product_store.rs` on the two firmware slots. The partition library that
owns the boot selection is a parameter: its calls act on a state of their own, and what the
selection is can be read off that state.
-/

namespace Ota

open Nor

/-- Start of the first slot. -/
abbrev ota0Offset : ℕ := 0x00010000

/-- Start of the second slot. -/
abbrev ota1Offset : ℕ := 0x00510000

/-- Bytes of the second slot. -/
abbrev ota1Len : ℕ := 0x00500000

/-- Why an operation of the backend failed. -/
inductive ProductOtaError where
  | partition
  | bounds
  | flash
  | readback
  | invalidImage
  deriving DecidableEq, Repr

/-- The application subtypes that the store distinguishes. -/
inductive AppPartitionSubType where
  | ota0
  | ota1
  | other
  deriving DecidableEq, Repr

/-- The partition library: its calls, and the slot that the boot selection names. -/
structure PartitionLibrary (σ : Type) where
  nextOtaPartition : σ → Except Unit AppPartitionSubType × σ
  activateNextOtaPartition : σ → Except Unit Unit × σ
  /-- `set_current_ota_state(OtaImageState::New)`. -/
  setCurrentOtaStateNew : σ → Except Unit Unit × σ
  selected : σ → OtaSlot

/-- The other slot. -/
def OtaSlot.other : OtaSlot → OtaSlot
  | .ota0 => .ota1
  | .ota1 => .ota0

/-- The slot of an application subtype. -/
def otaSlot : AppPartitionSubType → Except ProductOtaError OtaSlot
  | .ota0 => .ok .ota0
  | .ota1 => .ok .ota1
  | .other => .error .partition

/-- Start and length of a slot. -/
def otaSlotBounds : OtaSlot → ℕ × ℕ
  | .ota0 => (ota0Offset, ota0Len)
  | .ota1 => (ota1Offset, ota1Len)

/-- An operation of the store on the raw flash. -/
abbrev StoreAction (ε α : Type) := Action ε ProductOtaError α

section Flash

variable {ε α : Type}

/-- Read from the flash. -/
def readFlash (offset length : ℕ) : StoreAction ε (List Byte) :=
  .read (fun _ => .flash) offset length

/-- Program the flash if there is something to program. -/
def writeFlash (needed : Prop) [Decidable needed] (offset : ℕ) (bytes : List Byte) :
    StoreAction ε Unit :=
  if needed then .write (fun _ => .flash) offset bytes else pure ()

/-- Read `[cursor, stop)` of a slot in blocks of 256 bytes and fold a fallible step over the
blocks, with the position of each. -/
def foldBlocks (base stop : ℕ) (step : α → ℕ → List Byte → Except ProductOtaError α) :
    ℕ → ℕ → α → StoreAction ε α
  | 0, _, a => pure a
  | fuel + 1, cursor, a =>
    if cursor < stop then do
      let read := min (stop - cursor) 256
      let block ← readFlash (base + cursor) read
      let a ← ExceptT.mk (.pure (step a cursor block))
      foldBlocks base stop step fuel (cursor + read) a
    else pure a

/-- Erase a slot that holds the image. -/
def eraseSlot (slot : OtaSlot) (imageBytes : ℕ) : StoreAction ε Unit := do
  let offset := (otaSlotBounds slot).1
  let len := (otaSlotBounds slot).2
  Action.ensure (¬ (imageBytes = 0 ∨ imageBytes > len)) .bounds
  .erase (fun _ => .flash) offset (offset + len)

/-- Compare a written chunk with the flash. -/
def verifyReadback (absolute : ℕ) (data : List Byte) : StoreAction ε Unit :=
  foldBlocks absolute data.length (fun _ verified block =>
    if block ≠ slice data verified block.length then .error .readback else .ok ())
    data.length 0 ()

/-- The last program of a chunk, padded with erased bytes. -/
def paddedTail (data : List Byte) (aligned : ℕ) : List Byte :=
  data.drop aligned ++ List.replicate (4 - (data.length - aligned)) erasedByte

/-- Program one chunk into a slot and read it back. -/
def writeVerified (slot : OtaSlot) (offset : ℕ) (data : List Byte) : StoreAction ε Unit := do
  let slotLen := (otaSlotBounds slot).2
  Action.ensure (data.length < 2 ^ 32) .bounds
  -- an end past 32 bits is past the slot as well
  Action.ensure (¬ (offset % 4 ≠ 0 ∨ data = [] ∨ offset + data.length > slotLen)) .bounds
  let absolute := (otaSlotBounds slot).1 + offset
  let aligned := data.length / 4 * 4
  writeFlash (aligned ≠ 0) absolute (data.take aligned)
  writeFlash (aligned ≠ data.length) (absolute + aligned) (paddedTail data aligned)
  verifyReadback absolute data

/-- The running checksum of an image. -/
def xorBytes (checksum : Byte) (block : List Byte) : Byte := block.foldl (· ^^^ ·) checksum

/-- Check one segment at the cursor and absorb its bytes into the checksum. -/
def validateSegment (base imageBytes : ℕ) (state : ℕ × Byte) : StoreAction ε (ℕ × Byte) := do
  let headerEnd := state.1 + 8
  Action.ensure (headerEnd ≤ imageBytes) .invalidImage
  let segment ← readFlash (base + state.1) 8
  let segmentBytes := leNat (slice segment 4 4)
  let segmentEnd := headerEnd + segmentBytes
  Action.ensure (¬ (segmentBytes = 0 ∨ segmentEnd > imageBytes)) .invalidImage
  let checksum ← foldBlocks base segmentEnd (fun checksum _ block => .ok (xorBytes checksum block))
    segmentBytes headerEnd state.2
  return (segmentEnd, checksum)

/-- The image header: magic, segment count, chip and appended hash. -/
def validHeader (header : List Byte) : Prop :=
  slice header 0 1 = [espImageMagic] ∧ leNat (slice header 1 1) ≠ 0 ∧
    leNat (slice header 1 1) ≤ 16 ∧ leNat (slice header 12 2) = 9 ∧ slice header 23 1 = [1]

/-- The fields of a header are compared. -/
instance (header : List Byte) : Decidable (validHeader header) := by
  unfold validHeader
  infer_instance

/-- Check a staged image as the boot loader reads it. -/
def validateEsp32s3Image (sha256 : Sha256) (slot : OtaSlot) (imageBytes : ℕ) :
    StoreAction ε Unit := do
  let base := (otaSlotBounds slot).1
  Action.ensure (¬ (imageBytes < 24 ∨ imageBytes > (otaSlotBounds slot).2)) .bounds
  let header ← readFlash base 24
  Action.ensure (validHeader header) .invalidImage
  let (cursor, checksum) ← (List.range (leNat (slice header 1 1))).foldlM
    (fun state _ => validateSegment base imageBytes state) (24, 0xef)
  let storedChecksum ← readFlash (base + cursor) 1
  Action.ensure (storedChecksum = [checksum]) .invalidImage
  let hashOffset := (cursor + 1 + 15) / 16 * 16
  Action.ensure (hashOffset + 32 = imageBytes) .invalidImage
  let hashed ← foldBlocks base hashOffset (fun hashed _ block => .ok (hashed ++ block))
    hashOffset 0 []
  let embedded ← readFlash (base + hashOffset) 32
  Action.ensure (embedded = (sha256 hashed).toList) .invalidImage

end Flash

section Library

variable {σ : Type} (library : PartitionLibrary σ)

/-- The slot that the next activation would select. -/
def nextOtaSlot (s : σ) : Except ProductOtaError OtaSlot × σ :=
  let (next, s) := library.nextOtaPartition s
  ((next.mapError fun _ => .partition).bind otaSlot, s)

/-- Select a slot for the next boot, if it is the one the library would select. -/
def activate (slot : OtaSlot) (s : σ) : Except ProductOtaError Unit × σ :=
  match nextOtaSlot library s with
  | (.error error, s) => (.error error, s)
  | (.ok next, s) =>
    if next ≠ slot then (.error .partition, s)
    else
      match library.activateNextOtaPartition s with
      | (.error _, s) => (.error .partition, s)
      | (.ok _, s) =>
        let (done, s) := library.setCurrentOtaStateNew s
        (done.mapError fun _ => .partition, s)

/-- Programs over the flash that also call the partition library. -/
abbrev StoreM (σ ε : Type) := StateT σ (Prog ε)

variable {ε : Type}

/-- An operation that does not call the library. -/
def onFlash {α : Type} (x : StoreAction ε α) : StoreM σ ε (Except ProductOtaError α) :=
  StateT.lift x.run

/-- Select and erase the inactive slot. -/
def prepareInactive (imageBytes : ℕ) : StoreM σ ε (Except ProductOtaError OtaSlot) := fun s =>
  match nextOtaSlot library s with
  | (.error error, s) => pure (.error error, s)
  | (.ok slot, s) => onFlash (do eraseSlot slot imageBytes; return slot) s

/-- The product store as the backend of an update. -/
def storeBackend (sha256 : Sha256) : OtaBackend (StoreM σ ε) ProductOtaError where
  prepareInactive := prepareInactive library
  writeVerified slot offset data := onFlash (writeVerified slot offset data)
  validateStagedImage slot imageBytes := onFlash (validateEsp32s3Image sha256 slot imageBytes)
  activate slot := fun s => pure (activate library slot s)

end Library

end Ota
