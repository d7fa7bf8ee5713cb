import ReticulumFirmware.Settings.Record

/-!
# Sector states of a mirrored record

Reading a sector without backend errors gives a function of its contents. This file
relates that function to the bytes that the stages of a record write and of an erase
leave, and shows that an encoded record is parsed back.
-/

namespace Settings

open Nor

variable {α ε π : Type} {format : Format α} {sha256 : Sha256} {geometry : Geometry} {f g : Flash}

/-- The layout of a record. -/
theorem recordFields_widths (format : Format α) (sha256 : Sha256)
    (generation predecessorGeneration : ℕ) (predecessorDigest : RecordDigest) (value : α) :
    (recordFields format sha256 generation predecessorGeneration predecessorDigest value).map
      List.length = [8, 4, 4, 8, 8, 32, 128, 32, 32] := by
  simp [recordFields, digestedFields, format.length_magic, format.length_extra,
    format.length_payload, format.length_commitMarker]

/-- A record has its fixed size. -/
@[simp] theorem length_encodeRecord (format : Format α) (sha256 : Sha256)
    (generation predecessorGeneration : ℕ) (predecessorDigest : RecordDigest) (value : α) :
    (encodeRecord format sha256 generation predecessorGeneration predecessorDigest value).length =
      256 := by
  rw [encodeRecord, List.length_flatten, recordFields_widths]
  decide

/-- The record fields at their offsets. -/
theorem slice_encodeRecord {generation predecessorGeneration : ℕ}
    {predecessorDigest : RecordDigest} {value : α} {i offset length : ℕ} {field : List Byte}
    (hfield : (recordFields format sha256 generation predecessorGeneration predecessorDigest
      value)[i]? = some field)
    (hoffset : (List.take i [8, 4, 4, 8, 8, 32, 128, 32, 32]).sum = offset)
    (hlength : field.length = length) :
    slice (encodeRecord format sha256 generation predecessorGeneration predecessorDigest value)
      offset length = field :=
  slice_flatten (recordFields_widths ..) hfield hoffset hlength

/-- The digest of a record covers exactly the fields before it. -/
theorem digestRecord_encodeRecord (generation predecessorGeneration : ℕ)
    (predecessorDigest : RecordDigest) (value : α) :
    digestRecord sha256
        (encodeRecord format sha256 generation predecessorGeneration predecessorDigest value) =
      digestRecord sha256
        (digestedFields format generation predecessorGeneration predecessorDigest
          value).flatten := by
  have hhead : (encodeRecord format sha256 generation predecessorGeneration predecessorDigest
      value).take 192 =
      (digestedFields format generation predecessorGeneration predecessorDigest value).flatten :=
    take_flatten (recordFields_widths ..) 7
  have hlength : (digestedFields format generation predecessorGeneration predecessorDigest
      value).flatten.length = 192 := by
    rw [← hhead, List.length_take, length_encodeRecord]
    decide
  unfold digestRecord
  rw [hhead, List.take_of_length_le (hlength.le)]

/-- The generation that an encoded record is parsed to. -/
def recordGeneration (format : Format α) (sha256 : Sha256) (generation predecessorGeneration : ℕ)
    (predecessorDigest : RecordDigest) (value : α) (sector : ℕ) : Generation α where
  generation
  activeSector := some sector
  digest := digestRecord sha256
    (encodeRecord format sha256 generation predecessorGeneration predecessorDigest value)
  predecessorGeneration
  predecessorDigest
  value

/-- Parsing an encoded record restores its generation when the link is well formed. -/
theorem parseRecord_encodeRecord {generation : ℕ} {predecessorDigest : RecordDigest} {value : α}
    (sector : ℕ) (hrange : generation + 1 < 2 ^ 64)
    (hlink : predecessorDigest = zeroDigest ↔ generation = 0) :
    parseRecord format sha256
        (encodeRecord format sha256 (generation + 1) generation predecessorDigest value) sector =
      some (recordGeneration format sha256 (generation + 1) generation predecessorDigest value
        sector) := by
  have hmagic : slice (encodeRecord format sha256 (generation + 1) generation predecessorDigest
      value) 0 8 = format.magic := slice_encodeRecord (i := 0) rfl rfl format.length_magic
  have hversion : slice (encodeRecord format sha256 (generation + 1) generation predecessorDigest
      value) 8 4 = beBytes 4 1 := slice_encodeRecord (i := 1) rfl rfl rfl
  have hextra : slice (encodeRecord format sha256 (generation + 1) generation predecessorDigest
      value) 12 4 = format.extra value :=
    slice_encodeRecord (i := 2) rfl rfl (format.length_extra value)
  have hgeneration : beNat (slice (encodeRecord format sha256 (generation + 1) generation
      predecessorDigest value) 16 8) = generation + 1 := by
    have hslice : slice (encodeRecord format sha256 (generation + 1) generation predecessorDigest
        value) 16 8 = beBytes 8 (generation + 1) :=
      slice_encodeRecord (i := 3) rfl rfl (length_beBytes ..)
    rw [hslice]
    exact beNat_beBytes_of_lt (by omega)
  have hpredecessor : beNat (slice (encodeRecord format sha256 (generation + 1) generation
      predecessorDigest value) 24 8) = generation := by
    have hslice : slice (encodeRecord format sha256 (generation + 1) generation predecessorDigest
        value) 24 8 = beBytes 8 generation :=
      slice_encodeRecord (i := 4) rfl rfl (length_beBytes ..)
    rw [hslice]
    exact beNat_beBytes_of_lt (by omega)
  have hdigest : slice (encodeRecord format sha256 (generation + 1) generation predecessorDigest
      value) 32 32 = predecessorDigest.toList := slice_encodeRecord (i := 5) rfl rfl (by simp)
  have hpayload : slice (encodeRecord format sha256 (generation + 1) generation predecessorDigest
      value) 64 128 = format.payload value :=
    slice_encodeRecord (i := 6) rfl rfl (format.length_payload value)
  have hown : slice (encodeRecord format sha256 (generation + 1) generation predecessorDigest
      value) 192 32 = (digestRecord sha256 (encodeRecord format sha256 (generation + 1) generation
        predecessorDigest value)).toList := by
    rw [digestRecord_encodeRecord]
    exact slice_encodeRecord (i := 7) rfl rfl (by simp)
  unfold parseRecord
  rw [if_neg (by simp [hmagic, hversion, hown]; decide)]
  simp only [hgeneration, hpredecessor, hdigest, hown, copyArray_toList]
  rw [if_neg, format.parsePayload_of_fields value _ hextra hpayload]
  · rfl
  · rintro (hzero | ⟨hone, hbad⟩ | ⟨hmore, hbad⟩)
    · omega
    · have hgen : generation = 0 := by omega
      exact hbad.elim (fun h => h hgen) fun h => h (hlink.mpr hgen)
    · rcases hbad with h | h
      · omega
      · have := hlink.mp h
        omega

/-- The state of a sector as a function of the flash contents. -/
def sectorState (format : Format α) (sha256 : Sha256) (f : Flash) (sector : ℕ) : SectorState α :=
  classify format sha256 (f.read (sector * 4096) 256)
    ((f.read (sector * 4096) 256).all (· == erasedByte) &&
      (f.read (sector * 4096 + 256) 3840).all (· == erasedByte)) sector

/-- An inspection without backend errors returns the state of the sector. -/
theorem eval_inspectSector (sector : ℕ) (f : Flash) :
    (inspectSector format sha256 sector : SettingsAction ε π _).eval f =
      (.ok (sectorState format sha256 f sector), f) := by
  unfold inspectSector
  rw [Action.eval_bind_ok (Action.eval_read ..), Action.eval_bind_ok (Action.eval_scanErased ..)]
  rfl

/-- An inspection only reads. -/
theorem query_inspectSector (sector : ℕ) :
    Query .storage (inspectSector format sha256 sector : SettingsAction ε π _).run :=
  .bind (.readAction ..) fun _ => .bind (Action.query_scanErased ..) fun _ => .pureAction ..

/-- The mounted generation as a function of the flash contents. -/
def mounted (π : Type) (format : Format α) (sha256 : Sha256) (f : Flash) :
    Except (Fault π) (Generation α) :=
  selectGeneration format (sectorState format sha256 f 0) (sectorState format sha256 f 1)

/-- The geometry a mount accepts. -/
def Mountable (geometry : Geometry) : Prop :=
  validReadGeometry geometry = true ∧ quotaBytes ≤ geometry.capacity

/-- The geometry a change accepts. -/
def Writable (geometry : Geometry) : Prop :=
  Mountable geometry ∧ validWriteGeometry geometry = true

/-- A mount without backend errors returns the mounted generation. -/
theorem eval_mount (hgeometry : Mountable geometry) (f : Flash) :
    (mount format sha256 geometry : SettingsAction ε π _).eval f =
      ((mounted π format sha256 f).mapError .fault, f) := by
  unfold mount
  rw [Action.eval_ensure_bind, if_pos hgeometry.1, Action.eval_ensure_bind, if_pos hgeometry.2,
    Action.eval_bind_ok (eval_inspectSector ..), Action.eval_bind_ok (eval_inspectSector ..)]
  unfold mounted
  cases (selectGeneration format (sectorState format sha256 f 0)
    (sectorState format sha256 f 1) : Except (Fault π) _) with
  | ok settings => rfl
  | error fault => rfl

/-- The geometry checks pass. -/
theorem validateGeometry_bind {β : Type} (hgeometry : Writable geometry)
    (next : Unit → SettingsAction ε π β) : (validateGeometry geometry >>= next) = next () := by
  simp [validateGeometry, Action.ensure, hgeometry.1.1, hgeometry.1.2, hgeometry.2]

/-- A mount only reads. -/
theorem query_mount :
    Query .storage (mount format sha256 geometry : SettingsAction ε π _).run := by
  refine .bind (.ensureAction ..) fun _ => .bind (.ensureAction ..) fun _ =>
    .bind (query_inspectSector ..) fun first => .bind (query_inspectSector ..) fun second => ?_
  cases (selectGeneration format first second : Except (Fault π) _) with
  | ok settings => exact .pureAction ..
  | error fault => exact .throwAction ..

/-- Two contents agree on a sector. -/
def SameSector (sector : ℕ) (f g : Flash) : Prop :=
  ∀ a, sector * 4096 ≤ a → a < sector * 4096 + 4096 → g a = f a

/-- A sector's state depends on its own bytes only. -/
theorem sectorState_congr {sector : ℕ} (h : SameSector sector f g) :
    sectorState format sha256 g sector = sectorState format sha256 f sector := by
  have hagree : Flash.Agree g f (sector * 4096) (sector * 4096 + 4096) := h
  have hrecord : g.read (sector * 4096) 256 = f.read (sector * 4096) 256 :=
    hagree.read_eq (by omega) (by omega)
  have hrest : g.read (sector * 4096 + 256) 3840 = f.read (sector * 4096 + 256) 3840 :=
    hagree.read_eq (by omega) (by omega)
  unfold sectorState
  rw [hrecord, hrest]

/-- The classification of a sector, in terms of the flash contents. -/
theorem sectorState_cases (format : Format α) (sha256 : Sha256) (f : Flash) (sector : ℕ) :
    (f.Erased (sector * 4096) 4096 ∧ sectorState format sha256 f sector = .erased) ∨
    (¬ f.Erased (sector * 4096) 4096 ∧
      f.read (sector * 4096 + 224) 32 = format.commitMarker ∧
      sectorState format sha256 f sector =
        match parseRecord format sha256 (f.read (sector * 4096) 256) sector with
        | some settings => .valid settings
        | none => .corrupt) ∨
    (¬ f.Erased (sector * 4096) 4096 ∧
      f.read (sector * 4096 + 224) 32 ≠ format.commitMarker ∧
      ((f.Covers (sector * 4096 + 224) format.commitMarker ∧
        sectorState format sha256 f sector = .incomplete) ∨
      (¬ f.Covers (sector * 4096 + 224) format.commitMarker ∧
        sectorState format sha256 f sector = .corrupt))) := by
  have hcommit : slice (f.read (sector * 4096) 256) 224 32 =
      f.read (sector * 4096 + 224) 32 := Flash.slice_read (by decide)
  have hcovers : covers (f.read (sector * 4096 + 224) 32) format.commitMarker = true ↔
      f.Covers (sector * 4096 + 224) format.commitMarker := by
    rw [← Flash.covers_read, format.length_commitMarker]
  have hsplit : f.Erased (sector * 4096) 4096 ↔
      f.Erased (sector * 4096) 256 ∧ f.Erased (sector * 4096 + 256) 3840 := by
    constructor
    · intro h
      exact ⟨h.mono (by omega) (by omega), h.mono (by omega) (by omega)⟩
    · rintro ⟨hrecord, hrest⟩ i hi
      by_cases hi' : i < 256
      · exact hrecord i hi'
      · have := hrest (i - 256) (by omega)
        rwa [show sector * 4096 + 256 + (i - 256) = sector * 4096 + i by omega] at this
  unfold sectorState classify
  by_cases herased : f.Erased (sector * 4096) 4096
  · left
    refine ⟨herased, ?_⟩
    rw [if_pos]
    rw [Bool.and_eq_true, Flash.read_all_erased, Flash.read_all_erased]
    exact hsplit.mp herased
  · right
    rw [if_neg (by
      rw [Bool.and_eq_true, Flash.read_all_erased, Flash.read_all_erased]
      exact fun h => herased (hsplit.mpr h))]
    rw [hcommit]
    by_cases hmarker : f.read (sector * 4096 + 224) 32 = format.commitMarker
    · left
      refine ⟨herased, hmarker, ?_⟩
      refine (if_neg (not_not.mpr hmarker)).trans ?_
      cases parseRecord format sha256 (f.read (sector * 4096) 256) sector with
      | some settings => rfl
      | none => rfl
    · right
      refine ⟨herased, hmarker, ?_⟩
      rw [if_pos hmarker]
      unfold monotonicPartial
      by_cases hpart : f.Covers (sector * 4096 + 224) format.commitMarker
      · left
        exact ⟨hpart, if_pos (hcovers.mpr hpart)⟩
      · right
        exact ⟨hpart, if_neg (mt hcovers.mp hpart)⟩

/-- A parsed generation names its sector, is not zero and fits its 64-bit field. -/
theorem parseRecord_generation {record : List Byte} {sector : ℕ} {settings : Generation α}
    (h : parseRecord format sha256 record sector = some settings) :
    settings.activeSector = some sector ∧ settings.generation ≠ 0 ∧
      settings.generation < 2 ^ 64 := by
  unfold parseRecord at h
  split at h
  · cases h
  · simp only at h
    split at h
    · cases h
    · next hlink =>
      obtain ⟨value, -, rfl⟩ := Option.map_eq_some_iff.mp h
      refine ⟨rfl, fun hzero => hlink (Or.inl hzero), ?_⟩
      have hlength : (slice record 16 8).length ≤ 8 := by
        simp only [slice, List.length_take]
        omega
      calc beNat (slice record 16 8) < 256 ^ (slice record 16 8).length := beNat_lt _
        _ ≤ 256 ^ 8 := Nat.pow_le_pow_right (by decide) hlength
        _ = 2 ^ 64 := by decide

/-- A valid sector is committed and holds the generation that names it. -/
theorem valid_generation {sector : ℕ} {settings : Generation α}
    (h : sectorState format sha256 f sector = .valid settings) :
    f.read (sector * 4096 + 224) 32 = format.commitMarker ∧
      settings.activeSector = some sector ∧ settings.generation ≠ 0 ∧
      settings.generation < 2 ^ 64 := by
  rcases sectorState_cases format sha256 f sector with hs | hs | ⟨-, -, hs | hs⟩
  · rw [hs.2] at h
    cases h
  · rw [hs.2.2] at h
    split at h
    · next heq =>
      cases h
      exact ⟨hs.2.1, parseRecord_generation heq⟩
    · cases h
  · rw [hs.2] at h
    cases h
  · rw [hs.2] at h
    cases h

/-- A valid sector holds a record that is parsed to its generation. -/
theorem parseRecord_of_valid {sector : ℕ} {settings : Generation α}
    (h : sectorState format sha256 f sector = .valid settings) :
    parseRecord format sha256 (f.read (sector * 4096) 256) sector = some settings := by
  rcases sectorState_cases format sha256 f sector with hs | hs | ⟨-, -, hs | hs⟩
  · rw [hs.2] at h
    cases h
  · rw [hs.2.2] at h
    split at h
    · next heq =>
      cases h
      exact heq
    · cases h
  · rw [hs.2] at h
    cases h
  · rw [hs.2] at h
    cases h

/-- An erased sector is classified as erased. -/
theorem sectorState_erased {sector : ℕ} (h : f.Erased (sector * 4096) 4096) :
    sectorState format sha256 f sector = .erased := by
  rcases sectorState_cases format sha256 f sector with hs | hs | hs
  · exact hs.2
  · exact absurd h hs.1
  · exact absurd h hs.1

/-- Only an erased sector is classified as erased. -/
theorem erased_of_sectorState {sector : ℕ} (h : sectorState format sha256 f sector = .erased) :
    f.Erased (sector * 4096) 4096 := by
  rcases sectorState_cases format sha256 f sector with hs | hs | ⟨-, -, hs | hs⟩
  · exact hs.1
  · rw [hs.2.2] at h
    split at h <;> cases h
  · rw [hs.2] at h
    cases h
  · rw [hs.2] at h
    cases h

/-- A sector that still covers the marker but does not hold it is erased or incomplete. -/
theorem sectorState_uncommitted {sector : ℕ}
    (hcovers : f.Covers (sector * 4096 + 224) format.commitMarker)
    (hmarker : f.read (sector * 4096 + 224) 32 ≠ format.commitMarker)
    (herased : ¬ f.Erased (sector * 4096) 4096) :
    sectorState format sha256 f sector = .incomplete := by
  rcases sectorState_cases format sha256 f sector with hs | hs | ⟨-, -, hs | hs⟩
  · exact absurd hs.1 herased
  · exact absurd hs.2.1 hmarker
  · exact hs.2
  · exact absurd hcovers hs.1

/-- An incomplete sector covers the marker and does not hold it. -/
theorem uncommitted_of_incomplete {sector : ℕ}
    (h : sectorState format sha256 f sector = .incomplete) :
    f.Covers (sector * 4096 + 224) format.commitMarker ∧
      f.read (sector * 4096 + 224) 32 ≠ format.commitMarker := by
  rcases sectorState_cases format sha256 f sector with hs | hs | ⟨-, hmarker, hs | hs⟩
  · rw [hs.2] at h
    cases h
  · rw [hs.2.2] at h
    split at h <;> cases h
  · exact ⟨hs.1, hmarker⟩
  · rw [hs.2] at h
    cases h

/-- A sector that holds a parseable record is valid. -/
theorem sectorState_valid {sector : ℕ} {settings : Generation α}
    (hmarker : f.read (sector * 4096 + 224) 32 = format.commitMarker)
    (hparse : parseRecord format sha256 (f.read (sector * 4096) 256) sector = some settings) :
    sectorState format sha256 f sector = .valid settings := by
  rcases sectorState_cases format sha256 f sector with hs | hs | hs
  · have hread : f.read (sector * 4096 + 224) 32 = List.replicate 32 erasedByte :=
      (hs.1.mono (by omega) (by omega)).read_eq
    rw [hmarker] at hread
    exact absurd hread format.commitMarker_ne_erased
  · rw [hs.2.2, hparse]
  · exact absurd hmarker hs.2.1

end Settings
