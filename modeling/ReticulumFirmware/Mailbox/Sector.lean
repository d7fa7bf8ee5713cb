import Mathlib.Data.Nat.Notation
import ReticulumFirmware.Collections.Fold
import ReticulumFirmware.Mailbox.Store
import ReticulumFirmware.Nor.Answer

/-!
# Sector states of the mailbox partition

A sector holds a snapshot exactly when its record area is the record of that snapshot, and it
can be reused exactly when its commit marker is incomplete and everything else may still become
a record of this partition. The contents that writing a snapshot and erasing a sector leave are
told in these terms.
-/

namespace Mailbox

open Nor

variable {ε : Type} {sha256 : Sha256} {binding : MailboxStoreBinding} {geometry : Geometry}
  {f g : Flash} {sector : MailboxStoreSector} {store : MountedMailboxStore}

/-- The protected fields have fixed widths. -/
theorem protectedFields_widths (binding : MailboxStoreBinding) (generation : ℕ)
    (acknowledged : Option MailboxStoreCursor) :
    (protectedFields binding generation acknowledged).map List.length =
      [32, 8, 2, 2, 4, 16, 8, 8, 8, 8, 32, 32, 96] := by
  cases acknowledged with
  | none => simp [protectedFields, cursorFields, claimMarker, show magic.length = 8 by decide]
  | some cursor =>
    simp [protectedFields, cursorFields, claimMarker, show magic.length = 8 by decide]

/-- The protected prefix has 256 bytes. -/
@[simp] theorem length_encodeProtectedPrefix (binding : MailboxStoreBinding) (generation : ℕ)
    (acknowledged : Option MailboxStoreCursor) :
    (encodeProtectedPrefix binding generation acknowledged).length = 256 := by
  rw [encodeProtectedPrefix, List.length_flatten, protectedFields_widths]
  rfl

/-- The record area of a snapshot. -/
def snapshotRecord (sha256 : Sha256) (binding : MailboxStoreBinding) (generation : ℕ)
    (acknowledged : Option MailboxStoreCursor) : List Byte :=
  [encodeProtectedPrefix binding generation acknowledged,
    (snapshotDigest sha256 (encodeProtectedPrefix binding generation acknowledged)).toList,
    commitMarker].flatten

/-- The parts of a record have fixed widths. -/
theorem snapshotRecord_widths (sha256 : Sha256) (binding : MailboxStoreBinding) (generation : ℕ)
    (acknowledged : Option MailboxStoreCursor) :
    [encodeProtectedPrefix binding generation acknowledged,
      (snapshotDigest sha256 (encodeProtectedPrefix binding generation acknowledged)).toList,
      commitMarker].map List.length = [256, 32, 32] := by
  simp [commitMarker]

/-- A record has 320 bytes. -/
@[simp] theorem length_snapshotRecord (generation : ℕ) (acknowledged : Option MailboxStoreCursor) :
    (snapshotRecord sha256 binding generation acknowledged).length = 320 := by
  rw [snapshotRecord, List.length_flatten, snapshotRecord_widths]
  rfl

section Fields

variable (generation : ℕ) (acknowledged : Option MailboxStoreCursor)

/-- A record begins with its protected prefix. -/
theorem slice_snapshotRecord_protected :
    slice (snapshotRecord sha256 binding generation acknowledged) 0 256 =
      encodeProtectedPrefix binding generation acknowledged :=
  slice_flatten (snapshotRecord_widths ..) (i := 0) rfl rfl (length_encodeProtectedPrefix ..)

/-- Behind the prefix a record has its digest. -/
theorem slice_snapshotRecord_digest :
    slice (snapshotRecord sha256 binding generation acknowledged) 256 32 =
      (snapshotDigest sha256 (encodeProtectedPrefix binding generation acknowledged)).toList :=
  slice_flatten (snapshotRecord_widths ..) (i := 1) rfl rfl (Vector.length_toList ..)

/-- A record ends with the commit marker. -/
theorem slice_snapshotRecord_commit :
    slice (snapshotRecord sha256 binding generation acknowledged) 288 32 = commitMarker :=
  slice_flatten (snapshotRecord_widths ..) (i := 2) rfl rfl rfl

/-- A field of a snapshot is read from the protected fields. -/
theorem slice_snapshotRecord_field {i offset length : ℕ} {field : List Byte}
    (hfield : (protectedFields binding generation acknowledged)[i]? = some field)
    (hoffset : (List.take i [32, 8, 2, 2, 4, 16, 8, 8, 8, 8, 32, 32, 96]).sum = offset)
    (hlength : field.length = length) (hinside : offset + length ≤ 256) :
    slice (snapshotRecord sha256 binding generation acknowledged) offset length = field := by
  have hprotected :
      slice (slice (snapshotRecord sha256 binding generation acknowledged) 0 256) offset length =
        slice (snapshotRecord sha256 binding generation acknowledged) (0 + offset) length :=
    slice_slice hinside
  rw [slice_snapshotRecord_protected, Nat.zero_add] at hprotected
  rw [← hprotected]
  exact slice_flatten (protectedFields_widths ..) hfield hoffset hlength

end Fields

/-- The generation of a snapshot is read back. -/
theorem generation_snapshotRecord (generation : NonZeroU64)
    (acknowledged : Option MailboxStoreCursor) :
    leNat (slice (snapshotRecord sha256 binding generation.get acknowledged) 80 8) =
      generation.get := by
  have hfield : slice (snapshotRecord sha256 binding generation.get acknowledged) 80 8 =
      leBytes 8 generation.get :=
    slice_snapshotRecord_field _ _ (i := 8) rfl rfl (length_leBytes ..) (by decide)
  rw [hfield, NonZeroU64.leNat_leBytes]

/-- The cursor of a snapshot is read back. -/
theorem decodeCursor_snapshotRecord (generation : ℕ) (acknowledged : Option MailboxStoreCursor) :
    decodeCursor (snapshotRecord sha256 binding generation acknowledged) = some acknowledged := by
  unfold decodeCursor
  cases acknowledged with
  | none =>
    have hhandle : slice (snapshotRecord sha256 binding generation none) 88 8 =
        List.replicate 8 0 :=
      slice_snapshotRecord_field _ _ (i := 9) rfl rfl rfl (by decide)
    have hmessage : slice (snapshotRecord sha256 binding generation none) 96 32 =
        List.replicate 32 0 :=
      slice_snapshotRecord_field _ _ (i := 10) rfl rfl rfl (by decide)
    have hdigest : slice (snapshotRecord sha256 binding generation none) 128 32 =
        List.replicate 32 0 :=
      slice_snapshotRecord_field _ _ (i := 11) rfl rfl rfl (by decide)
    have hidentity := slice_add (snapshotRecord sha256 binding generation none) 96 32 32
    rw [hmessage, hdigest] at hidentity
    dsimp only
    rw [hhandle, hidentity, if_pos (by decide), if_neg (by decide)]
  | some cursor =>
    have hhandle : slice (snapshotRecord sha256 binding generation (some cursor)) 88 8 =
        leBytes 8 cursor.handle.get :=
      slice_snapshotRecord_field _ _ (i := 9) rfl rfl (length_leBytes ..) (by decide)
    have hmessage : slice (snapshotRecord sha256 binding generation (some cursor)) 96 32 =
        cursor.messageId.toList :=
      slice_snapshotRecord_field _ _ (i := 10) rfl rfl (Vector.length_toList ..) (by decide)
    have hdigest : slice (snapshotRecord sha256 binding generation (some cursor)) 128 32 =
        cursor.exactWireDigest.toList :=
      slice_snapshotRecord_field _ _ (i := 11) rfl rfl (Vector.length_toList ..) (by decide)
    dsimp only
    rw [hhandle, hmessage, hdigest, NonZeroU64.leNat_leBytes, if_neg cursor.handle.pos.ne',
      NonZeroU64.new_get, copyArray_toList, copyArray_toList]
    rfl

/-- A record area is three consecutive parts. -/
theorem eq_parts {record : List Byte} (h : record.length = 320) :
    record = [slice record 0 256, slice record 256 32, slice record 288 32].flatten := by
  have hsplit : slice record 0 320 = slice record 0 256 ++ slice record 256 (32 + 32) :=
    slice_add record 0 256 64
  rw [slice_all h, slice_add] at hsplit
  simpa using hsplit

/-- A record area decodes to a snapshot exactly when it is the record of that snapshot. -/
theorem decodeSnapshot_eq_some {record : List Byte} (h : record.length = 320) :
    decodeSnapshot sha256 binding sector record = some store ↔
      record = snapshotRecord sha256 binding store.generation.get store.acknowledged ∧
        store.binding = binding ∧ store.activeSector = sector := by
  constructor
  · intro hdecode
    unfold decodeSnapshot at hdecode
    obtain ⟨acknowledged, -, hdecode⟩ := Option.bind_eq_some_iff.mp hdecode
    dsimp only at hdecode
    split at hdecode
    · cases hdecode
    next hparts =>
    simp only [not_or, not_not] at hparts
    split at hdecode
    · cases hdecode
    next hdigest =>
    rw [not_not] at hdigest
    obtain ⟨generation, hgeneration, rfl⟩ := Option.map_eq_some_iff.mp hdecode
    refine ⟨?_, rfl, rfl⟩
    have hrecord := eq_parts h
    rw [show slice record 0 256 = _ from hparts.1, show slice record 256 32 = _ from hdigest,
      show slice record 288 32 = _ from hparts.2.1] at hrecord
    rw [snapshotRecord, NonZeroU64.get_of_new hgeneration]
    exact hrecord
  · obtain ⟨owner, generation, acknowledged, active⟩ := store
    rintro ⟨rfl, rfl, rfl⟩
    have hreserved : slice (snapshotRecord sha256 owner generation.get acknowledged) 160 96 =
        List.replicate 96 0 := by
      cases acknowledged with
      | none => exact slice_snapshotRecord_field _ _ (i := 12) rfl rfl rfl (by decide)
      | some cursor => exact slice_snapshotRecord_field _ _ (i := 12) rfl rfl rfl (by decide)
    unfold decodeSnapshot
    rw [decodeCursor_snapshotRecord, Option.bind_eq_bind, Option.bind_some]
    dsimp only
    rw [generation_snapshotRecord, slice_snapshotRecord_protected, slice_snapshotRecord_digest,
      slice_snapshotRecord_commit, hreserved, if_neg (by simp), if_neg (not_not.mpr rfl),
      NonZeroU64.new_get]
    rfl

/-- The state of a sector as a function of the flash contents. -/
def sectorState (sha256 : Sha256) (binding : MailboxStoreBinding) (f : Flash)
    (sector : MailboxStoreSector) : Except MailboxStoreFault SectorState :=
  if (f.read sector.offset 320).all (· == erasedByte) &&
    (f.read (sector.offset + 320) 3776).all (· == erasedByte) then .ok .erased
  else if !(f.read (sector.offset + 320) 3776).all (· == erasedByte) then .ok .unknown
  else inspectRecord sha256 binding sector (f.read sector.offset 320)

/-- A working backend answers whether the rest of a sector is erased. -/
theorem eval_remainderIsErased (sector : MailboxStoreSector) (f : Flash) :
    (remainderIsErased sector : MailboxAction ε Bool).eval f =
      (.ok ((f.read (sector.offset + 320) 3776).all (· == erasedByte)), f) :=
  Action.eval_chunksErased ..

/-- The check of the rest of a sector only reads. -/
theorem query_remainderIsErased (sector : MailboxStoreSector) :
    Query .backend (remainderIsErased sector : MailboxAction ε Bool).run :=
  Action.query_chunksErased ..

/-- What an inspection does once it knows whether the sector is erased. -/
def judgeRecord (sha256 : Sha256) (binding : MailboxStoreBinding) (sector : MailboxStoreSector)
    (record : List Byte) (allErased : Bool) : MailboxAction ε SectorState :=
  if allErased then pure .erased
  else do
    let remainder ← remainderIsErased sector
    if !remainder then pure .unknown
    else match inspectRecord sha256 binding sector record with
      | .ok state => pure state
      | .error fault => throw (.fault fault)

/-- A sector is inspected by its record, and if that is erased by its rest. -/
theorem inspectSector_eq (sector : MailboxStoreSector) :
    (inspectSector sha256 binding sector : MailboxAction ε _) =
      Action.read .backend sector.offset recordSize >>= fun record =>
        if record.all (· == erasedByte) then
          remainderIsErased sector >>= judgeRecord sha256 binding sector record
        else pure false >>= judgeRecord sha256 binding sector record := rfl

/-- A record is judged with the rest of its sector. -/
theorem eval_judgeRecord {remainder : Bool} (record : List Byte) (allErased : Bool)
    (h : (remainderIsErased sector : MailboxAction ε Bool).eval f = (.ok remainder, f)) :
    (judgeRecord sha256 binding sector record allErased : MailboxAction ε _).eval f =
      ((if allErased then .ok .erased else if !remainder then .ok .unknown
        else inspectRecord sha256 binding sector record).mapError .fault, f) := by
  cases allErased with
  | true => rfl
  | false =>
    unfold judgeRecord
    rw [if_neg Bool.false_ne_true, if_neg Bool.false_ne_true, Action.eval_bind_ok h]
    cases remainder with
    | false => rfl
    | true =>
      cases hstate : inspectRecord sha256 binding sector record with
      | ok state => rfl
      | error fault => rfl

/-- An inspection without backend errors answers the state of the sector. -/
theorem eval_inspectSector (sector : MailboxStoreSector) (f : Flash) :
    (inspectSector sha256 binding sector : MailboxAction ε _).eval f =
      ((sectorState sha256 binding f sector).mapError .fault, f) := by
  have hread : (Action.read .backend sector.offset recordSize : MailboxAction ε _).eval f =
      (.ok (f.read sector.offset 320), f) := rfl
  have hremainder : (remainderIsErased sector : MailboxAction ε Bool).eval f = _ :=
    eval_remainderIsErased sector f
  rw [inspectSector_eq, Action.eval_bind_ok hread, sectorState]
  split
  · next herased =>
    rw [Action.eval_bind_ok hremainder, eval_judgeRecord _ _ hremainder, herased, Bool.true_and]
  · next hbad =>
    rw [Action.eval_bind_ok (Action.eval_pure ..), eval_judgeRecord _ _ hremainder,
      Bool.eq_false_iff.mpr hbad, Bool.false_and]

/-- An inspection only reads. -/
theorem query_inspectSector (sector : MailboxStoreSector) :
    Query .backend (inspectSector sha256 binding sector : MailboxAction ε _).run := by
  have hjudge : ∀ record allErased, Query .backend
      (judgeRecord sha256 binding sector record allErased : MailboxAction ε _).run := by
    intro record allErased
    unfold judgeRecord
    split
    · exact .pureAction ..
    · refine .bind (query_remainderIsErased sector) fun remainder => ?_
      split
      · exact .pureAction ..
      · split
        · exact .pureAction ..
        · exact .throwAction ..
  rw [inspectSector_eq]
  refine .bind (.readAction ..) fun record => ?_
  split
  · exact .bind (query_remainderIsErased sector) (hjudge record)
  · exact .bind (.pureAction ..) (hjudge record)

/-- The answer of a mount as a function of the flash contents. -/
def mountAnswer (sha256 : Sha256) (binding : MailboxStoreBinding) (f : Flash) :
    Except MailboxStoreFault MailboxStoreMount := do
  let a ← sectorState sha256 binding f .a
  let b ← sectorState sha256 binding f .b
  selectSnapshot a b

/-- A mount only reads. -/
theorem query_mount :
    Query .backend (mount sha256 binding geometry : MailboxAction ε _).run := by
  refine .bind (.ensureAction ..) fun _ => .bind (query_inspectSector .a) fun a =>
    .bind (query_inspectSector .b) fun b => ?_
  cases selectSnapshot a b with
  | ok result => exact .pureAction ..
  | error fault => exact .throwAction ..

/-- A mount without backend errors of a valid view answers for the flash contents. -/
theorem eval_mount (haccess : validReadAccess binding geometry = true) (f : Flash) :
    (mount sha256 binding geometry : MailboxAction ε _).eval f =
      ((mountAnswer sha256 binding f).mapError .fault, f) := by
  unfold mount validateReadAccess mountAnswer
  rw [Action.eval_ensure_bind, if_pos haccess]
  have ha : (inspectSector sha256 binding .a : MailboxAction ε _).eval f = _ :=
    eval_inspectSector ..
  have hb : (inspectSector sha256 binding .b : MailboxAction ε _).eval f = _ :=
    eval_inspectSector ..
  cases hstateA : sectorState sha256 binding f .a with
  | error fault =>
    rw [hstateA] at ha
    rw [Action.eval_bind_error ha]
    rfl
  | ok a =>
    rw [hstateA] at ha
    rw [Action.eval_bind_ok ha]
    cases hstateB : sectorState sha256 binding f .b with
    | error fault =>
      rw [hstateB] at hb
      rw [Action.eval_bind_error hb]
      rfl
    | ok b =>
      rw [hstateB] at hb
      rw [Action.eval_bind_ok hb]
      change _ = ((selectSnapshot a b).mapError _, f)
      cases selectSnapshot a b <;> rfl

/-- The sector named by a snapshot holds exactly that snapshot. -/
structure Holds (sha256 : Sha256) (binding : MailboxStoreBinding) (f : Flash)
    (store : MountedMailboxStore) : Prop where
  record : f.read store.activeSector.offset 320 =
    snapshotRecord sha256 binding store.generation.get store.acknowledged
  remainder : f.Erased (store.activeSector.offset + 320) 3776
  binding : store.binding = binding

/-- The fields that a torn record must still be able to take. -/
def tornFields : List (ℕ × ℕ) := [(0, 32), (32, 8), (40, 4), (48, 32), (160, 96)]

/-- No snapshot of the sector is committed and none but one of this partition can be. -/
structure Reusable (binding : MailboxStoreBinding) (f : Flash) (sector : MailboxStoreSector) :
    Prop where
  commit : f.Covers (sector.offset + 288) commitMarker
  uncommitted : f.read (sector.offset + 288) 32 ≠ commitMarker
  remainder : f.Erased (sector.offset + 320) 3776
  fields : ∀ range ∈ tornFields, f.Covers (sector.offset + range.1)
    (slice (encodeProtectedPrefix binding (2 ^ 64 - 1) none) range.1 range.2)

/-- The fields that a torn record must take lie in the prefix. -/
theorem tornFields_inside {range : ℕ × ℕ} (h : range ∈ tornFields) : range.1 + range.2 ≤ 256 := by
  simp only [tornFields, List.mem_cons, List.not_mem_nil, or_false] at h
  rcases h with rfl | rfl | rfl | rfl | rfl <;> decide

/-- The commit marker is not erased. -/
theorem erased_ne_commitMarker : List.replicate 32 erasedByte ≠ commitMarker := by decide

/-- A part of a record area may still take the same part of a prefix. -/
theorem monotonicPartial_slice {offset length : ℕ} {reference : List Byte} (start : ℕ)
    (hinside : offset + length ≤ 256) (hreference : reference.length = 256) :
    monotonicPartial (slice (f.read start 320) offset length) (slice reference offset length) =
        true ↔
      f.Covers (start + offset) (slice reference offset length) := by
  have hlength : (slice reference offset length).length = length := length_slice (by omega)
  have hread : slice (f.read start 320) offset length =
      f.read (start + offset) (slice reference offset length).length := by
    rw [hlength, Flash.slice_read (by omega)]
  rw [hread, monotonicPartial, Flash.length_read, beq_self_eq_true, Bool.true_and,
    Flash.covers_read]

/-- A marker area may still take the marker. -/
theorem monotonicPartial_commit (start : ℕ) :
    monotonicPartial (f.read start 32) commitMarker = true ↔ f.Covers start commitMarker := by
  have hread : f.read start 32 = f.read start commitMarker.length := rfl
  rw [hread, monotonicPartial, Flash.length_read, beq_self_eq_true, Bool.true_and,
    Flash.covers_read]

/-- A prefix is compatible exactly where it can still take those fields. -/
theorem tornPrefixCompatible_read (start : ℕ) :
    tornPrefixCompatible binding (f.read start 320) = true ↔
      ∀ range ∈ tornFields, f.Covers (start + range.1)
        (slice (encodeProtectedPrefix binding (2 ^ 64 - 1) none) range.1 range.2) := by
  rw [tornPrefixCompatible, List.all_eq_true]
  refine forall₂_congr fun range hrange => ?_
  exact monotonicPartial_slice start (tornFields_inside hrange) (length_encodeProtectedPrefix ..)

/-- An erased sector can be reused. -/
theorem reusable_of_erased (hrecord : f.Erased sector.offset 320)
    (hremainder : f.Erased (sector.offset + 320) 3776) : Reusable binding f sector := by
  have hinside : ∀ at_ n, at_ + n ≤ 320 → f.Erased (sector.offset + at_) n :=
    fun at_ n hn => hrecord.mono (by omega) (by omega)
  refine ⟨(hinside 288 32 (by decide)).covers, ?_, hremainder, fun range hrange => ?_⟩
  · rw [(hinside 288 32 (by decide)).read_eq]
    exact erased_ne_commitMarker
  · have hrange := tornFields_inside hrange
    refine (hinside _ _ ?_).covers
    rw [length_slice (by rw [length_encodeProtectedPrefix]; exact hrange)]
    omega

/-- A complete commit marker is not part of an erased record area. -/
theorem not_erased_of_commit {start : ℕ} (h : slice (f.read start 320) 288 32 = commitMarker) :
    (f.read start 320).all (· == erasedByte) = false := by
  rw [Flash.slice_read (by decide)] at h
  refine Bool.eq_false_iff.mpr fun hall => erased_ne_commitMarker ?_
  have herased : f.Erased start 320 := Flash.read_all_erased.mp hall
  rw [← h, (herased.mono (by omega) (by omega) : f.Erased (start + 288) 32).read_eq]

/-- A sector is valid exactly when it holds the snapshot. -/
theorem sectorState_eq_valid_iff :
    sectorState sha256 binding f sector = .ok (.valid store) ↔
      Holds sha256 binding f store ∧ store.activeSector = sector := by
  have hlength : (f.read sector.offset 320).length = 320 := Flash.length_read ..
  constructor
  · intro h
    unfold sectorState at h
    split at h
    · cases h
    split at h
    · cases h
    next hremainder =>
    rw [Bool.not_eq_true', Bool.not_eq_false, Flash.read_all_erased] at hremainder
    unfold inspectRecord at h
    dsimp only at h
    split at h
    · split at h
      · cases h
      · cases h
    split at h
    · cases h
    split at h
    · next hdecode =>
      cases h
      obtain ⟨hrecord, hbinding, rfl⟩ := (decodeSnapshot_eq_some hlength).mp hdecode
      exact ⟨⟨hrecord, hremainder, hbinding⟩, rfl⟩
    · cases h
  · rintro ⟨⟨hrecord, hremainder, hbinding⟩, rfl⟩
    have hcommit : slice (snapshotRecord sha256 binding store.generation.get store.acknowledged)
        288 32 = commitMarker := slice_snapshotRecord_commit ..
    have hversion : slice (snapshotRecord sha256 binding store.generation.get store.acknowledged)
        40 2 = leBytes 2 physicalFormatVersion :=
      slice_snapshotRecord_field _ _ (i := 2) rfl rfl rfl (by decide)
    have hdecode : decodeSnapshot sha256 binding store.activeSector
        (f.read store.activeSector.offset 320) = some store :=
      (decodeSnapshot_eq_some hlength).mpr ⟨hrecord, hbinding, rfl⟩
    unfold sectorState
    rw [not_erased_of_commit (hrecord ▸ hcommit), Bool.false_and, if_neg Bool.false_ne_true,
      Flash.read_all_erased.mpr hremainder, if_neg (by decide), inspectRecord, hdecode, hrecord,
      hcommit, hversion, if_neg (not_not.mpr rfl), if_neg]
    exact fun h => h.2.2 (by decide)

/-- A sector is erased or torn exactly when it can be reused. -/
theorem reusable_iff (sha256 : Sha256) :
    Reusable binding f sector ↔
      sectorState sha256 binding f sector = .ok .erased ∨
        sectorState sha256 binding f sector = .ok .torn := by
  have hslice : slice (f.read sector.offset 320) commitOffset commitSize =
      f.read (sector.offset + 288) 32 := Flash.slice_read (by decide)
  constructor
  · intro h
    unfold sectorState
    rw [Flash.read_all_erased.mpr h.remainder, Bool.and_true, Bool.not_true]
    split
    · exact Or.inl rfl
    · right
      rw [if_neg Bool.false_ne_true, inspectRecord, hslice, if_pos h.uncommitted, if_pos]
      rw [Bool.and_eq_true, monotonicPartial_commit, tornPrefixCompatible_read]
      exact ⟨h.commit, h.fields⟩
  · intro h
    unfold sectorState at h
    split at h
    · next hall =>
      rw [Bool.and_eq_true, Flash.read_all_erased, Flash.read_all_erased] at hall
      exact reusable_of_erased hall.1 hall.2
    split at h
    · simp at h
    next hremainder =>
    rw [Bool.not_eq_true', Bool.not_eq_false, Flash.read_all_erased] at hremainder
    unfold inspectRecord at h
    dsimp only at h
    rw [hslice] at h
    split at h
    · next hne =>
      split at h
      · next htorn =>
        rw [Bool.and_eq_true, monotonicPartial_commit, tornPrefixCompatible_read] at htorn
        exact ⟨htorn.1, hne, hremainder, htorn.2⟩
      · simp at h
    · split at h
      · simp at h
      · split at h
        · simp at h
        · simp at h

/-- A snapshot and a reusable sector exclude each other. -/
theorem Holds.not_reusable (h : Holds sha256 binding f store) :
    ¬ Reusable binding f store.activeSector := by
  intro hreusable
  have hvalid := sectorState_eq_valid_iff.mpr ⟨h, rfl⟩
  rcases (reusable_iff sha256).mp hreusable with hstate | hstate
  · rw [hvalid] at hstate
    simp at hstate
  · rw [hvalid] at hstate
    simp at hstate

/-- A sector holds one snapshot at most. -/
theorem Holds.unique {store' : MountedMailboxStore} (h : Holds sha256 binding f store)
    (h' : Holds sha256 binding f store') (hsector : store.activeSector = store'.activeSector) :
    store = store' := by
  have hvalid := sectorState_eq_valid_iff.mpr ⟨h, hsector⟩
  rw [sectorState_eq_valid_iff.mpr ⟨h', rfl⟩] at hvalid
  simpa using hvalid.symm

/-- Two contents agree on a sector. -/
abbrev SameSector (f g : Flash) (sector : MailboxStoreSector) : Prop :=
  Flash.Agree f g sector.offset (sector.offset + 4096)

/-- A sector holds its snapshot in every flash that agrees on it. -/
theorem Holds.congr (h : Holds sha256 binding f store)
    (hagree : SameSector f g store.activeSector) : Holds sha256 binding g store := by
  refine ⟨?_, h.remainder.congr (hagree.mono (by omega) (by omega)), h.binding⟩
  rw [← h.record]
  exact (hagree.read_eq (by omega) (by omega)).symm

/-- A sector can be reused in every flash that agrees on it. -/
theorem Reusable.congr (h : Reusable binding f sector) (hagree : SameSector f g sector) :
    Reusable binding g sector := by
  have hread : f.read (sector.offset + 288) 32 = g.read (sector.offset + 288) 32 :=
    hagree.read_eq (by omega) (by omega)
  refine ⟨fun i hi => ?_, hread ▸ h.uncommitted,
    h.remainder.congr (hagree.mono (by omega) (by omega)), fun range hrange i hi => ?_⟩
  · have hi' : i < 32 := hi
    rw [← hagree _ (by omega) (by omega)]
    exact h.commit i hi
  · have hinside := tornFields_inside hrange
    have hi' : i < range.2 := by
      rwa [length_slice (by rw [length_encodeProtectedPrefix]; exact hinside)] at hi
    rw [← hagree _ (by omega) (by omega)]
    exact h.fields range hrange i hi

end Mailbox
