import ReticulumFirmware.Outbox.Store

/-!
# Record states of the outbox

A scan that meets no backend error returns a function of the record's contents. This file
gives that function and the states that the stages of a record write and of a delivery
receipt can leave, interrupted or not.
-/

namespace Outbox

open Nor

variable {ε : Type}

/-- A scan of some chunks without backend errors. -/
theorem eval_chunksErased (slot : ℕ) (chunks : List (ℕ × ℕ)) (f : Flash) :
    (chunksErased slot chunks : OutboxAction ε Bool).eval f =
      (.ok (chunks.all fun chunk =>
        (f.read (recordOffset slot chunk.1) chunk.2).all (· == erasedByte)), f) := by
  induction chunks with
  | nil => rfl
  | cons chunk chunks ih =>
    obtain ⟨offset, length⟩ := chunk
    rw [chunksErased, readRecord, Action.eval_bind_ok (Action.eval_read ..), List.all_cons]
    have hany : (f.read (recordOffset slot offset) length).any (· != erasedByte) =
        !(f.read (recordOffset slot offset) length).all (· == erasedByte) := by
      simp only [List.not_all_eq_any_not, bne]
    cases hall : (f.read (recordOffset slot offset) length).all (· == erasedByte) with
    | true => simpa [hany, hall] using ih
    | false => simp [hany, hall]

/-- The chunks from an offset on cover the rest of the record. -/
theorem chunksFrom_all_erased {f : Flash} {slot start : ℕ} (hstart : start ≤ 4096) :
    ((chunksFrom start).all fun chunk =>
      (f.read (recordOffset slot chunk.1) chunk.2).all (· == erasedByte)) = true ↔
      f.Erased (slot * 4096 + start) (4096 - start) := by
  simp only [chunksFrom, recordSize, List.all_map, List.all_eq_true, List.mem_range,
    Function.comp_apply]
  simp only [← List.all_eq_true, Flash.read_all_erased, recordOffset, recordSize]
  constructor
  · intro h i hi
    have := h (i / 256) (by omega) (i % 256) (by omega)
    rwa [show slot * 4096 + (start + i / 256 * 256) + i % 256 = slot * 4096 + start + i by omega]
      at this
  · intro h i hi
    exact h.mono (by omega) (by omega)

/-- The answer of a tail scan without backend errors. -/
theorem eval_tailIsErased {slot start : ℕ} (hstart : start ≤ 4096) (f : Flash) :
    (tailIsErased slot start : OutboxAction ε Bool).eval f =
      (.ok ((f.read (slot * 4096 + start) (4096 - start)).all (· == erasedByte)), f) := by
  rw [tailIsErased, eval_chunksErased]
  congr 2
  rw [Bool.eq_iff_iff, chunksFrom_all_erased hstart, Flash.read_all_erased]

/-- The check of chunks only reads. -/
theorem query_chunksErased (slot : ℕ) (chunks : List (ℕ × ℕ)) :
    Query .backend (chunksErased slot chunks : OutboxAction ε Bool).run := by
  induction chunks with
  | nil => exact .pure _
  | cons chunk chunks ih =>
    refine .bind (.readAction ..) fun bytes => ?_
    split
    · exact .pureAction ..
    · exact ih

/-- A check only reads. -/
theorem query_ensure {err : Type} {wrap : ε → err} (condition : Prop) [Decidable condition]
    (error : err) : Query wrap (Action.ensure condition error : Action ε err Unit).run := by
  unfold Action.ensure
  split
  · exact .pureAction ..
  · exact .throwAction ..

/-- Classifying a record only reads. -/
theorem query_inspectRecord (sha256 : Sha256) (binding : OutboxBinding) (slot : ℕ) :
    Query .backend (inspectRecord sha256 binding slot : OutboxAction ε RecordState).run := by
  refine .bind (.readAction ..) fun record => ?_
  split
  · exact .bind (query_chunksErased ..) fun _ => .bind (query_ensure ..) fun _ => .pureAction ..
  · split
    · exact .bind (query_ensure ..) fun _ => .pureAction ..
    · refine .bind (query_ensure ..) fun _ => .bind (query_chunksErased ..) fun _ => ?_
      refine .bind (query_ensure ..) fun _ => ?_
      unfold committedState
      split
      · exact .pureAction ..
      · exact .throwAction ..

section State

variable (sha256 : Sha256) (binding : OutboxBinding)

/-- The state of a record as a function of the flash contents; `none` for a corrupt one. -/
def recordState (f : Flash) (slot : ℕ) : Option RecordState :=
  let record := f.read (slot * 4096) 864
  let tail := (f.read (slot * 4096 + 864) 3232).all (· == erasedByte)
  if record.all (· == erasedByte) then if tail then some .erased else none
  else if slice record commitOffset commitSize ≠ commitMarker then
    if covers (slice record claimOffset claimSize) claimMarker then some .torn else none
  else if slice record claimOffset claimSize ≠ claimMarker then none
  else if tail then (decodeRecord sha256 binding slot record).map .committed
  else none

/-- The answer for a record state. -/
def stateAnswer (slot : ℕ) : Option RecordState → Except (OutboxError ε) RecordState
  | some state => .ok state
  | none => .error (.corrupt slot)

/-- A classification without backend errors returns the state of the record. -/
theorem eval_inspectRecord (slot : ℕ) (f : Flash) :
    (inspectRecord sha256 binding slot : OutboxAction ε RecordState).eval f =
      (stateAnswer slot (recordState sha256 binding f slot), f) := by
  have htail : (tailIsErased slot retainedPrefixSize : OutboxAction ε Bool).eval f =
      (.ok ((f.read (slot * 4096 + 864) 3232).all (· == erasedByte)), f) :=
    eval_tailIsErased (by decide) f
  have hread : (readRecord slot 0 retainedPrefixSize : OutboxAction ε _).eval f =
      (.ok (f.read (slot * 4096) 864), f) := by
    rw [readRecord, Action.eval_read, recordOffset, Nat.add_zero]
    rfl
  rw [inspectRecord, Action.eval_bind_ok hread, recordState]
  simp only
  split
  · rw [Action.eval_bind_ok htail, Action.eval_ensure_bind]
    split <;> rfl
  · split
    · rw [Action.eval_ensure_bind]
      split <;> rfl
    · rw [Action.eval_ensure_bind]
      split
      · next hclaim =>
        rw [Action.eval_bind_ok htail, Action.eval_ensure_bind, if_neg (not_not.mpr hclaim)]
        split
        · cases decodeRecord sha256 binding slot (f.read (slot * 4096) 864) <;> rfl
        · rfl
      · rfl

/-- The address range of a record. -/
def InRecord (slot a : ℕ) : Prop := slot * 4096 ≤ a ∧ a < slot * 4096 + 4096

/-- An address in a record is in no other. -/
theorem InRecord.ne {slot slot' a : ℕ} (h : InRecord slot a) (hne : slot' ≠ slot) :
    ¬ InRecord slot' a := by
  unfold InRecord at *
  omega

variable {sha256 binding}

/-- A record's state depends on its own sector only. -/
theorem recordState_congr {f g : Flash} {slot : ℕ} (h : ∀ a, InRecord slot a → g a = f a) :
    recordState sha256 binding g slot = recordState sha256 binding f slot := by
  have hagree : Flash.Agree g f (slot * 4096) (slot * 4096 + 4096) := fun a h₁ h₂ => h a ⟨h₁, h₂⟩
  have hrecord : g.read (slot * 4096) 864 = f.read (slot * 4096) 864 :=
    hagree.read_eq (by omega) (by omega)
  have htail : g.read (slot * 4096 + 864) 3232 = f.read (slot * 4096 + 864) 3232 :=
    hagree.read_eq (by omega) (by omega)
  simp only [recordState, hrecord, htail]

/-- The markers and the rest of a record, as reads of the flash. -/
theorem slice_claim (f : Flash) (slot : ℕ) :
    slice (f.read (slot * 4096) 864) claimOffset claimSize = f.read (slot * 4096) 32 := by
  rw [Flash.slice_read (by decide), Nat.add_zero]

/-- The commit marker is read in its place. -/
theorem slice_commit (f : Flash) (slot : ℕ) :
    slice (f.read (slot * 4096) 864) commitOffset commitSize = f.read (slot * 4096 + 800) 32 :=
  Flash.slice_read (by decide)

/-- The delivered marker is read in its place. -/
theorem slice_delivered (f : Flash) (slot : ℕ) :
    slice (f.read (slot * 4096) 864) deliveredOffset deliveredSize =
      f.read (slot * 4096 + 832) 32 :=
  Flash.slice_read (by decide)

/-- What is before the delivered marker is read in its place. -/
theorem take_delivered (f : Flash) (slot : ℕ) :
    (f.read (slot * 4096) 864).take deliveredOffset = f.read (slot * 4096) 832 := by
  have hsplit : f.read (slot * 4096) (832 + 32) = _ := Flash.read_add f (slot * 4096) 832 32
  rw [hsplit]
  exact List.take_left' (Flash.length_read ..)

/-- An erased record. -/
theorem recordState_erased {f : Flash} {slot : ℕ} (h : f.Erased (slot * 4096) 4096) :
    recordState sha256 binding f slot = some .erased := by
  have hrecord : (f.read (slot * 4096) 864).all (· == erasedByte) = true :=
    Flash.read_all_erased.mpr (h.mono (by omega) (by omega))
  have htail : (f.read (slot * 4096 + 864) 3232).all (· == erasedByte) = true :=
    Flash.read_all_erased.mpr (h.mono (by omega) (by omega))
  simp only [recordState, hrecord, htail, if_true]

/-- Only an erased record is classified as erased. -/
theorem erased_of_recordState {f : Flash} {slot : ℕ}
    (h : recordState sha256 binding f slot = some .erased) : f.Erased (slot * 4096) 4096 := by
  unfold recordState at h
  simp only at h
  split at h
  · next hrecord =>
    split at h
    · next htail =>
      rw [Flash.read_all_erased] at hrecord htail
      intro i hi
      by_cases hi' : i < 864
      · exact hrecord i hi'
      · have := htail (i - 864) (by omega)
        rwa [show slot * 4096 + 864 + (i - 864) = slot * 4096 + i by omega] at this
    · cases h
  · split at h
    · split at h <;> cases h
    · split at h
      · cases h
      · split at h
        · simp at h
        · cases h

/-- A record without a complete commit marker, whose claim can still be completed. -/
theorem recordState_torn {f : Flash} {slot : ℕ} (hclaim : f.Covers (slot * 4096) claimMarker)
    (hcommit : f.read (slot * 4096 + 800) 32 ≠ commitMarker)
    (hsome : ¬ f.Erased (slot * 4096) 864) : recordState sha256 binding f slot = some .torn := by
  have hrecord : ¬ (f.read (slot * 4096) 864).all (· == erasedByte) = true := by
    rwa [Flash.read_all_erased]
  have hcovers : covers (f.read (slot * 4096) 32) claimMarker = true :=
    Flash.covers_read.mpr hclaim
  unfold recordState
  simp only [slice_claim, slice_commit]
  rw [if_neg hrecord, if_pos hcommit, if_pos hcovers]

/-- A record with both markers and an erased tail is what its bytes decode to. -/
theorem recordState_committed {f : Flash} {slot : ℕ}
    (hclaim : f.read (slot * 4096) 32 = claimMarker)
    (hcommit : f.read (slot * 4096 + 800) 32 = commitMarker)
    (htail : f.Erased (slot * 4096 + 864) 3232) :
    recordState sha256 binding f slot =
      (decodeRecord sha256 binding slot (f.read (slot * 4096) 864)).map .committed := by
  have hrecord : ¬ (f.read (slot * 4096) 864).all (· == erasedByte) = true := by
    rw [Flash.read_all_erased]
    intro h
    have hread : f.read (slot * 4096) 32 = List.replicate 32 erasedByte :=
      (h.mono (by omega) (by omega)).read_eq
    rw [hclaim] at hread
    exact absurd hread (by decide)
  unfold recordState
  simp only [slice_claim, slice_commit]
  rw [if_neg hrecord, if_neg (not_not.mpr hcommit), if_neg (not_not.mpr hclaim),
    if_pos (Flash.read_all_erased.mpr htail)]

end State

section Codec

variable {sha256 : Sha256} {binding : OutboxBinding} {slot : ℕ}

/-- The layout of a header. -/
theorem headerFields_widths (entry : OutboxEntry) :
    (headerFields binding entry).map List.length =
      [8, 2, 2, 4, 16, 8, 4, 2, 2, 8, 16, 16, 16, 32, 32, 56] := by
  simp [headerFields, show magic.length = 8 by decide]

/-- The header has 224 bytes before the digest. -/
@[simp] theorem length_header (entry : OutboxEntry) :
    (headerFields binding entry).flatten.length = 224 := by
  rw [List.length_flatten, headerFields_widths]
  rfl

/-- The bytes of a complete record before the delivered marker. -/
def encodeIntent (sha256 : Sha256) (binding : OutboxBinding) (entry : OutboxEntry)
    (wire : List Byte) : List Byte :=
  claimMarker ++ encodeBody sha256 binding entry wire ++ commitMarker

/-- The parts of a record before the delivered marker. -/
theorem encodeIntent_eq (entry : OutboxEntry) (wire : List Byte) :
    encodeIntent sha256 binding entry wire = [claimMarker, (headerFields binding entry).flatten,
      wire, List.replicate (512 - wire.length) erasedByte,
      recordDigest sha256 (headerFields binding entry).flatten wire, commitMarker].flatten := by
  simp [encodeIntent, encodeBody, bodyFields, wireCapacity]

/-- The parts of an intent have fixed widths. -/
theorem encodeIntent_widths (entry : OutboxEntry) (wire : List Byte) :
    [claimMarker, (headerFields binding entry).flatten, wire,
      List.replicate (512 - wire.length) erasedByte,
      recordDigest sha256 (headerFields binding entry).flatten wire, commitMarker].map List.length =
      [32, 224, wire.length, 512 - wire.length, 32, 32] := by
  simp [recordDigest, headerFields_widths]

/-- The body has 768 bytes before the commit marker. -/
@[simp] theorem length_encodeBody {entry : OutboxEntry} {wire : List Byte}
    (hwire : wire.length ≤ 512) : (encodeBody sha256 binding entry wire).length = 768 := by
  simp [encodeBody, bodyFields, recordDigest, wireCapacity, headerFields_widths]
  omega

/-- A part of a written record. -/
theorem slice_encodeIntent {entry : OutboxEntry} {wire part : List Byte} {i offset length : ℕ}
    (hpart : [claimMarker, (headerFields binding entry).flatten, wire,
      List.replicate (512 - wire.length) erasedByte,
      recordDigest sha256 (headerFields binding entry).flatten wire, commitMarker][i]? = some part)
    (hoffset : ([32, 224, wire.length, 512 - wire.length, 32, 32].take i).sum = offset)
    (hlength : part.length = length) :
    slice (encodeIntent sha256 binding entry wire) offset length = part := by
  rw [encodeIntent_eq]
  exact slice_flatten (encodeIntent_widths entry wire) hpart hoffset hlength

/-- The header of a written record. -/
theorem slice_header (entry : OutboxEntry) (wire : List Byte) :
    slice (encodeIntent sha256 binding entry wire) 32 224 =
      (headerFields binding entry).flatten :=
  slice_encodeIntent (i := 1) rfl rfl (length_header entry)

/-- A header field of a written record. -/
theorem slice_headerField {entry : OutboxEntry} {wire field : List Byte} {i offset length : ℕ}
    (hfield : (headerFields binding entry)[i]? = some field)
    (hoffset : ([8, 2, 2, 4, 16, 8, 4, 2, 2, 8, 16, 16, 16, 32, 32, 56].take i).sum + 32 = offset)
    (hlength : field.length = length) (hinside : offset + length ≤ 256) :
    slice (encodeIntent sha256 binding entry wire) offset length = field := by
  have hinner := slice_flatten (headerFields_widths entry) hfield rfl hlength
  rw [← slice_header entry wire, slice_slice (by omega), Nat.add_comm, hoffset] at hinner
  exact hinner

/-- Decoding a written record restores the offered message. -/
theorem decodeIntent_encodeIntent {candidate : OutboxCandidate} (hvalid : candidate.Valid)
    (hslot : slot < 64) :
    decodeIntent sha256 binding slot
      (encodeIntent sha256 binding (candidate.entry sha256 slot) candidate.wire) =
      some (candidate.entry sha256 slot) := by
  set entry := candidate.entry sha256 slot with hentry
  set record := encodeIntent sha256 binding entry candidate.wire with hrecord
  simp only [OutboxCandidate.Valid, not_or, not_lt, not_not, ne_eq] at hvalid
  obtain ⟨hmin, hmax, hdestination⟩ := hvalid
  replace hmax : candidate.wire.length ≤ 512 := hmax
  have hfield : ∀ {i offset length field}, (headerFields binding entry)[i]? = some field →
      ([8, 2, 2, 4, 16, 8, 4, 2, 2, 8, 16, 16, 16, 32, 32, 56].take i).sum + 32 = offset →
      field.length = length → offset + length ≤ 256 → slice record offset length = field :=
    slice_headerField
  have hlen : leNat (slice record wireLengthOffset 2) = candidate.wire.length :=
    (congrArg leNat (hfield (i := 8) rfl rfl (length_leBytes ..) (by decide))).trans
      (leNat_leBytes_of_lt (Nat.lt_of_le_of_lt hmax (by decide)))
  have hid : leNat (slice record submissionIdOffset 8) = slot + 1 :=
    (congrArg leNat (hfield (i := 9) rfl rfl (length_leBytes ..) (by decide))).trans
      (leNat_leBytes_of_lt (Nat.lt_of_lt_of_le (Nat.succ_lt_succ hslot) (by decide)))
  have hheader : slice record headerOffset headerSize = (headerFields binding entry).flatten :=
    slice_header entry candidate.wire
  have hwire : slice record wireOffset candidate.wire.length = candidate.wire :=
    slice_encodeIntent (i := 2) rfl rfl rfl
  have hpadding : slice record (wireOffset + candidate.wire.length)
      (wireCapacity - candidate.wire.length) =
      List.replicate (512 - candidate.wire.length) erasedByte :=
    slice_encodeIntent (i := 3) rfl (by simp [wireOffset, headerOffset, headerSize]; omega)
      (by simp)
  have hdigest : slice record digestOffset digestSize =
      recordDigest sha256 (headerFields binding entry).flatten candidate.wire :=
    slice_encodeIntent (i := 4) rfl
      (by simp [digestOffset, wireOffset, headerOffset, headerSize, wireCapacity]; omega)
      (by simp [recordDigest])
  have hdest : slice record destinationOffset 16 = candidate.destination.toList :=
    hfield (i := 12) rfl rfl (by simp) (by decide)
  have hwireDigest : slice record wireDigestOffset 32 = (sha256 candidate.wire).toList :=
    hfield (i := 14) rfl rfl (by simp) (by decide)
  have hprincipal : slice record principalOffset 16 = candidate.principal.toList :=
    hfield (i := 10) rfl rfl (by simp) (by decide)
  have hkey : slice record idempotencyOffset 16 = candidate.idempotencyKey.toList :=
    hfield (i := 11) rfl rfl (by simp) (by decide)
  have hmessage : slice record messageIdOffset 32 = candidate.messageId.toList :=
    hfield (i := 13) rfl rfl (by simp) (by decide)
  simp only [decodeIntent, hlen, hid, hheader, hwire, hpadding, hdigest, hdest, hwireDigest,
    hprincipal, hkey, hmessage, copyArray_toList]
  rw [if_neg, if_neg (by simp [wireCapacity]; omega), if_neg (by simp),
    if_neg (by simpa using hdestination),
    if_neg (by simp)]
  · rfl
  simp only [not_or, not_not]
  refine ⟨hfield (i := 0) rfl rfl (by decide) (by decide), ?_, ?_,
    hfield (i := 4) rfl rfl (by simp) (by decide), ?_, ?_, ?_, ?_⟩
  · exact (congrArg leNat (hfield (i := 1) rfl rfl rfl (by decide))).trans (by decide)
  · exact (congrArg leNat (hfield (i := 2) rfl rfl rfl (by decide))).trans (by decide)
  · exact (congrArg leNat (hfield (i := 5) rfl rfl (length_leBytes ..) (by decide))).trans
      (leNat_leBytes ..)
  · exact (congrArg leNat (hfield (i := 6) rfl rfl (length_leBytes ..) (by decide))).trans
      (leNat_leBytes ..)
  · exact (congrArg leNat (hfield (i := 7) rfl rfl (length_leBytes ..) (by decide))).trans
      (leNat_leBytes_of_lt (Nat.lt_of_lt_of_le hslot (by decide)))
  · exact congrArg (List.any · (· != 0)) (hfield (i := 15) rfl rfl (by simp) (by decide))
      |>.trans_ne (by decide)

end Codec

end Outbox
