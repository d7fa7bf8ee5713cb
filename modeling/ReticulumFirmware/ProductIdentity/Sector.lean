import ReticulumFirmware.ProductIdentity.Boot

/-!
# Sector states of the identity partition

A scan that meets no backend error returns a function of the sector's contents. This
file gives that function and the states that the stages of a record write and of a
sector erase can leave, interrupted or not.
-/

namespace ProductIdentity

open Nor

variable {ε ρ : Type}

/-- The layout of a record. -/
theorem recordFields_widths (sha256 : Sha256) (privateKey : PrivateKey) :
    (recordFields sha256 privateKey).map List.length =
      [32, 8, 2, 2, 2, 2, 8, 8, 64, 64, 32, 32] := by
  simp [recordFields, digestedFields, recordDigest, show headerMagic.length = 8 by decide]

/-- A record has its fixed size. -/
@[simp] theorem length_encodeRecord (sha256 : Sha256) (privateKey : PrivateKey) :
    (encodeRecord sha256 privateKey).length = recordSize := by
  rw [encodeRecord, List.length_flatten, recordFields_widths]
  rfl

/-- The digest of a record covers exactly the fields before it. -/
theorem recordDigest_encodeRecord (sha256 : Sha256) (privateKey : PrivateKey) :
    recordDigest sha256 (encodeRecord sha256 privateKey) =
      recordDigest sha256 (digestedFields privateKey).flatten := by
  have hstart : (encodeRecord sha256 privateKey).take digestOffset =
      (digestedFields privateKey).flatten :=
    take_flatten (recordFields_widths sha256 privateKey) 10
  have hlength : (digestedFields privateKey).flatten.length = digestOffset := by
    rw [← hstart, List.length_take, length_encodeRecord]
    rfl
  rw [recordDigest, recordDigest, hstart, List.take_of_length_le (by omega)]

/-- Decoding an encoded record restores the key. -/
theorem decodeRecord_encodeRecord (sha256 : Sha256) (privateKey : PrivateKey) :
    decodeRecord sha256 (encodeRecord sha256 privateKey) = some privateKey := by
  have hwidths := recordFields_widths sha256 privateKey
  have hfield : ∀ {i offset length field}, (recordFields sha256 privateKey)[i]? = some field →
      (List.take i [32, 8, 2, 2, 2, 2, 8, 8, 64, 64, 32, 32]).sum = offset →
      field.length = length → slice (encodeRecord sha256 privateKey) offset length = field :=
    slice_flatten hwidths
  have hkey : slice (encodeRecord sha256 privateKey) 64 64 = privateKey.toList :=
    hfield (i := 8) rfl rfl (by simp)
  have hdigest : slice (encodeRecord sha256 privateKey) 192 32 =
      recordDigest sha256 (encodeRecord sha256 privateKey) := by
    rw [recordDigest_encodeRecord]
    exact hfield (i := 10) rfl rfl (by simp [recordDigest])
  rw [decodeRecord, if_neg, hkey, copyArray_toList]
  simp only [not_or, not_not, length_encodeRecord, true_and]
  refine ⟨hfield (i := 0) rfl rfl rfl, hfield (i := 1) rfl rfl (by decide), ?_, ?_, ?_, ?_, ?_,
    ?_, ?_, hfield (i := 11) rfl rfl rfl, hdigest⟩
  · exact (congrArg leNat (hfield (i := 2) rfl rfl rfl)).trans (by decide)
  · exact (congrArg leNat (hfield (i := 3) rfl rfl rfl)).trans (by decide)
  · exact (congrArg leNat (hfield (i := 4) rfl rfl rfl)).trans (by decide)
  · exact (congrArg leNat (hfield (i := 5) rfl rfl rfl)).trans (by decide)
  · exact (congrArg leNat (hfield (i := 6) rfl rfl rfl)).trans (by decide)
  · exact congrArg (List.any · (· != 0)) (hfield (i := 7) rfl rfl rfl) |>.trans_ne (by decide)
  · exact congrArg (List.any · (· != 0)) (hfield (i := 9) rfl rfl rfl) |>.trans_ne (by decide)

/-- The state of a mirror as a function of the flash contents. -/
def sectorState (sha256 : Sha256) (f : Flash) (mirror : IdentityMirror) : SectorState :=
  classify sha256 (f.read mirror.offset recordSize)
    ((f.read (mirror.offset + recordSize) (mirrorSectorSize - recordSize)).all (· == erasedByte))

/-- The state of a mirror is classified from its record and its rest. -/
private theorem sectorState_def (sha256 : Sha256) (f : Flash) (mirror : IdentityMirror) :
    sectorState sha256 f mirror = classify sha256 (f.read mirror.offset 256)
      ((f.read (mirror.offset + 256) 3840).all (· == erasedByte)) := rfl

/-- The answer of the tail scan after some chunks. -/
theorem foldl_tail_erased (f : Flash) (offset chunks : ℕ) :
    (List.range chunks).foldl (fun tailIsErased chunk => tailIsErased &&
      (f.read (offset + (recordSize + chunk * tailScanChunkSize)) tailScanChunkSize).all
        (· == erasedByte)) true =
      (f.read (offset + recordSize) (chunks * tailScanChunkSize)).all (· == erasedByte) := by
  induction chunks with
  | zero => rfl
  | succ chunks ih =>
    rw [List.range_succ, List.foldl_append, ih, Nat.succ_mul, Flash.read_add, List.all_append,
      List.foldl_cons, List.foldl_nil, Nat.add_assoc offset recordSize]

/-- A scan without backend errors returns the state of the mirror. -/
theorem eval_scanMirror (sha256 : Sha256) (mirror : IdentityMirror) (f : Flash) :
    (scanMirror sha256 mirror : IdentityAction ε ρ _).eval f =
      (.ok (sectorState sha256 f mirror), f) := by
  rw [scanMirror, Action.eval_bind_ok (Action.eval_read ..),
    Action.eval_bind_ok (Action.eval_foldlM (fun _ _ => rfl) _ _), foldl_tail_erased]
  rfl

/-- A scan only reads. -/
theorem query_scanMirror (sha256 : Sha256) (mirror : IdentityMirror) :
    Query .backend (scanMirror sha256 mirror : IdentityAction ε ρ _).run :=
  .bind (.readAction ..) fun _ => .bind
    (.foldlM (fun _ _ => .bind (.readAction ..) fun _ => .pureAction ..) _ _)
    fun _ => .pureAction ..

/-- The decision between the mirrors as a function of the flash contents. -/
def selection (sha256 : Sha256) (f : Flash) : Except SelectionError Selection :=
  select (sectorState sha256 f .a) (sectorState sha256 f .b)

/-- A decision without backend errors is that of the flash contents. -/
theorem eval_selectBoth (sha256 : Sha256) (f : Flash) :
    (selectBoth sha256 : IdentityAction ε ρ _).eval f =
      ((selection sha256 f).mapError mapSelectionError, f) := by
  rw [selectBoth, Action.eval_bind_ok (eval_scanMirror ..),
    Action.eval_bind_ok (eval_scanMirror ..), selection]
  cases select (sectorState sha256 f .a) (sectorState sha256 f .b) <;> rfl

/-- A decision only reads. -/
theorem query_selectBoth (sha256 : Sha256) :
    Query .backend (selectBoth sha256 : IdentityAction ε ρ _).run := by
  refine .bind (query_scanMirror ..) fun a => .bind (query_scanMirror ..) fun b => ?_
  cases select a b with
  | ok selection => exact .pureAction ..
  | error error => exact .throwAction ..

/-- An address of a mirror's sector. -/
def InMirror (mirror : IdentityMirror) (a : ℕ) : Prop :=
  mirror.offset ≤ a ∧ a < mirror.offset + 4096

/-- The two sectors are disjoint. -/
theorem InMirror.not_other {mirror : IdentityMirror} {a : ℕ} (h : InMirror mirror a) :
    ¬ InMirror mirror.other a := by
  cases mirror <;> simp only [InMirror, IdentityMirror.other, IdentityMirror.offset_a,
    IdentityMirror.offset_b] at h ⊢ <;> omega

/-- A mirror's state depends on its own sector only. -/
theorem sectorState_congr {sha256 : Sha256} {f g : Flash} {mirror : IdentityMirror}
    (h : ∀ a, InMirror mirror a → g a = f a) :
    sectorState sha256 g mirror = sectorState sha256 f mirror := by
  have hagree : Flash.Agree g f mirror.offset (mirror.offset + 4096) := fun a h₁ h₂ => h a ⟨h₁, h₂⟩
  have hrecord : g.read mirror.offset 256 = f.read mirror.offset 256 :=
    hagree.read_eq (by omega) (by omega)
  have htail : g.read (mirror.offset + 256) 3840 = f.read (mirror.offset + 256) 3840 :=
    hagree.read_eq (by omega) (by omega)
  simp only [sectorState_def, hrecord, htail]

/-- The contents that the commit protocol leaves before a record is committed: at most
part of the claim, or the claim and at most part of the commit marker. -/
def Uncommitted (f : Flash) (mirror : IdentityMirror) : Prop :=
  f.Erased (mirror.offset + 256) 3840 ∧
    ((f.Covers mirror.offset claimMarker ∧ f.Erased (mirror.offset + 32) 224) ∨
      (f.read mirror.offset 32 = claimMarker ∧
        f.Covers (mirror.offset + 224) commitMarker ∧
        f.read (mirror.offset + 224) 32 ≠ commitMarker))

/-- Erased bytes are not the claim. -/
theorem read_ne_claimMarker {f : Flash} {offset : ℕ} (h : f.Erased offset 32) :
    f.read offset 32 ≠ claimMarker := by
  rw [h.read_eq]
  decide

/-- Erased bytes are not the commit marker. -/
theorem read_ne_commitMarker {f : Flash} {offset : ℕ} (h : f.Erased offset 32) :
    f.read offset 32 ≠ commitMarker := by
  rw [h.read_eq]
  decide

/-- The check for a strict intermediate of a marker, in terms of the flash contents. -/
theorem monotonicPartial_read {f : Flash} {offset : ℕ} {marker : List Byte} :
    monotonicPartial (f.read offset marker.length) marker = true ↔
      f.read offset marker.length ≠ marker ∧ f.Covers offset marker := by
  rw [monotonicPartial, Bool.and_eq_true, bne_iff_ne, Flash.covers_read]

/-- Both markers are complete and the tail is erased. -/
def Committed (f : Flash) (mirror : IdentityMirror) : Prop :=
  f.Erased (mirror.offset + 256) 3840 ∧ f.read mirror.offset 32 = claimMarker ∧
    f.read (mirror.offset + 224) 32 = commitMarker

/-- An erased sector is uncommitted. -/
theorem uncommitted_of_erased {f : Flash} {mirror : IdentityMirror}
    (h : f.Erased mirror.offset 4096) : Uncommitted f mirror :=
  ⟨h.mono (by omega) (by omega), Or.inl
    ⟨(h.mono (by omega) (by simp)).covers, h.mono (by omega) (by omega)⟩⟩

/-- An uncommitted sector has no complete pair of markers. -/
theorem Uncommitted.not_committed {f : Flash} {mirror : IdentityMirror}
    (h : Uncommitted f mirror) : ¬ Committed f mirror := by
  rintro ⟨-, -, hcommit⟩
  rcases h.2 with ⟨-, hrest⟩ | ⟨-, -, hne⟩
  · exact read_ne_commitMarker (hrest.mono (by omega) (by omega)) hcommit
  · exact hne hcommit

/-- The classification of a sector, in terms of the flash contents. -/
theorem sectorState_cases (sha256 : Sha256) (f : Flash) (mirror : IdentityMirror) :
    (sectorState sha256 f mirror = .erased ∧ f.Erased mirror.offset 4096) ∨
    (sectorState sha256 f mirror = .torn ∧ Uncommitted f mirror ∧
      ¬ f.Erased mirror.offset 4096) ∨
    (Committed f mirror ∧ sectorState sha256 f mirror =
      match decodeRecord sha256 (f.read mirror.offset 256) with
      | some privateKey => .valid privateKey
      | none => .committedCorrupt) ∨
    (sectorState sha256 f mirror = .unknown ∧ ¬ Uncommitted f mirror ∧ ¬ Committed f mirror) := by
  have hclaim : slice (f.read mirror.offset 256) claimOffset claimSize =
      f.read mirror.offset claimMarker.length := Flash.slice_read (by decide)
  have hcommit : slice (f.read mirror.offset 256) commitOffset commitSize =
      f.read (mirror.offset + 224) commitMarker.length := Flash.slice_read (by decide)
  have hrest : (f.read mirror.offset 256).drop headerOffset = f.read (mirror.offset + 32) 224 :=
    Flash.drop_read f mirror.offset 32 224
  generalize hstate : sectorState sha256 f mirror = state
  rw [sectorState_def, classify, hclaim, hcommit, hrest] at hstate
  split at hstate
  · next h =>
    rw [Bool.and_eq_true, Flash.read_all_erased, Flash.read_all_erased] at h
    refine Or.inl ⟨hstate.symm, fun i hi => ?_⟩
    by_cases hrecord : i < 256
    · exact h.1 i hrecord
    · have := h.2 (i - 256) (by omega)
      rwa [show mirror.offset + 256 + (i - 256) = mirror.offset + i by omega] at this
  next hall =>
  have hnot : ¬ f.Erased mirror.offset 4096 := fun h => hall <| by
    rw [Bool.and_eq_true, Flash.read_all_erased, Flash.read_all_erased]
    exact ⟨h.mono (by omega) (by omega), h.mono (by omega) (by omega)⟩
  split at hstate
  · next h =>
    rw [Bool.not_eq_true', ← Bool.not_eq_true, Flash.read_all_erased] at h
    exact Or.inr (Or.inr (Or.inr ⟨hstate.symm, fun hun => h hun.1, fun hcom => h hcom.1⟩))
  next htail =>
  rw [Bool.not_eq_true', Bool.not_eq_false, Flash.read_all_erased] at htail
  split at hstate
  · next hne =>
    split at hstate
    · next h =>
      rw [Bool.and_eq_true, monotonicPartial_read, Flash.read_all_erased] at h
      exact Or.inr (Or.inl ⟨hstate.symm, ⟨htail, Or.inl ⟨h.1.2, h.2⟩⟩, hnot⟩)
    · next h =>
      rw [Bool.and_eq_true, monotonicPartial_read, Flash.read_all_erased] at h
      refine Or.inr (Or.inr (Or.inr ⟨hstate.symm, ?_, fun hcom => hne hcom.2.1⟩))
      rintro ⟨-, hpart | hclaimed⟩
      · exact h ⟨⟨hne, hpart.1⟩, hpart.2⟩
      · exact hne hclaimed.1
  next heq =>
  rw [not_not] at heq
  split at hstate
  · next hmarker => exact Or.inr (Or.inr (Or.inl ⟨⟨htail, heq, hmarker⟩, hstate.symm⟩))
  next hmarker =>
  split at hstate
  · next h =>
    rw [monotonicPartial_read] at h
    exact Or.inr (Or.inl ⟨hstate.symm, ⟨htail, Or.inr ⟨heq, h.2, h.1⟩⟩, hnot⟩)
  · next h =>
    rw [monotonicPartial_read] at h
    refine Or.inr (Or.inr (Or.inr ⟨hstate.symm, ?_, fun hcom => hmarker hcom.2.2⟩))
    rintro ⟨-, hpart | hcovers⟩
    · exact h ⟨hmarker, (hpart.2.mono (by omega) (by simp)).covers⟩
    · exact h ⟨hmarker, hcovers.2.1⟩

/-- An erased sector is classified as erased. -/
theorem sectorState_eq_erased_iff {sha256 : Sha256} {f : Flash} {mirror : IdentityMirror} :
    sectorState sha256 f mirror = .erased ↔ f.Erased mirror.offset 4096 := by
  rcases sectorState_cases sha256 f mirror with h | h | h | h
  · simp [h]
  · simp [h]
  · have hnot := mt uncommitted_of_erased fun hun => hun.not_committed h.1
    rw [h.2]
    split <;> simp [hnot]
  · have hnot := mt uncommitted_of_erased h.2.1
    simp [h.1, hnot]

/-- The uncommitted sectors are those classified as erased or torn. -/
theorem uncommitted_iff {sha256 : Sha256} {f : Flash} {mirror : IdentityMirror} :
    Uncommitted f mirror ↔
      sectorState sha256 f mirror = .erased ∨ sectorState sha256 f mirror = .torn := by
  rcases sectorState_cases sha256 f mirror with h | h | h | h
  · simp [h, uncommitted_of_erased h.2]
  · simp [h]
  · have hnot : ¬ Uncommitted f mirror := fun hun => hun.not_committed h.1
    rw [h.2]
    split <;> simp [hnot]
  · simp [h]

/-- A valid sector is committed. -/
theorem committed_of_valid {sha256 : Sha256} {f : Flash} {mirror : IdentityMirror}
    {privateKey : PrivateKey} (h : sectorState sha256 f mirror = .valid privateKey) :
    Committed f mirror := by
  rcases sectorState_cases sha256 f mirror with hs | hs | hs | hs
  · simp [h] at hs
  · simp [h] at hs
  · exact hs.1
  · simp [h] at hs

/-- A sector that holds a record is valid. -/
theorem sectorState_eq_valid {sha256 : Sha256} {f : Flash} {mirror : IdentityMirror}
    {privateKey : PrivateKey} (hcommitted : Committed f mirror)
    (hrecord : f.read mirror.offset 256 = encodeRecord sha256 privateKey) :
    sectorState sha256 f mirror = .valid privateKey := by
  rcases sectorState_cases sha256 f mirror with h | h | h | h
  · exact absurd hcommitted (uncommitted_of_erased h.2).not_committed
  · exact absurd hcommitted h.2.1.not_committed
  · rw [h.2, hrecord, decodeRecord_encodeRecord]
  · exact absurd hcommitted h.2.2

end ProductIdentity
