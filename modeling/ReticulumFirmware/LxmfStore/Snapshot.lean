import ReticulumFirmware.Nor.Answer
import ReticulumFirmware.LxmfStore.Mount

/-!
# What an inspection reads

The snapshot of an extent and the payload of a span as functions of the contents, and the answers
of the read-only operations in their terms.
-/

namespace LxmfStore

open Nor Lxmf

variable {ε err : Type} {sha256 : Sha256} {access : BoundLxmfStore} {f g : Flash}

section Snapshot

variable {wrap : ε → err}

/-- The snapshot of an extent. -/
def snapshotAt (f : Flash) (extent : ℕ) : ExtentSnapshot where
  header := f.read (extentOffset extent) extentHeaderSize
  footer := f.read (extentOffset extent + (extentSize - recordFooterSize)) recordFooterSize
  erased := (f.read (extentOffset extent) extentSize).all (· == erasedByte)
  outsideClaimErased := (f.read (extentOffset extent + 32) (extentSize - 32)).all (· == erasedByte)
  outsideHeaderErased := (f.read (extentOffset extent + extentHeaderSize)
    (extentSize - extentHeaderSize)).all (· == erasedByte)

/-- The header of a snapshot is read at the start of the extent. -/
theorem snapshotAt_header (f : Flash) (extent : ℕ) :
    (snapshotAt f extent).header = f.read (extentOffset extent) extentHeaderSize := by
  rw [snapshotAt]

/-- The footer of a snapshot is read at the end of the extent. -/
theorem snapshotAt_footer (f : Flash) (extent : ℕ) :
    (snapshotAt f extent).footer =
      f.read (extentOffset extent + (extentSize - recordFooterSize)) recordFooterSize := by
  rw [snapshotAt]

/-- A snapshot is erased exactly where the extent is. -/
theorem snapshotAt_erased {extent : ℕ} :
    (snapshotAt f extent).erased = true ↔ f.Erased (extentOffset extent) extentSize := by
  dsimp only [snapshotAt]
  exact Flash.read_all_erased

/-- The inspection of a page only reads. -/
theorem query_inspectPage (extent : ℕ) (snapshot : ExtentSnapshot) (page : ℕ) :
    Query wrap (inspectPage wrap extent snapshot page).run :=
  (Query.readAction _ _ _).bind fun _ => .pureAction _ _

/-- A snapshot only reads. -/
theorem query_readExtentSnapshot (extent : ℕ) :
    Query wrap (readExtentSnapshot wrap extent).run :=
  .foldlM (query_inspectPage extent) _ _

/-- A snapshot with one page of the contents more. -/
def inspected (f : Flash) (extent : ℕ) (snapshot : ExtentSnapshot) (page : ℕ) : ExtentSnapshot :=
  snapshot.addPage (page * ioChunkSize)
    (f.read (extentOffset extent + page * ioChunkSize) ioChunkSize)

/-- The snapshot after some of its pages. -/
theorem foldl_inspected (f : Flash) (extent : ℕ) {pages : ℕ} (hpages : pages ≤ 16) :
    (List.range pages).foldl (inspected f extent) .start =
      ⟨f.read (extentOffset extent) (min (pages * 256) 512),
        f.read (extentOffset extent + 3840) (pages * 256 - 3840),
        (f.read (extentOffset extent) (pages * 256)).all (· == erasedByte),
        (f.read (extentOffset extent + 32) (pages * 256 - 32)).all (· == erasedByte),
        (f.read (extentOffset extent + 512) (pages * 256 - 512)).all (· == erasedByte)⟩ := by
  induction pages with
  | zero => rfl
  | succ pages ih =>
    have hnext : (pages + 1) * 256 = pages * 256 + 256 := by omega
    rw [List.range_succ, List.foldl_append, ih (by omega), List.foldl_cons, List.foldl_nil, hnext,
      Flash.read_add f _ (pages * 256) 256, List.all_append]
    rw [inspected, ExtentSnapshot.addPage, ExtentSnapshot.mk.injEq]
    simp only [ioChunkSize, extentHeaderSize, extentSize, recordFooterSize]
    refine ⟨?_, ?_, trivial, ?_, ?_⟩
    · split
      · rw [Nat.min_eq_left (by omega), Nat.min_eq_left (by omega), Flash.read_add]
      · rw [Nat.min_eq_right (by omega), Nat.min_eq_right (by omega)]
    · split
      · have hpage : pages = 15 := by omega
        subst hpage
        rfl
      · rw [show pages * 256 + 256 - 3840 = 0 by omega, show pages * 256 - 3840 = 0 by omega]
    · split
      · have hpage : pages = 0 := by omega
        subst hpage
        have hlength : claimMarker.length = 32 := rfl
        rw [hlength, show 256 = 32 + 224 from rfl, Flash.drop_read]
        rfl
      · rw [show pages * 256 + 256 - 32 = (pages * 256 - 32) + 256 by omega, Flash.read_add,
          List.all_append, show extentOffset extent + 32 + (pages * 256 - 32) =
            extentOffset extent + pages * 256 by omega]
    · by_cases hpage : pages * 256 < 512
      · rw [show pages * 256 + 256 - 512 = 0 by omega, show pages * 256 - 512 = 0 by omega]
        simp [Flash.read, hpage]
      · rw [show pages * 256 + 256 - 512 = (pages * 256 - 512) + 256 by omega, Flash.read_add,
          List.all_append, show extentOffset extent + 512 + (pages * 256 - 512) =
            extentOffset extent + pages * 256 by omega]
        simp [hpage]

/-- A working backend answers the snapshot of the extent. -/
@[simp] theorem answer_readExtentSnapshot (extent : ℕ) (f : Flash) :
    (readExtentSnapshot wrap extent).answer f = .ok (snapshotAt f extent) := by
  have hstep : ∀ snapshot page, (inspectPage wrap extent snapshot page).eval f =
      (.ok (inspected f extent snapshot page), f) := fun _ _ => rfl
  rw [readExtentSnapshot, Action.answer, Action.eval_foldlM hstep]
  exact congrArg Except.ok (foldl_inspected f extent (le_refl 16))

end Snapshot

section Payload

/-- The wire area of a record: everything between its headers and its footer. -/
def payloadAt (f : Flash) (firstExtent extentCount : ℕ) : List Byte :=
  (wirePageOffsets firstExtent extentCount).flatMap fun offset => f.read offset ioChunkSize

/-- A page is digested by reads only. -/
theorem query_digestPage (digest : WireDigest) (offset : ℕ) :
    Query InspectError.backend (digestPage digest offset : InspectAction ε WireDigest).run :=
  (Query.readAction _ _ _).bind fun _ => .pureAction _ _

/-- The wire is digested by reads only. -/
theorem query_digestFlashWire (firstExtent extentCount wireLen : ℕ) (firstHeader : List Byte) :
    Query InspectError.backend (digestFlashWire sha256 firstExtent extentCount wireLen firstHeader :
      InspectAction ε _).run :=
  (Query.foldlM query_digestPage _ _).bind fun _ => .pureAction _ _

/-- Digesting pages appends as many bytes as remain and checks the others. -/
theorem answer_foldlM_digestPage (f : Flash) (offsets : List ℕ) (digest : WireDigest) :
    (offsets.foldlM digestPage digest : InspectAction ε WireDigest).answer f =
      .ok ⟨digest.wire ++
          (offsets.flatMap fun offset => f.read offset ioChunkSize).take digest.remaining,
        digest.remaining - (offsets.flatMap fun offset => f.read offset ioChunkSize).length,
        digest.paddingErased && ((offsets.flatMap fun offset => f.read offset ioChunkSize).drop
          digest.remaining).all (· == erasedByte)⟩ := by
  induction offsets generalizing digest with
  | nil => simp
  | cons offset offsets ih =>
    have hpage : (digestPage digest offset : InspectAction ε WireDigest).eval f =
        (.ok ⟨digest.wire ++ (f.read offset ioChunkSize).take (min digest.remaining ioChunkSize),
          digest.remaining - min digest.remaining ioChunkSize, digest.paddingErased &&
            ((f.read offset ioChunkSize).drop (min digest.remaining ioChunkSize)).all
              (· == erasedByte)⟩, f) := rfl
    have hlength : (f.read offset ioChunkSize).length = ioChunkSize := Flash.length_read ..
    rw [List.foldlM_cons, Action.answer, Action.eval_bind_ok hpage, ← Action.answer, ih,
      List.flatMap_cons]
    generalize offsets.flatMap (fun offset => f.read offset ioChunkSize) = rest
    generalize f.read offset ioChunkSize = chunk at hlength
    rw [List.take_append, List.drop_append, List.length_append, List.all_append,
      List.append_assoc, Bool.and_assoc, hlength]
    dsimp only
    by_cases hremaining : digest.remaining ≤ ioChunkSize
    · have hnone : digest.remaining - ioChunkSize = 0 := Nat.sub_eq_zero_of_le hremaining
      have hrest : digest.remaining - (ioChunkSize + rest.length) = 0 := by omega
      rw [Nat.min_eq_left hremaining, Nat.sub_self, hnone, hrest, Nat.zero_sub]
    · have htake : chunk.take digest.remaining = chunk := List.take_of_length_le (by omega)
      have hdrop : chunk.drop digest.remaining = [] := List.drop_of_length_le (by omega)
      rw [Nat.min_eq_right (by omega), ← hlength, List.take_length, List.drop_length, htake, hdrop,
        Nat.sub_sub]

/-- A working backend answers the digest of the wire. -/
@[simp] theorem answer_digestFlashWire (firstExtent extentCount wireLen : ℕ)
    (firstHeader : List Byte) (f : Flash) :
    (digestFlashWire sha256 firstExtent extentCount wireLen firstHeader :
        InspectAction ε _).answer f =
      .ok (sha256 ((payloadAt f firstExtent extentCount).take wireLen),
        sha256 (recordDigestDomain ++ firstHeader ++
          (payloadAt f firstExtent extentCount).take wireLen),
        ((payloadAt f firstExtent extentCount).drop wireLen).all (· == erasedByte)) := by
  rw [digestFlashWire, (Query.foldlM query_digestPage _ _).answer_bind,
    answer_foldlM_digestPage]
  rfl

end Payload

section Record

/-- A committed record is decoded by reads only. -/
theorem query_decodeCommittedRecord (firstExtent : ℕ) (firstHeader footer : List Byte)
    (header : HeaderFields) :
    Query InspectError.backend (decodeCommittedRecord sha256 firstExtent firstHeader footer header :
      InspectAction ε IndexEntry).run :=
  (Query.ensureAction _ _ _).bind fun _ => (query_digestFlashWire _ _ _ _).bind fun _ =>
    (Query.ensureAction _ _ _).bind fun _ => (Query.ensureAction _ _ _).bind fun _ =>
      (Query.ensureAction _ _ _).bind fun _ => .pureAction _ _

/-- The entry of a committed record whose header was decoded. -/
def recordEntry (firstExtent : ℕ) (header : HeaderFields) : IndexEntry where
  receipt := ⟨header.handle, ⟨header.metadata.authenticatedFingerprint, header.exactWireDigest⟩⟩
  metadata := header.metadata
  firstExtent := firstExtent
  extentCount := header.extentCount
  wireLen := header.metadata.lengths.normalizedWire
  formatVersion := header.formatVersion

/-- The footer and the wire agree with the header of a record. -/
structure Verified (sha256 : Sha256) (f : Flash) (firstExtent : ℕ) (firstHeader footer : List Byte)
    (header : HeaderFields) : Prop where
  footer_matches : footerMatches footer header = true
  wire_digest : sha256 ((payloadAt f firstExtent header.extentCount).take
    header.metadata.lengths.normalizedWire) = header.exactWireDigest
  padding : ((payloadAt f firstExtent header.extentCount).drop
    header.metadata.lengths.normalizedWire).all (· == erasedByte) = true
  record_digest : slice footer 60 32 = (sha256 (recordDigestDomain ++ firstHeader ++
    (payloadAt f firstExtent header.extentCount).take
      header.metadata.lengths.normalizedWire)).toList

/-- A record is decoded exactly if its footer and its wire agree with its header. -/
theorem answer_decodeCommittedRecord {firstExtent : ℕ} {firstHeader footer : List Byte}
    {header : HeaderFields} {entry : IndexEntry} :
    (decodeCommittedRecord sha256 firstExtent firstHeader footer header :
        InspectAction ε IndexEntry).answer f = .ok entry ↔
      Verified sha256 f firstExtent firstHeader footer header ∧
        entry = recordEntry firstExtent header := by
  rw [decodeCommittedRecord, Action.answer_ensure_bind, (query_digestFlashWire _ _ _ _).answer_bind,
    answer_digestFlashWire]
  change (if _ then Action.answer _ f else _) = _ ↔ _
  rw [Action.answer_ensure_bind, Action.answer_ensure_bind, Action.answer_ensure_bind]
  constructor
  · intro h
    split_ifs at h with hfooter hwire hpadding hrecord
    refine ⟨⟨hfooter, hwire, hpadding, hrecord⟩, ?_⟩
    rw [← Except.ok.inj h, recordEntry, hwire]
  · rintro ⟨⟨hfooter, hwire, hpadding, hrecord⟩, rfl⟩
    rw [if_pos hfooter, if_pos hwire, if_pos hpadding, if_pos hrecord, hwire]
    rfl

end Record

end LxmfStore
