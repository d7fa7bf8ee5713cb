import ReticulumFirmware.LxmfStore.Capacity
import ReticulumFirmware.Nor.Pieces

/-!
# The script of a record in pieces

What a commit programs falls into pieces with areas of their own: the header of each extent, the
pages of the wire and the footer.
-/

namespace LxmfStore

open Nor Nor.Prog Lxmf CheckedPatch

variable {ε : Type} {sha256 : Sha256} {access : BoundLxmfStore} {f g : Flash}
  {pending : PendingMutation} {candidate : InboundMessageCandidate} {index : ℕ}

section Headers

/-- A pending header begins with the claim. -/
theorem slice_pendingHeader_claim :
    slice (pendingHeader sha256 access pending index) 0 32 = claimMarker :=
  slice_encodeHeader 0 0 32 rfl rfl rfl

/-- The two pages of a header. -/
def headerPages (sha256 : Sha256) (access : BoundLxmfStore) (pending : PendingMutation)
    (index : ℕ) : List (CheckedPatch ε (LxmfCommitError ε)) :=
  (List.range (extentHeaderSize / ioChunkSize)).map fun page =>
    programExact (extentOffset (pending.firstExtent + index) + page * ioChunkSize)
      (slice (pendingHeader sha256 access pending index) (page * ioChunkSize) ioChunkSize)
      (slice (pendingHeader sha256 access pending index) (page * ioChunkSize) ioChunkSize) .header
      pending.firstExtent

/-- The claim of an extent. -/
def headerClaim (sha256 : Sha256) (access : BoundLxmfStore) (pending : PendingMutation)
    (index : ℕ) : CheckedPatch ε (LxmfCommitError ε) :=
  programClaim (extentOffset (pending.firstExtent + index)) claimPage
    ((pendingHeader sha256 access pending index).take ioChunkSize) pending.firstExtent

/-- A header is programmed as its claim and then its pages. -/
theorem programHeader_eq :
    (programHeader pending.firstExtent index (pendingHeader sha256 access pending index) :
      List (CheckedPatch ε (LxmfCommitError ε))) =
      headerClaim sha256 access pending index :: headerPages sha256 access pending index := rfl

/-- A page that is programmed exactly is accepted exactly. -/
theorem isExact_programExact {offset firstExtent : ℕ} {bytes : List Byte}
    {stage : LxmfProgramStage} :
    IsExact (programExact offset bytes bytes stage firstExtent :
      CheckedPatch ε (LxmfCommitError ε)) := fun _ => beq_iff_eq

/-- A claim is accepted over everything that can still become the header. -/
theorem headerClaim_accepts
    (hcovers : g.Covers (extentOffset (pending.firstExtent + index))
      (pendingHeader sha256 access pending index))
    (hclaimed : ∀ i < claimMarker.length,
      BitsLE (g (extentOffset (pending.firstExtent + index) + i)) (claimMarker.getD i 0)) :
    (headerClaim sha256 access pending index : CheckedPatch ε (LxmfCommitError ε)).accepts
      (g.read (extentOffset (pending.firstExtent + index)) 256) = true := by
  have hmarker : g.Covers (extentOffset (pending.firstExtent + index)) claimMarker := by
    have hslice : g.Covers (extentOffset (pending.firstExtent + index) + 0)
        (slice (pendingHeader sha256 access pending index) 0 32) :=
      hcovers.slice (by rw [length_pendingHeader]; decide)
    rw [slice_pendingHeader_claim, Nat.add_zero] at hslice
    exact hslice
  have hrest : g.Covers (extentOffset (pending.firstExtent + index) + 32)
      (slice (pendingHeader sha256 access pending index) 32 224) :=
    hcovers.slice (by rw [length_pendingHeader]; decide)
  have hlength : (slice (pendingHeader sha256 access pending index) 32 224).length = 224 :=
    length_slice (by rw [length_pendingHeader]; decide)
  have hfirst : (g.read (extentOffset (pending.firstExtent + index)) 256).take 32 =
    claimMarker := by
    rw [show 256 = 32 + 224 from rfl, Flash.read_add, List.take_left' (Flash.length_read _ _ _)]
    exact hmarker.read_eq hclaimed
  have hsecond : covers ((g.read (extentOffset (pending.firstExtent + index)) 256).drop 32)
      (((pendingHeader sha256 access pending index).take 256).drop 32) = true := by
    rw [show 256 = 32 + 224 from rfl, Flash.drop_read, List.drop_take]
    have hread := Flash.covers_read.mpr hrest
    rw [hlength] at hread
    exact hread
  change ((g.read _ 256).take 32 == claimMarker && covers _ _) = true
  rw [hfirst, beq_self_eq_true, Bool.true_and]
  exact hsecond

/-- The page of a claim begins with the claim. -/
theorem claimPage_of_lt {i : ℕ} (hi : i < 32) : claimPage.getD i 0 = claimMarker.getD i 0 := by
  rw [claimPage, List.getD_eq_getElem?_getD, List.getD_eq_getElem?_getD,
    List.getElem?_append_left (show i < claimMarker.length from hi)]

/-- Behind the claim its page is erased. -/
theorem claimPage_of_le {i : ℕ} (hi : 32 ≤ i) (hend : i < 256) :
    claimPage.getD i 0 = erasedByte := by
  rw [claimPage, List.getD_eq_getElem?_getD, List.getElem?_append_right hi,
    List.getElem?_replicate, if_pos (by change i - 32 < 256 - 32; omega)]
  rfl

/-- The contents of an erased header after its claim. -/
theorem apply_headerClaim
    (herased : f.Erased (extentOffset (pending.firstExtent + index)) extentHeaderSize) {i : ℕ}
    (hi : i < 256) : f.apply (headerClaim sha256 access pending index :
      CheckedPatch ε (LxmfCommitError ε)).patch (extentOffset (pending.firstExtent + index) + i) =
      claimPage.getD i 0 := by
  change f.program (extentOffset (pending.firstExtent + index)) claimPage _ = _
  rw [Flash.program_of_mem (by rw [length_claimPage]; exact hi),
    herased i (hi.trans (by decide)), BitVec.and_comm]
  exact BitVec.and_allOnes

/-- Over an erased header, the header can be programmed on top of its claim. -/
theorem claimed_covers
    (herased : f.Erased (extentOffset (pending.firstExtent + index)) extentHeaderSize) :
    (f.apply (headerClaim sha256 access pending index :
      CheckedPatch ε (LxmfCommitError ε)).patch).Covers
        (extentOffset (pending.firstExtent + index))
          (pendingHeader sha256 access pending index) := by
  intro i hi
  rw [length_pendingHeader] at hi
  by_cases hfirst : i < 256
  · have hclaim := @pendingHeader_claim sha256 access pending index i hfirst
    rw [Nat.zero_add] at hclaim
    rw [apply_headerClaim herased hfirst]
    exact hclaim
  · have hkept : f.apply (headerClaim sha256 access pending index :
        CheckedPatch ε (LxmfCommitError ε)).patch (extentOffset (pending.firstExtent + index) + i) =
          erasedByte := by
      change f.program (extentOffset (pending.firstExtent + index)) claimPage _ = _
      rw [Flash.program_of_not_mem (by rw [length_claimPage]; omega)]
      exact herased i hi
    rw [hkept]
    exact bitsLE_erased _

/-- The pages of a header are accepted over its claim and complete it. -/
theorem fits_headerPages (h : f.Covers (extentOffset (pending.firstExtent + index))
      (pendingHeader sha256 access pending index)) :
    CheckedPatch.Fits
      (headerPages sha256 access pending index : List (CheckedPatch ε (LxmfCommitError ε))) f ∧
      (f.applyAll (script (headerPages sha256 access pending index :
        List (CheckedPatch ε (LxmfCommitError ε))))).read
          (extentOffset (pending.firstExtent + index)) 512 =
        pendingHeader sha256 access pending index := by
  have hlength : ∀ page < 2, (slice (pendingHeader sha256 access pending index)
      (page * ioChunkSize) ioChunkSize).length = 256 := fun page hpage =>
    length_slice_pendingHeader hpage
  have hexacts := @fits_exacts ε (LxmfCommitError ε) f (headerPages sha256 access pending index)
    ?_ ?_ ?_
  · refine ⟨hexacts.1, read_of_pages (length_pendingHeader _) fun page hpage => ?_⟩
    have hread := hexacts.2 _ (List.mem_map_of_mem (List.mem_range.mpr hpage))
    change Flash.read _ _ (slice _ _ _).length = _ at hread
    rw [hlength page hpage] at hread
    exact hread
  · intro c hc
    obtain ⟨page, -, rfl⟩ := List.mem_map.mp hc
    exact isExact_programExact
  · refine List.pairwise_map.mpr (List.pairwise_lt_range.imp_of_mem ?_)
    intro page page' hpage _ hlt
    refine .inl ?_
    change _ + page * 256 + (slice _ (page * ioChunkSize) ioChunkSize).length ≤ _ + page' * 256
    rw [hlength page (List.mem_range.mp hpage)]
    omega
  · intro c hc
    obtain ⟨page, hpage, rfl⟩ := List.mem_map.mp hc
    have hpage : page < 2 := List.mem_range.mp hpage
    refine h.slice ?_
    rw [length_pendingHeader]
    change page * 256 + 256 ≤ 512
    omega

/-- The patch of a claim is its page at the extent. -/
theorem patch_headerClaim : (headerClaim sha256 access pending index :
    CheckedPatch ε (LxmfCommitError ε)).patch =
      ⟨extentOffset (pending.firstExtent + index), claimPage⟩ := rfl

/-- An accepted claim is complete. -/
theorem headerClaim_accepted {readback : List Byte}
    (h : (headerClaim sha256 access pending index : CheckedPatch ε (LxmfCommitError ε)).accepts
      readback = true) : readback.take 32 = claimMarker :=
  eq_of_beq ((Bool.and_eq_true _ _).mp h).1

/-- The programs of a header fit its erased area. -/
theorem fits_programHeader
    (herased : f.Erased (extentOffset (pending.firstExtent + index)) extentHeaderSize) :
    CheckedPatch.Fits (headerClaim sha256 access pending index ::
      headerPages sha256 access pending index :
      List (CheckedPatch ε (LxmfCommitError ε))) f := by
  obtain ⟨hpages, hread⟩ := fits_headerPages (claimed_covers (ε := ε) herased)
  refine ⟨fun g hg => ?_, fun g ht haccepts => ?_, hpages⟩
  · have hcovers : g.Covers (extentOffset (pending.firstExtent + index))
        (pendingHeader sha256 access pending index) := by
      refine hg.covers ?_
      rw [length_pendingHeader]
      exact hread
    rw [patch_headerClaim, length_claimPage]
    refine headerClaim_accepts hcovers fun i hi => (hg.le _).trans ?_
    · have hi : i < 32 := hi
      rw [apply_headerClaim herased (by omega), claimPage_of_lt hi]
      exact .refl _
  · -- an accepted claim is complete, and nothing else of the page was programmed
    rw [patch_headerClaim, length_claimPage] at haccepts
    have hmarker := headerClaim_accepted haccepts
    rw [show 256 = 32 + 224 from rfl, Flash.read_add, List.take_left' (Flash.length_read _ _ _)]
      at hmarker
    funext a
    by_cases ha : a < extentOffset (pending.firstExtent + index) ∨
        extentOffset (pending.firstExtent + index) + claimPage.length ≤ a
    · exact (ht.program_of_not_mem ha).trans (Flash.program_of_not_mem ha).symm
    · rw [length_claimPage] at ha
      obtain ⟨i, rfl⟩ := Nat.exists_eq_add_of_le (not_lt.mp (not_or.mp ha).1)
      by_cases hi : i < 32
      · rw [apply_headerClaim herased (by omega), claimPage_of_lt hi]
        exact Flash.byte_of_read_eq hmarker hi
      · have hblank := herased i (by change i < 512; omega)
        have htarget := (@apply_headerClaim ε sha256 access f pending index herased i
          (by omega)).trans (claimPage_of_le (by omega) (by omega))
        rw [htarget, ht.eq_of_eq (htarget.trans hblank.symm), hblank]

/-- The header of one extent. -/
def headerPiece (ε : Type) (sha256 : Sha256) (access : BoundLxmfStore) (pending : PendingMutation)
    (index : ℕ) : Piece ε (LxmfCommitError ε) where
  offset := extentOffset (pending.firstExtent + index)
  image := pendingHeader sha256 access pending index
  patches := headerClaim sha256 access pending index :: headerPages sha256 access pending index
  inside c hc := by
    rw [length_pendingHeader]
    exact header_within (length_pendingHeader index) hc
  fits f herased := by
    rw [length_pendingHeader] at herased
    exact fits_programHeader herased
  complete f herased := by
    rw [length_pendingHeader] at herased ⊢
    rw [script, List.map_cons, Flash.applyAll_cons]
    exact (fits_headerPages (claimed_covers (ε := ε) herased)).2

end Headers

section Pages

variable {first page : ℕ} {bytes : List Byte}

/-- A page of the wire fits where it is erased. -/
theorem fits_wirePatch
    (herased : f.Erased (wireAddress first (page * ioChunkSize))
      (wirePage (slice bytes (page * ioChunkSize) ioChunkSize)).length) :
    CheckedPatch.Fits [(wirePatch first bytes page : CheckedPatch ε (LxmfCommitError ε))] f ∧
      ∀ c ∈ [(wirePatch first bytes page : CheckedPatch ε (LxmfCommitError ε))],
        (f.applyAll (script [(wirePatch first bytes page :
          CheckedPatch ε (LxmfCommitError ε))])).read c.patch.offset c.patch.bytes.length =
            c.patch.bytes := by
  refine fits_exacts (fun c hc => ?_) (List.pairwise_singleton _ _) fun c hc => ?_
  · rw [List.mem_singleton.mp hc]
    exact isExact_programExact
  · rw [List.mem_singleton.mp hc]
    exact herased.covers

/-- One page of a wire. -/
def wirePiece (ε : Type) (first : ℕ) (bytes : List Byte) (page : ℕ) :
    Piece ε (LxmfCommitError ε) where
  offset := wireAddress first (page * ioChunkSize)
  image := wirePage (slice bytes (page * ioChunkSize) ioChunkSize)
  patches := [wirePatch first bytes page]
  inside c hc := by
    rw [List.mem_singleton.mp hc]
    exact ⟨le_rfl, le_rfl⟩
  fits f herased := (fits_wirePatch herased).1
  complete f herased := (fits_wirePatch herased).2 _ (List.mem_singleton_self _)

end Pages

section Footer

variable {fields : List Byte} {offset : ℕ}

/-- The footer before its commit marker. -/
def footerBase (fields : List Byte) : List Byte := fields ++ List.replicate 32 erasedByte

/-- The footer with its commit marker. -/
def footerDone (fields : List Byte) : List Byte := fields ++ commitMarker

/-- The footer before the marker has 256 bytes. -/
theorem length_footerBase (hfields : fields.length = 224) : (footerBase fields).length = 256 := by
  rw [footerBase, List.length_append, List.length_replicate, hfields]

/-- The footer with the marker has 256 bytes. -/
theorem length_footerDone (hfields : fields.length = 224) : (footerDone fields).length = 256 := by
  rw [footerDone, List.length_append, hfields]
  rfl

/-- The footer before the marker is erased at its end. -/
theorem footerBase_of_le (hfields : fields.length = 224) {i : ℕ} (hi : 224 ≤ i) (hend : i < 256) :
    (footerBase fields).getD i 0 = erasedByte := by
  rw [footerBase, List.getD_eq_getElem?_getD, List.getElem?_append_right (by omega), hfields,
    List.getElem?_replicate, if_pos (by omega)]
  rfl

/-- The two programs of a footer. -/
def footerPatches (offset firstExtent : ℕ) (fields : List Byte) :
    List (CheckedPatch ε (LxmfCommitError ε)) :=
  [programFooterBase offset (footerBase fields) firstExtent,
    programExact offset commitOverlay (footerDone fields) .commit firstExtent]

/-- The contents of an erased footer after its fields. -/
theorem apply_footerBase (hfields : fields.length = 224) (herased : f.Erased offset 256) {i : ℕ}
    (hi : i < 256) : f.program offset (footerBase fields) (offset + i) =
      (footerBase fields).getD i 0 := by
  rw [Flash.program_of_mem (by rw [length_footerBase hfields]; exact hi), herased i hi,
    BitVec.and_comm]
  exact BitVec.and_allOnes

/-- The contents of a footer after its marker. -/
theorem apply_commitOverlay (hfields : fields.length = 224) (herased : f.Erased offset 256) :
    ((f.program offset (footerBase fields)).program offset commitOverlay).read offset 256 =
      footerDone fields := by
  rw [← length_footerDone hfields]
  refine Flash.read_eq_iff.mpr fun i hi => ?_
  rw [length_footerDone hfields] at hi
  rw [Flash.program_of_mem (by rw [length_commitOverlay]; exact hi),
    apply_footerBase hfields herased hi]
  by_cases hfield : i < 224
  · have hoverlay : commitOverlay.getD i 0 = erasedByte := by
      rw [commitOverlay, List.getD_eq_getElem?_getD, List.getElem?_append_left
        (by rw [List.length_replicate]; exact hfield), List.getElem?_replicate,
        if_pos (show i < footerCommitOffset from hfield)]
      rfl
    rw [hoverlay, footerBase, footerDone, List.getD_eq_getElem?_getD, List.getD_eq_getElem?_getD,
      List.getElem?_append_left (by omega), List.getElem?_append_left (by omega)]
    exact BitVec.and_allOnes
  · have hmarker : commitOverlay.getD i 0 = (footerDone fields).getD i 0 := by
      rw [commitOverlay, footerDone, List.getD_eq_getElem?_getD, List.getD_eq_getElem?_getD,
        List.getElem?_append_right (by rw [List.length_replicate]; exact not_lt.mp hfield),
        List.getElem?_append_right (by omega), List.length_replicate, hfields]
      rfl
    rw [footerBase_of_le hfields (not_lt.mp hfield) hi, hmarker, BitVec.and_comm]
    exact BitVec.and_allOnes

/-- The readbacks that a footer's fields are accepted with. -/
theorem footerFields_accepts (hfields : fields.length = 224) {readback : List Byte}
    {firstExtent : ℕ} :
    (programFooterBase offset (footerBase fields) firstExtent :
        CheckedPatch ε (LxmfCommitError ε)).accepts readback = true ↔
      readback.take 224 = fields ∧ covers (readback.drop 224) commitMarker = true := by
  have htake : (footerBase fields).take 224 = fields := by
    rw [footerBase, List.take_left' hfields]
  change (readback.take 224 == (footerBase fields).take 224 && covers _ _) = true ↔ _
  rw [htake, Bool.and_eq_true, beq_iff_eq]
  rfl

/-- The programs of a footer fit its erased area. -/
theorem fits_footer (hfields : fields.length = 224) (herased : f.Erased offset 256)
    (firstExtent : ℕ) :
    CheckedPatch.Fits (footerPatches offset firstExtent fields :
      List (CheckedPatch ε (LxmfCommitError ε))) f := by
  have hsplit : ∀ g : Flash, g.read offset 256 = g.read offset 224 ++ g.read (offset + 224) 32 :=
    fun g => Flash.read_add g offset 224 32
  have hbase := @apply_footerBase f fields offset hfields herased
  have hdone := apply_commitOverlay hfields herased
  have hdoneFields : ((f.program offset (footerBase fields)).program offset commitOverlay).read
      offset 224 = fields ∧ ((f.program offset (footerBase fields)).program offset
        commitOverlay).read (offset + 224) 32 = commitMarker := by
    rw [hsplit, footerDone] at hdone
    exact List.append_inj hdone (by rw [Flash.length_read, hfields])
  refine ⟨fun g hg => ?_, fun g ht haccepts => ?_, fits_last fun bytes => ?_⟩
  · change (programFooterBase offset (footerBase fields) firstExtent :
      CheckedPatch ε (LxmfCommitError ε)).accepts (g.read offset (footerBase fields).length) = true
    rw [length_footerBase hfields, footerFields_accepts hfields, hsplit,
      List.take_left' (Flash.length_read _ _ _), List.drop_left' (Flash.length_read _ _ _)]
    have hmarker : g.Covers (offset + 224) commitMarker := hg.covers hdoneFields.2
    refine ⟨?_, Flash.covers_read.mpr hmarker⟩
    -- the marker's program leaves the fields
    have hcovers : g.Covers offset fields := by
      refine hg.covers ?_
      rw [hfields]
      exact hdoneFields.1
    have hread := hcovers.read_eq fun i hi => ?_
    · rw [hfields] at hread
      exact hread
    · have hbyte := hbase (show i < 256 by omega)
      have hfield : (footerBase fields).getD i 0 = fields.getD i 0 := by
        rw [footerBase, List.getD_eq_getElem?_getD, List.getD_eq_getElem?_getD,
          List.getElem?_append_left hi]
      rw [← hfield, ← hbyte]
      exact hg.le _
  · change (programFooterBase offset (footerBase fields) firstExtent :
      CheckedPatch ε (LxmfCommitError ε)).accepts (g.read offset (footerBase fields).length) = true
      at haccepts
    rw [length_footerBase hfields, footerFields_accepts hfields, hsplit,
      List.take_left' (Flash.length_read _ _ _)] at haccepts
    funext a
    by_cases ha : a < offset ∨ offset + (footerBase fields).length ≤ a
    · exact (ht.program_of_not_mem ha).trans (Flash.program_of_not_mem ha).symm
    · rw [length_footerBase hfields] at ha
      obtain ⟨i, rfl⟩ := Nat.exists_eq_add_of_le (not_lt.mp (not_or.mp ha).1)
      have hbyte := hbase (show i < 256 by omega)
      refine Eq.trans ?_ hbyte.symm
      by_cases hi : i < 224
      · have hfield : (footerBase fields).getD i 0 = fields.getD i 0 := by
          rw [footerBase, List.getD_eq_getElem?_getD, List.getD_eq_getElem?_getD,
            List.getElem?_append_left (by omega)]
        rw [hfield]
        have hread := haccepts.1
        rw [← hfields] at hread
        exact Flash.byte_of_read_eq hread (by omega)
      · have hblank := herased i (by omega)
        have htarget := hbyte.trans (footerBase_of_le hfields (not_lt.mp hi) (by omega))
        rw [ht.eq_of_eq (htarget.trans hblank.symm), hblank,
          footerBase_of_le hfields (not_lt.mp hi) (by omega)]
  · change (bytes == footerDone fields) = true ↔
      bytes = Flash.read _ offset commitOverlay.length
    rw [beq_iff_eq, length_commitOverlay]
    exact ⟨fun h => h.trans hdone.symm, fun h => h.trans hdone⟩

/-- The footer of a record. -/
def footerPiece (ε : Type) (offset firstExtent : ℕ) (fields : List Byte)
    (hfields : fields.length = 224) : Piece ε (LxmfCommitError ε) where
  offset := offset
  image := footerDone fields
  patches := footerPatches offset firstExtent fields
  inside c hc := by
    rw [length_footerDone hfields]
    simp only [footerPatches, List.mem_cons, List.not_mem_nil, or_false] at hc
    rcases hc with rfl | rfl
    · exact ⟨le_rfl, Nat.add_le_add_left (length_footerBase hfields).le _⟩
    · exact ⟨le_rfl, Nat.add_le_add_left length_commitOverlay.le _⟩
  fits f herased := by
    rw [length_footerDone hfields] at herased
    exact fits_footer hfields herased firstExtent
  complete f herased := by
    rw [length_footerDone hfields] at herased ⊢
    exact apply_commitOverlay hfields herased

end Footer

section Record

/-- The fields of the footer of a mutation. -/
def pendingFooter (sha256 : Sha256) (access : BoundLxmfStore) (candidate : InboundMessageCandidate)
    (pending : PendingMutation) : List Byte :=
  (footerFields physicalFormatVersion pending.handle pending.extentCount
    candidate.wire.segments.totalLen (digestCandidateWire sha256 candidate)
    (digestCandidateRecord sha256 candidate
      (candidateHeader sha256 access candidate pending.handle pending.extentCount 0))).flatten

/-- A pending footer has 224 bytes before the marker. -/
theorem length_pendingFooter : (pendingFooter sha256 access candidate pending).length = 224 :=
  length_footerFields _ _ _ _ _ _

/-- Address of the footer of a span. -/
def footerOffset (pending : PendingMutation) : ℕ :=
  extentOffset (pending.firstExtent + pending.extentCount - 1) + extentSize - recordFooterSize

/-- The footer lies at the end of the last extent. -/
theorem footerOffset_eq :
    footerOffset pending = (pending.firstExtent + pending.extentCount - 1) * 4096 + 3840 := by
  change (pending.firstExtent + pending.extentCount - 1) * 4096 + 4096 - 256 = _
  omega

/-- The pieces of a record, in the order of their programs. -/
def recordPieces (ε : Type) (sha256 : Sha256) (access : BoundLxmfStore)
    (candidate : InboundMessageCandidate) (pending : PendingMutation) :
    List (Piece ε (LxmfCommitError ε)) :=
  (List.range pending.extentCount).map (headerPiece ε sha256 access pending) ++
    ((List.range (wirePageCount candidate.bytes.length)).map
      (wirePiece ε pending.firstExtent candidate.bytes) ++
    [footerPiece ε (footerOffset pending) pending.firstExtent
      (pendingFooter sha256 access candidate pending) length_pendingFooter])

/-- The piece of a page has 256 bytes. -/
theorem length_wirePiece {first page : ℕ} {bytes : List Byte} :
    (wirePiece ε first bytes page).image.length = 256 :=
  length_wirePage_slice _ _

/-- The extents of a span are erased. -/
def SpanErased (f : Flash) (pending : PendingMutation) : Prop :=
  ∀ index < pending.extentCount, f.Erased (extentOffset (pending.firstExtent + index)) extentSize

variable (hcount : 0 < pending.extentCount)
  (hfits : candidate.bytes.length ≤ wireCapacity pending.extentCount)
include hcount hfits

/-- The pieces are the script of the record. -/
theorem all_recordPieces (hfor : IsFor sha256 pending candidate) :
    Piece.all (recordPieces ε sha256 access candidate pending) =
      programRecord sha256 access candidate pending.firstExtent pending.extentCount
        pending.handle := by
  have hheaders : ((List.range pending.extentCount).map
      (headerPiece ε sha256 access pending)).flatMap Piece.patches =
      (List.range pending.extentCount).flatMap fun index => programHeader pending.firstExtent index
        (candidateHeader sha256 access candidate pending.handle pending.extentCount index) := by
    rw [List.flatMap_map]
    refine List.flatMap_congr fun index _ => ?_
    rw [hfor.header, programHeader_eq]
    rfl
  have hwire : ((List.range (wirePageCount candidate.bytes.length)).map
      (wirePiece ε pending.firstExtent candidate.bytes)).flatMap Piece.patches =
      programCandidateWire pending.firstExtent pending.extentCount candidate := by
    rw [programCandidateWire_eq hcount hfits, List.flatMap_map, List.map_eq_flatMap]
    rfl
  rw [Piece.all, recordPieces, List.flatMap_append, List.flatMap_append, hheaders, hwire,
    List.flatMap_singleton, programRecord, List.append_assoc]
  rfl

/-- A page of the wire lies between the header and the footer of its extent. -/
theorem wirePiece_inside {page : ℕ} (hpage : page < wirePageCount candidate.bytes.length) :
    ∃ index < pending.extentCount, ∃ within, within + 256 ≤ 3584 ∧
      (index + 1 = pending.extentCount → within + 256 ≤ 3328) ∧
      (wirePiece ε pending.firstExtent candidate.bytes page).offset =
        (pending.firstExtent + index) * 4096 + 512 + within := by
  rw [lt_wirePageCount] at hpage
  have hend : page * 256 + 256 ≤ wireCapacity pending.extentCount := by
    rw [wireCapacity_eq] at hfits ⊢
    omega
  obtain ⟨index, within, hindex, hinside, hfinal, haddress⟩ :=
    wireAddress_bounds pending.firstExtent hend
  exact ⟨index, hindex, within, hinside, hfinal, haddress⟩

/-- The pieces have areas of their own. -/
theorem apart_recordPieces :
    (recordPieces ε sha256 access candidate pending).Pairwise Piece.Apart := by
  have hheader : ∀ index, (headerPiece ε sha256 access pending index).offset =
      (pending.firstExtent + index) * 4096 ∧
        (headerPiece ε sha256 access pending index).image.length = 512 := fun index =>
    ⟨rfl, length_pendingHeader index⟩
  have hfooter : (footerPiece ε (footerOffset pending) pending.firstExtent
      (pendingFooter sha256 access candidate pending) length_pendingFooter).offset =
        (pending.firstExtent + pending.extentCount - 1) * 4096 + 3840 := footerOffset_eq
  refine List.pairwise_append.mpr ⟨?_, List.pairwise_append.mpr ⟨?_, List.pairwise_singleton _ _,
    ?_⟩, ?_⟩
  · refine List.pairwise_map.mpr (List.pairwise_lt_range.imp fun {index index'} hlt => .inl ?_)
    rw [(hheader index).1, (hheader index).2, (hheader index').1]
    omega
  · refine List.pairwise_map.mpr (List.pairwise_lt_range.imp fun {page page'} hlt => .inl ?_)
    change wireAddress _ _ + (wirePage _).length ≤ _
    rw [length_wirePage_slice]
    exact wireAddress_page_le hlt
  · intro p hp q hq
    obtain ⟨page, hpage, rfl⟩ := List.mem_map.mp hp
    rw [List.mem_singleton.mp hq]
    obtain ⟨index, hindex, within, hinside, hfinal, hoffset⟩ :=
      wirePiece_inside (ε := ε) hcount hfits (List.mem_range.mp hpage)
    refine .inl ?_
    rw [hoffset, length_wirePiece, hfooter]
    omega
  · intro p hp q hq
    obtain ⟨index, hindex, rfl⟩ := List.mem_map.mp hp
    have hindex := List.mem_range.mp hindex
    rcases List.mem_append.mp hq with hq | hq
    · obtain ⟨page, hpage, rfl⟩ := List.mem_map.mp hq
      obtain ⟨index', hindex', within, hinside, hfinal, hoffset⟩ :=
        wirePiece_inside (ε := ε) hcount hfits (List.mem_range.mp hpage)
      unfold Piece.Apart
      rw [(hheader index).1, (hheader index).2, hoffset, length_wirePiece]
      omega
    · rw [List.mem_singleton.mp hq]
      refine .inl ?_
      rw [(hheader index).1, (hheader index).2, hfooter]
      omega

/-- In an erased span nothing is programmed yet. -/
theorem blank_recordPieces (herased : SpanErased f pending) :
    ∀ p ∈ recordPieces ε sha256 access candidate pending, p.Blank f := by
  intro p hp
  rcases List.mem_append.mp hp with hp | hp
  · obtain ⟨index, hindex, rfl⟩ := List.mem_map.mp hp
    refine (herased index (List.mem_range.mp hindex)).mono le_rfl ?_
    change extentOffset _ + (pendingHeader sha256 access pending index).length ≤ _
    rw [length_pendingHeader]
    exact Nat.add_le_add_left (by decide) _
  · rcases List.mem_append.mp hp with hp | hp
    · obtain ⟨page, hpage, rfl⟩ := List.mem_map.mp hp
      obtain ⟨index, hindex, within, hinside, -, hoffset⟩ :=
        wirePiece_inside (ε := ε) hcount hfits (List.mem_range.mp hpage)
      refine (herased index hindex).mono ?_ ?_
      · rw [hoffset, extentOffset_eq]
        omega
      · rw [hoffset, extentOffset_eq, length_wirePiece]
        change _ ≤ _ + 4096
        omega
    · rw [List.mem_singleton.mp hp]
      have hlast : pending.firstExtent + pending.extentCount - 1 =
          pending.firstExtent + (pending.extentCount - 1) := Nat.add_sub_assoc hcount _
      refine (herased (pending.extentCount - 1) (Nat.sub_lt hcount Nat.one_pos)).mono ?_ ?_
      · change _ ≤ footerOffset pending
        rw [footerOffset_eq, hlast, extentOffset_eq]
        omega
      · change footerOffset pending + (footerDone _).length ≤ _ + 4096
        rw [length_footerDone length_pendingFooter, footerOffset_eq, hlast, extentOffset_eq]

/-- What a commit programs fits an erased span. -/
theorem fits_programRecord (hfor : IsFor sha256 pending candidate)
    (herased : SpanErased f pending) :
    CheckedPatch.Fits (programRecord sha256 access candidate pending.firstExtent
      pending.extentCount pending.handle : List (CheckedPatch ε (LxmfCommitError ε))) f := by
  rw [← all_recordPieces hcount hfits hfor]
  exact Piece.fits_all (apart_recordPieces hcount hfits) (blank_recordPieces hcount hfits herased)

end Record

end LxmfStore
