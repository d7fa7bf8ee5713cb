import ReticulumFirmware.LxmfStore.FullRecord

/-!
# Spans under repeated attempts

Whatever the backend reports and however often a mutation is attempted, by candidates that the
store cannot tell apart, its span holds headers in progress, all headers under a marker that can
still be programmed, or the committed record.
-/

namespace LxmfStore

open Nor Nor.Prog Lxmf CheckedPatch

variable {ε : Type} {φ : Faults} {sha256 : Sha256} {access : BoundLxmfStore} {f f₀ g : Flash}
  {pending : PendingMutation} {candidate : InboundMessageCandidate} {index : ℕ}

section States

variable (ε) in
/-- The headers of a record. -/
def headerPieces (sha256 : Sha256) (access : BoundLxmfStore) (pending : PendingMutation) :
    List (Piece ε (LxmfCommitError ε)) :=
  (List.range pending.extentCount).map (headerPiece ε sha256 access pending)

/-- Behind the pages of its wire the wire area of a span is erased. -/
def RestErased (g : Flash) (pending : PendingMutation) : Prop :=
  ∀ position, wirePageCount pending.metadata.lengths.normalizedWire * 256 ≤ position →
    position < wireCapacity pending.extentCount →
    g (wireAddress pending.firstExtent position) = erasedByte

/-- All headers, with a marker and a wire area that can still be programmed. -/
structure WritableSpan (sha256 : Sha256) (access : BoundLxmfStore) (g : Flash)
    (pending : PendingMutation) : Prop where
  span : HeadedSpan sha256 access g pending
  rest : RestErased g pending

variable (ε) in
/-- What a span holds before its marker is complete. -/
inductive Unfinished (sha256 : Sha256) (access : BoundLxmfStore) (g : Flash)
    (pending : PendingMutation) : Prop
  | heading {f : Flash} (herased : SpanErased f pending)
      (h : Trajectory (script (Piece.all (headerPieces ε sha256 access pending))) f g)
  | writable (h : WritableSpan sha256 access g pending)

variable (ε) in
/-- What a span holds wherever an attempt stops. -/
inductive SpanState (sha256 : Sha256) (access : BoundLxmfStore) (g : Flash)
    (pending : PendingMutation) : Prop
  | unfinished (h : Unfinished ε sha256 access g pending)
  | full {candidate : InboundMessageCandidate} (hfor : IsFor sha256 pending candidate)
      (h : FullSpan sha256 access g candidate pending)

/-- An erased span is unfinished. -/
theorem SpanErased.unfinished (h : SpanErased g pending) :
    Unfinished ε sha256 access g pending := .heading h (.start _ _)

/-- The headers are the start of the script of a record. -/
theorem recordPieces_eq : recordPieces ε sha256 access candidate pending =
    headerPieces ε sha256 access pending ++
      ((List.range (wirePageCount candidate.bytes.length)).map
        (wirePiece ε pending.firstExtent candidate.bytes) ++
      [footerPiece ε (footerOffset pending) pending.firstExtent
        (pendingFooter sha256 access candidate pending) length_pendingFooter]) := rfl

/-- The pieces of the headers program the headers in turn. -/
theorem all_headerPieces : Piece.all (headerPieces ε sha256 access pending) =
    (List.range pending.extentCount).flatMap fun index => programHeader pending.firstExtent index
      (pendingHeader sha256 access pending index) := by
  rw [Piece.all, headerPieces, List.flatMap_map]
  refine List.flatMap_congr fun index _ => ?_
  rw [programHeader_eq]
  rfl

/-- The piece of a header lies at the start of its extent. -/
theorem mem_headerPieces {p : Piece ε (LxmfCommitError ε)}
    (h : p ∈ headerPieces ε sha256 access pending) :
    ∃ index < pending.extentCount, p.offset = (pending.firstExtent + index) * 4096 ∧
      p.image.length = 512 := by
  obtain ⟨index, hindex, rfl⟩ := List.mem_map.mp h
  exact ⟨index, List.mem_range.mp hindex, rfl, length_pendingHeader index⟩

end States

section Bodies

/-- Programs of headers keep the bodies erased. -/
theorem bodyBlank_of_headers (herased : SpanErased f pending)
    (h : Trajectory (script (Piece.all (headerPieces ε sha256 access pending))) f g) :
    BodyBlank g pending := by
  intro index hindex i hi
  have hi : i < 3584 := hi
  have hbyte := herased index hindex (512 + i) (by change 512 + i < 4096; omega)
  rw [← Nat.add_assoc] at hbyte
  rw [Piece.eq_of_outside h fun q hq => ?_]
  · exact hbyte
  · obtain ⟨index', -, hoffset, hlength⟩ := mem_headerPieces hq
    rw [hoffset, hlength]
    change (pending.firstExtent + index) * 4096 + 512 + i < _ ∨
      _ ≤ (pending.firstExtent + index) * 4096 + 512 + i
    omega

/-- A span whose bodies are erased has a marker and a wire area that can still be programmed. -/
theorem writable_of_blank (hcount : 0 < pending.extentCount)
    (hheaded : Headed sha256 access g pending) (hblank : BodyBlank g pending) :
    WritableSpan sha256 access g pending := by
  have hlast : pending.firstExtent + pending.extentCount - 1 =
      pending.firstExtent + (pending.extentCount - 1) := Nat.add_sub_assoc hcount _
  refine ⟨⟨hheaded, ?_, hblank.not_spanMarked hcount⟩, fun position _ hinside => ?_⟩
  · have hbody := hblank (pending.extentCount - 1) (Nat.sub_lt hcount Nat.one_pos)
    have hmarker : g.Erased (footerOffset pending + 224) 32 := by
      refine hbody.mono ?_ ?_
      · rw [footerOffset_eq, hlast]
        change (pending.firstExtent + (pending.extentCount - 1)) * 4096 + 512 ≤ _
        omega
      · rw [footerOffset_eq, hlast]
        change _ ≤ (pending.firstExtent + (pending.extentCount - 1)) * 4096 + 512 + 3584
        omega
    exact hmarker.covers
  · rw [wireCapacity_eq] at hinside
    have hbyte := hblank (position / 3584) (by omega) (position % 3584) (by
      change _ < 3584
      omega)
    rw [wireAddress_eq]
    exact hbyte

end Bodies

section Headers

/-- Headers have areas of their own. -/
theorem apart_headerPieces :
    (headerPieces ε sha256 access pending).Pairwise Piece.Apart := by
  refine List.pairwise_map.mpr (List.pairwise_lt_range.imp fun {index index'} hlt => .inl ?_)
  change (pending.firstExtent + index) * 4096 +
    (pendingHeader sha256 access pending index).length ≤ (pending.firstExtent + index') * 4096
  rw [length_pendingHeader]
  omega

/-- The pieces of the headers are blank in an erased span. -/
theorem blank_headerPieces (herased : SpanErased f pending) :
    ∀ p ∈ headerPieces ε sha256 access pending, p.Blank f := by
  intro p hp
  obtain ⟨index, hindex, hoffset, hlength⟩ := mem_headerPieces hp
  refine (herased index hindex).mono ?_ ?_
  · rw [hoffset, extentOffset_eq]
  · rw [hoffset, hlength, extentOffset_eq]
    exact Nat.add_le_add_left (by decide) _

/-- Complete headers over an erased span can be followed by a wire. -/
theorem writable_of_complete (hcount : 0 < pending.extentCount) (herased : SpanErased f pending) :
    WritableSpan sha256 access
      (f.applyAll (script (Piece.all (headerPieces ε sha256 access pending)))) pending := by
  refine writable_of_blank hcount (fun index hindex => ?_)
    (bodyBlank_of_headers herased (.finish _ _))
  exact headerPiece_done (Piece.done_of_complete apart_headerPieces (blank_headerPieces herased) _
    (List.mem_map_of_mem (List.mem_range.mpr hindex)))

/-- Programs of headers change nothing outside their span. -/
theorem outside_of_headers
    (h : Trajectory (script (Piece.all (headerPieces ε sha256 access pending))) f g) :
    Outside f g pending := by
  intro a ha
  refine Piece.eq_of_outside h fun q hq => ?_
  obtain ⟨index, hindex, hoffset, hlength⟩ := mem_headerPieces hq
  rw [extentOffset_eq, extentOffset_eq] at ha
  omega

/-- A program of a header lies in it and leaves its bits. -/
theorem of_mem_headers {c : CheckedPatch ε (LxmfCommitError ε)}
    (h : c ∈ Piece.all (headerPieces ε sha256 access pending)) :
    ∃ index < pending.extentCount, ∃ within,
      c.patch.offset = extentOffset (pending.firstExtent + index) + within ∧
      within + c.patch.bytes.length ≤ 512 ∧ ∀ i < c.patch.bytes.length, BitsLE
        ((pendingHeader sha256 access pending index).getD (within + i) 0)
        (c.patch.bytes.getD i 0) := by
  obtain ⟨q, hq, hc⟩ := Piece.mem_all.mp h
  obtain ⟨index, hindex, rfl⟩ := List.mem_map.mp hq
  refine ⟨index, List.mem_range.mp hindex, ?_⟩
  obtain rfl | hc := List.mem_cons.mp hc
  · refine ⟨0, (Nat.add_zero _).symm, ?_, fun i hi => ?_⟩
    · rw [patch_headerClaim, length_claimPage]
      decide
    · rw [patch_headerClaim, length_claimPage] at hi
      exact pendingHeader_claim hi
  · obtain ⟨page, hpage, rfl⟩ := List.mem_map.mp hc
    have hpage : page < 2 := List.mem_range.mp hpage
    have hlength := @length_slice_pendingHeader sha256 access pending index page hpage
    refine ⟨page * ioChunkSize, rfl, ?_, fun i hi => ?_⟩
    · change page * 256 + (slice _ (page * ioChunkSize) ioChunkSize).length ≤ 512
      rw [hlength]
      omega
    · change i < (slice _ (page * ioChunkSize) ioChunkSize).length at hi
      rw [hlength] at hi
      change BitsLE _ ((slice _ (page * ioChunkSize) ioChunkSize).getD i 0)
      rw [List.getD_eq_getElem?_getD, List.getD_eq_getElem?_getD, getElem?_slice hi]
      exact .refl _

/-- Programming headers that are there changes nothing. -/
theorem HeadersTo.torn_header {c : CheckedPatch ε (LxmfCommitError ε)}
    (h : Headed sha256 access f pending)
    (hc : c ∈ Piece.all (headerPieces ε sha256 access pending)) (ht : f.TornPatch c.patch g) :
    g = f := by
  obtain ⟨index, hindex, within, hoffset, hend, hbits⟩ := of_mem_headers hc
  refine ht.eq_self fun i hi => ?_
  have hread : f.read (extentOffset (pending.firstExtent + index))
      (pendingHeader sha256 access pending index).length =
        pendingHeader sha256 access pending index := by
    rw [length_pendingHeader]
    exact h index hindex
  rw [hoffset, Nat.add_assoc, Flash.byte_of_read_eq hread (by rw [length_pendingHeader]; omega)]
  exact hbits i hi

end Headers

section Stages

variable (ε) in
/-- An attempt has changed nothing outside its span, which can be attempted again. -/
def Kept (sha256 : Sha256) (access : BoundLxmfStore) (f₀ : Flash) (pending : PendingMutation)
    (g : Flash) : Prop :=
  Outside f₀ g pending ∧ SpanState ε sha256 access g pending

/-- The contents while the wire of a span is programmed, marker and rest included. -/
def Writable (sha256 : Sha256) (access : BoundLxmfStore) (f₀ : Flash)
    (pending : PendingMutation) (g : Flash) : Prop :=
  Outside f₀ g pending ∧ WritableSpan sha256 access g pending

/-- A span that can be written has been kept. -/
theorem Writable.kept (h : Writable sha256 access f₀ pending g) :
    Kept ε sha256 access f₀ pending g := ⟨h.1, .unfinished (.writable h.2)⟩

/-- The programs of the headers complete them. -/
theorem establishes_headers (hcount : 0 < pending.extentCount) :
    Establishes φ (Kept ε sha256 access f₀ pending)
      (fun g => Outside f₀ g pending ∧ Unfinished ε sha256 access g pending)
      (Writable sha256 access f₀ pending)
      (Piece.all (headerPieces ε sha256 access pending)) := by
  rintro f ⟨houtside, hunfinished⟩
  cases hunfinished with
  | @heading base herased htrajectory =>
    have hbase : Outside f₀ base pending := fun a ha => by
      rw [← outside_of_headers htrajectory a ha]
      exact houtside a ha
    have hkept : ∀ g, Trajectory
      (script (Piece.all (headerPieces ε sha256 access pending))) base g →
        Kept ε sha256 access f₀ pending g := fun g hg =>
      ⟨hbase.trans (outside_of_headers hg), .unfinished (.heading herased hg)⟩
    refine (wp_actAll (fun _ => trivial)
      (Piece.fits_all apart_headerPieces (blank_headerPieces herased)) htrajectory).mono ?_ hkept
    intro r g hr
    cases r with
    | error e => exact hkept g hr.2
    | ok _ =>
      obtain rfl : g = _ := hr
      exact ⟨hbase.trans (outside_of_headers (.finish _ _)), writable_of_complete hcount herased⟩
  | writable hwritable =>
    have hidle : Establishes φ (Kept ε sha256 access f₀ pending)
        (Writable sha256 access f₀ pending) (Writable sha256 access f₀ pending)
        (Piece.all (headerPieces ε sha256 access pending)) := by
      refine .idle (fun f hf => hf.kept) fun c hc f g hf ht => ?_
      exact hf.2.span.headed.torn_header hc ht
    exact hidle f ⟨houtside, hwritable⟩

/-- A program of a wire page keeps the stage. -/
theorem Writable.torn_page {p : Patch} {page : ℕ} (h : Writable sha256 access f₀ pending f)
    (ht : f.TornPatch p g)
    (hoffset : p.offset = wireAddress pending.firstExtent (page * ioChunkSize))
    (hlength : p.bytes.length = 256)
    (hpage : page < wirePageCount pending.metadata.lengths.normalizedWire)
    (hinside : page * 256 + 256 ≤ wireCapacity pending.extentCount) :
    Writable sha256 access f₀ pending g := by
  have hstage : WireStage sha256 access f₀ pending g :=
    WireStage.torn ⟨h.1, h.2.span.headed, h.2.span.unmarked⟩ ht hoffset hlength hinside
  refine ⟨hstage.outside, ⟨hstage.headed, ?_, hstage.unmarked⟩, fun position hstart hend => ?_⟩
  · -- the page lies before the footer
    obtain ⟨index, within, hindex, hwithin, hfinal, haddress⟩ :=
      wireAddress_bounds pending.firstExtent hinside
    rw [haddress] at hoffset
    clear haddress hpage hinside
    have hbefore : p.offset + p.bytes.length ≤ footerOffset pending + 224 := by
      rw [hlength, hoffset, footerOffset_eq]
      omega
    have hcovers := h.2.span.covers
    intro i hi
    have hsame : g (footerOffset pending + 224 + i) = f (footerOffset pending + 224 + i) :=
      ht.program_of_not_mem (.inr (by omega))
    rw [hsame]
    exact hcovers i hi
  · -- the page lies before what follows the wire
    have hlt : page < position / 256 := by omega
    have hnext := @wireAddress_page_le pending.firstExtent page (position / 256) hlt
    have hpages := wireAddress_page_start_le pending.firstExtent position
    have hbefore : p.offset + p.bytes.length ≤ wireAddress pending.firstExtent position := by
      rw [hlength, hoffset]
      exact hnext.trans hpages
    have hsame : g (wireAddress pending.firstExtent position) =
        f (wireAddress pending.firstExtent position) := ht.program_of_not_mem (.inr hbefore)
    rw [hsame]
    exact h.2.rest position hstart hend

/-- The contents when a span has everything but its footer. -/
structure WrittenSpan (sha256 : Sha256) (access : BoundLxmfStore) (f₀ : Flash)
    (pending : PendingMutation) (wire : List Byte) (g : Flash) : Prop where
  writable : Writable sha256 access f₀ pending g
  pages : ∀ page < wirePageCount wire.length,
    g.read (wireAddress pending.firstExtent (page * ioChunkSize)) ioChunkSize =
      wirePage (slice wire (page * ioChunkSize) ioChunkSize)

/-- The programs of the wire leave its pages in the span. -/
theorem establishes_pages (hcount : 0 < pending.extentCount)
    (hlength : candidate.bytes.length = pending.metadata.lengths.normalizedWire)
    (hfits : candidate.bytes.length ≤ wireCapacity pending.extentCount) :
    Establishes φ (Kept ε sha256 access f₀ pending) (Writable sha256 access f₀ pending)
      (WrittenSpan sha256 access f₀ pending candidate.bytes)
      (programCandidateWire pending.firstExtent pending.extentCount candidate :
        List (CheckedPatch ε (LxmfCommitError ε))) := by
  rw [programCandidateWire_eq hcount hfits]
  have hwidth : ∀ page, (wirePatch pending.firstExtent candidate.bytes page :
      CheckedPatch ε (LxmfCommitError ε)).patch.bytes.length = 256 := fun page =>
    length_wirePage_slice _ _
  refine (Establishes.exact (fun f hf => hf.kept) ?_ ?_ ?_).mono (fun f hf => hf) ?_
  · intro c hc f g hf ht
    obtain ⟨page, hpage, rfl⟩ := List.mem_map.mp hc
    have hpage := List.mem_range.mp hpage
    have hstart := lt_wirePageCount.mp hpage
    rw [hlength] at hpage
    refine hf.torn_page ht rfl (hwidth page) hpage ?_
    rw [wireCapacity_eq] at hfits ⊢
    omega
  · intro c hc bytes haccepts
    obtain ⟨page, -, rfl⟩ := List.mem_map.mp hc
    exact eq_of_beq haccepts
  · refine List.pairwise_map.mpr (List.pairwise_lt_range.imp ?_)
    intro page page' hlt
    refine .inl ?_
    rw [hwidth]
    exact wireAddress_page_le hlt
  · rintro g ⟨hstage, hpages⟩
    refine ⟨hstage, fun page hpage => ?_⟩
    have hread := hpages _ (List.mem_map.mpr ⟨page, List.mem_range.mpr hpage, rfl⟩)
    rw [hwidth] at hread
    exact hread

end Stages

section Footer

variable {p : Patch} {wire fields : List Byte}

/-- A byte of the wire area lies before the footer. -/
theorem wireAddress_lt_footer {position : ℕ}
    (hposition : position < wireCapacity pending.extentCount) :
    wireAddress pending.firstExtent position < footerOffset pending := by
  rw [wireCapacity_eq] at hposition
  rw [wireAddress_eq, footerOffset_eq]
  omega

/-- What a program of the footer keeps. -/
structure FooterKept (sha256 : Sha256) (access : BoundLxmfStore) (f₀ : Flash)
    (pending : PendingMutation) (wire : List Byte) (g : Flash) : Prop where
  outside : Outside f₀ g pending
  headed : Headed sha256 access g pending
  rest : RestErased g pending
  pages : ∀ page < wirePageCount wire.length,
    g.read (wireAddress pending.firstExtent (page * ioChunkSize)) ioChunkSize =
      wirePage (slice wire (page * ioChunkSize) ioChunkSize)

/-- A torn footer keeps the wire of the written span. -/
theorem WrittenSpan.torn_footer (hcount : 0 < pending.extentCount)
    (hfits : wire.length ≤ wireCapacity pending.extentCount)
    (h : WrittenSpan sha256 access f₀ pending wire f) (ht : f.TornPatch p g)
    (hoffset : p.offset = footerOffset pending) (hlength : p.bytes.length = 256) :
    FooterKept sha256 access f₀ pending wire g := by
  refine ⟨h.writable.1.torn_footer hcount ht hoffset hlength,
    h.writable.2.span.headed.torn_footer hcount ht hoffset hlength,
    fun position hstart hend => ?_, fun page hpage => ?_⟩
  · have hbefore : wireAddress pending.firstExtent position < p.offset := by
      rw [hoffset]
      exact wireAddress_lt_footer hend
    have hsame : g (wireAddress pending.firstExtent position) =
        f (wireAddress pending.firstExtent position) := ht.program_of_not_mem (.inl hbefore)
    rw [hsame]
    exact h.writable.2.rest position hstart hend
  · have hstart := lt_wirePageCount.mp hpage
    have hend : page * ioChunkSize + 255 < wireCapacity pending.extentCount := by
      refine Nat.lt_of_succ_le (?_ : page * 256 + 256 ≤ _)
      rw [wireCapacity_eq] at hfits ⊢
      omega
    have hbefore := wireAddress_lt_footer hend
    rw [wireAddress_page (by decide : 255 < ioChunkSize), ← hoffset] at hbefore
    rw [ht.read_eq (.inl hbefore)]
    exact h.pages page hpage

/-- The marker stays as it was where erased bytes are programmed. -/
theorem marker_of_erased (ht : f.TornPatch p g) (hoffset : p.offset = footerOffset pending)
    (hfields : fields.length = 224) (hbytes : p.bytes = footerBase fields) :
    g.read (footerOffset pending + 224) 32 = f.read (footerOffset pending + 224) 32 := by
  refine Flash.read_eq_read_iff.mpr fun i hi => ht.eq_of_eq ?_
  have hbyte := footerBase_of_le hfields (Nat.le_add_right 224 i) (by omega)
  rw [Nat.add_assoc, ← hoffset, Flash.apply, hbytes,
    Flash.program_of_mem (by rw [length_footerBase hfields]; omega), hbyte]
  exact BitVec.and_allOnes

/-- Before the marker the commit overlay leaves the footer as it is. -/
theorem commitOverlay_of_lt {i : ℕ} (hi : i < 224) : commitOverlay.getD i 0 = erasedByte := by
  rw [commitOverlay, List.getD_eq_getElem?_getD, List.getElem?_append_left
    (by rw [List.length_replicate]; exact hi), List.getElem?_replicate,
    if_pos (show i < footerCommitOffset from hi)]
  rfl

/-- At its end the commit overlay has the marker. -/
theorem commitOverlay_of_le {i : ℕ} :
    commitOverlay.getD (224 + i) 0 = commitMarker.getD i 0 := by
  rw [commitOverlay, List.getD_eq_getElem?_getD, List.getD_eq_getElem?_getD,
    List.getElem?_append_right (by
      rw [List.length_replicate]
      exact Nat.le_add_right _ _), List.length_replicate]
  exact congrArg (fun i => (commitMarker[i]?).getD 0) (Nat.add_sub_cancel_left 224 i)

/-- The fields stay where the marker is programmed. -/
theorem fields_of_overlay {offset : ℕ} (ht : f.TornPatch ⟨offset, commitOverlay⟩ g) :
    g.read offset 224 = f.read offset 224 := by
  refine Flash.read_eq_read_iff.mpr fun i hi => ht.eq_of_eq ?_
  have hinside : i < 256 := by omega
  rw [Flash.apply, Flash.program_of_mem (by rw [length_commitOverlay]; exact hinside),
    commitOverlay_of_lt hi]
  exact BitVec.and_allOnes

/-- A marker that is being programmed can still be completed. -/
theorem covers_of_overlay {offset : ℕ} (h : f.Covers (offset + 224) commitMarker)
    (ht : f.TornPatch ⟨offset, commitOverlay⟩ g) : g.Covers (offset + 224) commitMarker := by
  intro i hi
  have hlow := (ht.program_between (offset + (224 + i))).1
  have hinside : 224 + i < 256 := Nat.add_lt_add_left (show i < 32 from hi) 224
  rw [Flash.program_of_mem (by rw [length_commitOverlay]; exact hinside), commitOverlay_of_le]
    at hlow
  have hcover := h i hi
  rw [Nat.add_assoc] at hcover ⊢
  rw [BitVec.and_comm, hcover] at hlow
  exact hlow

end Footer

section Record

/-- A footer in two parts. -/
theorem read_footer {fields : List Byte} {offset : ℕ} (hfields : g.read offset 224 = fields)
    (hmarker : g.read (offset + 224) 32 = commitMarker) :
    g.read offset 256 = footerDone fields := by
  rw [show 256 = 224 + 32 from rfl, Flash.read_add, hfields, hmarker, footerDone]

/-- What a program of the footer keeps, with a marker that is not complete. -/
theorem FooterKept.written {wire : List Byte} (h : FooterKept sha256 access f₀ pending wire g)
    (hcovers : g.Covers (footerOffset pending + 224) commitMarker)
    (hmarked : ¬SpanMarked g pending) : WrittenSpan sha256 access f₀ pending wire g :=
  ⟨⟨h.outside, ⟨h.headed, hcovers, hmarked⟩, h.rest⟩, h.pages⟩

/-- What a program of the footer keeps, with the whole footer. -/
theorem FooterKept.full (h : FooterKept sha256 access f₀ pending candidate.bytes g)
    (hlength : candidate.bytes.length = pending.metadata.lengths.normalizedWire)
    (hfooter : g.read (footerOffset pending) 256 =
      footerDone (pendingFooter sha256 access candidate pending)) :
    FullSpan sha256 access g candidate pending := by
  refine ⟨h.headed, h.pages, fun position hstart hend => ?_, hfooter⟩
  rw [hlength] at hstart
  exact h.rest position hstart hend

/-- The programs of the footer complete the record. -/
theorem establishes_footer (hcount : 0 < pending.extentCount)
    (hfor : IsFor sha256 pending candidate)
    (hlength : candidate.bytes.length = pending.metadata.lengths.normalizedWire)
    (hfits : candidate.bytes.length ≤ wireCapacity pending.extentCount) :
    Establishes φ (Kept ε sha256 access f₀ pending)
      (WrittenSpan sha256 access f₀ pending candidate.bytes)
      (fun g => Outside f₀ g pending ∧ FullSpan sha256 access g candidate pending)
      (footerPatches (footerOffset pending) pending.firstExtent
        (pendingFooter sha256 access candidate pending) :
          List (CheckedPatch ε (LxmfCommitError ε))) := by
  have hwidth := @length_pendingFooter sha256 access pending candidate
  have hfull : ∀ g, Outside f₀ g pending ∧ FullSpan sha256 access g candidate pending →
      Kept ε sha256 access f₀ pending g := fun g hg => ⟨hg.1, .full hfor hg.2⟩
  have hbase : ∀ f g, WrittenSpan sha256 access f₀ pending candidate.bytes f →
      f.TornPatch ⟨footerOffset pending,
        footerBase (pendingFooter sha256 access candidate pending)⟩ g →
      WrittenSpan sha256 access f₀ pending candidate.bytes g := by
    intro f g hf ht
    have hmarker := marker_of_erased ht rfl hwidth rfl
    refine (hf.torn_footer hcount hfits ht rfl (length_footerBase hwidth)).written ?_ ?_
    · refine Flash.covers_read.mp ?_
      change covers (g.read _ 32) commitMarker = true
      rw [hmarker]
      exact Flash.covers_read.mpr hf.writable.2.span.covers
    · rw [spanMarked_iff, hmarker, ← spanMarked_iff]
      exact hf.writable.2.span.unmarked
  have hmarker : ∀ f g, WrittenSpan sha256 access f₀ pending candidate.bytes f →
      f.TornPatch ⟨footerOffset pending, commitOverlay⟩ g →
      FooterKept sha256 access f₀ pending candidate.bytes g := fun f g hf ht =>
    hf.torn_footer hcount hfits ht rfl length_commitOverlay
  refine .cons (M := fun g => WrittenSpan sha256 access f₀ pending candidate.bytes g ∧
      g.read (footerOffset pending) 224 = pendingFooter sha256 access candidate pending)
    (fun f g hf ht => (hbase f g hf ht).writable.kept) (fun f g hf ht haccepts => ?_)
    (.cons (M := fun g => Outside f₀ g pending ∧ FullSpan sha256 access g candidate pending)
      (fun f g hf ht => ?_) (fun f g hf ht haccepts => ?_) (.nil hfull))
  · change (programFooterBase _ (footerBase _) _).accepts (g.read _ (footerBase _).length) = true
      at haccepts
    rw [length_footerBase hwidth, footerFields_accepts hwidth,
      show 256 = 224 + 32 from rfl, Flash.read_add, List.take_left' (Flash.length_read _ _ _)]
      at haccepts
    exact ⟨hbase f g hf ht, haccepts.1⟩
  · -- a marker that is complete completes the record
    have hkept := hmarker f g hf.1 ht
    by_cases hmarked : SpanMarked g pending
    · refine hfull g ⟨hkept.outside,
        hkept.full hlength (read_footer ?_ (spanMarked_iff.mp hmarked))⟩
      rw [fields_of_overlay ht, hf.2]
    · have hcovers := covers_of_overlay hf.1.writable.2.span.covers ht
      exact (hkept.written hcovers hmarked).writable.kept
  · have hkept := hmarker f g hf.1 ht
    have hread : g.read (footerOffset pending) commitOverlay.length = _ := eq_of_beq haccepts
    rw [length_commitOverlay] at hread
    exact ⟨hkept.outside, hkept.full hlength hread⟩

/-- The programs of a record complete it or leave its span for another attempt. -/
theorem establishes_record (hcount : 0 < pending.extentCount)
    (hfor : IsFor sha256 pending candidate)
    (hfits : candidate.bytes.length ≤ wireCapacity pending.extentCount) :
    Establishes φ (Kept ε sha256 access f₀ pending)
      (fun g => Outside f₀ g pending ∧ Unfinished ε sha256 access g pending)
      (fun g => Outside f₀ g pending ∧ FullSpan sha256 access g candidate pending)
      (programRecord sha256 access candidate pending.firstExtent pending.extentCount
        pending.handle : List (CheckedPatch ε (LxmfCommitError ε))) := by
  have hlength : candidate.bytes.length = pending.metadata.lengths.normalizedWire := by
    rw [candidate.length_bytes, hfor.2]
  have hheaders := @establishes_headers ε φ sha256 access f₀ pending hcount
  rw [all_headerPieces] at hheaders
  rw [programRecord]
  simp only [hfor.header]
  exact (hheaders.append (establishes_pages hcount hlength hfits)).append
    (establishes_footer hcount hfor hlength hfits)

end Record

end LxmfStore
