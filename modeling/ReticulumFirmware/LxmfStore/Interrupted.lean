import ReticulumFirmware.LxmfStore.Attempt
import ReticulumFirmware.LxmfStore.RecordPieces

/-!
# Interrupted records

What the span of a mutation holds wherever its programming stopped: some headers and one that may
be torn, everything but a complete marker, or the committed record.
-/

namespace LxmfStore

open Nor Nor.Prog Lxmf CheckedPatch

variable {ε : Type} {sha256 : Sha256} {access : BoundLxmfStore} {f g : Flash}
  {pending : PendingMutation} {candidate : InboundMessageCandidate} {index : ℕ}

section Header

variable {first : ℕ} {header : HeaderFields}

/-- The reserved bytes of a decoded header are zero. -/
theorem reserved_of_decoded
    (h : decodeHeader sha256 access.usizeValues access.binding
      (g.read (extentOffset first) extentHeaderSize) =
      .ok header) : g.read (extentOffset first + 267) 213 = List.replicate 213 0 := by
  obtain ⟨-, -, -, -, heq⟩ := of_decodeHeader h
  have hreserved : slice (g.read (extentOffset first) extentHeaderSize) 267 213 =
    List.replicate 213 0 := by
    rw [heq]
    obtain ⟨messageId, material, destination, source, verification, timestamp, carrier, stamp,
      lengths, ingress, normalizes⟩ := header.metadata
    obtain _ | ⟨interface, _ | signal⟩ := ingress
    · exact slice_encodeHeader 32 267 213 rfl rfl (List.length_replicate)
    · exact slice_encodeHeader 32 267 213 rfl rfl (List.length_replicate)
    · exact slice_encodeHeader 32 267 213 rfl rfl (List.length_replicate)
  rw [Flash.slice_read (by decide)] at hreserved
  exact hreserved

/-- A header whose second page is erased is not decoded. -/
theorem not_decoded_of_erased (herased : g.Erased (extentOffset first + 256) 256) :
    decodeHeader sha256 access.usizeValues access.binding
      (g.read (extentOffset first) extentHeaderSize) ≠
      .ok header := by
  intro h
  have hblank : g.Erased (extentOffset first + 267) 213 := herased.mono (by omega) (by omega)
  have hreserved := (reserved_of_decoded h).symm.trans hblank.read_eq
  exact absurd (List.replicate_right_inj (by decide) |>.mp hreserved) (by decide)

/-- Handles with one value are equal. -/
theorem handle_eq_of_get {handle handle' : MessageHandle} (h : handle.get = handle'.get) :
    handle = handle' := by
  cases handle
  cases handle'
  cases h
  rfl

/-- A header with the first page of a mutation is decoded to its place and its handle, if at all. -/
theorem place_of_decoded (hindex : index < pending.extentCount)
    (hcount : pending.extentCount < 2 ^ 16)
    (hpage : g.read (extentOffset first) 256 =
      slice (pendingHeader sha256 access pending index) 0 256)
    (h : decodeHeader sha256 access.usizeValues access.binding
      (g.read (extentOffset first) extentHeaderSize) =
      .ok header) :
    header.extentIndex = index ∧ header.extentCount = pending.extentCount ∧
      header.handle = pending.handle := by
  obtain ⟨-, hindex', hcount', -, heq⟩ := of_decodeHeader h
  have hfield : ∀ {at_ n}, at_ + n ≤ 256 → slice (encodeHeader sha256 access.binding
      physicalFormatVersion header.handle header.extentIndex header.extentCount header.metadata
      header.exactWireDigest) at_ n = slice (pendingHeader sha256 access pending index) at_ n := by
    intro at_ n hn
    rw [← heq, Flash.slice_read (hn.trans (by decide)), ← @Flash.slice_read g _ 256 _ _ hn, hpage,
      slice_slice hn, Nat.zero_add]
  have hindices := @hfield 44 2 (by decide)
  have hcounts := @hfield 46 2 (by decide)
  have hhandles := @hfield 48 8 (by decide)
  rw [pendingHeader, slice_encodeHeader 4 44 2 rfl rfl (length_leBytes ..),
    slice_encodeHeader 4 44 2 rfl rfl (length_leBytes ..)] at hindices
  rw [pendingHeader, slice_encodeHeader 5 46 2 rfl rfl (length_leBytes ..),
    slice_encodeHeader 5 46 2 rfl rfl (length_leBytes ..)] at hcounts
  rw [pendingHeader, slice_encodeHeader 6 48 8 rfl rfl (length_leBytes ..),
    slice_encodeHeader 6 48 8 rfl rfl (length_leBytes ..)] at hhandles
  have hwidth : (2 : ℕ) ^ 16 = 256 ^ 2 := by decide
  refine ⟨?_, ?_, ?_⟩
  · have := congrArg leNat hindices
    rwa [leNat_leBytes_of_lt (by omega), leNat_leBytes_of_lt (by omega)] at this
  · have := congrArg leNat hcounts
    rwa [leNat_leBytes_of_lt (by omega), leNat_leBytes_of_lt (by omega)] at this
  · have := congrArg leNat hhandles
    have hlt := header.handle.lt
    have hlt' := pending.handle.lt
    have hwidth : (2 : ℕ) ^ 64 = 256 ^ 8 := by decide
    rw [leNat_leBytes_of_lt (by omega), leNat_leBytes_of_lt (by omega)] at this
    exact handle_eq_of_get this

/-- A claimed extent is recognized as incomplete. -/
theorem recognized_of_claimed (h : g.read (extentOffset first) 32 = claimMarker) :
    recognizedIncompleteExtent (snapshotAt g first) = true := by
  have hclaim : slice (snapshotAt g first).header 0 32 = claimMarker := by
    rw [snapshotAt_header, Flash.slice_read (by decide), Nat.add_zero]
    exact h
  rw [recognizedIncompleteExtent, hclaim]
  rfl

/-- An extent with a part of the claim and nothing behind it is recognized as incomplete. -/
theorem recognized_of_blank (hcovers : g.Covers (extentOffset first) claimMarker)
    (hblank : g.Erased (extentOffset first + 32) (extentSize - 32)) :
    recognizedIncompleteExtent (snapshotAt g first) = true := by
  have hclaim : covers (slice (snapshotAt g first).header 0 32) claimMarker = true := by
    rw [snapshotAt_header, Flash.slice_read (by decide), Nat.add_zero]
    exact Flash.covers_read.mpr hcovers
  have houtside : (snapshotAt g first).outsideClaimErased = true := by
    dsimp only [snapshotAt]
    exact Flash.read_all_erased.mpr hblank
  rw [recognizedIncompleteExtent, hclaim, houtside]
  exact Bool.or_true _

end Header

section Torn

/-- What is known of a header whose programming stopped anywhere. -/
structure TornHeader (sha256 : Sha256) (access : BoundLxmfStore) (g : Flash)
    (pending : PendingMutation) (index : ℕ) : Prop where
  covers : g.Covers (extentOffset (pending.firstExtent + index))
    (pendingHeader sha256 access pending index)
  recognized : recognizedIncompleteExtent (snapshotAt g (pending.firstExtent + index)) = true
  place : ∀ header, decodeHeader sha256 access.usizeValues access.binding
      (snapshotAt g (pending.firstExtent + index)).header = .ok header →
    header.extentIndex = index ∧ header.extentCount = pending.extentCount ∧
      header.handle = pending.handle

/-- The pages of a header are its two halves. -/
theorem script_headerPages : script (headerPages sha256 access pending index :
    List (CheckedPatch ε (LxmfCommitError ε))) =
      [⟨extentOffset (pending.firstExtent + index),
          slice (pendingHeader sha256 access pending index) 0 256⟩,
        ⟨extentOffset (pending.firstExtent + index) + 256,
          slice (pendingHeader sha256 access pending index) 256 256⟩] := by
  change [Patch.mk (extentOffset (pending.firstExtent + index) + 0 * 256)
      (slice (pendingHeader sha256 access pending index) (0 * 256) 256),
    Patch.mk (extentOffset (pending.firstExtent + index) + 1 * 256)
      (slice (pendingHeader sha256 access pending index) (1 * 256) 256)] = _
  rw [Nat.zero_mul, Nat.one_mul, Nat.add_zero]

/-- A header whose body is erased is torn wherever its programming stopped. -/
theorem tornHeader (hindex : index < pending.extentCount) (hcount : pending.extentCount < 2 ^ 16)
    (hblank : (headerPiece ε sha256 access pending index).Blank f)
    (h : Trajectory (script (headerPiece ε sha256 access pending index).patches) f g)
    (hbody : g.Erased (extentOffset (pending.firstExtent + index) + 512) 3584) :
    TornHeader sha256 access g pending index := by
  have hcovers : g.Covers (extentOffset (pending.firstExtent + index))
      (pendingHeader sha256 access pending index) := Piece.covers_of_trajectory hblank h
  have hmarker : g.Covers (extentOffset (pending.firstExtent + index)) claimMarker := by
    have hslice : g.Covers (extentOffset (pending.firstExtent + index) + 0)
        (slice (pendingHeader sha256 access pending index) 0 32) :=
      hcovers.slice (by rw [length_pendingHeader]; decide)
    rw [slice_pendingHeader_claim, Nat.add_zero] at hslice
    exact hslice
  have herased : f.Erased (extentOffset (pending.firstExtent + index)) extentHeaderSize := by
    have hblank' : f.Erased (extentOffset (pending.firstExtent + index))
      (pendingHeader sha256 access pending index).length := hblank
    rw [length_pendingHeader] at hblank'
    exact hblank'
  have hclaim := @apply_headerClaim ε sha256 access f pending index herased
  have hbehind : ∀ i, 256 ≤ i → i < 512 → f.apply (headerClaim sha256 access pending index :
      CheckedPatch ε (LxmfCommitError ε)).patch (extentOffset (pending.firstExtent + index) + i) =
        erasedByte := by
    intro i hi hend
    rw [patch_headerClaim, Flash.apply,
      Flash.program_of_not_mem (.inr (by dsimp only; rw [length_claimPage]; omega))]
    exact herased i hend
  have hpage : (slice (pendingHeader sha256 access pending index) 0 256).length = 256 :=
    length_slice (by rw [length_pendingHeader]; decide)
  change Trajectory ((headerClaim sha256 access pending index :
    CheckedPatch ε (LxmfCommitError ε)).patch :: script (headerPages sha256 access pending index))
      f g at h
  cases h with
  | torn ht =>
    have hrest : ∀ i, 32 ≤ i → i < 512 →
        g (extentOffset (pending.firstExtent + index) + i) = erasedByte := by
      intro i hi hend
      have hsame : f.apply (headerClaim sha256 access pending index :
          CheckedPatch ε (LxmfCommitError ε)).patch
            (extentOffset (pending.firstExtent + index) + i) = erasedByte := by
        by_cases hfirst : i < 256
        · rw [hclaim hfirst, claimPage_of_le hi hfirst]
        · exact hbehind i (not_lt.mp hfirst) hend
      exact (ht.eq_of_eq (hsame.trans (herased i hend).symm)).trans (herased i hend)
    refine ⟨hcovers, recognized_of_blank hmarker fun i hi => ?_, fun header hdecoded => ?_⟩
    · have hi : i < 4064 := hi
      by_cases hheader : 32 + i < 512
      · rw [Nat.add_assoc]
        exact hrest (32 + i) (by omega) hheader
      · have hbyte := hbody (32 + i - 512) (by omega)
        rw [show extentOffset (pending.firstExtent + index) + 512 + (32 + i - 512) =
          extentOffset (pending.firstExtent + index) + 32 + i by omega] at hbyte
        exact hbyte
    · rw [snapshotAt_header] at hdecoded
      refine absurd hdecoded (not_decoded_of_erased fun i hi => ?_)
      rw [Nat.add_assoc]
      exact hrest (256 + i) (by omega) (by omega)
  | step hs =>
    have hclaimed : g.read (extentOffset (pending.firstExtent + index)) 32 = claimMarker := by
      refine hmarker.read_eq fun i hi => (hs.le _).trans ?_
      have hi : i < 32 := hi
      rw [hclaim (by omega), claimPage_of_lt hi]
      exact .refl _
    refine ⟨hcovers, recognized_of_claimed hclaimed, fun header hdecoded => ?_⟩
    rw [snapshotAt_header] at hdecoded
    rw [script_headerPages] at hs
    cases hs with
    | torn ht =>
      refine absurd hdecoded (not_decoded_of_erased fun i hi => ?_)
      have hkept : g (extentOffset (pending.firstExtent + index) + 256 + i) = _ :=
        ht.program_of_not_mem (.inr (by dsimp only; rw [hpage]; omega))
      rw [hkept, Nat.add_assoc]
      exact hbehind (256 + i) (by omega) (by omega)
    | step hs =>
      refine place_of_decoded hindex hcount ?_ hdecoded
      have hfirst : (f.apply (headerClaim sha256 access pending index :
          CheckedPatch ε (LxmfCommitError ε)).patch).Covers
            (extentOffset (pending.firstExtent + index) + 0)
            (slice (pendingHeader sha256 access pending index) 0 256) :=
        (claimed_covers (ε := ε) herased).slice (by rw [length_pendingHeader]; decide)
      rw [Nat.add_zero] at hfirst
      have hread := read_program_of_covers hfirst
      rw [hpage] at hread
      refine (hs.read_eq fun p hp => ?_).trans hread
      rw [List.mem_singleton.mp hp]
      exact .inr (by dsimp only; omega)

end Torn

section Positions

/-- The first pieces of a record are its headers. -/
theorem recordPieces_header (hindex : index < pending.extentCount) :
    (recordPieces ε sha256 access candidate pending)[index]? =
      some (headerPiece ε sha256 access pending index) := by
  rw [recordPieces, List.getElem?_append_left (by
    rw [List.length_map, List.length_range]
    exact hindex), List.getElem?_map, List.getElem?_range hindex]
  rfl

/-- The pieces behind the headers are the pages of the wire. -/
theorem recordPieces_wire {page : ℕ} (hpage : page < wirePageCount candidate.bytes.length) :
    (recordPieces ε sha256 access candidate pending)[pending.extentCount + page]? =
      some (wirePiece ε pending.firstExtent candidate.bytes page) := by
  rw [recordPieces, List.getElem?_append_right (by
    rw [List.length_map, List.length_range]
    exact Nat.le_add_right _ _), List.length_map, List.length_range, Nat.add_sub_cancel_left,
    List.getElem?_append_left (by
      rw [List.length_map, List.length_range]
      exact hpage), List.getElem?_map, List.getElem?_range hpage]
  rfl

/-- The last piece of a record is its footer. -/
theorem recordPieces_footer :
    (recordPieces ε sha256 access candidate pending)[pending.extentCount +
        wirePageCount candidate.bytes.length]? =
      some (footerPiece ε (footerOffset pending) pending.firstExtent
        (pendingFooter sha256 access candidate pending) length_pendingFooter) := by
  rw [recordPieces, List.getElem?_append_right (by
    rw [List.length_map, List.length_range]
    exact Nat.le_add_right _ _), List.length_map, List.length_range, Nat.add_sub_cancel_left,
    List.getElem?_append_right (by rw [List.length_map, List.length_range]), List.length_map,
    List.length_range, Nat.sub_self]
  rfl

/-- A record has a piece for each header, for each page of the wire and for the footer. -/
theorem length_recordPieces :
    (recordPieces ε sha256 access candidate pending).length =
      pending.extentCount + wirePageCount candidate.bytes.length + 1 := by
  rw [recordPieces, List.length_append, List.length_append, List.length_map, List.length_map,
    List.length_range, List.length_range, List.length_singleton, Nat.add_assoc]

end Positions

section Span

/-- Some headers and one that may be torn, over erased bodies. -/
structure OpenSpan (sha256 : Sha256) (access : BoundLxmfStore) (g : Flash)
    (pending : PendingMutation) (reached : ℕ) : Prop where
  reached_lt : reached < pending.extentCount
  headers : HeadersTo sha256 access g pending reached
  torn : TornHeader sha256 access g pending reached
  blank : ∀ index, reached < index → index < pending.extentCount →
    g.Erased (extentOffset (pending.firstExtent + index)) extentSize
  bodies : BodyBlank g pending

/-- All headers, and a commit marker that can still be programmed. -/
structure HeadedSpan (sha256 : Sha256) (access : BoundLxmfStore) (g : Flash)
    (pending : PendingMutation) : Prop where
  headed : Headed sha256 access g pending
  covers : g.Covers (footerOffset pending + 224) commitMarker
  unmarked : ¬SpanMarked g pending

/-- Everything that was programmed for a candidate, over erased rests. -/
structure FullSpan (sha256 : Sha256) (access : BoundLxmfStore) (g : Flash)
    (candidate : InboundMessageCandidate) (pending : PendingMutation) : Prop where
  headed : Headed sha256 access g pending
  pages : ∀ page < wirePageCount candidate.bytes.length,
    g.read (wireAddress pending.firstExtent (page * ioChunkSize)) ioChunkSize =
      wirePage (slice candidate.bytes (page * ioChunkSize) ioChunkSize)
  rest : ∀ position, wirePageCount candidate.bytes.length * 256 ≤ position →
    position < wireCapacity pending.extentCount →
    g (wireAddress pending.firstExtent position) = erasedByte
  footer : g.read (footerOffset pending) 256 =
    footerDone (pendingFooter sha256 access candidate pending)

/-- Where the commit marker of a span stands. -/
theorem spanMarked_iff :
    SpanMarked g pending ↔ g.read (footerOffset pending + 224) 32 = commitMarker := by
  have haddress : extentOffset (pending.firstExtent + pending.extentCount - 1) + 4064 =
      footerOffset pending + 224 := by
    rw [footerOffset_eq, extentOffset_eq]
  rw [SpanMarked, Marked, ← haddress]
  rfl

/-- The marker after a footer whose programming stopped anywhere. -/
theorem footer_cases {fields : List Byte} {offset firstExtent : ℕ} (hfields : fields.length = 224)
    (hblank : (footerPiece ε offset firstExtent fields hfields).Blank f)
    (h : Trajectory (script (footerPiece ε offset firstExtent fields hfields).patches) f g) :
    g.Covers (offset + 224) commitMarker ∧
      (g.read (offset + 224) 32 = commitMarker → g.read offset 256 = footerDone fields) := by
  have herased : f.Erased offset 256 := by
    have hblank' : f.Erased offset (footerDone fields).length := hblank
    rw [length_footerDone hfields] at hblank'
    exact hblank'
  have hcovers : g.Covers offset (footerDone fields) := Piece.covers_of_trajectory hblank h
  have hmarker : g.Covers (offset + 224) commitMarker := by
    have hslice : g.Covers (offset + 224) (slice (footerDone fields) 224 32) :=
      hcovers.slice (by rw [length_footerDone hfields])
    have hlast : slice (footerDone fields) 224 32 = commitMarker := by
      rw [slice, footerDone, List.drop_left' hfields]
      rfl
    rw [hlast] at hslice
    exact hslice
  refine ⟨hmarker, fun hread => ?_⟩
  have hbase := @apply_footerBase f fields offset hfields herased
  change Trajectory [⟨offset, footerBase fields⟩, ⟨offset, commitOverlay⟩] f g at h
  cases h with
  | torn ht =>
    -- the marker is still erased
    have hrest : g.Erased (offset + 224) 32 := by
      intro i hi
      have hblank := herased (224 + i) (by omega)
      have htarget := (hbase (show 224 + i < 256 by omega)).trans
        (footerBase_of_le hfields (Nat.le_add_right _ _) (by omega))
      rw [Nat.add_assoc]
      exact (ht.eq_of_eq (htarget.trans hblank.symm)).trans hblank
    exact absurd (hread.symm.trans hrest.read_eq) (by decide)
  | step hs =>
    -- the fields are below what the first program left, and the marker is there
    have hresult := hcovers.read_eq fun i hi => ?_
    · rw [length_footerDone hfields] at hresult
      exact hresult
    · rw [length_footerDone hfields] at hi
      by_cases hfield : i < 224
      · have hbyte : (footerBase fields).getD i 0 = (footerDone fields).getD i 0 := by
          rw [footerBase, footerDone, List.getD_eq_getElem?_getD, List.getD_eq_getElem?_getD,
            List.getElem?_append_left (by omega), List.getElem?_append_left (by omega)]
        rw [← hbyte, ← hbase hi]
        exact hs.le _
      · have hbyte : g (offset + 224 + (i - 224)) = commitMarker.getD (i - 224) 0 :=
          Flash.byte_of_read_eq hread (show i - 224 < 32 by omega)
        rw [Nat.add_assoc, Nat.add_sub_cancel' (not_lt.mp hfield)] at hbyte
        rw [hbyte, footerDone, List.getD_eq_getElem?_getD, List.getD_eq_getElem?_getD,
          List.getElem?_append_right (by omega), hfields]
        exact .refl _

end Span

section Cases

/-- A page of the wire starts at or before each of its addresses. -/
theorem wireAddress_page_start_le (first position : ℕ) :
    wireAddress first (position / 256 * ioChunkSize) ≤ wireAddress first position := by
  have hwithin : position % 256 < ioChunkSize := Nat.mod_lt _ (by decide)
  have hsplit : position / 256 * ioChunkSize + position % 256 = position :=
    Nat.div_add_mod' position 256
  calc wireAddress first (position / 256 * ioChunkSize)
      ≤ wireAddress first (position / 256 * ioChunkSize) + position % 256 := Nat.le_add_right _ _
    _ = wireAddress first (position / 256 * ioChunkSize + position % 256) :=
      (wireAddress_page hwithin).symm
    _ = wireAddress first position := by rw [hsplit]

variable (hcount : 0 < pending.extentCount)
  (hfits : candidate.bytes.length ≤ wireCapacity pending.extentCount)
  (hfor : IsFor sha256 pending candidate) (herased : SpanErased f pending)
  (h : Trajectory (script (Piece.all (recordPieces ε sha256 access candidate pending))) f g)

/-- Where the piece of a header is done the header can be read. -/
theorem headerPiece_done (hdone : (headerPiece ε sha256 access pending index).Done g) :
    g.read (extentOffset (pending.firstExtent + index)) extentHeaderSize =
      pendingHeader sha256 access pending index := by
  have hread : g.read (extentOffset (pending.firstExtent + index))
      (pendingHeader sha256 access pending index).length =
        pendingHeader sha256 access pending index := hdone
  rw [length_pendingHeader] at hread
  exact hread

/-- Where the piece of a page is done the page can be read. -/
theorem wirePiece_done {page : ℕ} {first : ℕ} {bytes : List Byte}
    (hdone : (wirePiece ε first bytes page).Done g) :
    g.read (wireAddress first (page * ioChunkSize)) ioChunkSize =
      wirePage (slice bytes (page * ioChunkSize) ioChunkSize) := by
  have hread : g.read (wireAddress first (page * ioChunkSize))
      (wirePage (slice bytes (page * ioChunkSize) ioChunkSize)).length =
        wirePage (slice bytes (page * ioChunkSize) ioChunkSize) := hdone
  rw [length_wirePage_slice] at hread
  exact hread

/-- Where the piece of the footer is done the footer can be read, committed. -/
theorem footerPiece_done
    (hdone : (footerPiece ε (footerOffset pending) pending.firstExtent
      (pendingFooter sha256 access candidate pending) length_pendingFooter).Done g) :
    g.read (footerOffset pending) 256 =
      footerDone (pendingFooter sha256 access candidate pending) := by
  have hread : g.read (footerOffset pending)
      (footerDone (pendingFooter sha256 access candidate pending)).length =
        footerDone (pendingFooter sha256 access candidate pending) := hdone
  rw [length_footerDone length_pendingFooter] at hread
  exact hread

include herased h

/-- A body is erased as long as neither the wire nor the footer was begun. -/
theorem bodies_blank
    (hwire : ∀ page < wirePageCount candidate.bytes.length,
      (wirePiece ε pending.firstExtent candidate.bytes page).Blank g)
    (hfooter : (footerPiece ε (footerOffset pending) pending.firstExtent
      (pendingFooter sha256 access candidate pending) length_pendingFooter).Blank g) :
    BodyBlank g pending := by
  intro index hindex i hi
  have hi : i < 3584 := hi
  by_cases hinside : ∃ q ∈ recordPieces ε sha256 access candidate pending,
      q.offset ≤ extentOffset (pending.firstExtent + index) + extentHeaderSize + i ∧
        extentOffset (pending.firstExtent + index) + extentHeaderSize + i <
          q.offset + q.image.length
  · obtain ⟨q, hq, hstart, hstop⟩ := hinside
    have hblank : q.Blank g → g
      (extentOffset (pending.firstExtent + index) + extentHeaderSize + i) =
        erasedByte := by
      intro hblank
      have hbyte := hblank (extentOffset (pending.firstExtent + index) + extentHeaderSize + i -
        q.offset) (by omega)
      rwa [Nat.add_sub_cancel' hstart] at hbyte
    rcases List.mem_append.mp hq with hq | hq
    · obtain ⟨index', hindex', rfl⟩ := List.mem_map.mp hq
      change (pending.firstExtent + index') * 4096 ≤ (pending.firstExtent + index) * 4096 + 512 + i
        at hstart
      change (pending.firstExtent + index) * 4096 + 512 + i <
        (pending.firstExtent + index') * 4096 +
        (pendingHeader sha256 access pending index').length at hstop
      rw [length_pendingHeader] at hstop
      omega
    · rcases List.mem_append.mp hq with hq | hq
      · obtain ⟨page, hpage, rfl⟩ := List.mem_map.mp hq
        exact hblank (hwire page (List.mem_range.mp hpage))
      · rw [List.mem_singleton.mp hq] at hblank
        exact hblank hfooter
  · rw [Piece.eq_of_outside h fun q hq => ?_]
    · have hbyte := herased index hindex (512 + i) (by change _ < 4096; omega)
      rw [← Nat.add_assoc] at hbyte
      exact hbyte
    · by_contra hcontra
      rw [not_or, not_lt, not_le] at hcontra
      exact hinside ⟨q, hq, hcontra⟩

/-- Behind the pages of the wire nothing is programmed. -/
theorem rest_erased {position : ℕ}
    (hposition : wirePageCount candidate.bytes.length * 256 ≤ position)
    (hinside : position < wireCapacity pending.extentCount) :
    g (wireAddress pending.firstExtent position) = erasedByte := by
  rw [wireCapacity_eq] at hinside
  have haddress := wireAddress_eq pending.firstExtent position
  rw [Piece.eq_of_outside h fun q hq => ?_]
  · have hbyte := herased (position / 3584) (by omega) (512 + position % 3584)
      (by change _ < 4096; omega)
    rw [extentOffset_eq, ← Nat.add_assoc, ← haddress] at hbyte
    exact hbyte
  · rcases List.mem_append.mp hq with hq | hq
    · obtain ⟨index, hindex, rfl⟩ := List.mem_map.mp hq
      change _ < (pending.firstExtent + index) * 4096 ∨ (pending.firstExtent + index) * 4096 +
        (pendingHeader sha256 access pending index).length ≤ _
      rw [length_pendingHeader, haddress]
      omega
    · rcases List.mem_append.mp hq with hq | hq
      · obtain ⟨page, hpage, rfl⟩ := List.mem_map.mp hq
        have hpage := List.mem_range.mp hpage
        have hnext := @wireAddress_page_le pending.firstExtent page (position / 256) (by omega)
        have hpages := wireAddress_page_start_le pending.firstExtent position
        have hlength := @length_wirePiece ε pending.firstExtent page candidate.bytes
        refine .inr (le_trans ?_ (hnext.trans hpages))
        rw [hlength]
        rfl
      · rw [List.mem_singleton.mp hq]
        refine .inl ?_
        change _ < footerOffset pending
        rw [footerOffset_eq, haddress]
        omega

include hcount hfits

/-- Wherever the programming of a record stopped, its span is open, headed or full. -/
theorem span_cases (hlt : pending.extentCount < 2 ^ 16) :
    (∃ reached, OpenSpan sha256 access g pending reached) ∨ HeadedSpan sha256 access g pending ∨
      FullSpan sha256 access g candidate pending := by
  have hfull : Headed sha256 access g pending → (∀ page < wirePageCount candidate.bytes.length,
      (wirePiece ε pending.firstExtent candidate.bytes page).Done g) →
      g.read (footerOffset pending) 256 =
        footerDone (pendingFooter sha256 access candidate pending) →
      FullSpan sha256 access g candidate pending := fun hheaded hwire hfooter =>
    ⟨hheaded, fun page hpage => wirePiece_done (hwire page hpage),
      fun position hposition hinside => rest_erased herased h hposition hinside, hfooter⟩
  have hstanding := Piece.standing (apart_recordPieces hcount hfits)
    (blank_recordPieces hcount hfits herased) h
  rcases hstanding.position with hdone | ⟨k, p, f', hp, hbefore, hafter, hblank, htorn⟩
  · refine .inr (.inr (hfull (fun index hindex => ?_) (fun page hpage => ?_) ?_))
    · exact headerPiece_done (hdone _ (List.mem_of_getElem? (recordPieces_header hindex)))
    · exact hdone _ (List.mem_of_getElem? (recordPieces_wire hpage))
    · exact footerPiece_done (hdone _ (List.mem_of_getElem? recordPieces_footer))
  · have hk := (List.getElem?_eq_some_iff.mp hp).1
    rw [length_recordPieces] at hk
    by_cases hheader : k < pending.extentCount
    · -- a header is interrupted, and everything behind it is erased
      rw [recordPieces_header hheader] at hp
      obtain rfl := Option.some.inj hp
      have hbodies : BodyBlank g pending := bodies_blank herased h
        (fun page hpage => hafter _ (by omega) _ (recordPieces_wire hpage))
        (hafter _ (by omega) _ recordPieces_footer)
      refine .inl ⟨k, hheader, fun index hindex => ?_, tornHeader hheader hlt hblank htorn
        (hbodies k hheader), fun index hindex hinside => ?_, hbodies⟩
      · exact headerPiece_done (hbefore index hindex _ (recordPieces_header (by omega)))
      · have hheaderBlank := hafter index hindex _ (recordPieces_header hinside)
        intro i hi
        by_cases hfirst : i < 512
        · exact hheaderBlank i (by
            change i < (pendingHeader sha256 access pending index).length
            rw [length_pendingHeader]
            exact hfirst)
        · have hi : i < 4096 := hi
          have hbyte := hbodies index hinside (i - 512) (by change i - 512 < 3584; omega)
          rw [Nat.add_assoc, show extentHeaderSize + (i - 512) = i from
            Nat.add_sub_cancel' (not_lt.mp hfirst)] at hbyte
          exact hbyte
    · have hheaded : Headed sha256 access g pending := fun index hindex =>
        headerPiece_done (hbefore index (by omega) _ (recordPieces_header hindex))
      by_cases hwire : k < pending.extentCount + wirePageCount candidate.bytes.length
      · -- a page of the wire is interrupted, and the footer is erased
        have hfooter := hafter _ hwire _ recordPieces_footer
        have hmarker : g.Erased (footerOffset pending + 224) 32 := by
          refine Flash.Erased.mono hfooter (Nat.le_add_right _ _) ?_
          change footerOffset pending + 224 + 32 ≤ footerOffset pending +
            (footerDone (pendingFooter sha256 access candidate pending)).length
          rw [length_footerDone length_pendingFooter]
        refine .inr (.inl ⟨hheaded, hmarker.covers, fun hmarked => ?_⟩)
        exact absurd ((spanMarked_iff.mp hmarked).symm.trans hmarker.read_eq) (by decide)
      · obtain rfl : k = pending.extentCount + wirePageCount candidate.bytes.length := by omega
        rw [recordPieces_footer] at hp
        obtain rfl := Option.some.inj hp
        obtain ⟨hcovers, hdone⟩ := footer_cases length_pendingFooter hblank htorn
        by_cases hmarked : SpanMarked g pending
        · refine .inr (.inr (hfull hheaded (fun page hpage => ?_)
            (hdone (spanMarked_iff.mp hmarked))))
          exact hbefore _ (by omega) _ (recordPieces_wire hpage)
        · exact .inr (.inl ⟨hheaded, hcovers, hmarked⟩)

end Cases

end LxmfStore
