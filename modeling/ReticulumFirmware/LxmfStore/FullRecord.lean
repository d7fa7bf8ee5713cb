import ReticulumFirmware.LxmfStore.Interrupted

/-!
# Full records

A span that holds everything programmed for a candidate is a committed record with the values of
its mutation.
-/

namespace LxmfStore

open Nor Lxmf

variable {sha256 : Sha256} {access : BoundLxmfStore} {f : Flash} {pending : PendingMutation}
  {candidate : InboundMessageCandidate}

section Footer

/-- The widths of the fields of a footer. -/
def footerWidths : List ℕ := [8, 2, 2, 8, 2, 2, 4, 32, 32, 132]

/-- The fields of a footer have fixed widths. -/
theorem footerFields_widths (formatVersion : ℕ) (handle : MessageHandle) (extentCount wireLen : ℕ)
    (exactWireDigest : ExactWireDigest) (recordDigest : Vector Byte 32) :
    (footerFields formatVersion handle extentCount wireLen exactWireDigest recordDigest).map
      List.length = footerWidths := by
  have hmagic : footerMagic.length = 8 := by decide
  simp only [footerFields, List.map_cons, List.map_nil, length_leBytes, Vector.length_toList,
    List.length_replicate, hmagic]
  rfl

variable (footer : List Byte) (formatVersion : ℕ) (handle : MessageHandle)
  (extentCount wireLen : ℕ) (exactWireDigest : ExactWireDigest) (recordDigest : Vector Byte 32)

/-- A footer field stands at the sum of the widths before it. -/
theorem slice_footerDone (i offset length : ℕ) {field : List Byte}
    (hfield : (footerFields formatVersion handle extentCount wireLen exactWireDigest
      recordDigest)[i]? = some field)
    (hoffset : (footerWidths.take i).sum = offset) (hlength : field.length = length) :
    slice (footerDone (footerFields formatVersion handle extentCount wireLen exactWireDigest
      recordDigest).flatten) offset length = field := by
  have hwidths : (footerFields formatVersion handle extentCount wireLen exactWireDigest
      recordDigest ++ [commitMarker]).map List.length = footerWidths ++ [32] := by
    rw [List.map_append, footerFields_widths]
    rfl
  have hinside : i < footerWidths.length := by
    rw [← footerFields_widths formatVersion handle extentCount wireLen exactWireDigest
      recordDigest, List.length_map]
    exact (List.getElem?_eq_some_iff.mp hfield).1
  have hflatten : footerDone (footerFields formatVersion handle extentCount wireLen exactWireDigest
      recordDigest).flatten = (footerFields formatVersion handle extentCount wireLen
        exactWireDigest recordDigest ++ [commitMarker]).flatten := by
    rw [List.flatten_append, List.flatten_singleton]
    rfl
  have hfield' : (footerFields formatVersion handle extentCount wireLen exactWireDigest
      recordDigest ++ [commitMarker])[i]? = some field := by
    rw [List.getElem?_append_left (List.getElem?_eq_some_iff.mp hfield).1]
    exact hfield
  have hoffset' : ((footerWidths ++ [32]).take i).sum = offset := by
    rw [List.take_append_of_le_length hinside.le]
    exact hoffset
  rw [hflatten]
  exact slice_flatten hwidths hfield' hoffset' hlength

/-- The footer of a record matches its header. -/
theorem footerMatches_done {header : HeaderFields} (hversion : header.formatVersion < 2 ^ 16)
    (hcount : header.extentCount < 2 ^ 16) :
    footerMatches (footerDone (footerFields header.formatVersion header.handle header.extentCount
      header.metadata.lengths.normalizedWire header.exactWireDigest recordDigest).flatten)
        header = true := by
  have hversion : header.formatVersion < 256 ^ 2 := hversion
  have hcount : header.extentCount < 256 ^ 2 := hcount
  have hmarker : (footerDone (footerFields header.formatVersion header.handle header.extentCount
      header.metadata.lengths.normalizedWire header.exactWireDigest recordDigest).flatten).drop
        footerCommitOffset = commitMarker :=
    List.drop_left' (length_footerFields _ _ _ _ _ _)
  rw [footerMatches, hmarker,
    slice_footerDone _ _ _ _ _ _ 0 0 8 rfl rfl (by decide),
    slice_footerDone _ _ _ _ _ _ 1 8 2 rfl rfl (length_leBytes ..),
    slice_footerDone _ _ _ _ _ _ 2 10 2 rfl rfl rfl,
    slice_footerDone _ _ _ _ _ _ 3 12 8 rfl rfl (length_leBytes ..),
    slice_footerDone _ _ _ _ _ _ 4 20 2 rfl rfl (length_leBytes ..),
    slice_footerDone _ _ _ _ _ _ 5 22 2 rfl rfl rfl,
    slice_footerDone _ _ _ _ _ _ 6 24 4 rfl rfl (length_leBytes ..),
    slice_footerDone _ _ _ _ _ _ 7 28 32 rfl rfl Vector.length_toList,
    slice_footerDone _ _ _ _ _ _ 9 92 132 rfl rfl List.length_replicate,
    leNat_leBytes_of_lt hversion, header.handle.leNat_leBytes, leNat_leBytes_of_lt hcount,
    leNat_leBytes_of_lt header.metadata.lengths.normalizedWire_lt]
  simp

end Footer

section Padding

variable {first count length : ℕ}

/-- The wire area is erased behind a wire exactly if its addresses are. -/
theorem padding_erased (hcount : 0 < count)
    (h : ∀ position, length ≤ position → position < wireCapacity count →
      f (wireAddress first position) = erasedByte) :
    ((payloadAt f first count).drop length).all (· == erasedByte) = true := by
  rw [payloadAt_eq hcount, List.all_eq_true]
  intro byte hbyte
  obtain ⟨i, hi⟩ := List.mem_iff_getElem?.mp hbyte
  rw [List.getElem?_drop, List.getElem?_map] at hi
  obtain ⟨position, hposition, rfl⟩ := Option.map_eq_some_iff.mp hi
  obtain ⟨hinside, rfl⟩ := List.getElem?_eq_some_iff.mp hposition
  rw [List.length_range] at hinside
  rw [List.getElem_range]
  exact beq_iff_eq.mpr (h _ (Nat.le_add_right _ _) hinside)

/-- Behind the end of a wire its last page is erased. -/
theorem page_erased {wire : List Byte} {position : ℕ}
    (hpages : ∀ page < wirePageCount wire.length,
      f.read (wireAddress first (page * ioChunkSize)) ioChunkSize =
        wirePage (slice wire (page * ioChunkSize) ioChunkSize))
    (hstart : wire.length ≤ position) (hend : position < wirePageCount wire.length * 256) :
    f (wireAddress first position) = erasedByte := by
  have hwithin : position % ioChunkSize < ioChunkSize := Nat.mod_lt _ (by decide)
  have hsplit : position / ioChunkSize * ioChunkSize + position % ioChunkSize = position :=
    Nat.div_add_mod' _ _
  have hpage := hpages (position / ioChunkSize) (by
    change position / 256 < _
    omega)
  have hread : (f.read (wireAddress first (position / ioChunkSize * ioChunkSize))
      ioChunkSize)[position % ioChunkSize]? = some (f (wireAddress first position)) := by
    rw [Flash.getElem?_read hwithin, ← wireAddress_page hwithin, hsplit]
  have hshort : (slice wire (position / ioChunkSize * ioChunkSize) ioChunkSize).length ≤
      position % ioChunkSize := by
    rw [slice, List.length_take, List.length_drop]
    omega
  rw [hpage, wirePage, List.getElem?_append_right hshort, List.getElem?_replicate,
    if_pos (by omega)] at hread
  exact (Option.some.inj hread).symm

end Padding

section Full

/-- The footer of a mutation matches the header values of its record. -/
theorem footerMatches_pending (hfits : pending.extentCount < 2 ^ 16)
    (recordDigest : Vector Byte 32) :
    footerMatches (footerDone (footerFields physicalFormatVersion pending.handle
      pending.extentCount pending.metadata.lengths.normalizedWire pending.replay.exactWireDigest
      recordDigest).flatten) (pendingFields pending) = true := by
  have hversion : (pendingFields pending).formatVersion < 2 ^ 16 := by
    change physicalFormatVersion < 2 ^ 16
    decide
  exact @footerMatches_done recordDigest (pendingFields pending) hversion hfits

variable (hallocated : Allocated access pending) (hfor : IsFor sha256 pending candidate)
  (h : FullSpan sha256 access f candidate pending)

include hfor h

/-- The footer of a full span carries the values of the mutation. -/
theorem FullSpan.footer_eq :
    f.read (footerOffset pending) 256 = footerDone (footerFields physicalFormatVersion
      pending.handle pending.extentCount pending.metadata.lengths.normalizedWire
      pending.replay.exactWireDigest (sha256 (recordDigestDomain ++
        pendingHeader sha256 access pending 0 ++ candidate.bytes))).flatten := by
  have hlength : candidate.wire.segments.totalLen = pending.metadata.lengths.normalizedWire := by
    rw [hfor.2, candidate.length_eq]
  have hdigest : digestCandidateWire sha256 candidate = pending.replay.exactWireDigest := by
    rw [hfor.1, candidateReplay]
  have hbytes : candidate.bytes = candidate.wire.segments.first ++ candidate.wire.segments.second :=
    rfl
  rw [h.footer, pendingFooter, hlength, hfor.header, digestCandidateRecord, hdigest, hbytes,
    List.append_assoc]

/-- A full span carries its commit marker. -/
theorem FullSpan.marked : SpanMarked f pending := by
  have hdrop : (footerDone (footerFields physicalFormatVersion pending.handle pending.extentCount
      pending.metadata.lengths.normalizedWire pending.replay.exactWireDigest
      (sha256 (recordDigestDomain ++ pendingHeader sha256 access pending 0 ++
        candidate.bytes))).flatten).drop 224 = commitMarker :=
    List.drop_left' (length_footerFields _ _ _ _ _ _)
  have hread := h.footer_eq hfor
  rw [← hread, show 256 = 224 + 32 from rfl, Flash.drop_read] at hdrop
  exact spanMarked_iff.mpr hdrop

include hallocated

/-- A full span holds the wire of its candidate. -/
theorem FullSpan.wireAt : WireAt f pending.firstExtent pending.extentCount candidate.bytes :=
  wireAt_of_pages hallocated.pos (hallocated.wire_le hfor) h.pages

/-- The wire of a full span and what follows it. -/
theorem FullSpan.payload :
    (payloadAt f pending.firstExtent pending.extentCount).take
        pending.metadata.lengths.normalizedWire = candidate.bytes ∧
      ((payloadAt f pending.firstExtent pending.extentCount).drop
        pending.metadata.lengths.normalizedWire).all (· == erasedByte) = true := by
  have hlength : pending.metadata.lengths.normalizedWire = candidate.bytes.length := by
    rw [hfor.2, candidate.length_bytes]
  rw [hlength]
  refine ⟨h.wireAt hallocated hfor, padding_erased hallocated.pos fun position hstart hend => ?_⟩
  by_cases hpage : position < wirePageCount candidate.bytes.length * 256
  · exact page_erased h.pages hstart hpage
  · exact h.rest position (not_lt.mp hpage) hend

/-- A full span is the committed record of its mutation. -/
theorem FullSpan.committedAt :
    CommittedAt sha256 access f pending.firstExtent (pendingFields pending) := by
  have hpos := hallocated.pos
  have hfirst : (snapshotAt f pending.firstExtent).header =
      pendingHeader sha256 access pending 0 := by
    have hheader := h.headed 0 hpos
    rw [Nat.add_zero] at hheader
    rw [snapshotAt_header, hheader]
  have hfooter : (snapshotAt f (pending.firstExtent + pending.extentCount - 1)).footer =
      f.read (footerOffset pending) 256 := by
    have haddress : footerOffset pending =
        extentOffset (pending.firstExtent + pending.extentCount - 1) + 3840 := by
      rw [footerOffset_eq, extentOffset_eq]
    rw [snapshotAt_footer, haddress]
    rfl
  obtain ⟨hwire, hpadding⟩ := h.payload hallocated hfor
  have hfooterEq := hfooter.trans (h.footer_eq hfor)
  have hverified : Verified sha256 f pending.firstExtent (pendingHeader sha256 access pending 0)
      (footerDone (footerFields physicalFormatVersion pending.handle pending.extentCount
        pending.metadata.lengths.normalizedWire pending.replay.exactWireDigest
        (sha256 (recordDigestDomain ++ pendingHeader sha256 access pending 0 ++
          candidate.bytes))).flatten) (pendingFields pending) := by
    refine ⟨?_, ?_, hpadding, ?_⟩
    · exact footerMatches_pending hallocated.fits _
    · change sha256 ((payloadAt f pending.firstExtent pending.extentCount).take
        pending.metadata.lengths.normalizedWire) = pending.replay.exactWireDigest
      rw [hwire, hfor.1]
      rfl
    · change _ = (sha256 (_ ++ (payloadAt f pending.firstExtent pending.extentCount).take
        pending.metadata.lengths.normalizedWire)).toList
      rw [hwire]
      exact slice_footerDone _ _ _ _ _ _ 8 60 32 rfl rfl Vector.length_toList
  refine ⟨?_, rfl, hallocated.inside, fun index hindex => ?_, ?_, ?_⟩
  · rw [hfirst]
    exact hallocated.decoded hpos
  · rw [snapshotAt_header]
    exact h.headed index hindex
  · exact commitMarker_eq_committed.mpr (h.marked hfor)
  · rw [hfirst]
    have hsame : (snapshotAt f (pending.firstExtent + (pendingFields pending).extentCount -
        1)).footer = _ := hfooterEq
    rw [hsame]
    exact hverified

end Full

end LxmfStore
