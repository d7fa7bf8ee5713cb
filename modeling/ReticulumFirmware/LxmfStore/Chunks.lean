import ReticulumFirmware.LxmfStore.FirstArrival
import ReticulumFirmware.LxmfStore.Reading

/-!
# Chunks of a wire

A chunk of an indexed wire is exactly that part of the committed wire. The reads behind it are
headers of the record, which are compared and never copied, and whole pages of its wire area.
-/

namespace LxmfStore

open Nor Lxmf

variable {ε : Type} {φ : Faults} {sha256 : Sha256} {access : BoundLxmfStore} {f : Flash}
  {binding : LxmfStoreBinding} {entry : IndexEntry} {store : MountedLxmfStore}
  {system : LxmfSystem} {handle : MessageHandle}

section Pages

variable {count position wanted : ℕ}

/-- The pages of a wire area do not reach into the next area. -/
theorem payloadCapacity_page {index within : ℕ} (h : within < payloadCapacity count index) :
    within / ioChunkSize * ioChunkSize + ioChunkSize ≤ payloadCapacity count index := by
  have hpages : payloadCapacity count index = 13 * 256 ∨
    payloadCapacity count index = 14 * 256 := by
    unfold payloadCapacity
    split
    · exact .inl rfl
    · exact .inr rfl
  change within / 256 * 256 + 256 ≤ _
  omega

/-- No extent holds more wire than its payload area. -/
theorem payloadCapacity_le (count index : ℕ) : payloadCapacity count index ≤ extentPayloadSize := by
  unfold payloadCapacity
  split
  · exact (by decide : finalExtentPayloadSize ≤ extentPayloadSize)
  · exact le_rfl

/-- The bytes of one turn follow each other in the page. -/
theorem wireAddress_turn {first i : ℕ} (hi : i < pageTake count position wanted) :
    wireAddress first (position + i) =
      extentOffset (first + position / extentPayloadSize) + extentHeaderSize +
        position % extentPayloadSize / ioChunkSize * ioChunkSize +
          (position % extentPayloadSize % ioChunkSize + i) := by
  have hcapacity := payloadCapacity_le count (position / extentPayloadSize)
  have htake : i < payloadCapacity count (position / extentPayloadSize) -
      position % extentPayloadSize := hi.trans_le (min_le_right _ _)
  have hlt : position % extentPayloadSize + i < extentPayloadSize := by omega
  have hinside : position % 3584 + i < 3584 := hlt
  rw [wireAddress_eq]
  change _ = (first + position / 3584) * 4096 + 512 + position % 3584 / 256 * 256 +
    (position % 3584 % 256 + i)
  clear hcapacity htake hi hlt
  omega

/-- What one turn copies is the wire from its position on. -/
theorem slice_page (f : Flash) (first : ℕ) :
    slice (f.read (extentOffset (first + position / extentPayloadSize) + extentHeaderSize +
        position % extentPayloadSize / ioChunkSize * ioChunkSize) ioChunkSize)
      (position % extentPayloadSize -
        position % extentPayloadSize / ioChunkSize * ioChunkSize)
      (pageTake count position wanted) =
      wireBytes f first position (pageTake count position wanted) := by
  have hwithin : position % extentPayloadSize % ioChunkSize < ioChunkSize :=
    Nat.mod_lt _ (by decide)
  have htake : pageTake count position wanted ≤
      ioChunkSize - position % extentPayloadSize % ioChunkSize := by
    rw [pageTake]
    exact (min_le_left _ _).trans (min_le_right _ _)
  rw [within_sub_page]
  refine (Flash.slice_read (Nat.add_le_of_le_sub' hwithin.le htake)).trans ?_
  refine List.map_congr_left fun i hi => ?_
  exact congrArg f ((Nat.add_assoc _ _ _).trans (wireAddress_turn (List.mem_range.mp hi)).symm)

end Pages

section Answers

/-- What a read of an indexed wire relies on. -/
structure Readable (sha256 : Sha256) (access : BoundLxmfStore) (f : Flash) (entry : IndexEntry) :
    Prop where
  shape : ValidShape access
  required : requiredExtents access.usizeValues entry.wireLen = some entry.extentCount
  inside : entry.firstExtent + entry.extentCount ≤ access.binding.length / extentSize
  headers : ∀ index < entry.extentCount,
    f.read (extentOffset (entry.firstExtent + index)) extentHeaderSize =
      indexedHeader sha256 access.binding entry index

/-- The wire of a committed record can be read. -/
theorem CommittedAt.readable {first : ℕ} {header : HeaderFields} (hvalid : ValidShape access)
    (h : CommittedAt sha256 access f first header) :
    Readable sha256 access f (recordEntry first header) := by
  obtain ⟨-, -, -, hrequired, -⟩ := of_decodeHeader h.decoded
  refine ⟨hvalid, hrequired, h.inside, fun index hindex => ?_⟩
  have hheader := h.headers index hindex
  rw [snapshotAt_header, expectedHeader] at hheader
  exact hheader

/-- The indexed headers are found. -/
theorem Readable.validate (h : Readable sha256 access f entry) {validated : Option ℕ} {index : ℕ}
    (hindex : index < entry.extentCount) :
    (validateIndexedExtent sha256 access access.binding entry validated index :
      ReadAction ε Unit).answer f = .ok () := by
  unfold validateIndexedExtent
  split
  · rfl
  · rw [validateIndexedHeader, (Query.readAction _ _ _).answer_bind, Action.answer_read,
      Codec.ok_bind, Action.answer_ite, if_pos (h.headers index hindex)]
    rfl

/-- One turn copies the wire from its position on. -/
theorem Readable.page (h : Readable sha256 access f entry) {position wanted : ℕ}
    (hposition : position < wireCapacity entry.extentCount) :
    (readIndexedPage access access.binding entry position wanted :
      ReadAction ε (List Byte)).answer f =
        .ok (wireBytes f entry.firstExtent position
          (pageTake entry.extentCount position wanted)) := by
  obtain ⟨hindex, -⟩ := position_inside hposition
  have hmod : position % extentPayloadSize < extentPayloadSize := Nat.mod_lt _ (by decide)
  have hinside := h.inside
  have hextent : entry.firstExtent + position / extentPayloadSize <
      access.binding.length / extentSize := by omega
  have hpage := page_inside_extent hmod hextent
  have hrange := h.shape.range
  have hslice := @slice_page entry.extentCount position wanted f entry.firstExtent
  rw [pageTake, ← within_sub_page] at hslice
  rw [readIndexedPage, Action.answer_ensure_bind, if_pos
    ⟨hpage.trans_lt ((Nat.le_add_left _ _).trans_lt hrange), hpage⟩,
    (Query.readAction _ _ _).answer_bind, Action.answer_read, Codec.ok_bind, Action.answer_pure,
    hslice, pageTake, ← within_sub_page]

/-- The turns copy the wanted part of the wire. The induction is on the turns: every one copies at
least one byte. -/
theorem Readable.pages (h : Readable sha256 access f entry) {turns position wanted : ℕ}
    {validated : Option ℕ} (hturns : wanted ≤ turns)
    (hend : position + wanted ≤ wireCapacity entry.extentCount) :
    (readIndexedPages sha256 access access.binding entry turns position wanted validated :
      ReadAction ε (List Byte)).answer f = .ok (wireBytes f entry.firstExtent position wanted) := by
  induction turns generalizing position wanted validated with
  | zero =>
    obtain rfl := Nat.le_zero.mp hturns
    rfl
  | succ turns ih =>
    rw [readIndexedPages, Action.answer_ite]
    by_cases hwanted : 0 < wanted
    · have hposition : position < wireCapacity entry.extentCount := by omega
      obtain ⟨hindex, hwithin⟩ := position_inside hposition
      have hpos := pageTake_pos hposition hwanted
      have hle := pageTake_le entry.extentCount position wanted
      have hsplit := wireBytes_append f entry.firstExtent position
        (pageTake entry.extentCount position wanted)
        (wanted - pageTake entry.extentCount position wanted)
      rw [Nat.add_sub_cancel' hle] at hsplit
      rw [if_pos hwanted, Action.answer_ensure_bind, if_pos hindex, Action.answer_ensure_bind,
        if_pos hwithin, (query_validateIndexedExtent _ _).answer_bind, h.validate hindex,
        Codec.ok_bind, (query_readIndexedPage _ _).answer_bind, h.page hposition, Codec.ok_bind,
        length_wireBytes, (query_readIndexedPages _ _ _ _).answer_bind,
        ih (by omega) (by omega), Codec.ok_bind, Action.answer_pure, hsplit]
    · obtain rfl := Nat.eq_zero_of_not_pos hwanted
      rw [if_neg hwanted]
      rfl

end Answers

section Chunks

variable {offset : ℕ} {output : List Byte}

/-- Part of a wire. -/
theorem slice_wireBytes {first position length start n : ℕ} (hinside : start + n ≤ length) :
    slice (wireBytes f first position length) start n = wireBytes f first (position + start) n := by
  obtain ⟨rest, rfl⟩ := Nat.exists_eq_add_of_le hinside
  rw [← wireBytes_append, ← wireBytes_append, slice,
    List.append_assoc, List.drop_left' (length_wireBytes _ _ _ _),
    List.take_left' (length_wireBytes _ _ _ _)]

/-- The wire of an indexed record is what its extents hold between headers and footer. -/
theorem Readable.storedWire (h : Readable sha256 access f entry) :
    LxmfStore.storedWire f entry = wireBytes f entry.firstExtent 0 entry.wireLen := by
  rw [LxmfStore.storedWire, take_payloadAt (requiredExtents_pos h.required)
    (le_wireCapacity h.required), wireBytes]
  refine List.map_congr_left fun position _ => ?_
  rw [Nat.zero_add]

/-- The wire of a readable entry is read in every range. -/
theorem Readable.wire (h : Readable sha256 access f entry) {wanted : ℕ}
    (hend : offset + wanted ≤ entry.wireLen) :
    (readIndexedWire sha256 access access.binding entry offset wanted :
      ReadAction ε (List Byte)).answer f =
        .ok (slice (LxmfStore.storedWire f entry) offset wanted) := by
  have hextents : access.binding.length / extentSize ≤ access.binding.length := Nat.div_le_self _ _
  have hrange := h.shape.range
  have hspan : entry.firstExtent + entry.extentCount < access.usizeValues :=
    (h.inside.trans hextents).trans_lt ((Nat.le_add_left _ _).trans_lt hrange)
  rw [readIndexedWire, Action.answer_ensure_bind, if_pos h.required, Action.answer_ensure_bind,
    if_pos ⟨hspan, h.inside⟩, h.pages le_rfl (hend.trans (le_wireCapacity h.required)),
    h.storedWire, slice_wireBytes hend, Nat.zero_add]

/-- A chunk is the part of the wire from its offset on that the buffer has room for. -/
theorem answer_readWireChunk (hread : validateReadAccess access = .ok ())
    (hbinding : store.binding = access.binding) (hentry : store.entryForHandle handle = some entry)
    (h : Readable sha256 access f entry) (hoffset : offset ≤ entry.wireLen) :
    (readWireChunk sha256 access store handle offset output :
      ReadAction ε (LxmfWireChunk × List Byte)).answer f =
        .ok (⟨offset, entry.wireLen, min output.length (entry.wireLen - offset)⟩,
          slice (storedWire f entry) offset (min output.length (entry.wireLen - offset)) ++
            output.drop (min output.length (entry.wireLen - offset))) := by
  have hchecks : (validateReadAccess access >>= fun _ =>
      validateSameBinding store.binding access.binding) = .ok () := by
    rw [hread, hbinding]
    exact validateSameBinding_self _
  rw [readWireChunk, hchecks]
  dsimp only
  rw [hentry]
  dsimp only
  rw [if_neg (not_lt.mpr hoffset), hbinding]
  split
  · next hnothing =>
    rw [hnothing]
    rfl
  · have hend : offset + min output.length (entry.wireLen - offset) ≤ entry.wireLen := by omega
    have hquery : Query LxmfWireReadError.backend
      (readIndexedWire sha256 access access.binding entry
        offset (min output.length (entry.wireLen - offset)) : ReadAction ε (List Byte)).run :=
      (Query.ensureAction _ _ _).bind fun _ => (Query.ensureAction _ _ _).bind fun _ =>
        query_readIndexedPages _ _ _ _
    rw [hquery.answer_bind, h.wire hend, Codec.ok_bind]
    rfl

/-- A read past the end of a wire is refused before anything is read. -/
theorem readWireChunk_past (hread : validateReadAccess access = .ok ())
    (hbinding : store.binding = access.binding) (hentry : store.entryForHandle handle = some entry)
    (hoffset : entry.wireLen < offset) :
    (readWireChunk sha256 access store handle offset output :
      ReadAction ε (LxmfWireChunk × List Byte)) =
        throw (.offsetOutOfRange offset entry.wireLen) := by
  have hchecks : (validateReadAccess access >>= fun _ =>
      validateSameBinding store.binding access.binding) = .ok () := by
    rw [hread, hbinding]
    exact validateSameBinding_self _
  rw [readWireChunk, hchecks]
  dsimp only
  rw [hentry]
  dsimp only
  rw [if_pos hoffset]

end Chunks

section Ranges

/-- A header of a record, or a part of its wire area. -/
def WireRange (entry : IndexEntry) (range : ReadRange) : Prop :=
  ∃ index < entry.extentCount,
    range = (extentOffset (entry.firstExtent + index), extentHeaderSize) ∨
    range.Inside (extentOffset (entry.firstExtent + index) + extentHeaderSize)
      (extentOffset (entry.firstExtent + index) + extentHeaderSize +
        payloadCapacity entry.extentCount index)

/-- The check of an extent reads in the record of its entry only. -/
theorem readsOnly_validateIndexedExtent {validated : Option ℕ} {index : ℕ}
    (hindex : index < entry.extentCount) :
    ReadsOnly (WireRange entry) (validateIndexedExtent sha256 access binding entry validated index :
      ReadAction ε Unit).run := by
  unfold validateIndexedExtent
  split
  · exact .pureAction _
  · refine (ReadsOnly.readAction ⟨index, hindex, .inl rfl⟩).bind fun header => ?_
    split
    · exact .pureAction _
    · split
      · exact .throwAction _
      · exact .throwAction _

/-- A page is read in the record of its entry only. -/
theorem readsOnly_readIndexedPage {position wanted : ℕ}
    (hindex : position / extentPayloadSize < entry.extentCount)
    (hwithin : position % extentPayloadSize <
      payloadCapacity entry.extentCount (position / extentPayloadSize)) :
    ReadsOnly (WireRange entry) (readIndexedPage access binding entry position wanted :
      ReadAction ε (List Byte)).run := by
  refine ReadsOnly.ensure_bind fun _ => (ReadsOnly.readAction ⟨_, hindex, .inr ⟨?_, ?_⟩⟩).bind
    fun _ => .pureAction _
  · exact Nat.le_add_right _ _
  · have hpage := payloadCapacity_page hwithin
    dsimp only
    omega

/-- Whatever the backend answers, a read of a wire touches the headers and the wire area of its
record. -/
theorem readsOnly_readIndexedPages (turns position wanted : ℕ) (validated : Option ℕ) :
    ReadsOnly (WireRange entry) (readIndexedPages sha256 access binding entry turns position wanted
      validated : ReadAction ε (List Byte)).run := by
  induction turns generalizing position wanted validated with
  | zero => exact .pureAction _
  | succ turns ih =>
    unfold readIndexedPages
    split
    · exact ReadsOnly.ensure_bind fun hindex => ReadsOnly.ensure_bind fun hwithin =>
        (readsOnly_validateIndexedExtent hindex).bind fun _ =>
          (readsOnly_readIndexedPage hindex hwithin).bind fun _ =>
            (ih _ _ _).bind fun _ => .pureAction _
    · exact .pureAction _

/-- A chunk is read in the record of its entry only. -/
theorem readsOnly_readWireChunk {offset : ℕ} {output : List Byte}
    (hentry : store.entryForHandle handle = some entry) :
    ReadsOnly (WireRange entry) (readWireChunk sha256 access store handle offset output :
      ReadAction ε (LxmfWireChunk × List Byte)).run := by
  unfold readWireChunk
  split
  · exact .throwAction _
  rw [hentry]
  dsimp only
  split_ifs
  · exact .throwAction _
  · exact .pureAction _
  · exact (ReadsOnly.ensure_bind fun _ => ReadsOnly.ensure_bind fun _ =>
      readsOnly_readIndexedPages _ _ _ _).bind fun _ => .pureAction _

end Ranges

section Exact

variable (sha256) (access) in
/-- Read a wire chunk after chunk into buffers of any lengths. -/
def readChunks (store : MountedLxmfStore) (handle : MessageHandle) :
    ℕ → List (List Byte) → ReadAction ε (List Byte)
  | _, [] => pure []
  | offset, output :: outputs => do
    let chunk ← readWireChunk sha256 access store handle offset output
    let rest ← readChunks store handle (offset + chunk.1.bytesRead) outputs
    pure (chunk.2.take chunk.1.bytesRead ++ rest)

/-- A sequence of chunks only reads. -/
theorem query_readChunks (outputs : List (List Byte)) (offset : ℕ) :
    Query LxmfWireReadError.backend (readChunks sha256 access store handle offset outputs :
      ReadAction ε (List Byte)).run := by
  induction outputs generalizing offset with
  | nil => exact .pureAction _ _
  | cons output outputs ih =>
    exact (query_readWireChunk _ _ _).bind fun _ => (ih _).bind fun _ => .pureAction _ _

/-- Chunk after chunk is one part of the wire. -/
theorem answer_readChunks (hread : validateReadAccess access = .ok ())
    (hbinding : store.binding = access.binding) (hentry : store.entryForHandle handle = some entry)
    (h : Readable sha256 access f entry) {outputs : List (List Byte)} {offset : ℕ}
    (hoffset : offset ≤ entry.wireLen) :
    (readChunks sha256 access store handle offset outputs : ReadAction ε (List Byte)).answer f =
      .ok (slice (storedWire f entry) offset (outputs.map List.length).sum) := by
  induction outputs generalizing offset with
  | nil => rfl
  | cons output outputs ih =>
    have hlength : (storedWire f entry).length = entry.wireLen := by
      rw [h.storedWire, length_wireBytes]
    have htake : (slice (storedWire f entry) offset
        (min output.length (entry.wireLen - offset))).length =
          min output.length (entry.wireLen - offset) := by
      rw [slice, List.length_take, List.length_drop, hlength]
      omega
    have hrest : offset + min output.length (entry.wireLen - offset) ≤ entry.wireLen := by omega
    have hslice : slice (storedWire f entry) offset
          (min output.length (entry.wireLen - offset)) ++
        slice (storedWire f entry) (offset + min output.length (entry.wireLen - offset))
          (outputs.map List.length).sum =
        slice (storedWire f entry) offset (output.length + (outputs.map List.length).sum) := by
      rw [← slice_add]
      rcases Nat.le_total output.length (entry.wireLen - offset) with hle | hle
      · rw [Nat.min_eq_left hle]
      · -- the wire ends in this chunk
        have hend : (List.drop offset (storedWire f entry)).length ≤ entry.wireLen - offset := by
          rw [List.length_drop, hlength]
        rw [Nat.min_eq_right hle, slice, slice, List.take_of_length_le (by omega),
          List.take_of_length_le (by omega)]
    rw [readChunks, (query_readWireChunk _ _ _).answer_bind,
      answer_readWireChunk hread hbinding hentry h hoffset, Codec.ok_bind,
      (query_readChunks _ _).answer_bind, ih hrest, Codec.ok_bind, Action.answer_pure,
      List.map_cons, List.sum_cons]
    dsimp only
    rw [List.take_left' htake, hslice]

/-- In every run, whatever the backend reports and wherever power was lost: the wire of an indexed
message has its length and its digest, and is the one that was committed under its handle. A chunk
is exactly the part of the wire that starts at its offset and that the buffer has room for, chunk
after chunk gives the wire without gaps, an offset past the end is refused, and no read touches
anything but headers of the record and its wire area. -/
theorem chunks_exact (h : LxmfSystem.Reachable ε φ sha256 access system)
    (hstore : system.store = some store) (hentry : store.entryForHandle handle = some entry) :
    (storedWire system.flash entry).length = entry.wireLen ∧
      sha256 (storedWire system.flash entry) = entry.receipt.fingerprint.exactWireDigest ∧
      (∀ message ∈ system.acknowledged, message.1.handle = handle →
        storedWire system.flash entry = message.2.bytes) ∧
      (∀ offset output, offset ≤ entry.wireLen →
        (readWireChunk sha256 access store handle offset output :
          ReadAction ε (LxmfWireChunk × List Byte)).answer system.flash =
          .ok (⟨offset, entry.wireLen, min output.length (entry.wireLen - offset)⟩,
            slice (storedWire system.flash entry) offset
              (min output.length (entry.wireLen - offset)) ++
            output.drop (min output.length (entry.wireLen - offset)))) ∧
      (∀ offset outputs, offset ≤ entry.wireLen →
        (readChunks sha256 access store handle offset outputs :
          ReadAction ε (List Byte)).answer system.flash =
          .ok (slice (storedWire system.flash entry) offset (outputs.map List.length).sum)) ∧
      (∀ offset output, entry.wireLen < offset →
        (readWireChunk sha256 access store handle offset output :
          ReadAction ε (LxmfWireChunk × List Byte)) =
          throw (.offsetOutOfRange offset entry.wireLen)) ∧
      ∀ offset output, ReadsOnly (WireRange entry)
        (readWireChunk sha256 access store handle offset output :
          ReadAction ε (LxmfWireChunk × List Byte)).run := by
  obtain ⟨position, pending, horderly⟩ := h.orderly
  have hmounts := horderly.mounts store hstore
  have hread := hmounts.readable
  have hbinding : store.binding = access.binding := by rw [hmounts.store_eq]
  have hentries : store.entries = position.entries := by rw [hmounts.store_eq]
  have hmem : entry ∈ position.entries := by
    rw [← hentries]
    exact List.mem_of_find?_eq_some hentry
  obtain ⟨header, hcommitted, hrecord⟩ := horderly.found.indexed.committed entry hmem
  have hreadable : Readable sha256 access system.flash entry := by
    rw [hrecord]
    exact hcommitted.readable (validShape_of_read hread)
  have hwire := hcommitted.storedWire
  rw [← hrecord] at hwire
  have hlength : entry.wireLen = entry.metadata.lengths.normalizedWire := by rw [hrecord]; rfl
  have hdigest : entry.receipt.fingerprint.exactWireDigest = header.exactWireDigest := by
    rw [hrecord]
    rfl
  refine ⟨?_, ?_, fun message hmessage hhandle => ?_, fun offset output hoffset =>
    answer_readWireChunk hread hbinding hentry hreadable hoffset, fun offset outputs hoffset =>
    answer_readChunks hread hbinding hentry hreadable hoffset, fun offset output hoffset =>
    readWireChunk_past hread hbinding hentry hoffset, fun offset output =>
    readsOnly_readWireChunk hentry⟩
  · rw [hreadable.storedWire, length_wireBytes]
  · rw [hdigest]
    exact hwire.2
  · obtain ⟨entry', hentry', hacknowledged⟩ := h.acknowledged hstore hmessage
    rw [hentries] at hentry'
    have htest := List.find?_some hentry
    have hsame : entry.receipt.handle = handle := of_decide_eq_true htest
    have hnodup : (position.entries.map fun entry => entry.receipt.handle.get).Nodup :=
      List.pairwise_map.mpr (horderly.found.ascending.imp Nat.ne_of_lt)
    obtain rfl : entry' = entry := List.inj_on_of_nodup_map hnodup hentry' hmem
      (by rw [hacknowledged.receipt, hhandle, hsame])
    have hcommittedWire := hacknowledged.wire
    rw [WireAt, message.2.length_bytes, ← hacknowledged.metadata, ← hlength] at hcommittedWire
    rw [storedWire, hcommittedWire]

/-- A committed message of 112 bytes is read in two chunks. -/
theorem chunks_exact_sample :
    ∃ system store entry, LxmfSystem.Reachable Unit Faults.none Nor.sha256 twoExtents system ∧
      system.store = some store ∧ store.entries = [entry] ∧
      (readChunks Nor.sha256 twoExtents store entry.receipt.handle 0
          [List.replicate 100 0, List.replicate 100 0] : ReadAction Unit (List Byte)).answer
        system.flash = .ok (slice (storedWire system.flash entry) 0 200) := by
  obtain ⟨system, hreachable, -, hstore, -⟩ := committedSystem_reachable
    (admission_sample Nor.sha256)
  have hentry : ((emptyStore twoExtents).complete (samplePending Nor.sha256)
      (pendingEntry (samplePending Nor.sha256))).entryForHandle
        (pendingEntry (samplePending Nor.sha256)).receipt.handle =
      some (pendingEntry (samplePending Nor.sha256)) := by
    rw [MountedLxmfStore.entryForHandle]
    exact List.find?_cons_of_pos (decide_eq_true rfl)
  obtain ⟨-, -, -, -, htiles, -⟩ := chunks_exact hreachable hstore hentry
  exact ⟨system, _, _, hreachable, hstore, rfl, htiles 0 _ (Nat.zero_le _)⟩

end Exact

end LxmfStore
