import ReticulumFirmware.LxmfStore.Commit
import ReticulumFirmware.LxmfStore.Walk

/-!
# The wire area of a record

Every byte of a wire has one address in the extents of its record. The pages that a commit
programs, the pages that a digest reads and the bytes of the area are all given by it.
-/

namespace LxmfStore

open Nor Lxmf

section Address

/-- Address of one byte of a wire. -/
def wireAddress (first position : ℕ) : ℕ :=
  extentOffset (first + position / extentPayloadSize) + extentHeaderSize +
    position % extentPayloadSize

/-- Wire bytes that a record of some extents can hold. -/
def wireCapacity (count : ℕ) : ℕ := count * extentPayloadSize - recordFooterSize

/-- An extent has 4096 bytes. -/
theorem extentOffset_eq (extent : ℕ) : extentOffset extent = extent * 4096 := rfl

/-- A byte of the wire lies behind the header of its extent. -/
theorem wireAddress_eq (first position : ℕ) :
    wireAddress first position = (first + position / 3584) * 4096 + 512 + position % 3584 := rfl

/-- The extents of a record hold 3584 bytes of wire each, but for the footer. -/
theorem wireCapacity_eq (count : ℕ) : wireCapacity count = count * 3584 - 256 := rfl

/-- An extent holds 14 pages of the wire, the last one 13. -/
theorem payloadCapacity_pages (count index : ℕ) :
    payloadCapacity count index / ioChunkSize = if index + 1 = count then 13 else 14 := by
  unfold payloadCapacity
  split
  · rfl
  · rfl

/-- A wire that needs `count` extents fits them. -/
theorem le_wireCapacity {usizeValues wireLen count : ℕ}
    (h : requiredExtents usizeValues wireLen = some count) : wireLen ≤ wireCapacity count := by
  unfold requiredExtents at h
  split_ifs at h
  have hcount : (wireLen + 256 + 3583) / 3584 = count := Option.some.inj h
  rw [wireCapacity_eq]
  omega

/-- The bytes of a page follow each other. -/
theorem wireAddress_page {first page within : ℕ} (hwithin : within < ioChunkSize) :
    wireAddress first (page * ioChunkSize + within) =
      wireAddress first (page * ioChunkSize) + within := by
  change within < 256 at hwithin
  rw [wireAddress_eq, wireAddress_eq, show ioChunkSize = 256 from rfl]
  omega

/-- The extent of a page and its position between header and footer. -/
theorem wireAddress_bounds {page count : ℕ} (first : ℕ)
    (hpage : page * 256 + 256 ≤ wireCapacity count) :
    ∃ index within, index < count ∧ within + 256 ≤ 3584 ∧
      (index + 1 = count → within + 256 ≤ 3328) ∧
      wireAddress first (page * ioChunkSize) = (first + index) * 4096 + 512 + within := by
  rw [wireCapacity_eq] at hpage
  refine ⟨page * 256 / 3584, page * 256 % 3584, ?_, ?_, ?_, rfl⟩
  · omega
  · omega
  · omega

/-- Pages in wire order are in ascending order of their addresses, without overlap. -/
theorem wireAddress_page_le {first page page' : ℕ} (h : page < page') :
    wireAddress first (page * ioChunkSize) + ioChunkSize ≤
      wireAddress first (page' * ioChunkSize) := by
  rw [wireAddress_eq, wireAddress_eq, show ioChunkSize = 256 from rfl]
  omega

/-- The extents of a record one after the other, each with the same number of pages. -/
theorem flatMap_range_pages {α : Type} (pages : ℕ) (address : ℕ → α) (count : ℕ) :
    ((List.range count).flatMap fun index =>
        (List.range pages).map fun page => address (index * pages + page)) =
      (List.range (count * pages)).map address := by
  induction count with
  | zero => simp
  | succ count ih =>
    rw [List.range_succ, List.flatMap_append, ih, List.flatMap_singleton, Nat.succ_mul,
      List.range_add, List.map_append, List.map_map]
    rfl

/-- The pages of a record in wire order. -/
theorem wirePageOffsets_eq {first count : ℕ} (hcount : 0 < count) :
    wirePageOffsets first count =
      (List.range (wireCapacity count / ioChunkSize)).map fun page =>
        wireAddress first (page * ioChunkSize) := by
  obtain ⟨count, rfl⟩ : ∃ before, count = before + 1 := ⟨count - 1, by omega⟩
  have hpages : wireCapacity (count + 1) / ioChunkSize = count * 14 + 13 := by
    rw [wireCapacity_eq, show ioChunkSize = 256 from rfl]
    omega
  have hfull : ((List.range count).flatMap fun index =>
      (List.range (payloadCapacity (count + 1) index / ioChunkSize)).map fun page =>
        extentOffset (first + index) + extentHeaderSize + page * ioChunkSize) =
      (List.range count).flatMap fun index => (List.range 14).map fun page =>
        wireAddress first ((index * 14 + page) * ioChunkSize) := by
    refine List.flatMap_congr fun index hindex => ?_
    have hlt := List.mem_range.mp hindex
    rw [payloadCapacity_pages, if_neg (by omega)]
    refine List.map_congr_left fun page hpage => ?_
    have hpage := List.mem_range.mp hpage
    rw [wireAddress_eq, extentOffset_eq, show ioChunkSize = 256 from rfl,
      show extentHeaderSize = 512 from rfl]
    omega
  rw [wirePageOffsets, List.range_succ, List.flatMap_append, hfull, List.flatMap_singleton,
    payloadCapacity_pages, if_pos rfl, hpages, List.range_add, List.map_append, List.map_map,
    flatMap_range_pages 14 fun page => wireAddress first (page * ioChunkSize),
    List.append_right_inj]
  refine List.map_congr_left fun page hpage => ?_
  have hpage := List.mem_range.mp hpage
  rw [Function.comp_apply, wireAddress_eq, extentOffset_eq, show ioChunkSize = 256 from rfl,
    show extentHeaderSize = 512 from rfl]
  omega

end Address

section Payload

variable {f : Flash}

/-- Pages of contiguous bytes one after the other. -/
theorem flatMap_read_pages (f : Flash) (size : ℕ) (address : ℕ → ℕ)
    (haddress : ∀ page within, within < size → address (page * size + within) =
      address (page * size) + within) (pages : ℕ) :
    ((List.range pages).flatMap fun page => f.read (address (page * size)) size) =
      (List.range (pages * size)).map fun position => f (address position) := by
  induction pages with
  | zero => simp
  | succ pages ih =>
    rw [List.range_succ, List.flatMap_append, ih, List.flatMap_singleton, Nat.succ_mul,
      List.range_add, List.map_append, List.append_right_inj, List.map_map, Flash.read]
    refine List.map_congr_left fun within hwithin => ?_
    rw [Function.comp_apply, haddress pages within (List.mem_range.mp hwithin)]

/-- The capacity is a number of whole pages. -/
theorem wireCapacity_pages {count : ℕ} (hcount : 0 < count) :
    wireCapacity count / ioChunkSize * ioChunkSize = wireCapacity count := by
  rw [wireCapacity_eq, show ioChunkSize = 256 from rfl]
  omega

/-- The wire area is the bytes at the wire's addresses. -/
theorem payloadAt_eq {first count : ℕ} (hcount : 0 < count) :
    payloadAt f first count =
      (List.range (wireCapacity count)).map fun position => f (wireAddress first position) := by
  rw [payloadAt, wirePageOffsets_eq hcount, List.flatMap_map,
    flatMap_read_pages f ioChunkSize (wireAddress first) fun _ _ => wireAddress_page,
    wireCapacity_pages hcount]

/-- The start of the wire area. -/
theorem take_payloadAt {first count length : ℕ} (hcount : 0 < count)
    (hlength : length ≤ wireCapacity count) :
    (payloadAt f first count).take length =
      (List.range length).map fun position => f (wireAddress first position) := by
  rw [payloadAt_eq hcount, ← List.map_take, List.take_range, Nat.min_eq_left hlength]

/-- A wire stands in the wire area of a span. -/
def WireAt (f : Flash) (first count : ℕ) (wire : List Byte) : Prop :=
  (payloadAt f first count).take wire.length = wire

end Payload

section Cursor

namespace CandidateCursor

variable {cursor : CandidateCursor}

/-- The whole wire under a cursor. -/
def bytes (cursor : CandidateCursor) : List Byte := cursor.first ++ cursor.second

/-- What remains is what is behind the cursor. -/
theorem remaining_eq (cursor : CandidateCursor) :
    cursor.remaining = cursor.bytes.length - cursor.position := by
  rw [remaining, bytes, List.length_append]

/-- The bytes under the cursor are those of the wire. -/
theorem slice_current (cursor : CandidateCursor) {length : ℕ}
    (hlength : length ≤ cursor.current.1.length - cursor.current.2) :
    slice cursor.current.1 cursor.current.2 length = slice cursor.bytes cursor.position length := by
  unfold current at hlength ⊢
  split at hlength
  · next hfirst =>
    rw [if_pos hfirst, bytes, slice, slice, List.drop_append_of_le_length hfirst.le,
      List.take_append_of_le_length (by rw [List.length_drop]; exact hlength)]
  · next hsecond =>
    rw [if_neg hsecond, bytes, slice, slice, List.drop_append,
      List.drop_eq_nil_of_le (not_lt.mp hsecond), List.nil_append]

/-- A filled buffer has the next bytes of the wire. -/
theorem fill_eq (size : ℕ) (cursor : CandidateCursor) :
    cursor.fill size = (slice cursor.bytes cursor.position size,
      { cursor with position := cursor.position + min size cursor.remaining }) := by
  induction size using Nat.strong_induction_on generalizing cursor with
  | _ size ih =>
    rw [fill]
    split
    · next hcopies =>
      have hoffset := offset_lt hcopies.2
      have hwhole : cursor.current.1.length - cursor.current.2 ≤ cursor.remaining := by
        unfold current remaining
        split
        · dsimp only
          omega
        · dsimp only
          omega
      have hrest := ih (size - min size (cursor.current.1.length - cursor.current.2)) (by omega)
        { cursor with position :=
          cursor.position + min size (cursor.current.1.length - cursor.current.2) }
      have hbytes := slice_current cursor (min_le_right size _)
      have htake : min size (cursor.current.1.length - cursor.current.2) ≤ size := min_le_left _ _
      have hleft : min size (cursor.current.1.length - cursor.current.2) ≤ cursor.remaining :=
        (min_le_right _ _).trans hwhole
      dsimp only
      generalize min size (cursor.current.1.length - cursor.current.2) = take at *
      rw [hrest, hbytes]
      refine Prod.ext ?_ ?_
      · change slice cursor.bytes cursor.position take ++
          slice cursor.bytes (cursor.position + take) (size - take) = _
        rw [← slice_add, Nat.add_sub_cancel' htake]
      · change CandidateCursor.mk _ _ _ = CandidateCursor.mk _ _ _
        congr 1
        rw [remaining_eq] at hleft ⊢
        rw [remaining_eq]
        change cursor.position + take +
          min (size - take) (cursor.bytes.length - (cursor.position + take)) = _
        omega
    · next hdone =>
      have hnothing : min size cursor.remaining = 0 := by omega
      rw [hnothing, slice]
      rw [remaining_eq] at hnothing
      refine Prod.ext (List.eq_nil_of_length_eq_zero ?_).symm rfl
      rw [List.length_take, List.length_drop]
      exact hnothing

end CandidateCursor

end Cursor

section Pages

variable {ε : Type}

/-- Pages that a wire of some length occupies. -/
def wirePageCount (length : ℕ) : ℕ := (length + (ioChunkSize - 1)) / ioChunkSize

/-- A page is counted exactly where the wire reaches it. -/
theorem lt_wirePageCount {page length : ℕ} : page < wirePageCount length ↔ page * 256 < length := by
  rw [wirePageCount, show ioChunkSize = 256 from rfl]
  omega

/-- The program of one page of a wire. -/
def wirePatch (first : ℕ) (bytes : List Byte) (page : ℕ) : CheckedPatch ε (LxmfCommitError ε) :=
  programExact (wireAddress first (page * ioChunkSize))
    (wirePage (slice bytes (page * ioChunkSize) ioChunkSize))
    (wirePage (slice bytes (page * ioChunkSize) ioChunkSize)) .wire first

/-- From a page on, a commit programs the pages that are left of the wire. -/
theorem programWirePages_eq {first : ℕ} (cursor : CandidateCursor) (start pages : ℕ)
    (hposition : cursor.position = min (start * ioChunkSize) cursor.bytes.length) :
    (programWirePages first cursor ((List.range' start pages).map fun page =>
        wireAddress first (page * ioChunkSize)) : List (CheckedPatch ε (LxmfCommitError ε))) =
      (List.range' start (min pages (wirePageCount cursor.bytes.length - start))).map
        (wirePatch first cursor.bytes) := by
  induction pages generalizing cursor start with
  | zero =>
    rw [Nat.zero_min]
    rfl
  | succ pages ih =>
    rw [List.range'_succ, List.map_cons, programWirePages]
    by_cases hleft : start * 256 < cursor.bytes.length
    · have hpage : start < wirePageCount cursor.bytes.length := lt_wirePageCount.mpr hleft
      rw [show ioChunkSize = 256 from rfl, Nat.min_eq_left hleft.le] at hposition
      have hremaining : 0 < cursor.remaining := by
        rw [CandidateCursor.remaining_eq, hposition]
        omega
      rw [if_pos hremaining]
      dsimp only
      rw [CandidateCursor.fill_eq, ih,
        show min (pages + 1) (wirePageCount cursor.bytes.length - start) =
        min pages (wirePageCount cursor.bytes.length - (start + 1)) + 1 by omega,
        List.range'_succ, List.map_cons, hposition]
      · rfl
      · change cursor.position + min 256 cursor.remaining =
          min ((start + 1) * 256) cursor.bytes.length
        rw [CandidateCursor.remaining_eq, hposition]
        omega
    · have hpage : ¬ start < wirePageCount cursor.bytes.length :=
        fun h => hleft (lt_wirePageCount.mp h)
      rw [show ioChunkSize = 256 from rfl, Nat.min_eq_right (not_lt.mp hleft)] at hposition
      rw [if_neg (by rw [CandidateCursor.remaining_eq, hposition]; omega),
        show min (pages + 1) (wirePageCount cursor.bytes.length - start) = 0 by omega]
      rfl

/-- A commit programs the pages of the wire. -/
theorem programCandidateWire_eq {first count : ℕ} {candidate : InboundMessageCandidate}
    (hcount : 0 < count) (hfits : candidate.bytes.length ≤ wireCapacity count) :
    (programCandidateWire first count candidate : List (CheckedPatch ε (LxmfCommitError ε))) =
      (List.range (wirePageCount candidate.bytes.length)).map
        (wirePatch first candidate.bytes) := by
  have hbytes : (CandidateCursor.new candidate).bytes = candidate.bytes := rfl
  have hpages : min (wireCapacity count / ioChunkSize)
      (wirePageCount candidate.bytes.length - 0) = wirePageCount candidate.bytes.length := by
    rw [wireCapacity_eq] at hfits ⊢
    rw [wirePageCount, show ioChunkSize = 256 from rfl]
    omega
  rw [programCandidateWire, wirePageOffsets_eq hcount, List.range_eq_range',
    programWirePages_eq, hbytes, hpages, List.range_eq_range']
  rw [Nat.zero_mul, Nat.zero_min]
  rfl

end Pages

section WireAt

variable {f g : Flash} {first count : ℕ}

/-- Every page of the wire is filled up to 256 bytes. -/
theorem length_wirePage_slice (bytes : List Byte) (offset : ℕ) :
    (wirePage (slice bytes offset ioChunkSize)).length = ioChunkSize := by
  have hlength : (slice bytes offset ioChunkSize).length ≤ ioChunkSize := List.length_take_le _ _
  rw [wirePage, List.length_append, List.length_replicate]
  omega

/-- A wire stands in its span exactly if every byte of it stands at its address. -/
theorem wireAt_iff {wire : List Byte} (hcount : 0 < count)
    (hlength : wire.length ≤ wireCapacity count) :
    WireAt f first count wire ↔
      ∀ position < wire.length, wire[position]? = some (f (wireAddress first position)) := by
  rw [WireAt, take_payloadAt hcount hlength]
  constructor
  · intro h position hposition
    rw [← h, List.getElem?_map, List.getElem?_range hposition]
    rfl
  · intro h
    apply List.ext_getElem?
    intro position
    by_cases hposition : position < wire.length
    · rw [h position hposition, List.getElem?_map, List.getElem?_range hposition]
      rfl
    · rw [List.getElem?_eq_none (not_lt.mp hposition),
        List.getElem?_eq_none (by simpa using not_lt.mp hposition)]

/-- A wire whose pages are all programmed stands in its span. -/
theorem wireAt_of_pages {wire : List Byte} (hcount : 0 < count)
    (hlength : wire.length ≤ wireCapacity count)
    (hpages : ∀ page < wirePageCount wire.length,
      f.read (wireAddress first (page * ioChunkSize)) ioChunkSize =
        wirePage (slice wire (page * ioChunkSize) ioChunkSize)) :
    WireAt f first count wire := by
  refine (wireAt_iff hcount hlength).mpr fun position hposition => ?_
  have hwithin : position % ioChunkSize < ioChunkSize := Nat.mod_lt _ (by decide)
  have hsplit : position / ioChunkSize * ioChunkSize + position % ioChunkSize = position :=
    Nat.div_add_mod' _ _
  have hpage := hpages (position / ioChunkSize) (lt_wirePageCount.mpr (by
    change position / 256 * 256 < wire.length
    omega))
  have hread : (f.read (wireAddress first (position / ioChunkSize * ioChunkSize))
      ioChunkSize)[position % ioChunkSize]? = some (f (wireAddress first position)) := by
    rw [Flash.getElem?_read hwithin, ← wireAddress_page hwithin, hsplit]
  have hslice : (slice wire (position / ioChunkSize * ioChunkSize) ioChunkSize)[position %
      ioChunkSize]? = wire[position]? := by
    rw [getElem?_slice hwithin, hsplit]
  have hinside : position % ioChunkSize <
      (slice wire (position / ioChunkSize * ioChunkSize) ioChunkSize).length := by
    rw [List.getElem?_eq_getElem hposition] at hslice
    exact (List.getElem?_eq_some_iff.mp hslice).1
  rw [hpage, wirePage, List.getElem?_append_left hinside, hslice] at hread
  exact hread

/-- Flashes that agree on the extents have one payload in them. -/
theorem payloadAt_congr (hagree : f.Agree g (extentOffset first) (extentOffset (first + count))) :
    payloadAt g first count = payloadAt f first count := by
  rw [payloadAt, payloadAt]
  refine List.flatMap_congr fun offset hoffset => ?_
  have hinside := inExtents_of_mem_wirePageOffsets hoffset
  exact (hagree.read_eq hinside.1 hinside.2).symm

/-- A wire stays where it stands as long as its extents are kept. -/
theorem WireAt.congr {wire : List Byte} (h : WireAt f first count wire)
    (hagree : f.Agree g (extentOffset first) (extentOffset (first + count))) :
    WireAt g first count wire := by
  rw [WireAt, payloadAt_congr hagree]
  exact h

end WireAt

end LxmfStore
