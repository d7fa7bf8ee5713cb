import ReticulumFirmware.Nor.Reads
import ReticulumFirmware.Nor.Sha256
import ReticulumFirmware.Ota.Confinement

/-!
# The image format that validation accepts

An application image is a header, segments that each declare their length, a checksum byte,
padding and a digest. Validation of a staged image accepts exactly the images of this form. Its
reads stay inside the image unless the segments leave no room for the checksum byte.
-/

namespace Ota

open Nor

variable {ε : Type}

/-- A segment whose header declares the length of its data. -/
structure Segment where
  header : List Byte
  data : List Byte
  length_header : header.length = 8
  declared : leNat (slice header 4 4) = data.length
  nonempty : data ≠ []

namespace Segment

/-- The stored bytes of a segment. -/
def bytes (segment : Segment) : List Byte := segment.header ++ segment.data

/-- A segment has eight bytes before its data. -/
theorem length_bytes (segment : Segment) : segment.bytes.length = 8 + segment.data.length := by
  rw [bytes, List.length_append, segment.length_header]

/-- A segment has data. -/
theorem data_pos (segment : Segment) : 0 < segment.data.length :=
  List.length_pos_iff.mpr segment.nonempty

end Segment

/-- The data of all segments, in order. -/
def segmentData (segments : List Segment) : List Byte := segments.flatMap Segment.data

/-- The stored bytes of all segments, in order. -/
def segmentBytes (segments : List Segment) : List Byte := segments.flatMap Segment.bytes

/-- An image header and the segments that it counts. -/
structure SegmentTable where
  header : List Byte
  segments : List Segment
  length_header : header.length = 24
  magic : slice header 0 1 = [espImageMagic]
  count : leNat (slice header 1 1) = segments.length
  count_pos : segments ≠ []
  count_le : segments.length ≤ 16
  chip : leNat (slice header 12 2) = 9
  hash : slice header 23 1 = [1]

namespace SegmentTable

/-- The stored bytes of the header and the segments. -/
def bytes (table : SegmentTable) : List Byte := table.header ++ segmentBytes table.segments

/-- The sum of the data of all segments. -/
def checksum (table : SegmentTable) : Byte := xorBytes 0xef (segmentData table.segments)

/-- The header of a table of segments is valid. -/
theorem validHeader (table : SegmentTable) : Ota.validHeader table.header := by
  refine ⟨table.magic, ?_, ?_, table.chip, table.hash⟩
  · rw [table.count]
    exact fun h => table.count_pos (List.length_eq_zero_iff.mp h)
  · rw [table.count]
    exact table.count_le

end SegmentTable

/-- An image: its table, and padding that aligns the digest to sixteen bytes. -/
structure EspImage where
  table : SegmentTable
  padding : List Byte
  aligned : 16 ∣ table.bytes.length + 1 + padding.length
  padding_lt : padding.length < 16

namespace EspImage

/-- The bytes that the digest covers. -/
def signed (image : EspImage) : List Byte :=
  image.table.bytes ++ image.table.checksum :: image.padding

/-- The stored bytes of an image. -/
def bytes (sha256 : Sha256) (image : EspImage) : List Byte :=
  image.signed ++ (sha256 image.signed).toList

end EspImage

section Blocks

variable {α : Type} {g : α → List Byte → α} {base stop fuel cursor : ℕ} {a : α}

/-- Folding the blocks of a range folds its bytes. -/
theorem eval_foldBlocks (hnil : ∀ a, g a [] = a)
    (happend : ∀ a xs ys, g a (xs ++ ys) = g (g a xs) ys)
    (hle : cursor ≤ stop) (hfuel : stop - cursor ≤ fuel) (f : Flash) :
    (foldBlocks base stop (fun a _ block => .ok (g a block))
      fuel cursor a : StoreAction ε α).eval f =
      (.ok (g a (f.read (base + cursor) (stop - cursor))), f) := by
  induction fuel generalizing cursor a with
  | zero =>
    have hdone : stop - cursor = 0 := by omega
    rw [hdone]
    exact congrArg (fun a => (Except.ok a, f)) (hnil a).symm
  | succ fuel ih =>
    unfold foldBlocks
    split
    · rename_i hcursor
      have hsplit : stop - cursor = min (stop - cursor) 256 +
          (stop - (cursor + min (stop - cursor) 256)) := by omega
      refine (Action.eval_bind_ok (Action.eval_read ..)).trans ?_
      refine (Action.eval_bind_ok rfl).trans ?_
      rw [ih (by omega) (by omega), ← happend, ← Nat.add_assoc base, ← Flash.read_add, ← hsplit]
    · rename_i hcursor
      have hdone : stop - cursor = 0 := by omega
      rw [hdone]
      exact congrArg (fun a => (Except.ok a, f)) (hnil a).symm

/-- The blocks of a range are read inside it. -/
theorem reads_foldBlocks (step : α → ℕ → List Byte → Except ProductOtaError α) (f : Flash)
    {range : ReadRange}
    (hrange : range ∈ (foldBlocks base stop step fuel cursor a : StoreAction ε α).reads f) :
    range.Inside (base + cursor) (base + stop) := by
  induction fuel generalizing cursor a with
  | zero => cases hrange
  | succ fuel ih =>
    unfold foldBlocks at hrange
    split at hrange
    · rename_i hcursor
      dsimp only [readFlash] at hrange
      rw [Action.reads_bind_ok (Action.eval_read ..)] at hrange
      obtain hrange | hrange := List.mem_append.mp hrange
      · obtain rfl := List.mem_singleton.mp hrange
        simp only [ReadRange.Inside]
        omega
      · cases hstep : step a cursor (f.read (base + cursor) (min (stop - cursor) 256)) with
        | error error =>
          rw [hstep, Action.reads_bind_error rfl] at hrange
          cases hrange
        | ok next =>
          rw [hstep, Action.reads_bind_ok rfl] at hrange
          exact (ih hrange).mono (by omega) le_rfl
    · cases hrange

end Blocks

/-- Bytes absorbed one part after the other. -/
theorem xorBytes_append (checksum : Byte) (xs ys : List Byte) :
    xorBytes checksum (xs ++ ys) = xorBytes (xorBytes checksum xs) ys := List.foldl_append

section Segments

variable {base imageBytes : ℕ} {state next : ℕ × Byte} {f : Flash}

/-- What checking one segment answers. -/
theorem eval_validateSegment (base imageBytes : ℕ) (state : ℕ × Byte) (f : Flash) :
    (validateSegment base imageBytes state : StoreAction ε (ℕ × Byte)).eval f =
      if state.1 + 8 ≤ imageBytes then
        let length := leNat (f.read (base + state.1 + 4) 4)
        if ¬ (length = 0 ∨ state.1 + 8 + length > imageBytes) then
          (.ok (state.1 + 8 + length, xorBytes state.2 (f.read (base + (state.1 + 8)) length)), f)
        else (.error .invalidImage, f)
      else (.error .invalidImage, f) := by
  unfold validateSegment
  rw [Action.eval_ensure_bind]
  refine ite_congr rfl (fun _ => ?_) fun _ => rfl
  refine (Action.eval_bind_ok (Action.eval_read ..)).trans ?_
  rw [Action.eval_ensure_bind, Flash.slice_read (by omega)]
  refine ite_congr rfl (fun _ => ?_) fun _ => rfl
  refine (Action.eval_bind_ok (eval_foldBlocks (fun _ => rfl) xorBytes_append (by omega)
    (by omega) f)).trans ?_
  rw [Nat.add_sub_cancel_left]
  rfl

/-- The segment stored at `offset`, if its header is followed by the data that it declares. -/
theorem exists_segment {offset length : ℕ} (hlength : leNat (f.read (offset + 4) 4) = length)
    (hpos : length ≠ 0) :
    ∃ segment : Segment, segment.bytes = f.read offset (8 + length) ∧
      segment.data = f.read (offset + 8) length := by
  refine ⟨⟨f.read offset 8, f.read (offset + 8) length, Flash.length_read .., ?_, ?_⟩, ?_, rfl⟩
  · rw [Flash.slice_read (by omega), hlength, Flash.length_read]
  · exact List.length_pos_iff.mp (by rw [Flash.length_read]; omega)
  · rw [Segment.bytes, Flash.read_add]

/-- The header and the data of a segment that is stored at `offset`. -/
theorem read_segment {offset : ℕ} {segment : Segment}
    (h : f.read offset segment.bytes.length = segment.bytes) :
    leNat (f.read (offset + 4) 4) = segment.data.length ∧
      f.read (offset + 8) segment.data.length = segment.data := by
  have hsplit : f.read offset 8 ++ f.read (offset + 8) segment.data.length =
      segment.header ++ segment.data := by
    rw [← Flash.read_add, ← segment.length_bytes]
    exact h
  have hlength : (f.read offset 8).length = segment.header.length := by
    rw [Flash.length_read, segment.length_header]
  obtain ⟨hheader, hdata⟩ := List.append_inj hsplit hlength
  refine ⟨?_, hdata⟩
  have hslice : slice (f.read offset 8) 4 4 = f.read (offset + 4) 4 := Flash.slice_read (by omega)
  rw [← hslice, hheader, segment.declared]

/-- A segment is accepted exactly when one is stored at the cursor and ends inside the image. -/
theorem validateSegment_ok_iff :
    (validateSegment base imageBytes state : StoreAction ε (ℕ × Byte)).eval f = (.ok next, f) ↔
      ∃ segment : Segment, f.read (base + state.1) segment.bytes.length = segment.bytes ∧
        state.1 + segment.bytes.length ≤ imageBytes ∧
        next = (state.1 + segment.bytes.length, xorBytes state.2 segment.data) := by
  rw [eval_validateSegment]
  constructor
  · intro h
    split at h
    · dsimp only at h
      split at h
      · rename_i hroom hlength
        obtain ⟨segment, hbytes, hdata⟩ := @exists_segment f (base + state.1) _ rfl
          fun hzero => hlength (Or.inl hzero)
        have hlen : segment.bytes.length = 8 + leNat (f.read (base + state.1 + 4) 4) := by
          rw [hbytes, Flash.length_read]
        have hnext := Except.ok.inj (Prod.ext_iff.mp h).1
        refine ⟨segment, by rw [hlen, hbytes], by omega, ?_⟩
        rw [← hnext, hlen, hdata, ← Nat.add_assoc base, ← Nat.add_assoc state.1]
      · cases h
    · cases h
  · rintro ⟨segment, hread, hend, rfl⟩
    obtain ⟨hlength, hdata⟩ := read_segment hread
    have hlen := segment.length_bytes
    have hpos := segment.data_pos
    rw [if_pos (by omega), hlength]
    dsimp only
    rw [if_pos (by omega), ← Nat.add_assoc base, hdata, hlen, ← Nat.add_assoc]

/-- Checking a segment leaves the flash alone. -/
theorem exists_eval_validateSegment (base imageBytes : ℕ) (state : ℕ × Byte) (f : Flash) :
    ∃ r, (validateSegment base imageBytes state : StoreAction ε (ℕ × Byte)).eval f = (r, f) :=
  ⟨_, Prod.ext rfl ((query_validateSegment base imageBytes state).run_flash f)⟩

/-- The check of one segment after the other, as many as there are indices. -/
def validateSegments (base imageBytes : ℕ) (indices : List ℕ) (state : ℕ × Byte) :
    StoreAction ε (ℕ × Byte) :=
  indices.foldlM (fun state _ => validateSegment base imageBytes state) state

/-- Segments are validated in turn. -/
theorem validateSegments_cons (index : ℕ) (indices : List ℕ) (state : ℕ × Byte) :
    (validateSegments base imageBytes (index :: indices) state : StoreAction ε (ℕ × Byte)) =
      validateSegment base imageBytes state >>= validateSegments base imageBytes indices :=
  List.foldlM_cons

/-- The loop ends where contiguous segments end, with the checksum of their data. -/
theorem validateSegments_ok_iff (indices : List ℕ) (hle : state.1 ≤ imageBytes) :
    (validateSegments base imageBytes indices state : StoreAction ε (ℕ × Byte)).eval f =
        (.ok next, f) ↔
      ∃ segments : List Segment, segments.length = indices.length ∧
        f.read (base + state.1) (segmentBytes segments).length = segmentBytes segments ∧
        state.1 + (segmentBytes segments).length ≤ imageBytes ∧
        next = (state.1 + (segmentBytes segments).length,
          xorBytes state.2 (segmentData segments)) := by
  induction indices generalizing state next with
  | nil =>
    constructor
    · intro h
      obtain rfl : state = next := Except.ok.inj (Prod.ext_iff.mp h).1
      exact ⟨[], rfl, rfl, hle, rfl⟩
    · rintro ⟨segments, hlength, -, -, rfl⟩
      obtain rfl := List.length_eq_zero_iff.mp hlength
      rfl
  | cons index indices ih =>
    rw [validateSegments_cons]
    constructor
    · intro h
      obtain ⟨r, hr⟩ := exists_eval_validateSegment base imageBytes state f
      cases r with
      | error e =>
        rw [Action.eval_bind_error hr] at h
        cases h
      | ok middle =>
        obtain ⟨segment, hread, hend, rfl⟩ := validateSegment_ok_iff.mp hr
        rw [Action.eval_bind_ok hr, ih hend] at h
        obtain ⟨segments, hlength, hreads, hends, rfl⟩ := h
        dsimp only at hreads hends
        refine ⟨segment :: segments, congrArg (· + 1) hlength, ?_, ?_, ?_⟩
        all_goals simp only [segmentBytes, segmentData, List.flatMap_cons, List.length_append] at *
        · rw [Flash.read_add, hread, Nat.add_assoc base, hreads]
        · omega
        · rw [xorBytes_append, Nat.add_assoc]
    · rintro ⟨segments, hlength, hreads, hends, rfl⟩
      obtain ⟨segment, segments, rfl⟩ := List.exists_cons_of_length_eq_add_one hlength
      simp only [segmentBytes, segmentData, List.flatMap_cons, List.length_append,
        Flash.read_add] at hreads hends ⊢
      obtain ⟨hread, hrest⟩ := List.append_inj hreads (Flash.length_read ..)
      have hsegment : (validateSegment base imageBytes state : StoreAction ε (ℕ × Byte)).eval f =
          (.ok (state.1 + segment.bytes.length, xorBytes state.2 segment.data), f) :=
        validateSegment_ok_iff.mpr ⟨segment, hread, by omega, rfl⟩
      rw [Action.eval_bind_ok hsegment, ih (by dsimp only; omega)]
      refine ⟨segments, Nat.succ.inj hlength, ?_, ?_, ?_⟩
      · rw [← Nat.add_assoc base]
        exact hrest
      · dsimp only [segmentBytes]
        omega
      · rw [xorBytes_append, segmentBytes, segmentData, Nat.add_assoc]

/-- A segment is read between the cursor and the end of the image. -/
theorem reads_validateSegment {range : ReadRange}
    (hrange : range ∈ (validateSegment base imageBytes state : StoreAction ε (ℕ × Byte)).reads f) :
    range.Inside (base + state.1) (base + imageBytes) := by
  unfold validateSegment at hrange
  rw [Action.reads_ensure_bind] at hrange
  split at hrange
  · dsimp only [readFlash] at hrange
    rw [Action.reads_bind_ok (Action.eval_read ..), Action.reads_ensure_bind] at hrange
    obtain hrange | hrange := List.mem_append.mp hrange
    · obtain rfl := List.mem_singleton.mp hrange
      simp only [ReadRange.Inside]
      omega
    · split at hrange
      · rename_i hlength
        rw [Action.reads_bind_ok (eval_foldBlocks (fun _ => rfl) xorBytes_append (by omega)
          (by omega) f)] at hrange
        obtain hrange | hrange := List.mem_append.mp hrange
        · exact (reads_foldBlocks _ f hrange).mono (by omega) (by omega)
        · cases hrange
      · cases hrange
  · cases hrange

/-- The loop reads between its first cursor and the end of the image. -/
theorem reads_validateSegments (indices : List ℕ) (hle : state.1 ≤ imageBytes) {range : ReadRange}
    (hrange : range ∈
      (validateSegments base imageBytes indices state : StoreAction ε (ℕ × Byte)).reads f) :
    range.Inside (base + state.1) (base + imageBytes) := by
  induction indices generalizing state with
  | nil => cases hrange
  | cons index indices ih =>
    rw [validateSegments_cons] at hrange
    obtain ⟨r, hr⟩ := exists_eval_validateSegment base imageBytes state f
    cases r with
    | error e =>
      rw [Action.reads_bind_error hr] at hrange
      exact reads_validateSegment hrange
    | ok middle =>
      rw [Action.reads_bind_ok hr] at hrange
      obtain ⟨segment, -, hend, rfl⟩ := validateSegment_ok_iff.mp hr
      obtain hrange | hrange := List.mem_append.mp hrange
      · exact reads_validateSegment hrange
      · exact (ih hend hrange).mono (by dsimp only; omega) le_rfl

end Segments

section Validation

variable {base imageBytes : ℕ} {f : Flash}

/-- A stored table gives its header and lets the loop pass. -/
theorem table_stored {table : SegmentTable}
    (hread : f.read base table.bytes.length = table.bytes) (hle : table.bytes.length ≤ imageBytes) :
    f.read base 24 = table.header ∧
      (validateSegments base imageBytes (List.range (leNat (slice table.header 1 1))) (24, 0xef) :
        StoreAction ε (ℕ × Byte)).eval f = (.ok (table.bytes.length, table.checksum), f) := by
  have hlength : table.bytes.length = 24 + (segmentBytes table.segments).length := by
    rw [SegmentTable.bytes, List.length_append, table.length_header]
  rw [hlength, Flash.read_add] at hread
  obtain ⟨hheader, hsegments⟩ := List.append_inj hread
    (by rw [Flash.length_read, table.length_header])
  refine ⟨hheader, (validateSegments_ok_iff _ (by dsimp only; omega)).mpr
    ⟨table.segments, ?_, hsegments, by dsimp only; omega, ?_⟩⟩
  · rw [List.length_range, table.count]
  · rw [hlength, SegmentTable.checksum]

/-- The table that a valid header and a passed loop have read. -/
theorem exists_table {next : ℕ × Byte} (hroom : 24 ≤ imageBytes)
    (hheader : validHeader (f.read base 24))
    (hloop : (validateSegments base imageBytes
      (List.range (leNat (slice (f.read base 24) 1 1))) (24, 0xef) :
        StoreAction ε (ℕ × Byte)).eval f = (.ok next, f)) :
    ∃ table : SegmentTable, f.read base table.bytes.length = table.bytes ∧
      table.bytes.length ≤ imageBytes ∧ next = (table.bytes.length, table.checksum) := by
  obtain ⟨segments, hcount, hsegments, hend, rfl⟩ := (validateSegments_ok_iff _ hroom).mp hloop
  rw [List.length_range] at hcount
  obtain ⟨hmagic, hpos, hle, hchip, hhash⟩ := hheader
  have hnonempty : segments ≠ [] := by
    rintro rfl
    exact hpos hcount.symm
  have hlength : (f.read base 24 ++ segmentBytes segments).length =
      24 + (segmentBytes segments).length := by
    rw [List.length_append, Flash.length_read]
  refine ⟨⟨f.read base 24, segments, Flash.length_read .., hmagic, hcount.symm, hnonempty,
    hcount ▸ hle, hchip, hhash⟩, ?_, ?_, ?_⟩
  · rw [SegmentTable.bytes, hlength, Flash.read_add, hsegments]
  · rw [SegmentTable.bytes, hlength]
    exact hend
  · rw [SegmentTable.bytes, hlength, SegmentTable.checksum]

/-- Where the digest starts behind a table of `cursor` bytes and a checksum. -/
def hashOffset (cursor : ℕ) : ℕ := (cursor + 1 + 15) / 16 * 16

/-- The check of what follows the segments. -/
def validateEnd (sha256 : Sha256) (base imageBytes : ℕ) (state : ℕ × Byte) :
    StoreAction ε Unit := do
  let storedChecksum ← readFlash (base + state.1) 1
  Action.ensure (storedChecksum = [state.2]) .invalidImage
  Action.ensure (hashOffset state.1 + 32 = imageBytes) .invalidImage
  let hashed ← foldBlocks base (hashOffset state.1) (fun hashed _ block => .ok (hashed ++ block))
    (hashOffset state.1) 0 []
  let embedded ← readFlash (base + hashOffset state.1) 32
  Action.ensure (embedded = (sha256 hashed).toList) .invalidImage

/-- Validation checks the bounds, the header, the segments and then the end. -/
theorem validateEsp32s3Image_eq (sha256 : Sha256) (slot : OtaSlot) (imageBytes : ℕ) :
    (validateEsp32s3Image sha256 slot imageBytes : StoreAction ε Unit) = (do
      Action.ensure (¬ (imageBytes < 24 ∨ imageBytes > (otaSlotBounds slot).2)) .bounds
      let header ← readFlash (otaSlotBounds slot).1 24
      Action.ensure (validHeader header) .invalidImage
      let state ← validateSegments (otaSlotBounds slot).1 imageBytes
        (List.range (leNat (slice header 1 1))) (24, 0xef)
      validateEnd sha256 (otaSlotBounds slot).1 imageBytes state) := rfl

/-- What is hashed are the contents up to the end. -/
theorem eval_hashed (base stop : ℕ) (f : Flash) :
    (foldBlocks base stop (fun hashed _ block => .ok (hashed ++ block)) stop 0 [] :
      StoreAction ε (List Byte)).eval f = (.ok (f.read base stop), f) := by
  rw [eval_foldBlocks List.append_nil (fun _ _ _ => (List.append_assoc ..).symm) (Nat.zero_le _)
    (Nat.sub_le _ _), Nat.add_zero, Nat.sub_zero, List.nil_append]

/-- The end is accepted exactly when the checksum, the size and the digest fit. -/
theorem validateEnd_ok_iff {sha256 : Sha256} {state : ℕ × Byte} :
    (validateEnd sha256 base imageBytes state : StoreAction ε Unit).eval f = (.ok (), f) ↔
      f.read (base + state.1) 1 = [state.2] ∧ hashOffset state.1 + 32 = imageBytes ∧
        f.read (base + hashOffset state.1) 32 =
          (sha256 (f.read base (hashOffset state.1))).toList := by
  have heval : (validateEnd sha256 base imageBytes state : StoreAction ε Unit).eval f =
      if f.read (base + state.1) 1 = [state.2] then
        if hashOffset state.1 + 32 = imageBytes then
          if f.read (base + hashOffset state.1) 32 =
            (sha256 (f.read base (hashOffset state.1))).toList then (.ok (), f)
          else (.error .invalidImage, f)
        else (.error .invalidImage, f)
      else (.error .invalidImage, f) := by
    unfold validateEnd
    refine (Action.eval_bind_ok (Action.eval_read ..)).trans ?_
    rw [Action.eval_ensure_bind, Action.eval_ensure_bind]
    refine ite_congr rfl (fun _ => ite_congr rfl (fun _ => ?_) fun _ => rfl) fun _ => rfl
    refine (Action.eval_bind_ok (eval_hashed ..)).trans ?_
    refine (Action.eval_bind_ok (Action.eval_read ..)).trans ?_
    unfold Action.ensure
    split
    · rfl
    · rfl
  rw [heval]
  constructor
  · intro h
    split_ifs at h with hchecksum hsize hdigest
    · exact ⟨hchecksum, hsize, hdigest⟩
    all_goals cases h
  · rintro ⟨hchecksum, hsize, hdigest⟩
    rw [if_pos hchecksum, if_pos hsize, if_pos hdigest]

/-- The digest starts at the first multiple of sixteen behind the checksum. -/
theorem hashOffset_eq_iff {cursor padding : ℕ} (hlt : padding < 16) :
    hashOffset cursor = cursor + 1 + padding ↔ 16 ∣ cursor + 1 + padding := by
  rw [hashOffset]
  omega

end Validation

section Acceptance

variable {imageBytes : ℕ} {slot : OtaSlot} {f : Flash}

/-- An accepted image has a table, and its end is accepted behind it. -/
theorem validate_ok_iff {sha256 : Sha256} :
    (validateEsp32s3Image sha256 slot imageBytes : StoreAction ε Unit).eval f = (.ok (), f) ↔
      24 ≤ imageBytes ∧ imageBytes ≤ (otaSlotBounds slot).2 ∧
        ∃ table : SegmentTable, table.bytes.length ≤ imageBytes ∧
          f.read (otaSlotBounds slot).1 table.bytes.length = table.bytes ∧
          (validateEnd sha256 (otaSlotBounds slot).1 imageBytes
            (table.bytes.length, table.checksum) : StoreAction ε Unit).eval f = (.ok (), f) := by
  rw [validateEsp32s3Image_eq, Action.eval_ensure_bind]
  split
  · rename_i hbounds
    refine Iff.trans (Eq.congr_left (Action.eval_bind_ok (Action.eval_read ..))) ?_
    rw [Action.eval_ensure_bind]
    constructor
    · intro h
      split at h
      · rename_i hheader
        obtain ⟨r, hr⟩ : ∃ r, (validateSegments (otaSlotBounds slot).1 imageBytes
            (List.range (leNat (slice (f.read (otaSlotBounds slot).1 24) 1 1))) (24, 0xef) :
              StoreAction ε (ℕ × Byte)).eval f = (r, f) :=
          ⟨_, Prod.ext rfl
            ((Query.foldlM (fun state _ => query_validateSegment ..) _ _).run_flash f)⟩
        cases r with
        | error e =>
          rw [Action.eval_bind_error hr] at h
          cases h
        | ok state =>
          rw [Action.eval_bind_ok hr] at h
          obtain ⟨table, hread, hle, rfl⟩ := exists_table (by omega) hheader hr
          exact ⟨by omega, by omega, table, hle, hread, h⟩
      · cases h
    · rintro ⟨-, -, table, hle, hread, hend⟩
      obtain ⟨hheader, hloop⟩ := @table_stored ε _ _ _ table hread hle
      rw [hheader, if_pos table.validHeader, Action.eval_bind_ok hloop]
      exact hend
  · constructor
    · intro h
      cases h
    · rintro ⟨hroom, hslot, -⟩
      omega

/-- Validation accepts exactly the well-formed images that fit the slot. -/
theorem validateEsp32s3Image_accepts (sha256 : Sha256) (slot : OtaSlot) (imageBytes : ℕ)
    (f : Flash) :
    (validateEsp32s3Image sha256 slot imageBytes : StoreAction ε Unit).eval f = (.ok (), f) ↔
      24 ≤ imageBytes ∧ imageBytes ≤ (otaSlotBounds slot).2 ∧
        ∃ image : EspImage, f.read (otaSlotBounds slot).1 imageBytes = image.bytes sha256 := by
  rw [validate_ok_iff]
  refine and_congr_right fun _ => and_congr_right fun _ => ?_
  constructor
  · rintro ⟨table, -, hread, hend⟩
    obtain ⟨hchecksum, hsize, hdigest⟩ := validateEnd_ok_iff.mp hend
    dsimp only at hchecksum hsize hdigest
    obtain ⟨padding, hpadding⟩ : ∃ padding,
        hashOffset table.bytes.length = table.bytes.length + 1 + padding :=
      Nat.exists_eq_add_of_le (by rw [hashOffset]; omega)
    have hlt : padding < 16 := by
      rw [hashOffset] at hpadding
      omega
    have hsigned : f.read (otaSlotBounds slot).1 (hashOffset table.bytes.length) =
        table.bytes ++ table.checksum ::
          f.read ((otaSlotBounds slot).1 + (table.bytes.length + 1)) padding := by
      rw [hpadding, Flash.read_add, Flash.read_add, hread, hchecksum, List.append_assoc,
        List.singleton_append]
    refine ⟨⟨table, f.read ((otaSlotBounds slot).1 + (table.bytes.length + 1)) padding, ?_, ?_⟩, ?_⟩
    · rw [Flash.length_read]
      exact (hashOffset_eq_iff hlt).mp hpadding
    · rwa [Flash.length_read]
    · rw [← hsize, Flash.read_add, hdigest, hsigned]
      rfl
  · rintro ⟨image, himage⟩
    have hoffset : hashOffset image.table.bytes.length =
        image.table.bytes.length + 1 + image.padding.length :=
      (hashOffset_eq_iff image.padding_lt).mpr image.aligned
    have hsigned : image.signed.length = hashOffset image.table.bytes.length := by
      rw [EspImage.signed, List.length_append, List.length_cons, hoffset]
      omega
    have hsize : imageBytes = hashOffset image.table.bytes.length + 32 := by
      have hlength := congrArg List.length himage
      rwa [Flash.length_read, EspImage.bytes, List.length_append, hsigned,
        Vector.length_toList] at hlength
    rw [hsize, Flash.read_add] at himage
    obtain ⟨hread, hdigest⟩ := List.append_inj himage (by rw [Flash.length_read, hsigned])
    have hparts := hread
    rw [hoffset, Nat.add_assoc, Flash.read_add, EspImage.signed] at hparts
    obtain ⟨htable, hrest⟩ := List.append_inj hparts (Flash.length_read ..)
    rw [Flash.read_add, ← List.singleton_append] at hrest
    obtain ⟨hchecksum, -⟩ := List.append_inj hrest
      (by rw [Flash.length_read, List.length_singleton])
    refine ⟨image.table, by omega, htable, validateEnd_ok_iff.mpr ⟨hchecksum, hsize.symm, ?_⟩⟩
    rw [hread, hdigest]

end Acceptance

section Reads

variable {sha256 : Sha256} {imageBytes : ℕ} {slot : OtaSlot} {f : Flash}

/-- Behind the segments the checksum byte is read, and then nothing outside the image. -/
theorem reads_validateEnd {base : ℕ} {state : ℕ × Byte} {range : ReadRange}
    (hrange : range ∈ (validateEnd sha256 base imageBytes state : StoreAction ε Unit).reads f) :
    range = (base + state.1, 1) ∨ range.Inside base (base + imageBytes) := by
  unfold validateEnd at hrange
  dsimp only [readFlash] at hrange
  rw [Action.reads_bind_ok (Action.eval_read ..), Action.reads_ensure_bind,
    Action.reads_ensure_bind] at hrange
  obtain hrange | hrange := List.mem_append.mp hrange
  · exact Or.inl (List.mem_singleton.mp hrange)
  · right
    split_ifs at hrange with hchecksum hsize
    · rw [Action.reads_bind_ok (eval_hashed ..), Action.reads_bind_ok (Action.eval_read ..),
        Action.reads_ensure, List.append_nil] at hrange
      obtain hrange | hrange := List.mem_append.mp hrange
      · exact (reads_foldBlocks _ f hrange).mono (by omega) (by omega)
      · obtain rfl := List.mem_singleton.mp hrange
        simp only [ReadRange.Inside]
        omega
    all_goals cases hrange

/-- The checksum byte is read right behind the table that is stored. -/
theorem mem_reads_of_table {table : SegmentTable} (hroom : imageBytes ≤ (otaSlotBounds slot).2)
    (hle : table.bytes.length ≤ imageBytes)
    (hread : f.read (otaSlotBounds slot).1 table.bytes.length = table.bytes) :
    ((otaSlotBounds slot).1 + table.bytes.length, 1) ∈
      (validateEsp32s3Image sha256 slot imageBytes : StoreAction ε Unit).reads f := by
  have hlength : table.bytes.length = 24 + (segmentBytes table.segments).length := by
    rw [SegmentTable.bytes, List.length_append, table.length_header]
  obtain ⟨hheader, hloop⟩ := @table_stored ε _ _ _ table hread hle
  rw [validateEsp32s3Image_eq, Action.reads_ensure_bind, if_pos (by omega)]
  dsimp only [readFlash]
  rw [Action.reads_bind_ok (Action.eval_read ..), Action.reads_ensure_bind, hheader,
    if_pos table.validHeader, Action.reads_bind_ok hloop]
  refine List.mem_append_right _ (List.mem_append_right _ ?_)
  unfold validateEnd
  dsimp only [readFlash]
  rw [Action.reads_bind_ok (Action.eval_read ..)]
  exact List.mem_append_left _ (List.mem_singleton.mpr rfl)

/-- Every read stays inside the image, or is the checksum byte behind a stored table. -/
theorem reads_validate {range : ReadRange}
    (hrange : range ∈
      (validateEsp32s3Image sha256 slot imageBytes : StoreAction ε Unit).reads f) :
    imageBytes ≤ (otaSlotBounds slot).2 ∧
      (range.Inside (otaSlotBounds slot).1 ((otaSlotBounds slot).1 + imageBytes) ∨
        ∃ table : SegmentTable, table.bytes.length ≤ imageBytes ∧
          f.read (otaSlotBounds slot).1 table.bytes.length = table.bytes ∧
          range = ((otaSlotBounds slot).1 + table.bytes.length, 1)) := by
  rw [validateEsp32s3Image_eq, Action.reads_ensure_bind] at hrange
  split at hrange
  · rename_i hbounds
    refine ⟨by omega, ?_⟩
    dsimp only [readFlash] at hrange
    rw [Action.reads_bind_ok (Action.eval_read ..), Action.reads_ensure_bind] at hrange
    obtain hrange | hrange := List.mem_append.mp hrange
    · obtain rfl := List.mem_singleton.mp hrange
      refine Or.inl ⟨le_rfl, ?_⟩
      dsimp only
      omega
    · split at hrange
      · rename_i hheader
        obtain ⟨r, hr⟩ : ∃ r, (validateSegments (otaSlotBounds slot).1 imageBytes
            (List.range (leNat (slice (f.read (otaSlotBounds slot).1 24) 1 1))) (24, 0xef) :
              StoreAction ε (ℕ × Byte)).eval f = (r, f) :=
          ⟨_, Prod.ext rfl
            ((Query.foldlM (fun state _ => query_validateSegment ..) _ _).run_flash f)⟩
        have hloop : ∀ range ∈ (validateSegments (otaSlotBounds slot).1 imageBytes
            (List.range (leNat (slice (f.read (otaSlotBounds slot).1 24) 1 1))) (24, 0xef) :
              StoreAction ε (ℕ × Byte)).reads f,
            range.Inside (otaSlotBounds slot).1 ((otaSlotBounds slot).1 + imageBytes) :=
          fun range hmem => (reads_validateSegments _ (by dsimp only; omega) hmem).mono
            (Nat.le_add_right ..) le_rfl
        cases r with
        | error e =>
          rw [Action.reads_bind_error hr] at hrange
          exact Or.inl (hloop range hrange)
        | ok state =>
          rw [Action.reads_bind_ok hr] at hrange
          obtain ⟨table, hread, hle, rfl⟩ := exists_table (by omega) hheader hr
          obtain hrange | hrange := List.mem_append.mp hrange
          · exact Or.inl (hloop range hrange)
          · obtain rfl | hinside := reads_validateEnd hrange
            · exact Or.inr ⟨table, hle, hread, rfl⟩
            · exact Or.inl hinside
      · cases hrange
  · cases hrange

/-- Under any faults, all reads of validation stay inside the image and the slot, unless a
header and the segments it counts fill the whole image. -/
theorem validateEsp32s3Image_reads_inside_iff (sha256 : Sha256) (φ : Faults) (slot : OtaSlot)
    (imageBytes : ℕ) (f : Flash) :
    (∀ range, (validateEsp32s3Image sha256 slot imageBytes : StoreAction ε Unit).run.Issues φ f
        range →
      range.Inside (otaSlotBounds slot).1 ((otaSlotBounds slot).1 + imageBytes) ∧
        range.Inside (otaSlotBounds slot).1
          ((otaSlotBounds slot).1 + (otaSlotBounds slot).2)) ↔
      ¬ (imageBytes ≤ (otaSlotBounds slot).2 ∧
        ∃ table : SegmentTable, f.read (otaSlotBounds slot).1 imageBytes = table.bytes) := by
  constructor
  · rintro hinside ⟨hroom, table, hread⟩
    have hlength : imageBytes = table.bytes.length := by
      rw [← hread, Flash.length_read]
    subst hlength
    have hstop := (hinside _ ((query_validateEsp32s3Image sha256 slot _).issues_iff.mpr
      (mem_reads_of_table hroom le_rfl hread))).1.2
    dsimp only at hstop
    omega
  · intro hfull range hissues
    obtain ⟨hroom, hinside | ⟨table, hle, hread, rfl⟩⟩ :=
      reads_validate ((query_validateEsp32s3Image sha256 slot _).issues_iff.mp hissues)
    · exact ⟨hinside, hinside.mono le_rfl (by omega)⟩
    · have hlt : table.bytes.length ≠ imageBytes := by
        rintro rfl
        exact hfull ⟨hroom, table, hread⟩
      simp only [ReadRange.Inside]
      omega

/-- A header that counts one segment, and that segment of 32 bytes. -/
def flushImage : List Byte :=
  espImageMagic :: 1 :: List.replicate 10 0 ++ 9 :: 0 :: List.replicate 9 0 ++ [1] ++
    List.replicate 4 0 ++ [32, 0, 0, 0] ++ List.replicate 32 0x5a

/-- The one segment of that image is read past the end of the image. -/
theorem validateEsp32s3Image_reads_past_image :
    ∃ range, (validateEsp32s3Image Nor.sha256 .ota0 64 : StoreAction Unit Unit).run.Issues
        Faults.none (Flash.erased.program ota0Offset flushImage) range ∧
      ¬ range.Inside ota0Offset (ota0Offset + 64) := by
  have hread : (Flash.erased.program ota0Offset flushImage).read ota0Offset 64 = flushImage :=
    Flash.read_program_erased fun _ _ => rfl
  let table : SegmentTable := {
    header := flushImage.take 24
    segments := [⟨slice flushImage 24 8, List.replicate 32 0x5a, by decide, by decide,
      by decide⟩]
    length_header := by decide
    magic := by decide
    count := by decide
    count_pos := by decide
    count_le := by decide
    chip := by decide
    hash := by decide }
  have htable : table.bytes = flushImage := by decide
  refine ⟨(ota0Offset + 64, 1), ?_, by simp [ReadRange.Inside]⟩
  refine (query_validateEsp32s3Image Nor.sha256 .ota0 64).issues_iff.mpr ?_
  have hmem := @mem_reads_of_table Unit Nor.sha256 64 .ota0 _ table (by decide)
    (by rw [htable]; decide) (by rw [htable]; exact hread)
  rwa [htable] at hmem

end Reads

end Ota
