import ReticulumFirmware.LxmfStore.Runs

/-!
# Reading a wire in chunks

`MountedLxmfStore::read_wire_chunk` of `lxmf-store`: a chunk is copied page by page through a
scratch page, and the header of every extent on the way is read again and compared before the
first page of the extent.
-/

namespace LxmfStore

open Nor Lxmf

section Model

variable {ε : Type} (sha256 : Sha256) (access : BoundLxmfStore) (binding : LxmfStoreBinding)
  (entry : IndexEntry)

/-- A program that reads a wire. -/
abbrev ReadAction (ε α : Type) := Action ε (LxmfWireReadError ε) α

/-- The header of one extent of an indexed record. -/
def indexedHeader (index : ℕ) : List Byte :=
  encodeHeader sha256 binding entry.formatVersion entry.receipt.handle index entry.extentCount
    entry.metadata entry.receipt.fingerprint.exactWireDigest

/-- Compare the header of an extent with the indexed one. -/
def validateIndexedHeader (index : ℕ) : ReadAction ε Unit := do
  let extent := entry.firstExtent + index
  let header ← Action.read .backend (extentOffset extent) extentHeaderSize
  if header = indexedHeader sha256 binding entry index then pure ()
  else match decodeHeader sha256 access.usizeValues binding header with
    | .error error => throw (.fault (error.intoFault extent binding))
    | .ok _ => throw (.fault (.committedHeaderCorrupt extent))

/-- The header of an extent is compared before the first page of the extent. -/
def validateIndexedExtent (validated : Option ℕ) (index : ℕ) : ReadAction ε Unit :=
  if validated = some index then pure ()
  else validateIndexedHeader sha256 access binding entry index

/-- Copy one page, or what is wanted of it, at a position of the wire. -/
def readIndexedPage (position wanted : ℕ) : ReadAction ε (List Byte) := do
  let index := position / extentPayloadSize
  let within := position % extentPayloadSize
  let page := within / ioChunkSize * ioChunkSize
  let offset := extentOffset (entry.firstExtent + index) + extentHeaderSize + page
  Action.ensure (offset + ioChunkSize < access.usizeValues ∧ offset + ioChunkSize ≤ binding.length)
    (.fault (.mediaChanged entry.firstExtent))
  let scratch ← Action.read .backend offset ioChunkSize
  pure (slice scratch (within - page) (min (min wanted (ioChunkSize - (within - page)))
    (payloadCapacity entry.extentCount index - within)))

/-- Copy the wanted bytes from a position of the wire on. Every turn copies at least one byte, so
as many turns as wanted bytes are enough. -/
def readIndexedPages : ℕ → ℕ → ℕ → Option ℕ → ReadAction ε (List Byte)
  | 0, _, _, _ => pure []
  | turns + 1, position, wanted, validated =>
    if 0 < wanted then do
      let index := position / extentPayloadSize
      Action.ensure (index < entry.extentCount) (.fault (.mediaChanged entry.firstExtent))
      Action.ensure (position % extentPayloadSize < payloadCapacity entry.extentCount index)
        (.fault (.mediaChanged entry.firstExtent))
      validateIndexedExtent sha256 access binding entry validated index
      let copied ← readIndexedPage access binding entry position wanted
      let rest ← readIndexedPages turns (position + copied.length) (wanted - copied.length)
        (some index)
      pure (copied ++ rest)
    else pure []

/-- Read some bytes of an indexed wire. -/
def readIndexedWire (offset wanted : ℕ) : ReadAction ε (List Byte) := do
  Action.ensure (requiredExtents access.usizeValues entry.wireLen = some entry.extentCount)
    (.fault (.mediaChanged entry.firstExtent))
  Action.ensure (entry.firstExtent + entry.extentCount < access.usizeValues ∧
      entry.firstExtent + entry.extentCount ≤ binding.length / extentSize)
    (.fault (.mediaChanged entry.firstExtent))
  readIndexedPages sha256 access binding entry wanted offset wanted none

/-- Read a chunk of an indexed wire into a buffer: the outcome and the buffer afterwards. What a
failed read leaves in the buffer is not modelled. -/
def readWireChunk (store : MountedLxmfStore) (handle : MessageHandle) (offset : ℕ)
    (output : List Byte) : ReadAction ε (LxmfWireChunk × List Byte) :=
  match validateReadAccess access >>= fun _ => validateSameBinding store.binding access.binding with
  | .error error => throw (.binding error)
  | .ok () => match store.entryForHandle handle with
    | none => throw (.notFound handle)
    | some entry =>
      if entry.wireLen < offset then throw (.offsetOutOfRange offset entry.wireLen)
      else
        let bytesRead := min output.length (entry.wireLen - offset)
        if bytesRead = 0 then pure (⟨offset, entry.wireLen, bytesRead⟩, output)
        else do
          let bytes ← readIndexedWire sha256 access store.binding entry offset bytesRead
          pure (⟨offset, entry.wireLen, bytesRead⟩, bytes ++ output.drop bytesRead)

end Model

section Pages

variable {ε : Type} {sha256 : Sha256} {access : BoundLxmfStore} {binding : LxmfStoreBinding}
  {entry : IndexEntry} {f : Flash}

/-- The bytes of a wire from a position on. -/
def wireBytes (f : Flash) (first position length : ℕ) : List Byte :=
  (List.range length).map fun i => f (wireAddress first (position + i))

/-- As many bytes of the wire are read as are asked for. -/
@[simp] theorem length_wireBytes (f : Flash) (first position length : ℕ) :
    (wireBytes f first position length).length = length := by
  rw [wireBytes, List.length_map, List.length_range]

/-- Adjacent ranges of the wire are read as one. -/
theorem wireBytes_append (f : Flash) (first position m n : ℕ) :
    wireBytes f first position m ++ wireBytes f first (position + m) n =
      wireBytes f first position (m + n) := by
  rw [wireBytes, wireBytes, wireBytes, List.range_add, List.map_append, List.map_map,
    List.append_right_inj]
  refine List.map_congr_left fun i _ => ?_
  rw [Function.comp_apply, Nat.add_assoc]

/-- Bytes that one turn copies. -/
def pageTake (count position wanted : ℕ) : ℕ :=
  min (min wanted (ioChunkSize - position % extentPayloadSize % ioChunkSize))
    (payloadCapacity count (position / extentPayloadSize) - position % extentPayloadSize)

/-- The offset in a page is the remainder by its size. -/
theorem within_sub_page (within : ℕ) :
    within - within / ioChunkSize * ioChunkSize = within % ioChunkSize := by
  have := Nat.div_add_mod' within ioChunkSize
  omega

/-- A position of the wire lies in an extent of the record, before the footer. -/
theorem position_inside {count position : ℕ} (h : position < wireCapacity count) :
    position / extentPayloadSize < count ∧
      position % extentPayloadSize < payloadCapacity count (position / extentPayloadSize) := by
  rw [wireCapacity_eq] at h
  unfold payloadCapacity
  change position / 3584 < count ∧ position % 3584 < if _ then 3328 else 3584
  split
  · next hfinal =>
    change position / 3584 + 1 = count at hfinal
    omega
  · next hfinal =>
    omega

/-- A page inside the wire yields at least one byte. -/
theorem pageTake_pos {count position wanted : ℕ} (h : position < wireCapacity count)
    (hwanted : 0 < wanted) : 0 < pageTake count position wanted := by
  obtain ⟨-, hwithin⟩ := position_inside h
  have hmod : position % extentPayloadSize % ioChunkSize < ioChunkSize := Nat.mod_lt _ (by decide)
  exact lt_min (lt_min hwanted (Nat.sub_pos_of_lt hmod)) (Nat.sub_pos_of_lt hwithin)

/-- A page yields no more than is wanted. -/
theorem pageTake_le (count position wanted : ℕ) : pageTake count position wanted ≤ wanted :=
  (min_le_left _ _).trans (min_le_left _ _)

/-- The page of a position ends inside the extent. -/
theorem page_inside_extent {extent within length : ℕ} (hwithin : within < extentPayloadSize)
    (hextent : extent < length / extentSize) :
    extentOffset extent + extentHeaderSize + within / ioChunkSize * ioChunkSize + ioChunkSize ≤
      length := by
  have hpage : within / ioChunkSize * ioChunkSize + ioChunkSize ≤ extentPayloadSize := by
    change within < 3584 at hwithin
    change within / 256 * 256 + 256 ≤ 3584
    omega
  have hlength : (extent + 1) * extentSize ≤ length :=
    (Nat.le_div_iff_mul_le (by decide)).mp hextent
  refine le_trans ?_ hlength
  rw [Nat.succ_mul, extentOffset, Nat.add_assoc, Nat.add_assoc]
  exact Nat.add_le_add_left (Nat.add_le_add_left hpage extentHeaderSize) _

end Pages

end LxmfStore
