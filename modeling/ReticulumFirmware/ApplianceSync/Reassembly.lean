import ReticulumFirmware.ApplianceSync.Session
import ReticulumFirmware.Nor.Sha256

/-!
# Reassembly of a collected message

Whatever a device answers, the client stops after at most one request for each byte, and what it
returns is the message of the summary. A device that returns a nonempty piece of every range it
is asked for gets its message collected.
-/

namespace ApplianceSync

open Nor (Byte Sha256)
open DeviceApi

variable {σ : Type*}

/-- A request and the chunk that answered it. -/
abbrev Read := LxmfReadRequest × LxmfReadChunk

/-- The exchange that a read is. -/
def Read.exchange (read : Read) : Exchange := (read.1, .ok (.lxmfRead read.2))

/-- The bytes of the chunks, in order. -/
def bytesOf (reads : List Read) : List Byte := reads.flatMap (·.2.bytes)

/-- No reads deliver no bytes. -/
@[simp] theorem bytesOf_nil : bytesOf [] = [] := rfl

/-- The bytes of the first read come before those of the later ones. -/
@[simp] theorem bytesOf_cons (read : Read) (reads : List Read) :
    bytesOf (read :: reads) = read.2.bytes ++ bytesOf reads := rfl

/-- The read asks for the bytes of `handle` from `offset` on, and its chunk holds the first of
them. -/
structure Read.At (read : Read) (handle : LxmfMessageHandle) (offset : ℕ) : Prop where
  requested : read.1.handle = handle
  requestedFrom : read.1.offset = offset
  returned : read.2.handle = handle
  returnedFrom : read.2.offset = offset
  length_le : read.2.bytes.length ≤ read.1.maxBytes.get

/-- Every read asks for the bytes after the ones that came back before it. -/
def Contiguous (handle : LxmfMessageHandle) (offset : ℕ) (reads : List Read) : Prop :=
  ∀ before read after, reads = before ++ read :: after →
    read.At handle (offset + (bytesOf before).length)

/-- A session that asks for nothing leaves no gap. -/
theorem contiguous_nil (handle : LxmfMessageHandle) (offset : ℕ) : Contiguous handle offset [] := by
  intro before read after h
  simp at h

/-- One more read before the bytes that follow it. -/
theorem Contiguous.cons {handle : LxmfMessageHandle} {offset : ℕ} {read : Read}
    {reads : List Read} (hread : read.At handle offset)
    (hrest : Contiguous handle (offset + read.2.bytes.length) reads) :
    Contiguous handle offset (read :: reads) := by
  intro before other after h
  cases before with
  | nil =>
    obtain ⟨rfl, -⟩ := List.cons.inj h
    exact hread
  | cons first before =>
    obtain ⟨rfl, hreads⟩ := List.cons.inj h
    have hother := hrest before other after hreads
    rwa [Nat.add_assoc, ← List.length_append] at hother

/-- The exchanges collect `wire` chunk by chunk from its start. -/
def Reassembles (summary : LxmfMessageSummary) (exchanges : List Exchange) (wire : List Byte) :
    Prop :=
  ∃ reads : List Read, exchanges = reads.map Read.exchange ∧ wire = bytesOf reads ∧
    Contiguous summary.handle 0 reads

section Runs

variable {sha256 : Sha256} {reserves : ℕ → Bool} {requester : DeviceApiRequester σ}
  {summary : LxmfMessageSummary}

/-- An accepted chunk answers the request that was made. -/
theorem at_of_accepted {offset next : ℕ} {chunk : LxmfReadChunk}
    (hoffset : offset < summary.normalizedWireLen)
    (h : acceptChunk summary (nextRequest summary offset hoffset) chunk = .ok next) :
    Read.At (nextRequest summary offset hoffset, chunk) summary.handle offset := by
  obtain ⟨hhandle, hchunk, -, hlength, -⟩ := acceptChunk_eq_ok.mp h
  exact ⟨rfl, rfl, hhandle, hchunk, hlength⟩

/-- There are at most as many exchanges as bytes left. -/
theorem length_exchanges_collect (offset : ℕ) (wire : List Byte) (state : σ) :
    (collect sha256 requester summary offset wire state).exchanges.length ≤
      summary.normalizedWireLen - offset := by
  fun_induction collect sha256 requester summary offset wire state with
  | case1 offset wire state hoffset request answered error hanswer =>
    simp only [List.length_cons, List.length_nil]
    omega
  | case2 offset wire state hoffset request answered chunk hanswer error hnext =>
    simp only [List.length_cons, List.length_nil]
    omega
  | case3 offset wire state hoffset request answered chunk hanswer next hnext ih =>
    have hbounds : offset < next ∧ _ := acceptChunk_bounds hnext
    simp only [Transcript.after_exchanges, List.length_cons]
    omega
  | case4 => exact Nat.zero_le _
  | case5 => exact Nat.zero_le _

/-- A collection that returns has read the rest of the wire, and the whole matches the
summary. -/
theorem collect_ok {offset : ℕ} {held wire : List Byte} {state : σ}
    (hheld : held.length = offset) (hle : offset ≤ summary.normalizedWireLen)
    (h : (collect sha256 requester summary offset held state).result = .ok wire) :
    wire.length = summary.normalizedWireLen ∧ sha256 wire = summary.exactWireSha256 ∧
      ∃ reads : List Read,
        (collect sha256 requester summary offset held state).exchanges =
          reads.map Read.exchange ∧
        wire = held ++ bytesOf reads ∧ Contiguous summary.handle offset reads := by
  fun_induction collect sha256 requester summary offset held state with
  | case1 => cases h
  | case2 => cases h
  | case3 offset held state hoffset request answered chunk hanswer next hnext ih =>
    have hread := at_of_accepted hoffset hnext
    obtain ⟨-, hnext_le⟩ := acceptChunk_bounds hnext
    obtain ⟨-, -, -, -, hstep⟩ := acceptChunk_eq_ok.mp hnext
    replace hstep : next = offset + chunk.bytes.length := hstep
    obtain ⟨hlength, hdigest, reads, hexchanges, hwire, hcontiguous⟩ :=
      ih (by rw [List.length_append, hheld, hstep]) hnext_le h
    refine ⟨hlength, hdigest, (request, chunk) :: reads, ?_, ?_, ?_⟩
    · rw [Transcript.after_exchanges, hexchanges, readChunk_eq_ok.mp hanswer]
      rfl
    · rw [hwire, bytesOf_cons, List.append_assoc]
    · exact Contiguous.cons hread (hstep ▸ hcontiguous)
  | case4 => cases h
  | case5 offset held state hoffset hdigest =>
    obtain rfl := Except.ok.inj h
    refine ⟨by omega, not_not.mp hdigest, [], rfl, ?_, contiguous_nil _ _⟩
    rw [bytesOf_nil, List.append_nil]

/-- A device that answers every read inside `wire` with a nonempty prefix of the range
requested. -/
def Serves (requester : DeviceApiRequester σ) (handle : LxmfMessageHandle) (wire : List Byte) :
    Prop :=
  ∀ request state, request.handle = handle → request.offset < wire.length →
    ∃ chunk, (requester request state).1 = .ok (.lxmfRead chunk) ∧ chunk.handle = handle ∧
      chunk.offset = request.offset ∧ chunk.totalLen = wire.length ∧
      chunk.bytes <+: (wire.drop request.offset).take request.maxBytes.get

/-- The client accepts what such a device answers, and holds a longer prefix of the wire. -/
theorem Serves.step {wire : List Byte} (hserves : Serves requester summary.handle wire)
    (hlength : wire.length = summary.normalizedWireLen) {offset : ℕ}
    (hoffset : offset < summary.normalizedWireLen) (state : σ) :
    ∃ chunk, readChunk (requester (nextRequest summary offset hoffset) state).1 = .ok chunk ∧
      acceptChunk summary (nextRequest summary offset hoffset) chunk =
        .ok (offset + chunk.bytes.length) ∧
      wire.take offset ++ chunk.bytes = wire.take (offset + chunk.bytes.length) := by
  obtain ⟨chunk, hanswer, hhandle, hchunk, htotal, hstart⟩ :=
    hserves (nextRequest summary offset hoffset) state rfl (hlength ▸ hoffset)
  have hbytes := List.prefix_iff_eq_take.mp (List.IsPrefix.trans hstart (List.take_prefix _ _))
  have hlength_le := hstart.length_le.trans (List.length_take_le _ _)
  refine ⟨chunk, readChunk_eq_ok.mpr hanswer, ?_, ?_⟩
  · exact acceptChunk_eq_ok.mpr ⟨hhandle, hchunk, htotal.trans hlength, hlength_le, rfl⟩
  · rw [List.take_add]
    exact congrArg _ hbytes

/-- From such a device the rest of the wire is collected. -/
theorem Serves.collect {wire : List Byte} (hserves : Serves requester summary.handle wire)
    (hlength : wire.length = summary.normalizedWireLen)
    (hdigest : sha256 wire = summary.exactWireSha256) (offset : ℕ) (held : List Byte)
    (hheld : held = wire.take offset) (state : σ) :
    (collect sha256 requester summary offset held state).result = .ok wire := by
  fun_induction ApplianceSync.collect sha256 requester summary offset held state with
  | case1 offset held state hoffset request answered error hanswer =>
    obtain ⟨chunk, hchunk, -⟩ := hserves.step hlength hoffset state
    exact absurd (hanswer.symm.trans hchunk) nofun
  | case2 offset held state hoffset request answered chunk hanswer error hnext =>
    obtain ⟨served, hserved, haccepted, -⟩ := hserves.step hlength hoffset state
    obtain rfl := Except.ok.inj (hanswer.symm.trans hserved)
    exact absurd (hnext.symm.trans haccepted) nofun
  | case3 offset held state hoffset request answered chunk hanswer next hnext ih =>
    obtain ⟨served, hserved, haccepted, htake⟩ := hserves.step hlength hoffset state
    obtain rfl := Except.ok.inj (hanswer.symm.trans hserved)
    obtain rfl := Except.ok.inj (hnext.symm.trans haccepted)
    exact ih (by rw [hheld, htake])
  | case4 offset held state hoffset hmismatch =>
    rw [hheld, List.take_of_length_le (by omega)] at hmismatch
    exact absurd hdigest hmismatch
  | case5 offset held state hoffset hmatch =>
    rw [hheld, List.take_of_length_le (by omega)]

/-- A client read is bounded by the length of the message, returns nothing but that message, and
returns it from any device that serves it, up to the client's collection limit. -/
theorem readCompleteLxmf_reassembles (sha256 : Sha256) (reserves : ℕ → Bool)
    (requester : DeviceApiRequester σ) (summary : LxmfMessageSummary) (state : σ) :
    let read := readCompleteLxmf sha256 reserves requester summary state
    read.exchanges.length ≤ summary.normalizedWireLen ∧
      (∀ wire, read.result = .ok wire →
        wire.length = summary.normalizedWireLen ∧ Reassembles summary read.exchanges wire ∧
          sha256 wire = summary.exactWireSha256) ∧
      ∀ wire, wire.length = summary.normalizedWireLen → sha256 wire = summary.exactWireSha256 →
        Serves requester summary.handle wire →
        (wire.length ≤ maxRequestSessionLxmfWireBytes → reserves wire.length →
          read.result = .ok wire) ∧
        (maxRequestSessionLxmfWireBytes < wire.length → read.exchanges = [] ∧
          read.result = .error (.invalidLxmf "wire exceeds the client collection limit")) := by
  intro read
  by_cases hlimit : maxRequestSessionLxmfWireBytes < summary.normalizedWireLen
  · have hread : read =
        ⟨.error (.invalidLxmf "wire exceeds the client collection limit"), [], state⟩ :=
      if_pos hlimit
    rw [hread]
    refine ⟨Nat.zero_le _, nofun, fun wire hlength _ _ => ⟨fun hle => ?_, fun _ => ⟨rfl, rfl⟩⟩⟩
    omega
  · by_cases hreserves : ¬ reserves summary.normalizedWireLen
    · have hread : read = ⟨.error (.invalidLxmf "wire allocation failed"), [], state⟩ :=
        (if_neg hlimit).trans (if_pos hreserves)
      rw [hread]
      refine ⟨Nat.zero_le _, nofun, fun wire hlength _ _ => ⟨fun _ hfits => ?_, fun hlt => ?_⟩⟩
      · exact absurd (hlength ▸ hfits) hreserves
      · omega
    · have hread : read = collect sha256 requester summary 0 [] state :=
        (if_neg hlimit).trans (if_neg hreserves)
      rw [hread]
      refine ⟨length_exchanges_collect _ _ _, fun wire hok => ?_,
        fun wire hlength hdigest hserves =>
        ⟨fun _ _ => hserves.collect hlength hdigest 0 [] rfl state, fun hlt => ?_⟩⟩
      · obtain ⟨hlength, hdigest, reads, hexchanges, hwire, hcontiguous⟩ :=
          collect_ok List.length_nil (Nat.zero_le _) hok
        exact ⟨hlength, ⟨reads, hexchanges, hwire, hcontiguous⟩, hdigest⟩
      · omega

end Runs

/-- The device that returns everything it is asked for. -/
def wholeRange (wire : List Byte) (wire_lt : wire.length < 2 ^ 32) : DeviceApiRequester Unit :=
  fun request state =>
    match LxmfReadChunk.new request.handle request.offset wire.length
        ((wire.drop request.offset).take request.maxBytes.get) wire_lt with
    | .ok chunk => (.ok (.lxmfRead chunk), state)
    | .error _ => (.ok (.error ⟨6, some opLxmfRead⟩), state)

/-- A device that answers every read with the whole requested range serves the wire. -/
theorem serves_wholeRange {wire : List Byte} (wire_lt : wire.length < 2 ^ 32)
    (handle : LxmfMessageHandle) : Serves (wholeRange wire wire_lt) handle wire := by
  intro request state hhandle hoffset
  have hpos := request.maxBytes.pos
  have hle := request.maxBytes.le
  have hlength : ((wire.drop request.offset).take request.maxBytes.get).length =
      min request.maxBytes.get (wire.length - request.offset) := by
    rw [List.length_take, List.length_drop]
  have hnonempty : (wire.drop request.offset).take request.maxBytes.get ≠ [] :=
    List.length_pos_iff.mp (by omega)
  obtain ⟨chunk, hnew, hchunk, hchunkOffset, htotal, hbytes⟩ :=
    @LxmfReadChunk.exists_new request.handle request.offset wire.length _ wire_lt hnonempty
      (by omega) (by omega)
  refine ⟨chunk, ?_, hchunk.trans hhandle, hchunkOffset, htotal, hbytes ▸ List.prefix_refl _⟩
  simp only [wholeRange, hnew]

/-- The entry of a message whose title and content are empty. -/
def listing (sha256 : Sha256) (wire : List Byte) (wire_lt : wire.length < 2 ^ 32)
    (minimum_le : minimumWireLen 0 0 1 ≤ wire.length) : LxmfMessageSummary where
  handle := ⟨1, Nat.one_pos, Nor.one_lt_two_pow_64⟩
  messageId := Vector.replicate 32 0
  destination := Vector.replicate 16 0
  source := Vector.replicate 16 0
  timestampBits := 0
  normalizedWireLen := wire.length
  titleLen := 0
  contentLen := 0
  fieldsEncodedLen := 1
  exactWireSha256 := sha256 wire
  ingress := none
  wire_lt := wire_lt
  fields_pos := Nat.one_pos
  minimum_le := minimum_le

/-- Even a device that returns everything is refused a message over the collection limit. -/
theorem readCompleteLxmf_over_limit_refused :
    ∃ (summary : LxmfMessageSummary) (wire : List Byte) (requester : DeviceApiRequester Unit),
      wire.length = summary.normalizedWireLen ∧
        Nor.sha256 wire = summary.exactWireSha256 ∧
        Serves requester summary.handle wire ∧
        ∀ reserves, (readCompleteLxmf Nor.sha256 reserves requester summary ()).result ≠
          .ok wire := by
  have hlength : (List.replicate (maxRequestSessionLxmfWireBytes + 1) (0 : Byte)).length =
      maxRequestSessionLxmfWireBytes + 1 := List.length_replicate
  generalize List.replicate (maxRequestSessionLxmfWireBytes + 1) (0 : Byte) = wire at hlength
  have wire_lt : wire.length < 2 ^ 32 := by
    rw [hlength]
    decide
  have minimum_le : minimumWireLen 0 0 1 ≤ wire.length := by
    rw [hlength]
    decide
  refine ⟨listing Nor.sha256 wire wire_lt minimum_le, wire, wholeRange wire wire_lt, rfl, rfl,
    serves_wholeRange wire_lt _, fun reserves => ?_⟩
  have hlimit : maxRequestSessionLxmfWireBytes <
      (listing Nor.sha256 wire wire_lt minimum_le).normalizedWireLen := by
    show _ < wire.length
    omega
  rw [readCompleteLxmf, if_pos hlimit]
  nofun

/-- A wire of a thousand bytes. -/
def longWire : List Byte := List.replicate 1000 7

/-- Its length fits into four bytes. -/
theorem longWire_lt : longWire.length < 2 ^ 32 := by
  rw [longWire, List.length_replicate]
  decide

/-- It is longer than the shortest message. -/
theorem minimum_le_longWire : minimumWireLen 0 0 1 ≤ longWire.length := by
  rw [longWire, List.length_replicate]
  decide

/-- It is longer than two chunks. -/
theorem two_chunks_lt_longWire : 2 * maxLxmfReadChunkBytes < longWire.length := by
  rw [longWire, List.length_replicate]
  decide

/-- A message of a thousand bytes, which takes three chunks, is collected from the device that
returns everything. -/
theorem readCompleteLxmf_reassembles_longWire :
    2 * maxLxmfReadChunkBytes < longWire.length ∧
      (readCompleteLxmf Nor.sha256 (fun _ => true) (wholeRange longWire longWire_lt)
        (listing Nor.sha256 longWire longWire_lt minimum_le_longWire) ()).result =
          .ok longWire := by
  have hwhole := (readCompleteLxmf_reassembles Nor.sha256 (fun _ => true)
    (wholeRange longWire longWire_lt)
    (listing Nor.sha256 longWire longWire_lt minimum_le_longWire) ()).2.2 longWire rfl rfl
      (serves_wholeRange longWire_lt _)
  refine ⟨two_chunks_lt_longWire, hwhole.1 ?_ rfl⟩
  rw [longWire, List.length_replicate]
  decide

end ApplianceSync
