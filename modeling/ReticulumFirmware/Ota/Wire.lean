import ReticulumFirmware.Codec.Layout
import ReticulumFirmware.Collections.Fold
import ReticulumFirmware.Ota.Protocol

/-!
# The OTA messages are canonical

The writers of `device-api/src/ota.rs` and the reader of the status projection. A message is read
back as it was written, and every accepted message is the one that the writer gives.
-/

namespace Ota

open Nor Codec

section Model

/-- The bytes of a start request. -/
def startRequest (manifest : OtaManifest) : List Byte :=
  [otaMagic, [otaProtocolVersion], [otaStartKind], beBytes 4 manifest.imageBytes,
    manifest.imageSha256.toList, [BitVec.ofNat 8 manifest.version.bytes.length],
    manifest.version.bytes].flatten

/-- Write the offer of an image into a buffer. -/
def encodeStartRequest (manifest : OtaManifest) (output : List Byte) :
    Except OtaProtocolError (ℕ × List Byte) :=
  writeFront .malformed (startRequest manifest) output

/-- The request of a chunk. -/
def encodeNextRequest (session : OtaSessionId) (index : ℕ) : List Byte :=
  [otaMagic, [otaProtocolVersion], [otaNextKind], session.toList, beBytes 4 index].flatten

/-- The code of a phase. -/
def OtaPhase.code : OtaPhase → Byte
  | idle => 0
  | receiving => 1
  | activated => 2
  | failed => 3

/-- The phase of a code. -/
def decodePhase (code : Byte) : Except OtaProtocolError OtaPhase :=
  match code.toNat with
  | 0 => .ok .idle
  | 1 => .ok .receiving
  | 2 => .ok .activated
  | 3 => .ok .failed
  | _ => .error .malformed

/-- The code of a failure. -/
def OtaFailure.code : OtaFailure → Byte
  | protocol => 1
  | wrongLink => 2
  | unexpectedChunk => 3
  | invalidEspImage => 4
  | digestMismatch => 5
  | flash => 6
  | imageValidation => 7
  | activation => 8
  | interrupted => 9

/-- A failure code, or zero for none. -/
def failureByte : Option OtaFailure → Byte
  | none => 0
  | some failure => failure.code

/-- The failure of a code, or none for zero. -/
def decodeFailure (code : Byte) : Except OtaProtocolError (Option OtaFailure) :=
  match code.toNat with
  | 0 => .ok none
  | 1 => .ok (some .protocol)
  | 2 => .ok (some .wrongLink)
  | 3 => .ok (some .unexpectedChunk)
  | 4 => .ok (some .invalidEspImage)
  | 5 => .ok (some .digestMismatch)
  | 6 => .ok (some .flash)
  | 7 => .ok (some .imageValidation)
  | 8 => .ok (some .activation)
  | 9 => .ok (some .interrupted)
  | _ => .error .malformed

/-- The code of a slot, or zero for none. -/
def slotByte : Option OtaSlot → Byte
  | none => 0
  | some .ota0 => 1
  | some .ota1 => 2

/-- The slot of a code, or none for zero. -/
def decodeSlot (code : Byte) : Except OtaProtocolError (Option OtaSlot) :=
  match code.toNat with
  | 0 => .ok none
  | 1 => .ok (some .ota0)
  | 2 => .ok (some .ota1)
  | _ => .error .malformed

/-- The code of a flag. -/
def armedByte : Bool → Byte
  | false => 0
  | true => 1

/-- The flag of a code. -/
def decodeArmed (code : Byte) : Except OtaProtocolError Bool :=
  match code.toNat with
  | 0 => .ok false
  | 1 => .ok true
  | _ => .error .malformed

/-- A session, or zeros for none. -/
def sessionBytes : Option OtaSessionId → List Byte
  | none => List.replicate 16 0
  | some session => session.toList

/-- The session of sixteen bytes, or none for zeros. -/
def decodeSession (bytes : List Byte) : Option OtaSessionId :=
  if bytes = List.replicate 16 0 then none else some (copyArray 16 bytes)

/-- A release label, or nothing. -/
def versionBytes : Option OtaVersion → List Byte
  | none => []
  | some version => version.bytes

/-- Read a release label of some length from the end of a message. -/
def decodeVersion (length : ℕ) (bytes : List Byte) : Except OtaProtocolError (Option OtaVersion) :=
  if length = 0 then .ok none else (OtaVersion.tryFromBytes bytes).map some

/-- The bytes of a status response. -/
def statusResponse (status : OtaStatus) : List Byte :=
  [otaMagic, [otaProtocolVersion], [status.phase.code], [armedByte status.resourceArmed],
    sessionBytes status.session, [slotByte status.slot], beBytes 4 status.imageBytes,
    beBytes 4 status.verifiedBytes, beBytes 4 status.nextChunk, [failureByte status.failure],
    [BitVec.ofNat 8 (versionBytes status.version).length], [0],
    versionBytes status.version].flatten

/-- Write a status into a buffer. -/
def encodeStatusResponse (status : OtaStatus) (output : List Byte) :
    Except OtaProtocolError (ℕ × List Byte) :=
  writeFront .malformed (statusResponse status) output

/-- The status that the fields of a checked message give. -/
def decodeStatusFields (bytes : List Byte) : Except OtaProtocolError OtaStatus := do
  let phase ← decodePhase (bytes.getD 5 0)
  let resourceArmed ← decodeArmed (bytes.getD 6 0)
  let slot ← decodeSlot (bytes.getD 23 0)
  let failure ← decodeFailure (bytes.getD 36 0)
  let version ← decodeVersion (leNat (slice bytes 37 1)) (bytes.drop 39)
  pure ⟨phase, decodeSession (slice bytes 7 16), slot, version, beNat (slice bytes 24 4),
    beNat (slice bytes 28 4), beNat (slice bytes 32 4), resourceArmed, failure⟩

/-- Decode a status response. -/
def decodeStatusResponse (bytes : List Byte) : Except OtaProtocolError OtaStatus :=
  if bytes.length < 39 ∨ slice bytes 0 4 ≠ otaMagic ∨ slice bytes 4 1 ≠ [otaProtocolVersion] then
    .error .malformed
  else if slice bytes 38 1 ≠ [0] ∨ bytes.length ≠ 39 + leNat (slice bytes 37 1) then
    .error .malformed
  else decodeStatusFields bytes

end Model

section Fields

/-- A phase is decoded from its code. -/
theorem decodePhase_code (phase : OtaPhase) : decodePhase phase.code = .ok phase := by
  cases phase <;> rfl

/-- A failure is decoded from its byte. -/
theorem decodeFailure_byte (failure : Option OtaFailure) :
    decodeFailure (failureByte failure) = .ok failure := by
  rcases failure with _ | failure
  · rfl
  · cases failure <;> rfl

/-- A slot is decoded from its byte. -/
theorem decodeSlot_byte (slot : Option OtaSlot) : decodeSlot (slotByte slot) = .ok slot := by
  rcases slot with _ | slot
  · rfl
  · cases slot <;> rfl

/-- Whether a chunk is armed is decoded from its byte. -/
theorem decodeArmed_byte (armed : Bool) : decodeArmed (armedByte armed) = .ok armed := by
  cases armed <;> rfl

/-- A decoded phase has the code that was read. -/
theorem code_of_decodePhase {code : Byte} {phase : OtaPhase} (h : decodePhase code = .ok phase) :
    phase.code = code := by
  unfold decodePhase at h
  split at h <;> cases h <;> next hcode => exact BitVec.eq_of_toNat_eq hcode.symm

/-- A decoded failure has the byte that was read. -/
theorem byte_of_decodeFailure {code : Byte} {failure : Option OtaFailure}
    (h : decodeFailure code = .ok failure) : failureByte failure = code := by
  unfold decodeFailure at h
  split at h <;> cases h <;> next hcode => exact BitVec.eq_of_toNat_eq hcode.symm

/-- A decoded slot has the byte that was read. -/
theorem byte_of_decodeSlot {code : Byte} {slot : Option OtaSlot} (h : decodeSlot code = .ok slot) :
    slotByte slot = code := by
  unfold decodeSlot at h
  split at h <;> cases h <;> next hcode => exact BitVec.eq_of_toNat_eq hcode.symm

/-- The decoded flag has the byte that was read. -/
theorem byte_of_decodeArmed {code : Byte} {armed : Bool} (h : decodeArmed code = .ok armed) :
    armedByte armed = code := by
  unfold decodeArmed at h
  split at h <;> cases h <;> next hcode => exact BitVec.eq_of_toNat_eq hcode.symm

/-- A session can be told from none. -/
def NonzeroSession (session : Option OtaSessionId) : Prop :=
  session ≠ some (Vector.replicate 16 0)

/-- A session has 16 bytes. -/
theorem length_sessionBytes (session : Option OtaSessionId) :
    (sessionBytes session).length = 16 := by
  cases session with
  | none => rfl
  | some session => exact Vector.length_toList

/-- A nonzero session is decoded from its bytes. -/
theorem decodeSession_bytes {session : Option OtaSessionId} (h : NonzeroSession session) :
    decodeSession (sessionBytes session) = session := by
  cases session with
  | none => exact if_pos rfl
  | some session =>
    have hnonzero : session.toList ≠ List.replicate 16 0 := by
      intro hzero
      refine h (congrArg some ?_)
      rw [← copyArray_toList session, hzero]
      decide
    rw [sessionBytes, decodeSession, if_neg hnonzero, copyArray_toList]

/-- A decoded session is nonzero and has the bytes that were read. -/
theorem bytes_of_decodeSession {bytes : List Byte} (hlength : bytes.length = 16) :
    NonzeroSession (decodeSession bytes) ∧ sessionBytes (decodeSession bytes) = bytes := by
  unfold decodeSession
  split
  · next hzero => exact ⟨Option.some_ne_none _ ∘ Eq.symm, hzero.symm⟩
  · next hnonzero =>
    refine ⟨fun heq => hnonzero ?_, toList_copyArray hlength⟩
    rw [← toList_copyArray hlength, Option.some.inj heq]
    decide

/-- A version is accepted from its bytes. -/
theorem OtaVersion.tryFromBytes_bytes (version : OtaVersion) :
    OtaVersion.tryFromBytes version.bytes = .ok version :=
  dif_pos ⟨version.nonempty, version.bounded, version.graphic⟩

/-- An accepted version has the bytes that were read. -/
theorem OtaVersion.bytes_of_tryFromBytes {bytes : List Byte} {version : OtaVersion}
    (h : OtaVersion.tryFromBytes bytes = .ok version) : version.bytes = bytes := by
  unfold OtaVersion.tryFromBytes at h
  split at h
  · cases h
    rfl
  · cases h

/-- A version has no more bytes than the maximum. -/
theorem length_versionBytes (version : Option OtaVersion) :
    (versionBytes version).length ≤ otaVersionBytes := by
  cases version with
  | none => decide
  | some version => exact version.bounded

/-- The length of an optional version is read back from its byte. -/
theorem leNat_length_versionBytes (version : Option OtaVersion) :
    leNat [BitVec.ofNat 8 (versionBytes version).length] = (versionBytes version).length :=
  leNat_singleton ((length_versionBytes version).trans_lt (by decide))

/-- The length of a version is read back from its byte. -/
theorem leNat_length_version (version : OtaVersion) :
    leNat [BitVec.ofNat 8 version.bytes.length] = version.bytes.length :=
  leNat_length_versionBytes (some version)

/-- An optional version is decoded from its length and its bytes. -/
theorem decodeVersion_bytes (version : Option OtaVersion) :
    decodeVersion (versionBytes version).length (versionBytes version) = .ok version := by
  cases version with
  | none => rfl
  | some version =>
    rw [versionBytes, decodeVersion, if_neg (List.length_pos_of_ne_nil version.nonempty).ne',
      version.tryFromBytes_bytes]
    rfl

/-- A decoded optional version has the bytes that were read. -/
theorem bytes_of_decodeVersion {bytes : List Byte} {version : Option OtaVersion}
    (h : decodeVersion bytes.length bytes = .ok version) : versionBytes version = bytes := by
  unfold decodeVersion at h
  split at h
  · next hzero =>
    cases h
    exact (List.eq_nil_of_length_eq_zero hzero).symm
  · cases hbytes : OtaVersion.tryFromBytes bytes with
    | error error =>
      rw [hbytes] at h
      cases h
    | ok found =>
      rw [hbytes] at h
      cases h
      exact OtaVersion.bytes_of_tryFromBytes hbytes

end Fields

section Messages

/-- The widths of the fixed fields of a start request. -/
def startWidths : List ℕ := [4, 1, 1, 4, 32, 1]

/-- A field of a start request is sliced at its offset. -/
theorem slice_startRequest {manifest : OtaManifest} (i offset length : ℕ) {field : List Byte}
    (hfield : ([otaMagic, [otaProtocolVersion], [otaStartKind], beBytes 4 manifest.imageBytes,
      manifest.imageSha256.toList, [BitVec.ofNat 8 manifest.version.bytes.length],
      manifest.version.bytes] : List (List Byte))[i]? = some field)
    (hoffset : ((startWidths ++ [manifest.version.bytes.length]).take i).sum = offset)
    (hlength : field.length = length) : slice (startRequest manifest) offset length = field := by
  refine slice_flatten ?_ hfield hoffset hlength
  simp only [List.map_cons, List.map_nil, length_beBytes, Vector.length_toList]
  rfl

/-- A start request has 43 bytes and its version. -/
theorem length_startRequest (manifest : OtaManifest) :
    (startRequest manifest).length = 43 + manifest.version.bytes.length := by
  have hmagic : otaMagic.length = 4 := by decide
  simp [startRequest, hmagic]
  omega

/-- A manifest is accepted again. -/
theorem OtaManifest.new_self (manifest : OtaManifest) :
    OtaManifest.new ⟨manifest.imageBytes, manifest.imageBytes_lt⟩ manifest.imageSha256
      manifest.version = .ok manifest := by
  rw [OtaManifest.new, dif_neg (by have := manifest.minimum; dsimp only; omega),
    dif_neg manifest.digest_ne_zero]

/-- An accepted manifest has the values that it was made of. -/
theorem OtaManifest.of_new {imageBytes : Fin (2 ^ 32)} {digest : Vector Byte 32}
    {version : OtaVersion} {manifest : OtaManifest}
    (h : OtaManifest.new imageBytes digest version = .ok manifest) :
    manifest.imageBytes = imageBytes ∧ manifest.imageSha256 = digest ∧
      manifest.version = version := by
  unfold OtaManifest.new at h
  split_ifs at h
  cases h
  exact ⟨rfl, rfl, rfl⟩

/-- A start request is decoded as its manifest. -/
theorem decodeStartRequest_startRequest (manifest : OtaManifest) :
    decodeStartRequest (startRequest manifest) = .ok manifest := by
  have hlength := length_startRequest manifest
  have hpos := List.length_pos_of_ne_nil manifest.version.nonempty
  have hversion : (startRequest manifest).drop 43 = manifest.version.bytes := by
    have hdrop := @slice_startRequest manifest 6 43 manifest.version.bytes.length _
      rfl rfl rfl
    rwa [slice, List.take_of_length_le (by rw [List.length_drop]; omega)] at hdrop
  have himage : beU32 (beBytes 4 manifest.imageBytes) =
      ⟨manifest.imageBytes, manifest.imageBytes_lt⟩ := by
    rw [beU32, beNat_beBytes_of_lt manifest.imageBytes_lt]
    exact Fin.ext (Nat.mod_eq_of_lt manifest.imageBytes_lt)
  unfold decodeStartRequest
  rw [slice_startRequest 0 0 4 rfl rfl rfl, slice_startRequest 1 4 1 rfl rfl rfl,
    slice_startRequest 2 5 1 rfl rfl rfl, slice_startRequest 5 42 1 rfl rfl rfl,
    slice_startRequest 3 6 4 rfl rfl (length_beBytes ..),
    slice_startRequest 4 10 32 rfl rfl Vector.length_toList, hversion, hlength,
    leNat_length_version, himage, copyArray_toList, manifest.version.tryFromBytes_bytes,
    if_neg (by simp; omega), if_neg (by simp)]
  exact manifest.new_self

/-- A start request is read once its length and its fixed bytes are right. -/
theorem decodeStartRequest_eq (bytes : List Byte) :
    decodeStartRequest bytes =
      if bytes.length < 44 ∨ slice bytes 0 4 ≠ otaMagic ∨ slice bytes 4 1 ≠ [otaProtocolVersion] ∨
        slice bytes 5 1 ≠ [otaStartKind] then .error .malformed
      else if bytes.length ≠ 43 + leNat (slice bytes 42 1) then .error .malformed
      else OtaVersion.tryFromBytes (bytes.drop 43) >>= fun version =>
        OtaManifest.new (beU32 (slice bytes 6 4)) (copyArray 32 (slice bytes 10 32)) version := by
  unfold decodeStartRequest
  split_ifs
  · rfl
  · rfl
  · rfl
  · rfl

/-- A decoded manifest has the bytes that were read. -/
theorem startRequest_of_decode {bytes : List Byte} {manifest : OtaManifest}
    (h : decodeStartRequest bytes = .ok manifest) : startRequest manifest = bytes := by
  rw [decodeStartRequest_eq] at h
  split_ifs at h with hfixed hlength
  simp only [not_or, not_not, not_lt] at hfixed hlength
  obtain ⟨hsize, hmagic, hprotocol, hkind⟩ := hfixed
  obtain ⟨version, hversion, hmanifest⟩ := Except.bind_eq_ok.mp h
  obtain ⟨himage, hdigest, rfl⟩ := OtaManifest.of_new hmanifest
  have hbytes : manifest.version.bytes = bytes.drop 43 := OtaVersion.bytes_of_tryFromBytes hversion
  have himage : beBytes 4 manifest.imageBytes = slice bytes 6 4 := by
    have hlt : beNat (slice bytes 6 4) < 2 ^ 32 := beNat_slice_lt
    have hbe : (beU32 (slice bytes 6 4)).val = beNat (slice bytes 6 4) := Nat.mod_eq_of_lt hlt
    rw [himage, hbe, beBytes_slice (by omega)]
  have hdigest : manifest.imageSha256.toList = slice bytes 10 32 := by
    rw [hdigest, toList_copyArray (length_slice (by omega))]
  have hcount : [BitVec.ofNat 8 manifest.version.bytes.length] = slice bytes 42 1 := by
    rw [slice_one (by omega), hbytes, List.length_drop, hlength, Nat.add_sub_cancel_left]
  have hfields : (fieldsAt bytes 0 startWidths).flatten ++ bytes.drop 43 = bytes :=
    flatten_fieldsAt bytes 0 startWidths
  simp only [startWidths, fieldsAt, Nat.reduceAdd, hmagic, hprotocol, hkind, ← himage, ← hdigest,
    ← hcount, ← hbytes] at hfields
  rw [startRequest, ← hfields]
  simp

/-- Start requests are canonical. -/
theorem canonical_startRequest :
    Canonical (fun _ => True) startRequest decodeStartRequest where
  round_trip manifest _ := decodeStartRequest_startRequest manifest
  exact _ _ h := ⟨trivial, startRequest_of_decode h⟩

end Messages

section Fixed

/-- A session and the chunk it expects, as 32-bit numbers. -/
def NextFits (request : OtaSessionId × ℕ) : Prop := request.2 < 2 ^ 32

/-- Requests for the next chunk are canonical. -/
theorem canonical_nextRequest :
    Canonical NextFits (fun request => encodeNextRequest request.1 request.2)
      decodeNextRequest where
  round_trip := by
    rintro ⟨session, index⟩ hindex
    have hwidths : ([otaMagic, [otaProtocolVersion], [otaNextKind], session.toList,
        beBytes 4 index] : List (List Byte)).map List.length = [4, 1, 1, 16, 4] := by
      simp only [List.map_cons, List.map_nil, length_beBytes, Vector.length_toList]
      rfl
    have hlength : (encodeNextRequest session index).length = otaNextRequestBytes := by
      rw [encodeNextRequest, List.length_flatten, hwidths]
      rfl
    have hslice : ∀ {i offset length : ℕ} {field : List Byte},
        ([otaMagic, [otaProtocolVersion], [otaNextKind], session.toList,
          beBytes 4 index] : List (List Byte))[i]? = some field →
        (([4, 1, 1, 16, 4] : List ℕ).take i).sum = offset → field.length = length →
        slice (encodeNextRequest session index) offset length = field :=
      fun hfield hoffset hwidth => slice_flatten hwidths hfield hoffset hwidth
    dsimp only
    rw [decodeNextRequest, hlength, @hslice 0 0 4 _ rfl rfl rfl, @hslice 1 4 1 _ rfl rfl rfl,
      @hslice 2 5 1 _ rfl rfl rfl, @hslice 3 6 16 _ rfl rfl Vector.length_toList,
      @hslice 4 22 4 _ rfl rfl (length_beBytes ..), copyArray_toList,
      beNat_beBytes_of_lt hindex, if_neg (by simp)]
  exact := by
    rintro bytes ⟨session, index⟩ h
    unfold decodeNextRequest at h
    split_ifs at h with hfixed
    simp only [not_or, not_not] at hfixed
    obtain ⟨hsize, hmagic, hprotocol, hkind⟩ := hfixed
    change bytes.length = 26 at hsize
    obtain ⟨rfl, rfl⟩ := Prod.mk.inj (Except.ok.inj h)
    refine ⟨beNat_slice_lt, ?_⟩
    have hfields : (fieldsAt bytes 0 [4, 1, 1, 16, 4]).flatten ++ bytes.drop 26 = bytes :=
      flatten_fieldsAt bytes 0 [4, 1, 1, 16, 4]
    rw [List.drop_of_length_le (by omega), List.append_nil] at hfields
    simp only [fieldsAt, Nat.reduceAdd, hmagic, hprotocol, hkind] at hfields
    dsimp only
    rw [encodeNextRequest, toList_copyArray (length_slice (by omega)), beBytes_slice (by omega),
      hfields]

/-- Metadata of 32-bit numbers. -/
def OtaChunkMetadata.Fits (metadata : OtaChunkMetadata) : Prop :=
  metadata.index < 2 ^ 32 ∧ metadata.offset < 2 ^ 32

/-- The metadata of chunks is canonical. -/
theorem canonical_chunkMetadata :
    Canonical OtaChunkMetadata.Fits OtaChunkMetadata.encode OtaChunkMetadata.decode where
  round_trip := by
    rintro ⟨session, index, offset⟩ ⟨hindex, hoffset⟩
    have hwidths : ([[0xc4], [30], otaMagic, [otaProtocolVersion], [otaChunkKind], session.toList,
        beBytes 4 index, beBytes 4 offset] : List (List Byte)).map List.length =
          [1, 1, 4, 1, 1, 16, 4, 4] := by
      simp only [List.map_cons, List.map_nil, length_beBytes, Vector.length_toList]
      rfl
    have hlength : (OtaChunkMetadata.encode ⟨session, index, offset⟩).length =
        otaChunkMetadataBytes := by
      rw [OtaChunkMetadata.encode, List.length_flatten, hwidths]
      rfl
    have hslice : ∀ {i start length : ℕ} {field : List Byte},
        ([[0xc4], [30], otaMagic, [otaProtocolVersion], [otaChunkKind], session.toList,
          beBytes 4 index, beBytes 4 offset] : List (List Byte))[i]? = some field →
        (([1, 1, 4, 1, 1, 16, 4, 4] : List ℕ).take i).sum = start → field.length = length →
        slice (OtaChunkMetadata.encode ⟨session, index, offset⟩) start length = field :=
      fun hfield hstart hwidth => slice_flatten hwidths hfield hstart hwidth
    rw [OtaChunkMetadata.decode, hlength, @hslice 0 0 1 _ rfl rfl rfl, @hslice 1 1 1 _ rfl rfl rfl,
      @hslice 2 2 4 _ rfl rfl rfl, @hslice 3 6 1 _ rfl rfl rfl, @hslice 4 7 1 _ rfl rfl rfl,
      @hslice 5 8 16 _ rfl rfl Vector.length_toList, @hslice 6 24 4 _ rfl rfl (length_beBytes ..),
      @hslice 7 28 4 _ rfl rfl (length_beBytes ..), copyArray_toList, beNat_beBytes_of_lt hindex,
      beNat_beBytes_of_lt hoffset, if_neg (by simp)]
  exact := by
    rintro bytes metadata h
    unfold OtaChunkMetadata.decode at h
    split_ifs at h with hfixed
    simp only [not_or, not_not] at hfixed
    obtain ⟨hsize, hmarker, hwidth, hmagic, hprotocol, hkind⟩ := hfixed
    change bytes.length = 32 at hsize
    obtain rfl := (Except.ok.inj h).symm
    refine ⟨⟨beNat_slice_lt, beNat_slice_lt⟩, ?_⟩
    have hfields : (fieldsAt bytes 0 [1, 1, 4, 1, 1, 16, 4, 4]).flatten ++ bytes.drop 32 = bytes :=
      flatten_fieldsAt bytes 0 [1, 1, 4, 1, 1, 16, 4, 4]
    rw [List.drop_of_length_le (by omega), List.append_nil] at hfields
    simp only [fieldsAt, Nat.reduceAdd, hmarker, hwidth, hmagic, hprotocol, hkind] at hfields
    rw [OtaChunkMetadata.encode, toList_copyArray (length_slice (by omega)),
      beBytes_slice (by omega), beBytes_slice (by omega), hfields]

end Fixed

section Status

/-- A status of 32-bit numbers whose session can be told from none. -/
structure OtaStatus.Fits (status : OtaStatus) : Prop where
  session : NonzeroSession status.session
  imageBytes : status.imageBytes < 2 ^ 32
  verifiedBytes : status.verifiedBytes < 2 ^ 32
  nextChunk : status.nextChunk < 2 ^ 32

/-- The fields of a status response. -/
def statusFields (status : OtaStatus) : List (List Byte) :=
  [otaMagic, [otaProtocolVersion], [status.phase.code], [armedByte status.resourceArmed],
    sessionBytes status.session, [slotByte status.slot], beBytes 4 status.imageBytes,
    beBytes 4 status.verifiedBytes, beBytes 4 status.nextChunk, [failureByte status.failure],
    [BitVec.ofNat 8 (versionBytes status.version).length], [0], versionBytes status.version]

/-- The widths of its fixed fields. -/
def statusWidths : List ℕ := [4, 1, 1, 1, 16, 1, 4, 4, 4, 1, 1, 1]

/-- The fields of a status have fixed widths, but for the version. -/
theorem map_length_statusFields (status : OtaStatus) :
    (statusFields status).map List.length =
      statusWidths ++ [(versionBytes status.version).length] := by
  simp only [statusFields, List.map_cons, List.map_nil, length_beBytes, length_sessionBytes]
  rfl

/-- A status response has 39 bytes and its version. -/
theorem length_statusResponse (status : OtaStatus) :
    (statusResponse status).length = 39 + (versionBytes status.version).length := by
  change (statusFields status).flatten.length = _
  rw [List.length_flatten, map_length_statusFields, List.sum_append, List.sum_singleton]
  rfl

/-- A field of a status response is sliced at its offset. -/
theorem slice_statusResponse {status : OtaStatus} (i offset length : ℕ) {field : List Byte}
    (hfield : (statusFields status)[i]? = some field)
    (hoffset : ((statusWidths ++ [(versionBytes status.version).length]).take i).sum = offset)
    (hlength : field.length = length) :
    slice (statusResponse status) offset length = field :=
  slice_flatten (map_length_statusFields status) hfield hoffset hlength

/-- The fields of a status response are decoded as its status. -/
theorem decodeStatusFields_statusResponse {status : OtaStatus} (h : status.Fits) :
    decodeStatusFields (statusResponse status) = .ok status := by
  have hversion : (statusResponse status).drop 39 = versionBytes status.version := by
    have hlength := length_statusResponse status
    have hdrop := @slice_statusResponse status 12 39
      (versionBytes status.version).length _ rfl rfl rfl
    rwa [slice, List.take_of_length_le (by rw [List.length_drop]; omega)] at hdrop
  rw [decodeStatusFields, getD_of_slice (slice_statusResponse 2 5 1 rfl rfl rfl),
    getD_of_slice (slice_statusResponse 3 6 1 rfl rfl rfl),
    getD_of_slice (slice_statusResponse 5 23 1 rfl rfl rfl),
    getD_of_slice (slice_statusResponse 9 36 1 rfl rfl rfl),
    slice_statusResponse 10 37 1 rfl rfl rfl,
    slice_statusResponse 4 7 16 rfl rfl (length_sessionBytes _),
    slice_statusResponse 6 24 4 rfl rfl (length_beBytes ..),
    slice_statusResponse 7 28 4 rfl rfl (length_beBytes ..),
    slice_statusResponse 8 32 4 rfl rfl (length_beBytes ..), hversion,
    leNat_length_versionBytes,
    decodePhase_code, decodeArmed_byte, decodeSlot_byte, decodeFailure_byte, decodeVersion_bytes,
    decodeSession_bytes h.session, beNat_beBytes_of_lt h.imageBytes,
    beNat_beBytes_of_lt h.verifiedBytes, beNat_beBytes_of_lt h.nextChunk]
  rfl

/-- Status responses are canonical. -/
theorem canonical_statusResponse :
    Canonical OtaStatus.Fits statusResponse decodeStatusResponse where
  round_trip := by
    intro status h
    rw [decodeStatusResponse, slice_statusResponse 0 0 4 rfl rfl rfl,
      slice_statusResponse 1 4 1 rfl rfl rfl, slice_statusResponse 11 38 1 rfl rfl rfl,
      slice_statusResponse 10 37 1 rfl rfl rfl, length_statusResponse,
      leNat_length_versionBytes,
      if_neg (by simp), if_neg (by simp)]
    exact decodeStatusFields_statusResponse h
  exact := by
    intro bytes status h
    unfold decodeStatusResponse at h
    split_ifs at h with hfixed hlength
    simp only [not_or, not_not, not_lt] at hfixed hlength
    obtain ⟨hsize, hmagic, hprotocol⟩ := hfixed
    obtain ⟨hzero, hlength⟩ := hlength
    unfold decodeStatusFields at h
    obtain ⟨phase, hphase, h⟩ := Except.bind_eq_ok.mp h
    obtain ⟨armed, harmed, h⟩ := Except.bind_eq_ok.mp h
    obtain ⟨slot, hslot, h⟩ := Except.bind_eq_ok.mp h
    obtain ⟨failure, hfailure, h⟩ := Except.bind_eq_ok.mp h
    obtain ⟨version, hversion, h⟩ := Except.bind_eq_ok.mp h
    obtain rfl := (Except.ok.inj h).symm
    have htail : leNat (slice bytes 37 1) = (bytes.drop 39).length := by
      rw [List.length_drop]
      omega
    rw [htail] at hversion
    obtain ⟨hnonzero, hsession⟩ := bytes_of_decodeSession
      (length_slice (by omega : 7 + 16 ≤ bytes.length))
    refine ⟨⟨hnonzero, beNat_slice_lt, beNat_slice_lt, beNat_slice_lt⟩, ?_⟩
    have hfields : (fieldsAt bytes 0 statusWidths).flatten ++ bytes.drop 39 = bytes :=
      flatten_fieldsAt bytes 0 statusWidths
    have hcount : slice bytes 37 1 = [BitVec.ofNat 8 (bytes.drop 39).length] := by
      rw [slice_one (by omega), htail]
    simp only [statusWidths, fieldsAt, Nat.reduceAdd, hmagic, hprotocol, hzero, hcount,
      slice_eq_getD (by omega : 5 < bytes.length), slice_eq_getD (by omega : 6 < bytes.length),
      slice_eq_getD (by omega : 23 < bytes.length),
      slice_eq_getD (by omega : 36 < bytes.length)] at hfields
    rw [statusResponse, code_of_decodePhase hphase, byte_of_decodeArmed harmed,
      byte_of_decodeSlot hslot, byte_of_decodeFailure hfailure, bytes_of_decodeVersion hversion,
      hsession, beBytes_slice (by omega), beBytes_slice (by omega), beBytes_slice (by omega)]
    refine Eq.trans ?_ hfields
    simp

/-- Start requests, next requests, chunk metadata and status responses are read back as they were
written, and the readers accept no other bytes. -/
theorem ota_messages_canonical :
    CanonicalWriter 75 (fun _ => True) encodeStartRequest decodeStartRequest ∧
      Canonical NextFits (fun request => encodeNextRequest request.1 request.2)
        decodeNextRequest ∧
      Canonical OtaChunkMetadata.Fits OtaChunkMetadata.encode OtaChunkMetadata.decode ∧
      CanonicalWriter 71 OtaStatus.Fits encodeStatusResponse decodeStatusResponse := by
  refine ⟨canonical_startRequest.writer ?_ .malformed, canonical_nextRequest,
    canonical_chunkMetadata, canonical_statusResponse.writer ?_ .malformed⟩
  · intro manifest
    have hbounded : manifest.version.bytes.length ≤ 32 := manifest.version.bounded
    rw [length_startRequest]
    omega
  · intro status
    have hbounded : (versionBytes status.version).length ≤ 32 := length_versionBytes status.version
    rw [length_statusResponse]
    omega

end Status

end Ota
