import Mathlib.Data.List.Nodup
import ReticulumFirmware.Lxmf.Model
import ReticulumFirmware.Lxmf.MsgpackGrammar

/-!
# The composer

`composer.rs` of the wire crate: one basic message, signed and written in a buffer of the caller.
The fields of a message are scanned within limits that follow from their length.
-/

namespace Lxmf

open Nor MessagePack Codec

/-- Destination hash, source hash and signature. -/
abbrev completeWirePrefixBytes : ℕ := 16 + (16 + 64)

/-- The content that fits into one packet. -/
abbrev pythonOpportunisticContentBytes : ℕ := 295

/-- What a payload adds to the content for that choice. -/
abbrev basicLxmfSelectionOverheadBytes : ℕ := 16

/-- The largest message that is composed. -/
abbrev maxBasicLxmfWireBytes : ℕ := 512

/-- Largest timestamp whose neighbours stay distinct as binary64 seconds. -/
abbrev maxLxmfTimestampUnixMs : ℕ := 2 ^ 43 * 1000 - 1

/-- The encoded length of one binary value. -/
def encodedMessagepackBinaryLen (valueBytes : ℕ) : Option ℕ :=
  if valueBytes ≤ 255 then some (2 + valueBytes)
  else if valueBytes ≤ 65535 then some (3 + valueBytes)
  else if valueBytes ≤ 4294967295 then some (5 + valueBytes)
  else none

/-- The encoded length of a payload with four items. -/
def encodedBasicLxmfPayloadLen (titleBytes contentBytes fieldsEncodedBytes : ℕ) : Option ℕ := do
  let title ← encodedMessagepackBinaryLen titleBytes
  let content ← encodedMessagepackBinaryLen contentBytes
  pure (10 + title + content + fieldsEncodedBytes)

/-- Whether a payload fits the content ceiling of a delivery lane. -/
def basicLxmfPayloadFitsContentLimit (titleBytes contentBytes fieldsEncodedBytes
    maximumContentBytes : ℕ) : Bool :=
  (encodedBasicLxmfPayloadLen titleBytes contentBytes fieldsEncodedBytes).any fun payloadLen =>
    payloadLen ≤ basicLxmfSelectionOverheadBytes + maximumContentBytes

/-- A composed message. -/
structure PreparedBasicLxmf where
  wireLen : ℕ
  carrierLen : ℕ
  messageId : Vector Byte 32
  deriving DecidableEq

/-- Why a message was not composed. -/
inductive BasicLxmfComposeError where
  | invalidTimestamp
  | timestampTooLarge (actual maximum : ℕ)
  /-- The fields are not one canonical map. -/
  | invalidFields
  | messageTooLarge
  | pythonOpportunisticLimit
  | runtimeCarrierLimit (actual maximum : ℕ)
  | outputTooSmall (required available : ℕ)
  deriving DecidableEq

/-- The limits within which the fields of a message are scanned. -/
def fieldsLimits (fields : List Byte) : WireLimits :=
  { maxWireBytes := fields.length
    maxValueBytes := fields.length
    maxContainerItems := fields.length
    maxTotalValues := fields.length + 1
    maxScanSteps := max (fields.length * 16) 32
    maxNestingDepth := 16 }

/-- The fields have to be one canonical map. -/
def validateFields (fields : List Byte) : Except BasicLxmfComposeError Unit :=
  match validateMessagepackValue (fieldsLimits fields) fields with
  | .error _ => .error .invalidFields
  | .ok value =>
    if value.kind ≠ .map ∨ value.canonicality ≠ .canonical then .error .invalidFields else .ok ()

/-- Bytes after those already written into a buffer of the largest message. -/
def pushBytes (written value : List Byte) : Except BasicLxmfComposeError (List Byte) :=
  if maxBasicLxmfWireBytes < written.length + value.length then .error .messageTooLarge
  else .ok (written ++ value)

/-- A binary value with the shortest head that holds its length. -/
def pushBinary (written value : List Byte) : Except BasicLxmfComposeError (List Byte) :=
  if value.length ≤ 255 then
    (pushBytes written [0xc4, BitVec.ofNat 8 value.length]).bind (pushBytes · value)
  else if value.length ≤ 65535 then
    (pushBytes written (0xc5 :: beBytes 2 value.length)).bind (pushBytes · value)
  else if value.length ≤ 4294967295 then
    (pushBytes written (0xc6 :: beBytes 4 value.length)).bind (pushBytes · value)
  else .error .messageTooLarge

section Compose

/- The hash, the signature of the caller's identity, and the binary64 of a number of milliseconds
divided by a thousand. -/
variable (sha256 : Sha256) (signLxmf : List Byte → Vector Byte 64)
  (unixSeconds : ℕ → BitVec 64)

/-- The payload behind the room for the two hashes and the signature. -/
def pushPayload (timestampUnixMs : ℕ) (title content fields : List Byte) :
    Except BasicLxmfComposeError (List Byte) := do
  let written ← pushBytes (List.replicate completeWirePrefixBytes 0) [0x94]
  let written ← pushBytes written [0xcb]
  let written ← pushBytes written (beBytes 8 (unixSeconds timestampUnixMs).toNat)
  let written ← pushBinary written title
  let written ← pushBinary written content
  pushBytes written fields

/-- The bytes that are signed. -/
def signatureInput (destination source : Vector Byte 16) (payload : List Byte)
    (messageId : Vector Byte 32) : Except BasicLxmfComposeError (List Byte) := do
  let written ← pushBytes [] destination.toList
  let written ← pushBytes written source.toList
  let written ← pushBytes written payload
  pushBytes written messageId.toList

/-- Sign the payload behind the prefix of `scratch`, and write the message into `output`. -/
def finishMessage (destination source : Vector Byte 16) (scratch output : List Byte)
    (carrierLen : ℕ) : Except BasicLxmfComposeError (PreparedBasicLxmf × List Byte) := do
  let payload := scratch.drop completeWirePrefixBytes
  let messageId := sha256 (destination.toList ++ source.toList ++ payload)
  let input ← signatureInput destination source payload messageId
  let wire := destination.toList ++ source.toList ++ (signLxmf input).toList ++ payload
  if 65535 < scratch.length ∨ 65535 < carrierLen then .error .messageTooLarge
  else .ok (⟨scratch.length, carrierLen, messageId⟩, wire ++ output.drop wire.length)

/-- Compose one message into the buffer `output` of the caller. -/
def composeBasicOpportunisticLxmf (destination source : Vector Byte 16) (timestampUnixMs : ℕ)
    (title content : List Byte) (fields : Option (List Byte)) (runtimeCarrierLimit : ℕ)
    (output : List Byte) : Except BasicLxmfComposeError (PreparedBasicLxmf × List Byte) :=
  if timestampUnixMs = 0 then .error .invalidTimestamp
  else if maxLxmfTimestampUnixMs < timestampUnixMs then
    .error (.timestampTooLarge timestampUnixMs maxLxmfTimestampUnixMs)
  else
    let fields := fields.getD [0x80]
    (validateFields fields).bind fun _ =>
    if !basicLxmfPayloadFitsContentLimit title.length content.length fields.length
        pythonOpportunisticContentBytes then .error .pythonOpportunisticLimit
    else
      (pushPayload unixSeconds timestampUnixMs title content fields).bind fun scratch =>
      let carrierLen := scratch.length - destinationHashLength
      if runtimeCarrierLimit < carrierLen then
        .error (.runtimeCarrierLimit carrierLen runtimeCarrierLimit)
      else if output.length < scratch.length then
        .error (.outputTooSmall scratch.length output.length)
      else finishMessage sha256 signLxmf destination source scratch output carrierLen

end Compose

section Fields

variable {widen : BitVec 32 → BitVec 64} {fields : List Byte}

/-- The limits for the fields bound nothing but the steps. -/
theorem affords_fieldsLimits {value : Value} {shortest : Bool}
    (h : Encodes widen 16 value fields shortest) :
    Scanner.new.Affords (fieldsLimits fields) (costOf value) ↔
      (costOf value).visits ≤ max (fields.length * 16) 32 := by
  obtain ⟨-, hvalues, hitems, hbytes⟩ := costOf_within h
  unfold Scanner.Affords
  simp only [Scanner.new, fieldsLimits, Nat.zero_add]
  constructor
  · rintro ⟨-, hzero | hvisits, -⟩
    · omega
    · exact hvisits
  · exact fun hvisits => ⟨Or.inr (by omega), Or.inr hvisits, hitems, hbytes⟩

/-- The fields of a canonical map are accepted exactly if the scan stays within its steps. -/
theorem validateFields_of_encodes {value : Value} (h : Encodes widen 16 value fields true)
    (hmap : kindOf value.head = .map) :
    validateFields fields = if (costOf value).visits ≤ max (fields.length * 16) 32 then .ok ()
      else .error .invalidFields := by
  have hguard : Guarded Exceeds _ (validateMessagepackValue (fieldsLimits fields) fields) _ :=
    guarded_validate h
  have haffords := affords_fieldsLimits h
  unfold validateFields
  split_ifs with hvisits
  · rw [hguard.ok ⟨le_refl _, haffords.mpr hvisits⟩]
    simp [hmap, Canonicality.ofBool]
  · obtain ⟨error, -, herror⟩ := hguard.error fun hroom => hvisits (haffords.mp hroom.2)
    rw [herror]

/-- The bytes are one canonical map of nesting depth at most sixteen: with unbounded counters,
validation says so. -/
def IsCanonicalMap (fields : List Byte) : Prop :=
  ∃ room, ∀ limits : WireLimits, limits.maxNestingDepth = 16 → limits.Admits room →
    validateMessagepackValue limits fields = .ok ⟨fields, .map, .canonical⟩

/-- A canonical map is a map in its shortest encoding, 16 levels deep at most. -/
theorem isCanonicalMap_iff (widen : BitVec 32 → BitVec 64) :
    IsCanonicalMap fields ↔
      ∃ value, Encodes widen 16 value fields true ∧ kindOf value.head = .map := by
  constructor
  · rintro ⟨room, hroom⟩
    have hvalid := hroom ⟨room, room, room, room, room, 16⟩ rfl
      ⟨le_refl _, le_refl _, le_refl _, le_refl _, le_refl _⟩
    obtain ⟨value, shortest, hencodes, -, hresult⟩ := (@validate_ok_iff _ _ widen _).mp hvalid
    obtain ⟨-, hkind, hcanonical⟩ := MessagePackValue.mk.inj hresult
    cases shortest with
    | false => cases hcanonical
    | true => exact ⟨value, hencodes, hkind.symm⟩
  · rintro ⟨value, hencodes, hmap⟩
    refine ⟨fields.length + (costOf value).visits, fun limits hdepth hadmits => ?_⟩
    have hmaximum : effectiveMaximum limits = 16 := by
      rw [effectiveMaximum, hdepth]
      rfl
    have haffords := admits_affords hencodes hadmits
    rw [← hmaximum] at hencodes
    rw [validate_ok_iff.mpr ⟨value, true, hencodes, haffords, rfl⟩, hmap]
    rfl

end Fields

section Errors

variable {α β : Type}

/-- A step that does not blame the fields. -/
def SparesFields (x : Except BasicLxmfComposeError α) : Prop := x ≠ .error .invalidFields

/-- A sequence spares the fields where its parts do. -/
theorem SparesFields.bind {x : Except BasicLxmfComposeError α}
    {f : α → Except BasicLxmfComposeError β} (h : SparesFields x) (hf : ∀ a, SparesFields (f a)) :
    SparesFields (x >>= f) := by
  cases x with
  | error error => exact fun hbind => h (congrArg Except.error (Except.error.inj hbind))
  | ok a => exact hf a

/-- To append bytes is no failure of the fields. -/
theorem sparesFields_pushBytes (written value : List Byte) :
    SparesFields (pushBytes written value) := by
  unfold pushBytes SparesFields
  split_ifs <;> simp

/-- To append a byte string is no failure of the fields. -/
theorem sparesFields_pushBinary (written value : List Byte) :
    SparesFields (pushBinary written value) := by
  have hbytes : ∀ head, SparesFields ((pushBytes written head).bind (pushBytes · value)) :=
    fun head => (sparesFields_pushBytes written head).bind fun _ => sparesFields_pushBytes _ _
  unfold pushBinary
  split_ifs
  · exact hbytes _
  · exact hbytes _
  · exact hbytes _
  · simp [SparesFields]

/-- To append the payload is no failure of the fields. -/
theorem sparesFields_pushPayload (unixSeconds : ℕ → BitVec 64) (timestampUnixMs : ℕ)
    (title content fields : List Byte) :
    SparesFields (pushPayload unixSeconds timestampUnixMs title content fields) :=
  (sparesFields_pushBytes _ _).bind fun _ => (sparesFields_pushBytes _ _).bind fun _ =>
    (sparesFields_pushBytes _ _).bind fun _ => (sparesFields_pushBinary _ _).bind fun _ =>
    (sparesFields_pushBinary _ _).bind fun _ => sparesFields_pushBytes _ _

/-- To finish the message is no failure of the fields. -/
theorem sparesFields_finishMessage (sha256 : Sha256) (signLxmf : List Byte → Vector Byte 64)
    (destination source : Vector Byte 16) (scratch output : List Byte) (carrierLen : ℕ) :
    SparesFields (finishMessage sha256 signLxmf destination source scratch output carrierLen) := by
  refine SparesFields.bind ?_ fun input => ?_
  · exact (sparesFields_pushBytes _ _).bind fun _ => (sparesFields_pushBytes _ _).bind fun _ =>
      (sparesFields_pushBytes _ _).bind fun _ => sparesFields_pushBytes _ _
  · unfold SparesFields
    dsimp only
    split_ifs <;> simp

/-- With a valid timestamp, only the check of the fields blames them. -/
theorem compose_invalidFields_iff {sha256 : Sha256} {signLxmf : List Byte → Vector Byte 64}
    {unixSeconds : ℕ → BitVec 64} {destination source : Vector Byte 16} {timestampUnixMs : ℕ}
    {title content fields output : List Byte} {runtimeCarrierLimit : ℕ}
    (hpos : 0 < timestampUnixMs) (hmax : timestampUnixMs ≤ maxLxmfTimestampUnixMs) :
    composeBasicOpportunisticLxmf sha256 signLxmf unixSeconds destination source timestampUnixMs
        title content (some fields) runtimeCarrierLimit output = .error .invalidFields ↔
      validateFields fields = .error .invalidFields := by
  unfold composeBasicOpportunisticLxmf
  rw [if_neg hpos.ne', if_neg (Nat.not_lt.mpr hmax), Option.getD_some]
  dsimp only
  cases validateFields fields with
  | error error =>
    rw [Except.error.injEq]
    exact ⟨fun h => Except.error.inj h, fun h => congrArg Except.error h⟩
  | ok valid =>
    refine iff_of_false ?_ (by simp)
    have hvalid : SparesFields (Except.ok valid) := by simp [SparesFields]
    refine hvalid.bind fun _ => ?_
    split_ifs
    · simp [SparesFields]
    · refine (sparesFields_pushPayload _ _ _ _ _).bind fun scratch => ?_
      split_ifs
      · simp [SparesFields]
      · simp [SparesFields]
      · exact sparesFields_finishMessage _ _ _ _ _ _ _

end Errors

section Room

/-- Bytes are appended where they fit into the scratch buffer. -/
theorem pushBytes_ok {written value : List Byte}
    (h : written.length + value.length ≤ 512) :
    pushBytes written value = .ok (written ++ value) := if_neg (Nat.not_lt.mpr h)

/-- A binary value is written with its head if there is room. -/
theorem pushBinary_ok {written value : List Byte} {length : ℕ}
    (hlength : encodedMessagepackBinaryLen value.length = some length)
    (h : written.length + length ≤ 512) :
    ∃ result, pushBinary written value = .ok result ∧ result.length = written.length + length := by
  have hpush : ∀ head : List Byte, head.length + value.length = length →
      (pushBytes written head).bind (pushBytes · value) = .ok (written ++ head ++ value) := by
    intro head hhead
    rw [pushBytes_ok (by omega)]
    exact pushBytes_ok (by rw [List.length_append]; omega)
  unfold encodedMessagepackBinaryLen at hlength
  unfold pushBinary
  split_ifs at hlength ⊢ with h8 h16 h32
  · cases hlength
    exact ⟨_, hpush _ (by simp), by simp; omega⟩
  · cases hlength
    exact ⟨_, hpush _ (by simp), by simp; omega⟩
  · cases hlength
    exact ⟨_, hpush _ (by simp), by simp; omega⟩

/-- The payload is appended where its length fits behind the prefix. -/
theorem pushPayload_ok (unixSeconds : ℕ → BitVec 64) (timestampUnixMs : ℕ)
    {title content fields : List Byte} {payloadLen : ℕ}
    (hlength : encodedBasicLxmfPayloadLen title.length content.length fields.length =
      some payloadLen)
    (h : completeWirePrefixBytes + payloadLen ≤ 512) :
    ∃ scratch, pushPayload unixSeconds timestampUnixMs title content fields = .ok scratch ∧
      scratch.length = completeWirePrefixBytes + payloadLen := by
  obtain ⟨titleLen, htitle, hlength⟩ := Option.bind_eq_some_iff.mp hlength
  obtain ⟨contentLen, hcontent, hlength⟩ := Option.bind_eq_some_iff.mp hlength
  have htotal : 10 + titleLen + contentLen + fields.length = payloadLen := Option.some.inj hlength
  obtain ⟨afterTitle, hpushTitle, hafterTitle⟩ := @pushBinary_ok
    (List.replicate completeWirePrefixBytes 0 ++ [0x94] ++ [0xcb] ++
      beBytes 8 (unixSeconds timestampUnixMs).toNat) _ _ htitle (by simp; omega)
  simp only [List.length_append, List.length_replicate, List.length_singleton, length_beBytes]
    at hafterTitle
  obtain ⟨afterContent, hpushContent, hafterContent⟩ :=
    @pushBinary_ok afterTitle _ _ hcontent (by omega)
  refine ⟨afterContent ++ fields, ?_, by rw [List.length_append]; omega⟩
  rw [pushPayload, pushBytes_ok (by simp; omega), ok_bind, pushBytes_ok (by simp; omega), ok_bind,
    pushBytes_ok (by simp; omega), ok_bind, hpushTitle, ok_bind, hpushContent, ok_bind,
    pushBytes_ok (by omega)]

/-- A message that fits is finished. -/
theorem finishMessage_ok {sha256 : Sha256} {signLxmf : List Byte → Vector Byte 64}
    {destination source : Vector Byte 16} {scratch output : List Byte} {carrierLen : ℕ}
    (hscratch : scratch.length ≤ completeWirePrefixBytes + 311) (hcarrier : carrierLen ≤ 65535) :
    ∃ result, finishMessage sha256 signLxmf destination source scratch output carrierLen =
      .ok result := by
  have hpayload : (scratch.drop completeWirePrefixBytes).length ≤ 311 := by
    rw [List.length_drop]
    omega
  have hstart : completeWirePrefixBytes = 96 := rfl
  unfold finishMessage signatureInput
  dsimp only
  rw [pushBytes_ok (by simp), ok_bind, pushBytes_ok (by simp), ok_bind,
    pushBytes_ok (by simp only [List.length_append, Vector.length_toList, List.length_nil]; omega),
    ok_bind,
    pushBytes_ok (by simp only [List.length_append, Vector.length_toList, List.length_nil]; omega),
    ok_bind, if_neg (by omega)]
  exact ⟨_, rfl⟩

/-- A message whose fields pass their check is composed if it fits its three limits. -/
theorem compose_ok {sha256 : Sha256} {signLxmf : List Byte → Vector Byte 64}
    {unixSeconds : ℕ → BitVec 64} {destination source : Vector Byte 16} {timestampUnixMs : ℕ}
    {title content fields output : List Byte} {runtimeCarrierLimit payloadLen : ℕ}
    (hpos : 0 < timestampUnixMs) (hmax : timestampUnixMs ≤ maxLxmfTimestampUnixMs)
    (hvalid : validateFields fields = .ok ())
    (hlength : encodedBasicLxmfPayloadLen title.length content.length fields.length =
      some payloadLen)
    (hcontent : payloadLen ≤ 16 + 295)
    (hcarrier : 16 + 64 + payloadLen ≤ runtimeCarrierLimit)
    (houtput : completeWirePrefixBytes + payloadLen ≤ output.length) :
    ∃ result, composeBasicOpportunisticLxmf sha256 signLxmf unixSeconds destination source
      timestampUnixMs title content (some fields) runtimeCarrierLimit output = .ok result := by
  have hstart : completeWirePrefixBytes = 96 := rfl
  obtain ⟨scratch, hscratch, hscratchLen⟩ :=
    pushPayload_ok unixSeconds timestampUnixMs hlength (by rw [hstart]; omega)
  have hfits : basicLxmfPayloadFitsContentLimit title.length content.length fields.length
      pythonOpportunisticContentBytes = true := by
    simp only [basicLxmfPayloadFitsContentLimit, hlength, Option.any_some, decide_eq_true_eq]
    exact hcontent
  have hcarrierLen : scratch.length - destinationHashLength = 16 + 64 + payloadLen := by
    rw [hscratchLen, hstart, destinationHashLength]
    omega
  unfold composeBasicOpportunisticLxmf
  rw [if_neg hpos.ne', if_neg (Nat.not_lt.mpr hmax), Option.getD_some]
  dsimp only
  rw [hvalid]
  dsimp only [Except.bind]
  rw [hfits, if_neg (by decide), hscratch]
  dsimp only [Except.bind]
  rw [hcarrierLen, if_neg (by omega), if_neg (by omega)]
  exact finishMessage_ok (by omega) (by omega)

end Room

/-- The composer takes a canonical map as fields exactly if scanning it, with each entry of a map
scanned again for every later key of the map, takes at most sixteen steps for each byte. -/
theorem compose_accepts_fields_iff (widen : BitVec 32 → BitVec 64) (sha256 : Sha256)
    (signLxmf : List Byte → Vector Byte 64) (unixSeconds : ℕ → BitVec 64)
    (destination source : Vector Byte 16) {timestampUnixMs : ℕ} (title content : List Byte)
    {fields : List Byte} (runtimeCarrierLimit : ℕ) (output : List Byte)
    (hpos : 0 < timestampUnixMs) (hmax : timestampUnixMs ≤ maxLxmfTimestampUnixMs)
    (hfields : IsCanonicalMap fields) :
    ∃ value, Encodes widen 16 value fields true ∧
      (composeBasicOpportunisticLxmf sha256 signLxmf unixSeconds destination source
          timestampUnixMs title content (some fields) runtimeCarrierLimit output ≠
            .error .invalidFields ↔
        (costOf value).visits ≤ max (fields.length * 16) 32) := by
  obtain ⟨value, hencodes, hmap⟩ := (isCanonicalMap_iff widen).mp hfields
  refine ⟨value, hencodes, ?_⟩
  rw [Ne, compose_invalidFields_iff hpos hmax, validateFields_of_encodes hencodes hmap]
  split_ifs with hvisits
  · simpa using hvisits
  · simpa using hvisits

/-- Thirty-three numbers, each with the number zero. -/
def crowdedEntries : List (Value × Value) :=
  (List.range 33).map fun number : ℕ => (.int number, .int 0)

/-- The encoding of that map. -/
def crowdedFields : List Byte :=
  [0xde, 0, 33] ++ (List.range 33).flatMap fun number => [BitVec.ofNat 8 number, 0]

/-- A small number is one byte. -/
theorem encodes_small {widen : BitVec 32 → BitVec 64} {depth number : ℕ} (h : number < 128) :
    Encodes widen (depth + 1) (.int number) [BitVec.ofNat 8 number] true := by
  have htoInt : (BitVec.ofNat 8 number).toInt = number := by
    rw [BitVec.toInt_eq_toNat_of_lt, BitVec.toNat_ofNat] <;> simp <;> omega
  have hform : (Head.int number).Form [BitVec.ofNat 8 number] := by
    rw [← htoInt]
    exact .fixint (by omega)
  refine ⟨_, [], true, hform, .int _, rfl, ?_⟩
  have hshortest : Head.shortest widen (.int number) = [BitVec.ofNat 8 number] := by
    rw [Head.shortest, shortestInt, if_pos (by omega), BitVec.ofInt_natCast]
  simp [Value.head, hshortest]

/-- The crowded fields are a map in its shortest encoding. -/
theorem encodes_crowdedFields :
    Encodes (fun _ => 0) 16 (.map crowdedEntries) crowdedFields true := by
  have hzero : Encodes (fun _ => 0) 15 (.int 0) [0] true := encodes_small (by decide : 0 < 128)
  have hentry : ∀ number ∈ List.range 33, Entry (Encodes (fun _ => 0) 15)
      (.int number, .int 0) [BitVec.ofNat 8 number, 0] true := fun number hnumber =>
    .mk (encodes_small ((List.mem_range.mp hnumber).trans (by decide))) hzero
  have hentries : Sequence (Entry (Encodes (fun _ => 0) 15)) crowdedEntries
      ((List.range 33).flatMap fun number => [BitVec.ofNat 8 number, 0]) true :=
    .of_forall hentry
  have hkeys : KeysDistinct crowdedEntries := by
    refine ⟨(List.range 33).map fun number : ℕ => .number number, ?_, ?_⟩
    · rw [crowdedEntries, List.map_map, List.map_map]
      rfl
    · exact List.Nodup.map (fun _ _ h => Int.ofNat.inj (Key.number.inj h)) List.nodup_range
  exact ⟨[0xde, 0, 33], _, true, .map (by decide) (by decide) (by decide : 33 < range 1),
    .map hentries hkeys, rfl, by decide⟩

/-- The crowded fields are a canonical map. -/
theorem isCanonicalMap_crowdedFields : IsCanonicalMap crowdedFields :=
  (isCanonicalMap_iff _).mpr ⟨_, encodes_crowdedFields, rfl⟩

/-- The crowded fields are canonical and refused. -/
theorem compose_accepts_fields_crowded :
    ∃ value, Encodes (fun _ => 0) 16 value crowdedFields true ∧
      (composeBasicOpportunisticLxmf (fun _ => Vector.replicate 32 0) (fun _ =>
        Vector.replicate 64 0)
          (fun _ => 0) (Vector.replicate 16 1) (Vector.replicate 16 2) 1 [] [] (some crowdedFields)
          383 (List.replicate 512 0) ≠ .error .invalidFields ↔
        (costOf value).visits ≤ max (crowdedFields.length * 16) 32) :=
  compose_accepts_fields_iff _ _ _ _ _ _ [] [] 383 _ (by decide) (by decide)
    isCanonicalMap_crowdedFields

/-- A canonical map that fits a message, and needs 1123 steps for its 69 bytes. -/
theorem crowdedFields_rejected :
    IsCanonicalMap crowdedFields ∧
    basicLxmfPayloadFitsContentLimit 0 0 crowdedFields.length pythonOpportunisticContentBytes =
      true ∧
    composeBasicOpportunisticLxmf (fun _ => Vector.replicate 32 0) (fun _ => Vector.replicate 64 0)
        (fun _ => 0) (Vector.replicate 16 1) (Vector.replicate 16 2) 1 [] [] (some crowdedFields)
        383 (List.replicate 512 0) = .error .invalidFields := by
  refine ⟨isCanonicalMap_crowdedFields, by decide, ?_⟩
  have hvisits : (costOf (.map crowdedEntries)).visits = 1123 := by decide +kernel
  have hlength : crowdedFields.length = 69 := by decide
  refine (compose_invalidFields_iff (by decide) (by decide)).mpr ?_
  rw [validateFields_of_encodes encodes_crowdedFields rfl, hvisits, hlength]
  decide

end Lxmf
