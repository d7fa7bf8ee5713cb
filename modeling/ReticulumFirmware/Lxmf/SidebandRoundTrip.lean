import ReticulumFirmware.Lxmf.Compose
import ReticulumFirmware.Lxmf.SidebandReading

/-!
# The location round trip

The encoder writes the shortest encoding of one map, whose length is the one foretold, and the
decoder reads the same observation from it.
-/

namespace Lxmf

open Nor MessagePack Codec

section Encodings

variable {widen : BitVec 32 → BitVec 64} {depth : ℕ}

/-- The shortest form of a number encodes it. -/
theorem encodes_shortestInt {number : ℕ} (h : number < range 3) :
    Encodes widen (depth + 1) (.int number) (shortestInt number) true := by
  have hform : (Head.int number).Form (shortestInt number) :=
    form_shortestInt (by omega) (by exact_mod_cast h)
  exact ⟨_, [], true, hform, .int _, (List.append_nil _).symm, by simp [Head.shortest, Value.head]⟩

/-- A short byte string is encoded by its tagged length and its bytes. -/
theorem encodes_bin {bytes : List Byte} (h : bytes.length < 256) :
    Encodes widen (depth + 1) (.bin bytes) (tagged 0xc4 0 bytes.length ++ bytes) true := by
  have hexponent : exponent bytes.length = 0 := if_pos h
  exact ⟨_, bytes, true, .bin (by omega) h, .bin _, rfl,
    by simp [Head.shortest, Value.head, hexponent]⟩

/-- A short array is encoded by one byte and its items. -/
theorem encodes_fixarray {items : List Value} {raw : List Byte}
    (h : Sequence (Encodes widen depth) items raw true) (hlength : items.length < 16) :
    Encodes widen (depth + 1) (.array items) (BitVec.ofNat 8 (0x90 + items.length) :: raw) true :=
  ⟨_, raw, true, .fixarray hlength, .array h, rfl,
    by simp [Head.shortest, Value.head, hlength]⟩

/-- A short map with distinct keys is encoded by one byte and its entries. -/
theorem encodes_fixmap {entries : List (Value × Value)} {raw : List Byte}
    (h : Sequence (Entry (Encodes widen depth)) entries raw true) (hkeys : KeysDistinct entries)
    (hlength : entries.length < 16) :
    Encodes widen (depth + 1) (.map entries) (BitVec.ofNat 8 (0x80 + entries.length) :: raw) true :=
  ⟨_, raw, true, .fixmap hlength, .map h hkeys, rfl,
    by simp [Head.shortest, Value.head, hlength]⟩

end Encodings

section Writes

/-- Four bytes are written as a byte string. -/
theorem writes_putBin4 {bytes : List Byte} (h : bytes.length = 4) :
    Writes (putBin4 bytes) (tagged 0xc4 0 bytes.length ++ bytes) := by
  rw [h]
  exact (writes_putBytes _).bind (writes_putBytes bytes)

/-- Two bytes are written as a byte string. -/
theorem writes_putBin2 {bytes : List Byte} (h : bytes.length = 2) :
    Writes (putBin2 bytes) (tagged 0xc4 0 bytes.length ++ bytes) := by
  rw [h]
  exact (writes_putBytes _).bind (writes_putBytes bytes)

/-- The width of the argument is the smallest, and the length is the one foretold. -/
theorem writes_putU32Integer {number : ℕ} (h : number < range 2) :
    Writes (putU32Integer number) (shortestInt number) ∧
      (shortestInt number).length = messagepackU32Len number := by
  by_cases hfix : number ≤ 0x7f
  · have hput : putU32Integer number = putByte number := funext fun _ => if_pos hfix
    have hshortest : shortestInt number = [BitVec.ofNat 8 number] := by
      rw [shortestInt, if_pos (by omega), BitVec.ofInt_natCast]
    rw [hput, hshortest, messagepackU32Len, if_pos hfix]
    exact ⟨writes_putBytes _, rfl⟩
  have hshortest : shortestInt number = tagged 0xcc (exponent number) number := by
    rw [shortestInt, if_neg (by omega), if_pos (by omega), Int.toNat_natCast]
  rw [hshortest, length_tagged, messagepackU32Len, if_neg hfix]
  by_cases h8 : number ≤ 0xff
  · have hput : putU32Integer number = putBytes [0xcc, BitVec.ofNat 8 number] :=
      funext fun _ => (if_neg hfix).trans (if_pos h8)
    have hexponent : exponent number = 0 := if_pos (Nat.lt_succ_of_le h8)
    rw [hput, hexponent, if_pos h8]
    exact ⟨writes_putBytes _, rfl⟩
  have hrange8 : ¬ number < range 0 := fun h => h8 (Nat.le_of_lt_succ h)
  rw [if_neg h8]
  by_cases h16 : number ≤ 0xffff
  · have hput : putU32Integer number =
        fun target => putByte 0xcd target >>= putBytes (beBytes 2 number) :=
      funext fun _ => (if_neg hfix).trans ((if_neg h8).trans (if_pos h16))
    have hexponent : exponent number = 1 :=
      (if_neg hrange8).trans (if_pos (Nat.lt_succ_of_le h16))
    rw [hput, hexponent, if_pos h16]
    exact ⟨(writes_putBytes _).bind (writes_putBytes _), rfl⟩
  · have hput : putU32Integer number =
        fun target => putByte 0xce target >>= putBytes (beBytes 4 number) :=
      funext fun _ => (if_neg hfix).trans ((if_neg h8).trans (if_neg h16))
    have hexponent : exponent number = 2 :=
      (if_neg hrange8).trans ((if_neg fun h => h16 (Nat.le_of_lt_succ h)).trans (if_pos h))
    rw [hput, hexponent, if_neg h16]
    exact ⟨(writes_putBytes _).bind (writes_putBytes _), rfl⟩

end Writes

section Telemetry

variable (telemetry : SidebandLocationTelemetry)

/-- The bytes of a short binary value. -/
def binBytes (bytes : List Byte) : List Byte := tagged 0xc4 0 bytes.length ++ bytes

/-- The items of a location. -/
def locationItems : List Value :=
  [.bin (beBytes 4 telemetry.latitudeE6.toNat), .bin (beBytes 4 telemetry.longitudeE6.toNat),
   .bin (beBytes 4 telemetry.altitudeCm.toNat), .bin (beBytes 4 telemetry.speedCmPerSecond.toNat),
   .bin (beBytes 4 telemetry.bearingCentidegrees.toNat),
   .bin (beBytes 2 telemetry.accuracyCm.toNat),
   .int telemetry.updatedAtUnixSeconds.toNat]

/-- The encoding of these items. -/
def locationBytes : List Byte :=
  binBytes (beBytes 4 telemetry.latitudeE6.toNat) ++
  (binBytes (beBytes 4 telemetry.longitudeE6.toNat) ++
  (binBytes (beBytes 4 telemetry.altitudeCm.toNat) ++
  (binBytes (beBytes 4 telemetry.speedCmPerSecond.toNat) ++
  (binBytes (beBytes 4 telemetry.bearingCentidegrees.toNat) ++
  (binBytes (beBytes 2 telemetry.accuracyCm.toNat) ++
  shortestInt telemetry.updatedAtUnixSeconds.toNat)))))

/-- The sensor map. -/
def telemetryValue : Value :=
  .map [(.int sidebandSensorTime, .int telemetry.updatedAtUnixSeconds.toNat),
    (.int sidebandSensorLocation, .array (locationItems telemetry))]

/-- The encoding of the sensor map. -/
def telemetryBytes : List Byte :=
  [0x82] ++ ([0x01] ++ (shortestInt telemetry.updatedAtUnixSeconds.toNat ++
    ([0x02] ++ ([0x97] ++ locationBytes telemetry))))

/-- The fields of a message with one location. -/
def fieldsValue : Value := .map [(.int fieldTelemetry, .bin (telemetryBytes telemetry))]

/-- The encoding of the fields. -/
def fieldsBytes : List Byte := [0x81] ++ ([0x02] ++ binBytes (telemetryBytes telemetry))

variable {widen : BitVec 32 → BitVec 64} {depth : ℕ}

/-- The time of an update fits into four bytes. -/
theorem updatedAt_lt : telemetry.updatedAtUnixSeconds.toNat < range 2 :=
  telemetry.updatedAtUnixSeconds.isLt

/-- The telemetry has the length that is computed for it. -/
theorem length_telemetryBytes :
    (telemetryBytes telemetry).length = encodedSidebandLocationTelemetryLen telemetry := by
  have htime := (writes_putU32Integer (updatedAt_lt telemetry)).2
  simp only [telemetryBytes, locationBytes, binBytes, List.length_append, List.length_singleton,
    length_tagged, length_beBytes, htime, encodedSidebandLocationTelemetryLen]
  omega

/-- No telemetry is longer than the maximum. -/
theorem encodedSidebandLocationTelemetryLen_le :
    encodedSidebandLocationTelemetryLen telemetry ≤ maxEncodedSidebandLocationTelemetryBytes := by
  have hlen : messagepackU32Len telemetry.updatedAtUnixSeconds.toNat ≤ 5 := by
    unfold messagepackU32Len
    split_ifs <;> omega
  unfold encodedSidebandLocationTelemetryLen maxEncodedSidebandLocationTelemetryBytes
  omega

/-- The length of the telemetry fits into a byte. -/
theorem length_telemetryBytes_lt : (telemetryBytes telemetry).length < 256 := by
  rw [length_telemetryBytes]
  exact (encodedSidebandLocationTelemetryLen_le telemetry).trans_lt (by decide)

/-- The fields have the length that is computed for them. -/
theorem length_fieldsBytes :
    (fieldsBytes telemetry).length = encodedSidebandLocationFieldsLen telemetry := by
  simp only [fieldsBytes, binBytes, List.length_append, List.length_singleton, length_tagged,
    length_telemetryBytes, encodedSidebandLocationFieldsLen]
  omega

/-- No fields are longer than the maximum. -/
theorem length_fieldsBytes_le :
    (fieldsBytes telemetry).length ≤ maxEncodedSidebandLocationFieldsBytes := by
  rw [length_fieldsBytes]
  exact Nat.add_le_add_left (encodedSidebandLocationTelemetryLen_le telemetry) 4

/-- The location bytes encode the items of the location. -/
theorem encodes_locationBytes :
    Sequence (Encodes widen (depth + 1)) (locationItems telemetry)
      (locationBytes telemetry) true := by
  have hbin : ∀ width word, width < 256 →
      Encodes widen (depth + 1) (.bin (beBytes width word)) (binBytes (beBytes width word)) true :=
    fun width word hwidth => encodes_bin (by rwa [length_beBytes])
  have htime : Encodes widen (depth + 1) (.int telemetry.updatedAtUnixSeconds.toNat) _ true :=
    encodes_shortestInt ((updatedAt_lt telemetry).trans (by decide))
  exact .cons (hbin 4 _ (by decide)) <| .cons (hbin 4 _ (by decide)) <|
    .cons (hbin 4 _ (by decide)) <| .cons (hbin 4 _ (by decide)) <|
    .cons (hbin 4 _ (by decide)) <| .cons (hbin 2 _ (by decide)) <| .singleton htime

/-- The telemetry bytes encode the telemetry. -/
theorem encodes_telemetryBytes :
    Encodes widen (depth + 3) (telemetryValue telemetry) (telemetryBytes telemetry) true := by
  have htimeKey : Encodes widen (depth + 2) (.int sidebandSensorTime) [0x01] true :=
    encodes_small (by decide)
  have hlocationKey : Encodes widen (depth + 2) (.int sidebandSensorLocation) [0x02] true :=
    encodes_small (by decide)
  have htime : Encodes widen (depth + 2) (.int telemetry.updatedAtUnixSeconds.toNat) _ true :=
    encodes_shortestInt ((updatedAt_lt telemetry).trans (by decide))
  have hlocation : Encodes widen (depth + 2) (.array (locationItems telemetry))
      (0x97 :: locationBytes telemetry) true :=
    encodes_fixarray (encodes_locationBytes telemetry) (show 7 < 16 by decide)
  have hentries := (Sequence.singleton (Entry.mk htimeKey htime)).append
    (.singleton (.mk hlocationKey hlocation))
  rw [List.append_assoc] at hentries
  exact encodes_fixmap hentries ⟨[.number 1, .number 2], rfl, by decide⟩ (show 2 < 16 by decide)

/-- The fields bytes encode the fields. -/
theorem encodes_fieldsBytes :
    Encodes widen (depth + 2) (fieldsValue telemetry) (fieldsBytes telemetry) true := by
  have hkey : Encodes widen (depth + 1) (.int fieldTelemetry) [0x02] true :=
    encodes_small (by decide)
  have hvalue : Encodes widen (depth + 1) _ (binBytes (telemetryBytes telemetry)) true :=
    encodes_bin (length_telemetryBytes_lt telemetry)
  exact encodes_fixmap (.singleton (.mk hkey hvalue)) ⟨[.number 2], rfl, by decide⟩
    (show 1 < 16 by decide)

end Telemetry

section Encoder

variable (telemetry : SidebandLocationTelemetry)

/-- The telemetry is written. -/
theorem writes_putTelemetry :
    Writes (putTelemetry telemetry) (telemetryBytes telemetry) := by
  have htime := (writes_putU32Integer (updatedAt_lt telemetry)).1
  have hbin4 : ∀ word, Writes (putBin4 (beBytes 4 word)) (binBytes (beBytes 4 word)) :=
    fun word => writes_putBin4 (length_beBytes 4 word)
  have hbin2 : ∀ word, Writes (putBin2 (beBytes 2 word)) (binBytes (beBytes 2 word)) :=
    fun word => writes_putBin2 (length_beBytes 2 word)
  exact (writes_putBytes _).bind <| (writes_putBytes _).bind <| htime.bind <|
    (writes_putBytes _).bind <| (writes_putBytes _).bind <| (hbin4 _).bind <| (hbin4 _).bind <|
    (hbin4 _).bind <| (hbin4 _).bind <| (hbin4 _).bind <| (hbin2 _).bind htime

/-- The sensor map is written into a buffer that holds it. -/
theorem encodeSidebandLocationTelemetry_eq {output : List Byte}
    (h : encodedSidebandLocationTelemetryLen telemetry ≤ output.length) :
    encodeSidebandLocationTelemetry telemetry output =
      some (.ok ((telemetryBytes telemetry).length,
        telemetryBytes telemetry ++ output.drop (telemetryBytes telemetry).length)) := by
  have hlength := length_telemetryBytes telemetry
  have hrun := (writes_putTelemetry telemetry).run (hlength.trans_le h)
  rw [encodeSidebandLocationTelemetry, if_neg (Nat.not_lt.mpr h)]
  rw [hlength] at hrun ⊢
  rw [hrun, Option.bind_some, if_pos rfl]

/-- What is behind the head of the telemetry field. -/
def putInner (target : Target) : Option Target := do
  let rest ← getFrom target.bytes target.cursor
  match ← encodeSidebandLocationTelemetry telemetry rest with
  | .error _ => none
  | .ok (written, rest) =>
    some ⟨target.bytes.take target.cursor ++ rest, target.cursor + written⟩

/-- The telemetry inside the fields is written. -/
theorem writes_putInner : Writes (putInner telemetry) (telemetryBytes telemetry) := by
  intro written rest hroom
  rw [putInner, getFrom_append, Option.bind_eq_bind, Option.bind_some,
    encodeSidebandLocationTelemetry_eq telemetry (by rwa [← length_telemetryBytes])]
  simp

/-- The fields are written. -/
theorem writes_putFields :
    Writes (putFields telemetry (telemetryBytes telemetry).length) (fieldsBytes telemetry) := by
  have hlength := length_telemetryBytes_lt telemetry
  have hput : putFields telemetry (telemetryBytes telemetry).length = fun target =>
      putByte 0x81 target >>= fun target => putByte fieldTelemetry target >>= fun target =>
        putByte 0xc4 target >>= fun target =>
          putByte (telemetryBytes telemetry).length target >>= putInner telemetry := by
    funext target
    simp only [putFields, if_pos (Nat.le_of_lt_succ hlength)]
    rfl
  rw [hput]
  exact (writes_putBytes _).bind <| (writes_putBytes _).bind <| (writes_putBytes _).bind <|
    (writes_putBytes _).bind (writes_putInner telemetry)

/-- Fields that fit are written to the front of the buffer. -/
theorem encodeSidebandLocationFields_eq {output : List Byte}
    (h : encodedSidebandLocationFieldsLen telemetry ≤ output.length) :
    encodeSidebandLocationFields telemetry output =
      some (.ok ((fieldsBytes telemetry).length,
        fieldsBytes telemetry ++ output.drop (fieldsBytes telemetry).length)) := by
  have hlength := length_fieldsBytes telemetry
  have hinner : encodedSidebandLocationFieldsLen telemetry - 4 =
      (telemetryBytes telemetry).length := by
    rw [length_telemetryBytes, encodedSidebandLocationFieldsLen, Nat.add_sub_cancel_left]
  have hrun := (writes_putFields telemetry).run (hlength.trans_le h)
  rw [encodeSidebandLocationFields, if_neg (Nat.not_lt.mpr h)]
  rw [hinner]
  rw [hlength] at hrun ⊢
  rw [hrun, Option.bind_some, if_pos rfl]

end Encoder

section Decoder

/-- A word is read back from its bytes. -/
theorem wordOf_beBytes {width bits : ℕ} (h : 2 ^ bits = 256 ^ width) (word : BitVec bits) :
    wordOf width bits (.bin (beBytes width word.toNat)) = some word := by
  rw [wordOf, binaryOf, Option.bind_some, if_pos (length_beBytes width _),
    beNat_beBytes_of_lt (h ▸ word.isLt), BitVec.ofNat_toNat, BitVec.setWidth_eq]

/-- A number of four bytes is read back. -/
theorem u32Of_toNat (word : BitVec 32) : u32Of (.int word.toNat) = some word := by
  have hlt := word.isLt
  rw [u32Of, numberOf, Option.bind_some, if_pos ⟨by omega, by omega⟩, BitVec.ofInt_natCast,
    BitVec.ofNat_toNat, BitVec.setWidth_eq]

variable (telemetry : SidebandLocationTelemetry)

/-- A location is read back from its items. -/
theorem readItems_locationItems : readItems (locationItems telemetry) = .ok telemetry := by
  have hword : ∀ word : BitVec 32, wordOf 4 32 (.bin (beBytes 4 word.toNat)) = some word :=
    wordOf_beBytes (by norm_num)
  have haccuracy : wordOf 2 16 (.bin (beBytes 2 telemetry.accuracyCm.toNat)) =
      some telemetry.accuracyCm := wordOf_beBytes (by norm_num) _
  simp only [locationItems, readItems, hword, haccuracy, u32Of_toNat]
  rfl

/-- The time is found by its key. -/
theorem lastWith_time (time location : Value) :
    lastWith sidebandSensorTime none
      [(.int sidebandSensorTime, time), (.int sidebandSensorLocation, location)] = some time := rfl

/-- The location is found by its key. -/
theorem lastWith_location (time location : Value) :
    lastWith sidebandSensorLocation none
      [(.int sidebandSensorTime, time), (.int sidebandSensorLocation, location)] =
      some location := rfl

/-- Sensors with a time and an array are read as its items. -/
theorem readSensors_array {time : Value} {word : BitVec 32} (h : u32Of time = some word)
    (items : List Value) : readSensors (some time) (some (.array items)) = readItems items := by
  unfold readSensors
  dsimp only
  rw [h]

/-- Telemetry is read back from its value. -/
theorem readTelemetry_telemetryValue :
    readTelemetry (telemetryValue telemetry) = .ok telemetry := by
  rw [telemetryValue, readTelemetry, lastWith_time, lastWith_location,
    readSensors_array (u32Of_toNat _), readItems_locationItems]

/-- The sensor map decodes to the observation if validation accepts it. -/
theorem decodeTelemetry_telemetryBytes {limits : WireLimits} {view : MessagePackValue}
    (h : validateMessagepackValue limits (telemetryBytes telemetry) = .ok view) :
    decodeTelemetry limits (telemetryBytes telemetry) = .ok telemetry := by
  obtain ⟨value, shortest, hencodes, hroom, -⟩ := (@validate_ok_iff _ _ (fun _ => 0) _).mp h
  have hsame := encodes_injective (hencodes.mono (Nat.le_add_right _ 3))
    (@encodes_telemetryBytes telemetry _ (effectiveMaximum limits))
  rw [decodeTelemetry_eq hencodes hroom.1 hroom.2, hsame, readTelemetry_telemetryValue]

/-- Accepted fields are decoded as the telemetry inside them. -/
theorem decodeSidebandLocationFields_fieldsBytes {limits : WireLimits} {view : MessagePackValue}
    (h : validateMessagepackValue limits (fieldsBytes telemetry) = .ok view) :
    decodeSidebandLocationFields limits (fieldsBytes telemetry) =
      (decodeTelemetry limits (telemetryBytes telemetry)).map some := by
  obtain ⟨value, shortest, hencodes, hroom, -⟩ := (@validate_ok_iff _ _ (fun _ => 0) _).mp h
  have hsame := encodes_injective (hencodes.mono (Nat.le_add_right _ 2))
    (@encodes_fieldsBytes telemetry _ (effectiveMaximum limits))
  rw [decodeSidebandLocationFields_eq hencodes hroom.1 hroom.2, hsame]
  rfl

/-- The fields decode to the observation exactly if validation accepts them and the sensor map. -/
theorem decodeSidebandLocationFields_ok_iff (limits : WireLimits) :
    decodeSidebandLocationFields limits (fieldsBytes telemetry) = .ok (some telemetry) ↔
      (∃ view, validateMessagepackValue limits (fieldsBytes telemetry) = .ok view) ∧
      ∃ view, validateMessagepackValue limits (telemetryBytes telemetry) = .ok view := by
  constructor
  · intro h
    obtain ⟨error, -, hstop⟩ | ⟨view, value, hvalid, -⟩ :=
      decodeSidebandLocationFields_cases limits (fieldsBytes telemetry)
    · rw [hstop] at h
      cases h
    · refine ⟨⟨view, hvalid⟩, ?_⟩
      rw [decodeSidebandLocationFields_fieldsBytes telemetry hvalid] at h
      obtain ⟨error, -, hstop⟩ | ⟨inner, value, hinner, -⟩ :=
        decodeTelemetry_cases limits (telemetryBytes telemetry)
      · rw [hstop] at h
        cases h
      · exact ⟨inner, hinner⟩
  · rintro ⟨⟨view, hvalid⟩, inner, hinner⟩
    rw [decodeSidebandLocationFields_fieldsBytes telemetry hvalid,
      decodeTelemetry_telemetryBytes telemetry hinner]
    rfl

end Decoder

section Room

variable (telemetry : SidebandLocationTelemetry)

/-- The fields take three scan steps. -/
theorem visits_fieldsValue : (costOf (fieldsValue telemetry)).visits = 3 := rfl

/-- The telemetry takes fourteen scan steps. -/
theorem visits_telemetryValue : (costOf (telemetryValue telemetry)).visits = 14 := by
  simp [telemetryValue, locationItems, costOf_eq, bodyCost, Cost.entries, Cost.visit, Cost.value,
    Cost.container, Cost.payload, Cost.uncounted]

/-- Limits that admit the largest location scan both maps. -/
theorem validate_of_admits {limits : WireLimits}
    (hadmits : limits.Admits maxEncodedSidebandLocationFieldsBytes) {value : Value}
    {raw : List Byte} (h : Encodes (fun _ => 0) (effectiveMaximum limits) value raw true)
    (hraw : raw.length ≤ maxEncodedSidebandLocationFieldsBytes)
    (hvisits : (costOf value).visits ≤ maxEncodedSidebandLocationFieldsBytes) :
    ∃ view, validateMessagepackValue limits raw = .ok view := by
  obtain ⟨-, hvalues, hitems, hbytes⟩ := costOf_within h
  obtain ⟨hwire, hvalueBytes, hcontainer, htotal, hsteps⟩ := hadmits
  have hroom : Scanner.new.Affords limits (costOf value) := by
    refine ⟨.inr ?_, .inr ?_, by omega, by omega⟩ <;>
      simp only [Scanner.new, Nat.zero_add] <;> omega
  exact ⟨_, validate_ok_iff.mpr ⟨value, true, h, ⟨by omega, hroom⟩, rfl⟩⟩

/-- Limits that admit the maximum decode the fields as their telemetry. -/
theorem decodeSidebandLocationFields_of_admits {limits : WireLimits}
    (hadmits : limits.Admits maxEncodedSidebandLocationFieldsBytes)
    (hdepth : 3 ≤ limits.maxNestingDepth) :
    decodeSidebandLocationFields limits (fieldsBytes telemetry) = .ok (some telemetry) := by
  have hmaximum : 3 ≤ effectiveMaximum limits := le_min hdepth (by decide)
  refine (decodeSidebandLocationFields_ok_iff telemetry limits).mpr ⟨?_, ?_⟩
  · refine validate_of_admits hadmits
      ((@encodes_fieldsBytes telemetry _ 0).mono (by omega)) ?_ ?_
    · exact length_fieldsBytes_le telemetry
    · rw [visits_fieldsValue]
      decide
  · refine validate_of_admits hadmits
      ((@encodes_telemetryBytes telemetry _ 0).mono hmaximum) ?_ ?_
    · rw [length_telemetryBytes]
      exact (encodedSidebandLocationTelemetryLen_le telemetry).trans (by decide)
    · rw [visits_telemetryValue]
      decide

/-- The composer accepts the fields. -/
theorem validateFields_fieldsBytes : validateFields (fieldsBytes telemetry) = .ok () := by
  rw [validateFields_of_encodes (@encodes_fieldsBytes telemetry (fun _ => 0) 14) rfl,
    visits_fieldsValue, if_pos (by omega)]

end Room

/-- A location that fits its buffer is written as one canonical map of the foretold length, which
the composer accepts and which decodes to the same location. The second scan of a decoder neither
fails nor panics: an error of a scan is one of the validation. -/
theorem sideband_location_round_trip (sha256 : Sha256) (signLxmf : List Byte → Vector Byte 64)
    (unixSeconds : ℕ → BitVec 64) :
    (∀ (telemetry : SidebandLocationTelemetry) (output : List Byte),
      encodedSidebandLocationFieldsLen telemetry ≤ output.length →
      ∃ fields : List Byte,
        encodeSidebandLocationFields telemetry output =
          some (.ok (fields.length, fields ++ output.drop fields.length)) ∧
        fields.length = encodedSidebandLocationFieldsLen telemetry ∧
        fields.length ≤ maxEncodedSidebandLocationFieldsBytes ∧
        IsCanonicalMap fields ∧
        (∀ (destination source : Vector Byte 16) (timestampUnixMs : ℕ)
            (title content buffer : List Byte) (runtimeCarrierLimit payloadLen : ℕ),
          0 < timestampUnixMs → timestampUnixMs ≤ maxLxmfTimestampUnixMs →
          composeBasicOpportunisticLxmf sha256 signLxmf unixSeconds destination source
              timestampUnixMs title content (some fields) runtimeCarrierLimit buffer ≠
            .error .invalidFields ∧
          (encodedBasicLxmfPayloadLen title.length content.length fields.length =
              some payloadLen →
            payloadLen ≤ 16 + 295 → 16 + 64 + payloadLen ≤ runtimeCarrierLimit →
            completeWirePrefixBytes + payloadLen ≤ buffer.length →
            ∃ result, composeBasicOpportunisticLxmf sha256 signLxmf unixSeconds destination
              source timestampUnixMs title content (some fields) runtimeCarrierLimit buffer =
                .ok result)) ∧
        (∀ limits : WireLimits,
          (decodeSidebandLocationFields limits fields = .ok (some telemetry) ↔
            (∃ view, validateMessagepackValue limits fields = .ok view) ∧
            ∃ view, validateMessagepackValue limits (fields.drop 4) = .ok view) ∧
          (limits.Admits maxEncodedSidebandLocationFieldsBytes → 3 ≤ limits.maxNestingDepth →
            decodeSidebandLocationFields limits fields = .ok (some telemetry)))) ∧
    ∀ (limits : WireLimits) (bytes : List Byte),
      decodeSidebandLocationFields limits bytes ≠ .error .panicked ∧
      decodeTelemetry limits bytes ≠ .error .panicked ∧
      ∀ error : WireError,
        (decodeSidebandLocationFields limits bytes = .error (.returned (.invalidFields error)) ↔
          validateMessagepackValue limits bytes = .error error) ∧
        (decodeTelemetry limits bytes = .error (.returned (.invalidTelemetry error)) ↔
          validateMessagepackValue limits bytes = .error error) := by
  refine ⟨fun telemetry output hroom => ?_, fun limits bytes => ?_⟩
  · have hlength := length_fieldsBytes telemetry
    have hinner : (fieldsBytes telemetry).drop 4 = telemetryBytes telemetry := rfl
    refine ⟨fieldsBytes telemetry, encodeSidebandLocationFields_eq telemetry hroom, hlength,
      length_fieldsBytes_le telemetry,
      (isCanonicalMap_iff fun _ => 0).mpr ⟨_, encodes_fieldsBytes telemetry, rfl⟩, ?_, ?_⟩
    · intro destination source timestampUnixMs title content buffer runtimeCarrierLimit payloadLen
        hpos hmax
      have hvalid := validateFields_fieldsBytes telemetry
      refine ⟨?_, compose_ok hpos hmax hvalid⟩
      rw [Ne, compose_invalidFields_iff hpos hmax, hvalid]
      nofun
    · intro limits
      rw [hinner]
      exact ⟨decodeSidebandLocationFields_ok_iff telemetry limits,
        decodeSidebandLocationFields_of_admits telemetry⟩
  · refine ⟨decodeSidebandLocationFields_ne_panicked limits bytes, ?_, fun error =>
      ⟨decodeSidebandLocationFields_invalid_iff limits bytes error,
        decodeTelemetry_invalid_iff limits bytes error⟩⟩
    exact fun hstop => stopsWith_decodeTelemetry limits bytes _ hstop

end Lxmf
