import ReticulumFirmware.Lxmf.SidebandLocation

/-!
# The second scan

What a location is in terms of decoded values, and that the decoder computes it. The entries of a
map that passed validation are scanned once more with a new scanner, which affords them, so that
this scan neither fails nor panics.
-/

namespace Lxmf

open Nor MessagePack Codec

section Reading

/-- The unsigned number of 32 bits that a value is. -/
def u32Of (value : Value) : Option (BitVec 32) :=
  (numberOf value).bind fun value =>
    if 0 ≤ value ∧ value < 2 ^ 32 then some (BitVec.ofInt 32 value) else none

/-- The word of `bits` bits that a binary value of `width` bytes is. -/
def wordOf (width bits : ℕ) (value : Value) : Option (BitVec bits) :=
  (binaryOf value).bind fun bytes =>
    if bytes.length = width then some (BitVec.ofNat bits (beNat bytes)) else none

/-- The value of the last entry whose key is the number, after an earlier one. -/
def lastWith (number : ℤ) (found : Option Value) (entries : List (Value × Value)) : Option Value :=
  entries.foldl (fun found entry => if numberOf entry.1 = some number then some entry.2 else found)
    found

/-- The observation in the items of a location. -/
def readItems : List Value → Except DecodeStop SidebandLocationTelemetry
  | latitude :: longitude :: altitude :: speed :: bearing :: accuracy :: updatedAt :: _ => do
    let latitudeE6 ← expectElement .latitude (wordOf 4 32 latitude)
    let longitudeE6 ← expectElement .longitude (wordOf 4 32 longitude)
    let altitudeCm ← expectElement .altitude (wordOf 4 32 altitude)
    let speedCmPerSecond ← expectElement .speed (wordOf 4 32 speed)
    let bearingCentidegrees ← expectElement .bearing (wordOf 4 32 bearing)
    let accuracyCm ← expectElement .accuracy (wordOf 2 16 accuracy)
    let updatedAtUnixSeconds ← expectElement .updatedAt (u32Of updatedAt)
    return { latitudeE6, longitudeE6, altitudeCm, speedCmPerSecond, bearingCentidegrees,
             accuracyCm, updatedAtUnixSeconds }
  | items => .error (.returned (.locationTooShort items.length))

/-- The observation in the values of the two sensors. -/
def readSensors (time location : Option Value) : Except DecodeStop SidebandLocationTelemetry :=
  match time with
  | none => .error (.returned .missingTimeSensor)
  | some time =>
    match u32Of time, location with
    | none, _ => .error (.returned .invalidTimeSensor)
    | some _, none => .error (.returned .missingLocationSensor)
    | some _, some (.array items) => readItems items
    | some _, some _ => .error (.returned .locationNotArray)

/-- The observation in a sensor map. -/
def readTelemetry : Value → Except DecodeStop SidebandLocationTelemetry
  | .map entries => readSensors (lastWith sidebandSensorTime none entries)
      (lastWith sidebandSensorLocation none entries)
  | _ => .error (.returned .telemetryNotMap)

/-- The observation in a telemetry field, whose bytes are read by `inner`. -/
def readField (inner : List Byte → Except DecodeStop SidebandLocationTelemetry) :
    Value → Except DecodeStop (Option SidebandLocationTelemetry)
  | .bin bytes => (inner bytes).map some
  | _ => .error (.returned .telemetryFieldNotBinary)

/-- The observation in the first telemetry field. -/
def readEntries (inner : List Byte → Except DecodeStop SidebandLocationTelemetry) :
    List (Value × Value) → Except DecodeStop (Option SidebandLocationTelemetry)
  | [] => pure none
  | (key, value) :: entries =>
    if numberOf key = some ↑fieldTelemetry then readField inner value
    else readEntries inner entries

/-- The location in a value that is a map of fields. -/
def readFields (inner : List Byte → Except DecodeStop SidebandLocationTelemetry) :
    Value → Except DecodeStop (Option SidebandLocationTelemetry)
  | .map entries => readEntries inner entries
  | _ => .error (.returned .fieldsNotMap)

end Reading

section Values

variable {limits : WireLimits} {bytes raw : List Byte} {widen : BitVec 32 → BitVec 64}
  {value : Value} {depth : ℕ} {shortest : Bool}

/-- A number of four bytes is decoded from every encoding of the value. -/
theorem decodeU32Integer_of_encodes (h : Encodes widen depth value raw shortest) :
    decodeU32Integer raw = u32Of value := by
  rw [decodeU32Integer, decodeInteger_of_encodes h]
  rfl

/-- A word is decoded from every encoding of the value. -/
theorem decodeBinaryWord_of_encodes (h : Encodes widen depth value raw shortest)
    (width bits : ℕ) : decodeBinaryWord width bits raw = wordOf width bits value := by
  rw [decodeBinaryWord, binaryPayload_of_encodes h]
  rfl

/-- A value one level inside is scanned again at the cost it has. -/
theorem scanAgain_of_encodes (h : Encodes widen (effectiveMaximum limits - 1) value raw shortest)
    {cursor : ℕ} (hraw : Occurs bytes cursor raw) {scanner : Scanner}
    (hroom : scanner.Affords limits (costOf value))
    (blame : WireError → SidebandLocationTelemetryDecodeError) :
    scanAgain limits bytes blame cursor scanner =
      .ok (scannedAt cursor value raw shortest, scanner.spend (costOf value)) := by
  have hlevels : effectiveMaximum limits - 1 = effectiveMaximum limits + 1 - 2 := by omega
  rw [hlevels] at h
  rw [scanAgain, (guarded_scanValue h hraw).ok hroom]
  rfl

/-- Bytes that occur are sliced. -/
theorem sliceRange_of_occurs {cursor : ℕ} (hraw : Occurs bytes cursor raw) (hne : raw ≠ []) :
    sliceRange bytes cursor (cursor + raw.length) = .ok raw := by
  rw [sliceRange, if_pos ⟨by omega, hraw.le hne⟩, Nat.add_sub_cancel_left, hraw.slice_eq]

variable {key : Value} {rawKey : List Byte} {shortestKey : Bool}

/-- An entry is scanned again at the cost it has. -/
theorem scanPair_of_encodes
    (hkey : Encodes widen (effectiveMaximum limits - 1) key rawKey shortestKey)
    (hvalue : Encodes widen (effectiveMaximum limits - 1) value raw shortest) {cursor : ℕ}
    (hraw : Occurs bytes cursor (rawKey ++ raw)) {scanner : Scanner}
    (hroom : scanner.Affords limits (entryCost (key, value)))
    (blame : WireError → SidebandLocationTelemetryDecodeError) :
    scanPair limits bytes blame cursor scanner =
      .ok (rawKey, cursor + rawKey.length,
        ⟨cursor + (rawKey ++ raw).length, kindOf value.head, .ofBool shortest⟩,
        scanner.spend (entryCost (key, value))) := by
  obtain ⟨hkeyAt, hvalueAt⟩ := occurs_append.mp hraw
  rw [entryCost, Scanner.affords_add] at hroom
  rw [scanPair, scanAgain_of_encodes hkey hkeyAt hroom.1, ok_bind]
  dsimp only [scannedAt]
  rw [scanAgain_of_encodes hvalue hvalueAt hroom.2, ok_bind]
  dsimp only [scannedAt]
  rw [sliceRange_of_occurs hkeyAt (ne_nil_of_encodes hkey), ok_bind, entryCost, Scanner.spend_add,
    List.length_append, Nat.add_assoc]
  rfl

/-- The value of an entry is sliced from behind its key. -/
theorem sliceRange_value (hvalue : Encodes widen depth value raw shortest) {cursor : ℕ}
    (hraw : Occurs bytes cursor (rawKey ++ raw)) :
    sliceRange bytes (cursor + rawKey.length) (cursor + (rawKey ++ raw).length) = .ok raw := by
  rw [List.length_append, ← Nat.add_assoc]
  exact sliceRange_of_occurs (occurs_append.mp hraw).2 (ne_nil_of_encodes hvalue)

end Values

section Loops

variable {limits : WireLimits} {bytes raw : List Byte} {widen : BitVec 32 → BitVec 64} {all : Bool}

/-- The loop over the fields finds the first telemetry field. -/
theorem findTelemetry_eq {entries : List (Value × Value)}
    (h : Sequence (Entry (Encodes widen (effectiveMaximum limits - 1))) entries raw all)
    {cursor : ℕ} (hraw : Occurs bytes cursor raw) {scanner : Scanner}
    (hroom : scanner.Affords limits (entries.map entryCost).sum) :
    findTelemetry limits bytes entries.length cursor scanner =
      readEntries (decodeTelemetry limits) entries := by
  induction h generalizing cursor scanner with
  | nil => rfl
  | @cons entry entries raw rest _ _ head tail ih =>
    cases head with
    | @mk key value rawKey rawValue _ _ hkey hvalue =>
    obtain ⟨hhead, htail⟩ := occurs_append.mp hraw
    rw [List.map_cons, List.sum_cons, Scanner.affords_add] at hroom
    rw [List.length_cons, findTelemetry, scanPair_of_encodes hkey hvalue hhead hroom.1, ok_bind]
    dsimp only
    rw [decodeInteger_of_encodes hkey, readEntries]
    by_cases hnumber : numberOf key = some ↑fieldTelemetry
    · rw [if_pos hnumber, if_pos hnumber, sliceRange_value hvalue hhead, ok_bind,
        binaryPayload_of_encodes hvalue]
      cases value <;> rfl
    · rw [if_neg hnumber, if_neg hnumber]
      exact ih htail hroom.2

end Loops

section Sensors

variable {limits : WireLimits} {bytes raw : List Byte} {widen : BitVec 32 → BitVec 64} {all : Bool}

/-- The bytes of a value inside a sensor map. -/
def EncodesSensor (limits : WireLimits) (widen : BitVec 32 → BitVec 64) (raw : List Byte)
    (value : Value) : Prop :=
  ∃ shortest, Encodes widen (effectiveMaximum limits - 1) value raw shortest

/-- The bytes and the kind of a value inside a sensor map, which a new scanner affords. -/
def EncodesLocation (limits : WireLimits) (widen : BitVec 32 → BitVec 64)
    (location : List Byte × MessagePackKind) (value : Value) : Prop :=
  EncodesSensor limits widen location.1 value ∧ location.2 = kindOf value.head ∧
    Scanner.new.Affords limits (costOf value)

/-- The loop over the sensors keeps the last time and the last location. -/
theorem collectSensors_eq {entries : List (Value × Value)}
    (h : Sequence (Entry (Encodes widen (effectiveMaximum limits - 1))) entries raw all)
    {cursor : ℕ} (hraw : Occurs bytes cursor raw) {scanner : Scanner}
    (hroom : scanner.Affords limits (entries.map entryCost).sum)
    (hnew : ∀ entry ∈ entries, Scanner.new.Affords limits (costOf entry.2))
    {time : Option (List Byte)} {location : Option (List Byte × MessagePackKind)}
    {timeValue locationValue : Option Value}
    (htime : Option.Rel (EncodesSensor limits widen) time timeValue)
    (hlocation : Option.Rel (EncodesLocation limits widen) location locationValue) :
    ∃ lastTime lastLocation,
      collectSensors limits bytes entries.length cursor scanner time location =
        .ok (lastTime, lastLocation) ∧
      Option.Rel (EncodesSensor limits widen) lastTime
        (lastWith sidebandSensorTime timeValue entries) ∧
      Option.Rel (EncodesLocation limits widen) lastLocation
        (lastWith sidebandSensorLocation locationValue entries) := by
  induction h generalizing cursor scanner time location timeValue locationValue with
  | nil => exact ⟨time, location, rfl, htime, hlocation⟩
  | @cons entry entries raw rest _ _ head tail ih =>
    cases head with
    | @mk key value rawKey rawValue _ _ hkey hvalue =>
    obtain ⟨hhead, htail⟩ := occurs_append.mp hraw
    rw [List.map_cons, List.sum_cons, Scanner.affords_add] at hroom
    have hvalueRoom := hnew (key, value) List.mem_cons_self
    have hrest := fun entry hentry => hnew entry (List.mem_cons_of_mem _ hentry)
    rw [List.length_cons, collectSensors, scanPair_of_encodes hkey hvalue hhead hroom.1, ok_bind]
    dsimp only
    rw [decodeInteger_of_encodes hkey, lastWith, lastWith, List.foldl_cons, List.foldl_cons]
    by_cases htimeKey : numberOf key = some ↑sidebandSensorTime
    · have hother : numberOf key ≠ some ↑sidebandSensorLocation := by
        rw [htimeKey]
        decide
      rw [if_pos htimeKey, if_pos htimeKey, if_neg hother, sliceRange_value hvalue hhead, ok_bind]
      exact ih htail hroom.2 hrest (.some ⟨_, hvalue⟩) hlocation
    · rw [if_neg htimeKey, if_neg htimeKey]
      by_cases hlocationKey : numberOf key = some ↑sidebandSensorLocation
      · rw [if_pos hlocationKey, if_pos hlocationKey, sliceRange_value hvalue hhead, ok_bind]
        exact ih htail hroom.2 hrest htime (.some ⟨⟨_, hvalue⟩, rfl, hvalueRoom⟩)
      · rw [if_neg hlocationKey, if_neg hlocationKey]
        exact ih htail hroom.2 hrest htime hlocation

/-- The slots of the first items of a location. -/
theorem scanSlots_eq {items : List Value}
    (h : Sequence (Encodes widen (effectiveMaximum limits - 1)) items raw all) {count : ℕ}
    (hcount : count ≤ items.length) {cursor : ℕ} (hraw : Occurs bytes cursor raw)
    {scanner : Scanner} (hroom : scanner.Affords limits (items.map costOf).sum) :
    ∃ slots, scanSlots limits bytes count cursor scanner = .ok slots ∧
      List.Forall₂ (EncodesSensor limits widen) slots (items.take count) := by
  induction count generalizing items raw all cursor scanner with
  | zero => exact ⟨[], rfl, .nil⟩
  | succ count ih =>
    cases h with
    | nil => cases hcount
    | @cons item items rawItem rest _ _ head tail =>
      obtain ⟨hhead, htail⟩ := occurs_append.mp hraw
      rw [List.map_cons, List.sum_cons, Scanner.affords_add] at hroom
      obtain ⟨slots, hslots, hall⟩ := ih tail (Nat.le_of_succ_le_succ hcount) htail hroom.2
      refine ⟨rawItem :: slots, ?_, .cons ⟨_, head⟩ hall⟩
      rw [scanSlots, scanAgain_of_encodes head hhead hroom.1, ok_bind]
      dsimp only [scannedAt]
      rw [sliceRange_of_occurs hhead (ne_nil_of_encodes head), ok_bind, hslots]
      rfl

end Sensors

section Decoders

variable {limits : WireLimits} {bytes raw : List Byte} {widen : BitVec 32 → BitVec 64}
  {value : Value} {depth : ℕ} {shortest : Bool}

/-- A sensor is decoded as the word that it encodes. -/
theorem EncodesSensor.word (h : EncodesSensor limits widen raw value) (width bits : ℕ) :
    decodeBinaryWord width bits raw = wordOf width bits value := by
  obtain ⟨_, h⟩ := h
  exact decodeBinaryWord_of_encodes h width bits

/-- A sensor is decoded as the number that it encodes. -/
theorem EncodesSensor.u32 (h : EncodesSensor limits widen raw value) :
    decodeU32Integer raw = u32Of value := by
  obtain ⟨_, h⟩ := h
  exact decodeU32Integer_of_encodes h

/-- The slots of a location are decoded as its items are read. -/
theorem decodeSlots_eq {slots : List (List Byte)} {items : List Value} (hlength : 7 ≤ items.length)
    (h : List.Forall₂ (EncodesSensor limits widen) slots (items.take 7)) :
    decodeSlots slots = readItems items := by
  match items, hlength with
  | latitude :: longitude :: altitude :: speed :: bearing :: accuracy :: updatedAt :: rest, _ =>
    obtain _ | ⟨hlatitude, h⟩ := h
    obtain _ | ⟨hlongitude, h⟩ := h
    obtain _ | ⟨haltitude, h⟩ := h
    obtain _ | ⟨hspeed, h⟩ := h
    obtain _ | ⟨hbearing, h⟩ := h
    obtain _ | ⟨haccuracy, h⟩ := h
    obtain _ | ⟨hupdatedAt, -⟩ := h
    simp only [decodeSlots, readItems, decodeI32Binary, decodeU32Binary, decodeU16Binary,
      List.getD_cons_zero, List.getD_cons_succ, hlatitude.word, hlongitude.word, haltitude.word,
      hspeed.word, hbearing.word, haccuracy.word, hupdatedAt.u32]

/-- A location with fewer than seven items is refused with their number. -/
theorem readItems_of_short {items : List Value} (h : items.length < 7) :
    readItems items = .error (.returned (.locationTooShort items.length)) := by
  match items with
  | [] | [_] | [_, _] | [_, _, _] | [_, _, _, _] | [_, _, _, _, _] | [_, _, _, _, _, _] => rfl
  | _ :: _ :: _ :: _ :: _ :: _ :: _ :: _ =>
    simp only [List.length_cons] at h
    omega

/-- A body occurs behind its head. -/
theorem occurs_body (head body : List Byte) : Occurs (head ++ body) head.length body := by
  have hall : Occurs (head ++ body) 0 (head ++ body) := List.prefix_refl _
  simpa using (occurs_append.mp hall).2

/-- A location is decoded from the bytes of an array as from its items. -/
theorem decodeLocation_eq {items : List Value}
    (h : EncodesSensor limits widen raw (.array items))
    (hroom : Scanner.new.Affords limits (costOf (.array items))) :
    decodeLocation limits raw = readItems items := by
  obtain ⟨shortest, h⟩ := h
  obtain ⟨levels, head, body, all, hlevels, hform, hbody, rfl⟩ := encodes_parts h
  cases hbody with
  | array hitems =>
  rw [decodeLocation, arrayHeader_append hform, expectSome, ok_bind]
  dsimp only
  by_cases hcount : items.length < 7
  · rw [if_pos hcount, readItems_of_short hcount]
  · have hsequence : Sequence (Encodes widen (effectiveMaximum limits - 1)) items body all :=
      hitems.mono fun hitem => hitem.mono (by omega)
    obtain ⟨slots, hslots, hall⟩ := scanSlots_eq hsequence (not_lt.mp hcount)
      (occurs_body head body) (hroom.mono (sum_le_costOf_array items))
    rw [if_neg hcount, hslots, ok_bind, decodeSlots_eq (not_lt.mp hcount) hall]

/-- The sensors are decoded as their values are read. -/
theorem decodeSensors_eq {time : Option (List Byte)}
    {location : Option (List Byte × MessagePackKind)}
    {timeValue locationValue : Option Value}
    (htime : Option.Rel (EncodesSensor limits widen) time timeValue)
    (hlocation : Option.Rel (EncodesLocation limits widen) location locationValue) :
    decodeSensors limits (time, location) = readSensors timeValue locationValue := by
  cases htime with
  | none => rfl
  | @some time timeValue htime =>
    unfold decodeSensors readSensors
    dsimp only
    rw [htime.u32]
    cases u32Of timeValue with
    | none => rfl
    | some _ =>
      cases hlocation with
      | none => rfl
      | @some location locationValue hlocation =>
        obtain ⟨raw, kind⟩ := location
        obtain ⟨hencodes, hkind, hroom⟩ := hlocation
        dsimp only at hencodes hkind ⊢
        rw [hkind]
        cases locationValue with
        | array items => exact decodeLocation_eq hencodes hroom
        | _ => rfl

/-- The decoder of the sensor map computes what the value reads as. -/
theorem decodeTelemetry_eq
    (h : Encodes widen (effectiveMaximum limits) value bytes shortest)
    (hwire : bytes.length ≤ limits.maxWireBytes)
    (hroom : Scanner.new.Affords limits (costOf value)) :
    decodeTelemetry limits bytes = readTelemetry value := by
  rw [decodeTelemetry, (guarded_validate h).ok ⟨hwire, hroom⟩]
  obtain ⟨levels, head, body, all, hlevels, hform, hbody, rfl⟩ := encodes_parts h
  cases hbody with
  | @map entries _ _ hentries hkeys =>
    have hsequence : Sequence (Entry (Encodes widen (effectiveMaximum limits - 1))) entries body
        all := by
      rwa [hlevels, Nat.add_sub_cancel]
    obtain ⟨time, location, hcollect, htime, hlocation⟩ := collectSensors_eq hsequence
      (occurs_body head body) (hroom.mono (sum_le_costOf_map _))
      (fun entry hentry => hroom.mono (costOf_value_le hentry)) .none .none
    change (expectSome (mapHeader (head ++ body)) >>= _) = _
    rw [mapHeader_append hform, expectSome, ok_bind]
    dsimp only
    rw [hcollect, ok_bind]
    exact decodeSensors_eq htime hlocation
  | _ => rfl

/-- Fields that the scanner accepts are decoded as their value is read. -/
theorem decodeSidebandLocationFields_eq
    (h : Encodes widen (effectiveMaximum limits) value bytes shortest)
    (hwire : bytes.length ≤ limits.maxWireBytes)
    (hroom : Scanner.new.Affords limits (costOf value)) :
    decodeSidebandLocationFields limits bytes = readFields (decodeTelemetry limits) value := by
  rw [decodeSidebandLocationFields, (guarded_validate h).ok ⟨hwire, hroom⟩]
  obtain ⟨levels, head, body, all, hlevels, hform, hbody, rfl⟩ := encodes_parts h
  cases hbody with
  | @map entries _ _ hentries hkeys =>
    have hsequence : Sequence (Entry (Encodes widen (effectiveMaximum limits - 1))) entries body
        all := by
      rwa [hlevels, Nat.add_sub_cancel]
    change (expectSome (mapHeader (head ++ body)) >>= _) = _
    rw [mapHeader_append hform, expectSome, ok_bind]
    exact findTelemetry_eq hsequence (occurs_body head body) (hroom.mono (sum_le_costOf_map _))
  | _ => rfl

end Decoders

section Stops

variable {α β : Type} {p q : DecodeStop → Prop}

/-- If the decoder stops, it stops in this way. -/
def StopsWith (p : DecodeStop → Prop) (x : Except DecodeStop α) : Prop :=
  ∀ stop, x = .error stop → p stop

/-- A sequence stops as its parts do. -/
theorem StopsWith.bind {x : Except DecodeStop α} {f : α → Except DecodeStop β}
    (hx : StopsWith p x) (hf : ∀ a, StopsWith p (f a)) : StopsWith p (x >>= f) := by
  cases x with
  | error stop =>
    intro other hother
    cases hother
    exact hx stop rfl
  | ok a => exact hf a

/-- A value is no stop. -/
theorem stopsWith_ok (a : α) : StopsWith p (.ok a) := nofun

/-- A stop of the given kind is one. -/
theorem stopsWith_error {stop : DecodeStop} (h : p stop) :
    StopsWith p (.error stop : Except DecodeStop α) := by
  rintro _ ⟨⟩
  exact h

/-- The bytes were scanned, and something else is wrong with them. -/
def Structural : DecodeStop → Prop
  | .panicked | .returned (.invalidFields _) | .returned (.invalidTelemetry _) => False
  | _ => True

/-- The fields were scanned, and something else is wrong with them. -/
def BehindFields : DecodeStop → Prop
  | .panicked | .returned (.invalidFields _) => False
  | _ => True

/-- A structural stop is one behind the fields. -/
theorem Structural.behindFields {stop : DecodeStop} (h : Structural stop) : BehindFields stop := by
  cases stop with
  | panicked => exact h
  | returned error => cases error <;> first | exact h | exact trivial

/-- A missing element is a structural stop. -/
theorem stopsWith_expectElement (element : SidebandLocationElement) (x : Option α) :
    StopsWith Structural (expectElement element x) := by
  cases x with
  | none => exact stopsWith_error trivial
  | some a => exact stopsWith_ok a

/-- Items are refused for their structure only. -/
theorem stopsWith_readItems (items : List Value) : StopsWith Structural (readItems items) := by
  unfold readItems
  split
  · exact (stopsWith_expectElement _ _).bind fun _ => (stopsWith_expectElement _ _).bind fun _ =>
      (stopsWith_expectElement _ _).bind fun _ => (stopsWith_expectElement _ _).bind fun _ =>
      (stopsWith_expectElement _ _).bind fun _ => (stopsWith_expectElement _ _).bind fun _ =>
      (stopsWith_expectElement _ _).bind fun _ => stopsWith_ok _
  · exact stopsWith_error trivial

/-- Telemetry is refused for its structure only. -/
theorem stopsWith_readTelemetry (value : Value) : StopsWith Structural (readTelemetry value) := by
  unfold readTelemetry
  split
  · unfold readSensors
    split
    · exact stopsWith_error trivial
    · split
      · exact stopsWith_error trivial
      · exact stopsWith_error trivial
      · exact stopsWith_readItems _
      · exact stopsWith_error trivial
  · exact stopsWith_error trivial

/-- The fields are refused for what is behind them only. -/
theorem stopsWith_readFields {inner : List Byte → Except DecodeStop SidebandLocationTelemetry}
    (hinner : ∀ bytes, StopsWith BehindFields (inner bytes)) (value : Value) :
    StopsWith BehindFields (readFields inner value) := by
  have hentries : ∀ entries, StopsWith BehindFields (readEntries inner entries) := by
    intro entries
    induction entries with
    | nil => exact stopsWith_ok _
    | cons entry entries ih =>
      obtain ⟨key, value⟩ := entry
      rw [readEntries]
      split_ifs
      · unfold readField
        split
        · exact (hinner _).bind fun _ => stopsWith_ok _
        · exact stopsWith_error trivial
      · exact ih
  unfold readFields
  split
  · exact hentries _
  · exact stopsWith_error trivial

variable (limits : WireLimits) (bytes : List Byte)

/-- What a decoder returns after validation is what the value reads as. -/
theorem decodeTelemetry_cases :
    (∃ error, validateMessagepackValue limits bytes = .error error ∧
      decodeTelemetry limits bytes = .error (.returned (.invalidTelemetry error))) ∨
    ∃ view value, validateMessagepackValue limits bytes = .ok view ∧
      decodeTelemetry limits bytes = readTelemetry value := by
  cases hvalid : validateMessagepackValue limits bytes with
  | error error =>
    refine .inl ⟨error, rfl, ?_⟩
    rw [decodeTelemetry, hvalid]
    rfl
  | ok view =>
    obtain ⟨value, shortest, hencodes, hroom, -⟩ :=
      (@validate_ok_iff _ _ (fun _ => 0) _).mp hvalid
    exact .inr ⟨view, value, rfl, decodeTelemetry_eq hencodes hroom.1 hroom.2⟩

/-- Fields are refused by the scanner, or accepted and decoded as their value is read. -/
theorem decodeSidebandLocationFields_cases :
    (∃ error, validateMessagepackValue limits bytes = .error error ∧
      decodeSidebandLocationFields limits bytes = .error (.returned (.invalidFields error))) ∨
    ∃ view value, validateMessagepackValue limits bytes = .ok view ∧
      decodeSidebandLocationFields limits bytes = readFields (decodeTelemetry limits) value := by
  cases hvalid : validateMessagepackValue limits bytes with
  | error error =>
    refine .inl ⟨error, rfl, ?_⟩
    rw [decodeSidebandLocationFields, hvalid]
    rfl
  | ok view =>
    obtain ⟨value, shortest, hencodes, hroom, -⟩ :=
      (@validate_ok_iff _ _ (fun _ => 0) _).mp hvalid
    exact .inr ⟨view, value, rfl, decodeSidebandLocationFields_eq hencodes hroom.1 hroom.2⟩

/-- Telemetry inside the fields is refused for what is behind them only. -/
theorem stopsWith_decodeTelemetry : StopsWith BehindFields (decodeTelemetry limits bytes) := by
  obtain ⟨error, -, h⟩ | ⟨view, value, -, h⟩ := decodeTelemetry_cases limits bytes
  · rw [h]
    exact stopsWith_error trivial
  · rw [h]
    exact fun stop hstop => (stopsWith_readTelemetry value stop hstop).behindFields

/-- The telemetry is called malformed exactly if validation calls it so. -/
theorem decodeTelemetry_invalid_iff (error : WireError) :
    decodeTelemetry limits bytes = .error (.returned (.invalidTelemetry error)) ↔
      validateMessagepackValue limits bytes = .error error := by
  obtain ⟨found, hvalid, h⟩ | ⟨view, value, hvalid, h⟩ := decodeTelemetry_cases limits bytes
  · rw [h, hvalid]
    simp
  · rw [h, hvalid]
    refine iff_of_false (fun hstop => ?_) nofun
    exact stopsWith_readTelemetry value _ hstop

/-- The fields are called malformed exactly if validation calls them so, and no step panics. -/
theorem decodeSidebandLocationFields_invalid_iff (error : WireError) :
    decodeSidebandLocationFields limits bytes = .error (.returned (.invalidFields error)) ↔
      validateMessagepackValue limits bytes = .error error := by
  obtain ⟨found, hvalid, h⟩ | ⟨view, value, hvalid, h⟩ :=
    decodeSidebandLocationFields_cases limits bytes
  · rw [h, hvalid]
    simp
  · rw [h, hvalid]
    refine iff_of_false (fun hstop => ?_) nofun
    exact stopsWith_readFields (stopsWith_decodeTelemetry limits) value _ hstop

/-- The decoder of the fields does not panic. -/
theorem decodeSidebandLocationFields_ne_panicked :
    decodeSidebandLocationFields limits bytes ≠ .error .panicked := by
  obtain ⟨found, -, h⟩ | ⟨view, value, -, h⟩ := decodeSidebandLocationFields_cases limits bytes
  · rw [h]
    simp
  · rw [h]
    exact fun hstop => stopsWith_readFields (stopsWith_decodeTelemetry limits) value _ hstop

end Stops

end Lxmf
