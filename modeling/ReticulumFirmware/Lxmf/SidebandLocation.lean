import ReticulumFirmware.Lxmf.Buffer
import ReticulumFirmware.Lxmf.MsgpackParts

/-!
# Sideband location telemetry

`sideband_location.rs` of the wire crate: one location observation inside the fields of a message.
The decoder validates the fields, and then scans the entries again with a new scanner. A failed
`expect`, index or slice, and a failed debug assertion, is a panic.
-/

namespace Lxmf

open Nor MessagePack Codec

/-- Field of one telemetry snapshot. -/
abbrev fieldTelemetry : ℕ := 0x02

/-- The sensor of the time. -/
abbrev sidebandSensorTime : ℕ := 0x01

/-- The sensor of the location. -/
abbrev sidebandSensorLocation : ℕ := 0x02

/-- The most bytes of a snapshot with one location. -/
abbrev maxEncodedSidebandLocationTelemetryBytes : ℕ := 48

/-- The most bytes of fields with such a snapshot. -/
abbrev maxEncodedSidebandLocationFieldsBytes : ℕ := 52

/-- One fixed-point observation. All words are two's complement, except for the speed, the
accuracy and the time. -/
@[ext] structure SidebandLocationTelemetry where
  latitudeE6 : BitVec 32
  longitudeE6 : BitVec 32
  altitudeCm : BitVec 32
  speedCmPerSecond : BitVec 32
  bearingCentidegrees : BitVec 32
  accuracyCm : BitVec 16
  updatedAtUnixSeconds : BitVec 32
  deriving DecidableEq

/-- An element whose representation was malformed. -/
inductive SidebandLocationElement where
  | latitude
  | longitude
  | altitude
  | speed
  | bearing
  | accuracy
  | updatedAt
  deriving DecidableEq

/-- Why a location was not decoded. -/
inductive SidebandLocationTelemetryDecodeError where
  | invalidFields (error : WireError)
  | fieldsNotMap
  | telemetryFieldNotBinary
  | invalidTelemetry (error : WireError)
  | telemetryNotMap
  | missingTimeSensor
  | invalidTimeSensor
  | missingLocationSensor
  | locationNotArray
  | locationTooShort (actual : ℕ)
  | invalidLocationElement (element : SidebandLocationElement)
  deriving DecidableEq

section Encode

/-- The bytes of the shortest encoding of a number. -/
def messagepackU32Len (value : ℕ) : ℕ :=
  if value ≤ 0x7f then 1 else if value ≤ 0xff then 2 else if value ≤ 0xffff then 3 else 5

/-- The bytes of a snapshot. -/
def encodedSidebandLocationTelemetryLen (telemetry : SidebandLocationTelemetry) : ℕ :=
  38 + messagepackU32Len telemetry.updatedAtUnixSeconds.toNat * 2

/-- The bytes of fields with a snapshot. -/
def encodedSidebandLocationFieldsLen (telemetry : SidebandLocationTelemetry) : ℕ :=
  4 + encodedSidebandLocationTelemetryLen telemetry

/-- Write one byte. -/
def putByte (value : ℕ) : Target → Option Target := putBytes [BitVec.ofNat 8 value]

/-- Write a binary value of four bytes. -/
def putBin4 (value : List Byte) (target : Target) : Option Target :=
  putBytes [0xc4, 0x04] target >>= putBytes value

/-- Write a binary value of two bytes. -/
def putBin2 (value : List Byte) (target : Target) : Option Target :=
  putBytes [0xc4, 0x02] target >>= putBytes value

/-- Write the shortest encoding of a number. -/
def putU32Integer (value : ℕ) (target : Target) : Option Target :=
  if value ≤ 0x7f then putByte value target
  else if value ≤ 0xff then putBytes [0xcc, BitVec.ofNat 8 value] target
  else if value ≤ 0xffff then putByte 0xcd target >>= putBytes (beBytes 2 value)
  else putByte 0xce target >>= putBytes (beBytes 4 value)

/-- The writes of the sensor map. -/
def putTelemetry (telemetry : SidebandLocationTelemetry) (target : Target) : Option Target := do
  let target ← putByte 0x82 target
  let target ← putByte sidebandSensorTime target
  let target ← putU32Integer telemetry.updatedAtUnixSeconds.toNat target
  let target ← putByte sidebandSensorLocation target
  let target ← putByte 0x97 target
  let target ← putBin4 (beBytes 4 telemetry.latitudeE6.toNat) target
  let target ← putBin4 (beBytes 4 telemetry.longitudeE6.toNat) target
  let target ← putBin4 (beBytes 4 telemetry.altitudeCm.toNat) target
  let target ← putBin4 (beBytes 4 telemetry.speedCmPerSecond.toNat) target
  let target ← putBin4 (beBytes 4 telemetry.bearingCentidegrees.toNat) target
  let target ← putBin2 (beBytes 2 telemetry.accuracyCm.toNat) target
  putU32Integer telemetry.updatedAtUnixSeconds.toNat target

/-- The number of bytes written into the buffer of the caller, with the buffer after it. There is
no result after a panic. -/
def encodeSidebandLocationTelemetry (telemetry : SidebandLocationTelemetry) (output : List Byte) :
    Option (Except BufferError (ℕ × List Byte)) :=
  let required := encodedSidebandLocationTelemetryLen telemetry
  if output.length < required then some (.error ⟨required, output.length⟩)
  else
    (putTelemetry telemetry ⟨output.take required, 0⟩).bind fun target =>
    if target.cursor = required then some (.ok (required, target.bytes ++ output.drop required))
    else none

/-- The writes of the fields around the sensor map. -/
def putFields (telemetry : SidebandLocationTelemetry) (innerLen : ℕ) (target : Target) :
    Option Target := do
  let target ← putByte 0x81 target
  let target ← putByte fieldTelemetry target
  let target ← putByte 0xc4 target
  let target ← if innerLen ≤ 0xff then putByte innerLen target else none
  let rest ← getFrom target.bytes target.cursor
  match ← encodeSidebandLocationTelemetry telemetry rest with
  | .error _ => none
  | .ok (written, rest) =>
    some ⟨target.bytes.take target.cursor ++ rest, target.cursor + written⟩

/-- The fields of a message that hold one location, and nothing else. -/
def encodeSidebandLocationFields (telemetry : SidebandLocationTelemetry) (output : List Byte) :
    Option (Except BufferError (ℕ × List Byte)) :=
  let required := encodedSidebandLocationFieldsLen telemetry
  if output.length < required then some (.error ⟨required, output.length⟩)
  else
    (putFields telemetry (required - 4) ⟨output.take required, 0⟩).bind fun target =>
    if target.cursor = required then some (.ok (required, target.bytes ++ output.drop required))
    else none

end Encode

section Decode

/-- How a decoder stops early. -/
inductive DecodeStop where
  | returned (error : SidebandLocationTelemetryDecodeError)
  | panicked
  deriving DecidableEq

/-- A number of four bytes. -/
def decodeU32Integer (raw : List Byte) : Option (BitVec 32) :=
  (decodeInteger raw).bind fun value =>
    if 0 ≤ value ∧ value < 2 ^ 32 then some (BitVec.ofInt 32 value) else none

/-- A binary value of `width` bytes, as a word of `bits` bits. -/
def decodeBinaryWord (width bits : ℕ) (raw : List Byte) : Option (BitVec bits) :=
  (binaryPayload raw).bind fun bytes =>
    if bytes.length = width then some (BitVec.ofNat bits (beNat bytes)) else none

/-- A signed word in a binary value. -/
def decodeI32Binary : List Byte → Option (BitVec 32) := decodeBinaryWord 4 32

/-- An unsigned word in a binary value. -/
def decodeU32Binary : List Byte → Option (BitVec 32) := decodeBinaryWord 4 32

/-- A half word in a binary value. -/
def decodeU16Binary : List Byte → Option (BitVec 16) := decodeBinaryWord 2 16

/-- A value that has to be there. -/
def expectSome {α : Type} : Option α → Except DecodeStop α
  | some a => .ok a
  | none => .error .panicked

/-- `&bytes[start..end]`. -/
def sliceRange (bytes : List Byte) (start end_ : ℕ) : Except DecodeStop (List Byte) :=
  if start ≤ end_ ∧ end_ ≤ bytes.length then .ok (slice bytes start (end_ - start))
  else .error .panicked

/-- An element that has to be well formed. -/
def expectElement {α : Type} (element : SidebandLocationElement) :
    Option α → Except DecodeStop α
  | some a => .ok a
  | none => .error (.returned (.invalidLocationElement element))

variable (limits : WireLimits) (bytes : List Byte)

/-- The scan of a value that was validated before, one level inside. -/
def scanAgain (blame : WireError → SidebandLocationTelemetryDecodeError) (cursor : ℕ)
    (scanner : Scanner) : Except DecodeStop (Scanned × Scanner) :=
  (scanValue limits bytes cursor 2 scanner).mapError fun error => .returned (blame error)

/-- The scan of one entry: the bytes of the key, where it ends, and the value. -/
def scanPair (blame : WireError → SidebandLocationTelemetryDecodeError) (cursor : ℕ)
    (scanner : Scanner) : Except DecodeStop (List Byte × ℕ × Scanned × Scanner) := do
  let (key, scanner) ← scanAgain limits bytes blame cursor scanner
  let (value, scanner) ← scanAgain limits bytes blame key.end_ scanner
  let rawKey ← sliceRange bytes cursor key.end_
  return (rawKey, key.end_, value, scanner)

/-- The slots of the seven required values of a location. -/
def scanSlots : ℕ → ℕ → Scanner → Except DecodeStop (List (List Byte))
  | 0, _, _ => pure []
  | count + 1, cursor, scanner => do
    let (value, scanner) ← scanAgain limits bytes .invalidTelemetry cursor scanner
    let slot ← sliceRange bytes cursor value.end_
    let slots ← scanSlots count value.end_ scanner
    return slot :: slots

/-- The observation in the slots. -/
def decodeSlots (values : List (List Byte)) : Except DecodeStop SidebandLocationTelemetry := do
  let latitudeE6 ← expectElement .latitude (decodeI32Binary (values.getD 0 []))
  let longitudeE6 ← expectElement .longitude (decodeI32Binary (values.getD 1 []))
  let altitudeCm ← expectElement .altitude (decodeI32Binary (values.getD 2 []))
  let speedCmPerSecond ← expectElement .speed (decodeU32Binary (values.getD 3 []))
  let bearingCentidegrees ← expectElement .bearing (decodeI32Binary (values.getD 4 []))
  let accuracyCm ← expectElement .accuracy (decodeU16Binary (values.getD 5 []))
  let updatedAtUnixSeconds ← expectElement .updatedAt (decodeU32Integer (values.getD 6 []))
  return { latitudeE6, longitudeE6, altitudeCm, speedCmPerSecond, bearingCentidegrees, accuracyCm,
           updatedAtUnixSeconds }

/-- The location in an array of seven elements or more. -/
def decodeLocation : Except DecodeStop SidebandLocationTelemetry := do
  let (count, cursor) ← expectSome (arrayHeader bytes)
  if count < 7 then .error (.returned (.locationTooShort count))
  else
    let values ← scanSlots limits bytes 7 cursor .new
    decodeSlots values

/-- The loop of `decode_telemetry`: the last time and the last location. -/
def collectSensors : ℕ → ℕ → Scanner → Option (List Byte) →
    Option (List Byte × MessagePackKind) →
    Except DecodeStop (Option (List Byte) × Option (List Byte × MessagePackKind))
  | 0, _, _, time, location => pure (time, location)
  | count + 1, cursor, scanner, time, location => do
    let (rawKey, valueStart, value, scanner) ←
      scanPair limits bytes .invalidTelemetry cursor scanner
    if decodeInteger rawKey = some ↑sidebandSensorTime then
      let raw ← sliceRange bytes valueStart value.end_
      collectSensors count value.end_ scanner (some raw) location
    else if decodeInteger rawKey = some ↑sidebandSensorLocation then
      let raw ← sliceRange bytes valueStart value.end_
      collectSensors count value.end_ scanner time (some (raw, value.kind))
    else collectSensors count value.end_ scanner time location

/-- What `decode_telemetry` does with the sensors. -/
def decodeSensors : Option (List Byte) × Option (List Byte × MessagePackKind) →
    Except DecodeStop SidebandLocationTelemetry
  | (none, _) => .error (.returned .missingTimeSensor)
  | (some time, location) =>
    match decodeU32Integer time, location with
    | none, _ => .error (.returned .invalidTimeSensor)
    | some _, none => .error (.returned .missingLocationSensor)
    | some _, some (raw, kind) =>
      if kind ≠ .array then .error (.returned .locationNotArray) else decodeLocation limits raw

/-- The location in a snapshot. -/
def decodeTelemetry : Except DecodeStop SidebandLocationTelemetry := do
  let view ← (validateMessagepackValue limits bytes).mapError
    fun error => .returned (.invalidTelemetry error)
  if view.kind ≠ .map then .error (.returned .telemetryNotMap)
  else
    let (count, cursor) ← expectSome (mapHeader bytes)
    let sensors ← collectSensors limits bytes count cursor .new none none
    decodeSensors limits sensors

/-- The loop of `decode_sideband_location_fields`. -/
def findTelemetry : ℕ → ℕ → Scanner → Except DecodeStop (Option SidebandLocationTelemetry)
  | 0, _, _ => pure none
  | count + 1, cursor, scanner => do
    let (rawKey, valueStart, value, scanner) ← scanPair limits bytes .invalidFields cursor scanner
    if decodeInteger rawKey = some ↑fieldTelemetry then
      if value.kind ≠ .binary then .error (.returned .telemetryFieldNotBinary)
      else
        let raw ← sliceRange bytes valueStart value.end_
        let binary ← expectSome (binaryPayload raw)
        (decodeTelemetry limits binary).map some
    else findTelemetry count value.end_ scanner

/-- The location in the fields of a message, if they have one. -/
def decodeSidebandLocationFields :
    Except DecodeStop (Option SidebandLocationTelemetry) := do
  let view ← (validateMessagepackValue limits bytes).mapError
    fun error => .returned (.invalidFields error)
  if view.kind ≠ .map then .error (.returned .fieldsNotMap)
  else
    let (count, cursor) ← expectSome (mapHeader bytes)
    findTelemetry limits bytes count cursor .new

end Decode

end Lxmf
