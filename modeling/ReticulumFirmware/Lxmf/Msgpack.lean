import ReticulumFirmware.Codec.MessagePack

/-!
# The MessagePack scanner

`msgpack.rs` of the wire crate: one pass over a value inside a buffer, which returns where the
value ends, its kind, and whether it is a fixed point of Python's encoder. Offsets, lengths and the
counters of values and of scan steps are natural numbers, so neither the branches for an overflow
of `usize` nor the `LengthOverflow` of a counter occur.
-/

namespace Lxmf

open Nor

/-- Hard recursion bound independent of a configured limit. -/
abbrev absoluteMaxNestingDepth : ℕ := 32

/-- Resource ceilings applied while admitting one message. -/
structure WireLimits where
  maxWireBytes : ℕ
  maxValueBytes : ℕ
  maxContainerItems : ℕ
  maxTotalValues : ℕ
  maxScanSteps : ℕ
  maxNestingDepth : ℕ
  deriving DecidableEq

/-- Which bounded resource was exceeded. -/
inductive LimitKind where
  | wireBytes
  | valueBytes
  | containerItems
  | totalValues
  | scanSteps
  | nestingDepth
  deriving DecidableEq

/-- A malformed or over-budget wire message. -/
inductive WireError where
  | tooShort (minimum actual : ℕ)
  | truncated (offset needed available : ℕ)
  | reservedMarker (offset : ℕ)
  | invalidUtf8 (offset : ℕ)
  | unsupportedTimestampExtension (offset : ℕ)
  | limitExceeded (kind : LimitKind) (actual maximum offset : ℕ)
  | trailingBytes (offset trailing : ℕ)
  | destinationMismatch
  | invalidPayloadArray (marker : Byte) (count : Option ℕ)
  | invalidTimestamp (marker : Byte)
  | invalidTitle (marker : Byte)
  | invalidContent (marker : Byte)
  | invalidFields (marker : Byte)
  | invalidStamp (marker : Byte) (length : ℕ)
  | nonCanonicalStampedPayload
  | unsupportedMapKey (offset : ℕ)
  | duplicateMapKey (offset : ℕ)
  deriving DecidableEq

/-- Whether decoding and re-encoding is proven to preserve the bytes of a value. -/
inductive Canonicality where
  | canonical
  | nonCanonical
  deriving DecidableEq

/-- Both values are fixed points. -/
def Canonicality.merge : Canonicality → Canonicality → Canonicality
  | .nonCanonical, _ | _, .nonCanonical => .nonCanonical
  | .canonical, .canonical => .canonical

/-- The classification of a form that is proven canonical or not. -/
def Canonicality.ofBool (pythonCanonical : Bool) : Canonicality :=
  if pythonCanonical then .canonical else .nonCanonical

/-- Structural kind of one value. -/
inductive MessagePackKind where
  | nil
  | boolean
  | integer
  | float32
  | float64
  | string
  | binary
  | array
  | map
  | extension
  deriving DecidableEq

/-- A structurally validated value. -/
structure MessagePackValue where
  raw : List Byte
  kind : MessagePackKind
  canonicality : Canonicality
  deriving DecidableEq

/-- What one scan of a value returns. -/
structure Scanned where
  end_ : ℕ
  kind : MessagePackKind
  canonicality : Canonicality
  deriving DecidableEq

/-- The counters of a scanner. -/
structure Scanner where
  totalValues : ℕ
  scanSteps : ℕ
  deriving DecidableEq

/-- The counters of a new scanner. -/
def Scanner.new : Scanner := ⟨0, 0⟩

/-- A length or a count: in the marker itself, or in the bytes after it. -/
inductive Argument where
  | marker (value : ℕ)
  | bytes (width : ℕ)

/-- What a marker says about the value it starts, and for which arguments the form is the one
that Python writes. -/
inductive MarkerForm where
  | scalar (length : ℕ) (kind : MessagePackKind) (canonical : Bool)
  | reserved
  | integer (width : ℕ) (canonical : ℕ → Bool)
  | string (length : Argument) (canonical : ℕ → Bool)
  | blob (length : Argument) (canonical : ℕ → Bool)
  | extension (length : Argument) (canonical : ℕ → Bool)
  | array (count : Argument) (canonical : ℕ → Bool)
  | map (count : Argument) (canonical : ℕ → Bool)

/-- The signed number with the two's-complement word `word` of `width` bytes. -/
def asSigned (width word : ℕ) : ℤ := Int.bmod word (256 ^ width)

/-- The arms of `scan_value_mode`. -/
def markerForm (marker : Byte) : MarkerForm :=
  if marker.toNat ≤ 0x7f ∨ 0xe0 ≤ marker.toNat then .scalar 1 .integer true
  else if marker.toNat ≤ 0x8f then .map (.marker (marker.toNat % 0x10)) fun _ => true
  else if marker.toNat ≤ 0x9f then .array (.marker (marker.toNat % 0x10)) fun _ => true
  else if marker.toNat ≤ 0xbf then .string (.marker (marker.toNat % 0x20)) fun _ => true
  else match marker.toNat with
    | 0xc0 => .scalar 1 .nil true
    | 0xc1 => .reserved
    | 0xc2 | 0xc3 => .scalar 1 .boolean true
    | 0xc4 => .blob (.bytes 1) fun length => length < 256
    | 0xc5 => .blob (.bytes 2) fun length => 256 ≤ length
    | 0xc6 => .blob (.bytes 4) fun length => 65536 ≤ length
    | 0xc7 => .extension (.bytes 1) fun length => length < 256 && length ∉ [1, 2, 4, 8, 16]
    | 0xc8 => .extension (.bytes 2) fun length => 256 ≤ length
    | 0xc9 => .extension (.bytes 4) fun length => 65536 ≤ length
    | 0xca => .scalar 5 .float32 false
    | 0xcb => .scalar 9 .float64 true
    | 0xcc => .integer 1 fun value => 128 ≤ value
    | 0xcd => .integer 2 fun value => 256 ≤ value
    | 0xce => .integer 4 fun value => 65536 ≤ value
    | 0xcf => .integer 8 fun value => 4294967296 ≤ value
    | 0xd0 => .integer 1 fun value => asSigned 1 value < -32
    | 0xd1 => .integer 2 fun value => asSigned 2 value < -128
    | 0xd2 => .integer 4 fun value => asSigned 4 value < -32768
    | 0xd3 => .integer 8 fun value => asSigned 8 value < -2147483648
    | 0xd4 => .extension (.marker 1) fun _ => true
    | 0xd5 => .extension (.marker 2) fun _ => true
    | 0xd6 => .extension (.marker 4) fun _ => true
    | 0xd7 => .extension (.marker 8) fun _ => true
    | 0xd8 => .extension (.marker 16) fun _ => true
    | 0xd9 => .string (.bytes 1) fun length => 32 ≤ length && length < 256
    | 0xda => .string (.bytes 2) fun length => 256 ≤ length
    | 0xdb => .string (.bytes 4) fun length => 65536 ≤ length
    | 0xdc => .array (.bytes 2) fun count => 16 ≤ count
    | 0xdd => .array (.bytes 4) fun count => 65536 ≤ count
    | 0xde => .map (.bytes 2) fun count => 16 ≤ count
    | _ => .map (.bytes 4) fun count => 65536 ≤ count

/-- A map key whose equality in Python is known. -/
inductive KeyClass where
  | nil
  | boolean (value : Bool)
  | integer (value : ℤ)
  | string (bytes : List Byte)
  | binary (bytes : List Byte)
  | extension (type : Byte) (bytes : List Byte)
  deriving DecidableEq

/-- Equality under Python semantics. -/
def KeyClass.pythonEq : KeyClass → KeyClass → Bool
  | .nil, .nil => true
  | .boolean left, .boolean right => left == right
  | .integer left, .integer right => left == right
  | .boolean left, .integer right | .integer right, .boolean left => (left.toNat : ℤ) == right
  | .string left, .string right => left == right
  | .binary left, .binary right => left == right
  | .extension leftType left, .extension rightType right =>
    leftType == rightType && left == right
  | _, _ => false

/-- `raw.get(start..)`. -/
def getFrom (raw : List Byte) (start : ℕ) : Option (List Byte) :=
  if start ≤ raw.length then some (raw.drop start) else none

/-- The big-endian number of `width` bytes after the marker of `raw`. -/
def keyNumber (raw : List Byte) (width : ℕ) : Option ℕ :=
  if 1 + width ≤ raw.length then some (beNat (slice raw 1 width)) else none

/-- The key of an extension whose type stands at `typeOffset`. -/
def extensionKey (raw : List Byte) (typeOffset : ℕ) : Option KeyClass := do
  let extensionType ← raw[typeOffset]?
  if extensionType = MessagePack.timestampType then none
  else (getFrom raw (typeOffset + 1)).map (.extension extensionType)

/-- The class of an encoded key. -/
def keyClass (raw : List Byte) : Option KeyClass := do
  let marker ← raw.head?
  if marker.toNat ≤ 0x7f then some (.integer marker.toNat)
  else if 0xe0 ≤ marker.toNat then some (.integer marker.toInt)
  else if 0xa0 ≤ marker.toNat ∧ marker.toNat ≤ 0xbf then (getFrom raw 1).map .string
  else match marker.toNat with
    | 0xc0 => some .nil
    | 0xc2 => some (.boolean false)
    | 0xc3 => some (.boolean true)
    | 0xcc => (keyNumber raw 1).map fun value => .integer value
    | 0xcd => (keyNumber raw 2).map fun value => .integer value
    | 0xce => (keyNumber raw 4).map fun value => .integer value
    | 0xcf => (keyNumber raw 8).map fun value => .integer value
    | 0xd0 => (keyNumber raw 1).map fun value => .integer (asSigned 1 value)
    | 0xd1 => (keyNumber raw 2).map fun value => .integer (asSigned 2 value)
    | 0xd2 => (keyNumber raw 4).map fun value => .integer (asSigned 4 value)
    | 0xd3 => (keyNumber raw 8).map fun value => .integer (asSigned 8 value)
    | 0xd9 => (getFrom raw 2).map .string
    | 0xda => (getFrom raw 3).map .string
    | 0xdb => (getFrom raw 5).map .string
    | 0xc4 => (getFrom raw 2).map .binary
    | 0xc5 => (getFrom raw 3).map .binary
    | 0xc6 => (getFrom raw 5).map .binary
    | 0xd4 | 0xd5 | 0xd6 | 0xd7 | 0xd8 => extensionKey raw 1
    | 0xc7 => extensionKey raw 2
    | 0xc8 => extensionKey raw 3
    | 0xc9 => extensionKey raw 5
    | _ => none

/-- `str::from_utf8` accepts the bytes. -/
def fromUtf8Ok (bytes : List Byte) : Bool :=
  ByteArray.validateUTF8 ⟨(bytes.map UInt8.ofBitVec).toArray⟩

section Scanner

variable (limits : WireLimits) (bytes : List Byte)

/-- One of the checks against a limit. -/
def checkLimit (kind : LimitKind) (actual maximum offset : ℕ) : Except WireError Unit :=
  if maximum < actual then throw (.limitExceeded kind actual maximum offset) else pure ()

/-- The nesting limit in force. -/
def effectiveMaximum : ℕ := min limits.maxNestingDepth absoluteMaxNestingDepth

/-- The nesting depth is within the limit. -/
def checkDepth (offset depth : ℕ) : Except WireError Unit :=
  checkLimit .nestingDepth depth (effectiveMaximum limits) offset

/-- The items of a container are within the limit. -/
def checkContainer (offset count : ℕ) : Except WireError Unit :=
  checkLimit .containerItems count limits.maxContainerItems offset

/-- The bytes of a value are within the limit. -/
def checkValueBytes (offset length : ℕ) : Except WireError Unit :=
  checkLimit .valueBytes length limits.maxValueBytes offset

/-- Count a value. -/
def bumpValue (offset : ℕ) (scanner : Scanner) : Except WireError Scanner := do
  let totalValues := scanner.totalValues + 1
  checkLimit .totalValues totalValues limits.maxTotalValues offset
  return { scanner with totalValues }

/-- Count a step. -/
def bumpScanStep (offset : ℕ) (scanner : Scanner) : Except WireError Scanner := do
  let scanSteps := scanner.scanSteps + 1
  checkLimit .scanSteps scanSteps limits.maxScanSteps offset
  return { scanner with scanSteps }

/-- Count a value, unless it is scanned again. -/
def noteValue (offset : ℕ) (countValue : Bool) (scanner : Scanner) : Except WireError Scanner :=
  if countValue then bumpValue limits offset scanner else pure scanner

/-- The byte at `offset`. -/
def byteAt (offset markerOffset : ℕ) : Except WireError Byte :=
  match bytes[offset]? with
  | some byte => pure byte
  | none => throw (.truncated markerOffset (offset - markerOffset + 1)
      (bytes.length - markerOffset))

/-- The end of `length` bytes at `offset`, which have to be there. -/
def takeEnd (offset length markerOffset : ℕ) : Except WireError ℕ :=
  if bytes.length < offset + length then
    throw (.truncated markerOffset (offset + length - markerOffset) (bytes.length - markerOffset))
  else pure (offset + length)

/-- The big-endian number of `width` bytes at `offset`: `u16`, `u32` and `u64`, and `byte` for one
byte. -/
def numberAt (width offset markerOffset : ℕ) : Except WireError ℕ := do
  let _ ← takeEnd bytes offset width markerOffset
  return beNat (slice bytes offset width)

/-- The argument of a marker, and the offset of the bytes after it. -/
def readArgument (offset : ℕ) : Argument → Except WireError (ℕ × ℕ)
  | .marker value => pure (value, offset + 1)
  | .bytes width => do
    let value ← numberAt bytes width (offset + 1) offset
    return (value, offset + 1 + width)

/-- A value of fixed length. -/
def scalar (offset length : ℕ) (kind : MessagePackKind) (pythonCanonical : Bool) :
    Except WireError Scanned := do
  let end_ ← takeEnd bytes offset length offset
  return ⟨end_, kind, .ofBool pythonCanonical⟩

/-- A value of bytes. -/
def scanBlob (markerOffset payloadOffset length : ℕ) (kind : MessagePackKind)
    (pythonCanonical : Bool) : Except WireError Scanned := do
  checkValueBytes limits markerOffset length
  let end_ ← takeEnd bytes payloadOffset length markerOffset
  return ⟨end_, kind, .ofBool pythonCanonical⟩

/-- A text, which has to be UTF-8. -/
def scanString (markerOffset payloadOffset length : ℕ) (pythonCanonical : Bool) :
    Except WireError Scanned := do
  let scanned ← scanBlob limits bytes markerOffset payloadOffset length .string pythonCanonical
  if fromUtf8Ok (slice bytes payloadOffset (scanned.end_ - payloadOffset)) then pure scanned
  else throw (.invalidUtf8 markerOffset)

/-- An extension, which is not a timestamp. -/
def scanExtension (markerOffset typeOffset length : ℕ) (markerCanonical : Bool) :
    Except WireError Scanned := do
  checkValueBytes limits markerOffset length
  let end_ ← takeEnd bytes (typeOffset + 1) length markerOffset
  let extensionType ← byteAt bytes typeOffset markerOffset
  if extensionType = MessagePack.timestampType then
    throw (.unsupportedTimestampExtension markerOffset)
  else pure ⟨end_, .extension, .ofBool markerCanonical⟩

/-- The scan of one value inside a container: where it starts, and whether it is counted. -/
abbrev ScanChild := ℕ → Bool → Scanner → Except WireError (Scanned × Scanner)

variable (child : ScanChild)

/-- The loop of `scan_array`. -/
def scanItems (countValues : Bool) : ℕ → ℕ → Canonicality → Scanner →
    Except WireError (ℕ × Canonicality × Scanner)
  | 0, cursor, canonicality, scanner => pure (cursor, canonicality, scanner)
  | count + 1, cursor, canonicality, scanner => do
    let (item, scanner) ← child cursor countValues scanner
    scanItems countValues count item.end_ (canonicality.merge item.canonicality) scanner

/-- An array of values. -/
def scanArray (markerOffset cursor count : ℕ) (markerCanonical countValues : Bool)
    (scanner : Scanner) : Except WireError (Scanned × Scanner) := do
  checkContainer limits markerOffset count
  let (end_, canonicality, scanner) ←
    scanItems child countValues count cursor (.ofBool markerCanonical) scanner
  return (⟨end_, .array, canonicality⟩, scanner)

/-- Whether two encoded keys are equal. -/
def sameKey (prior current : List Byte) : Bool :=
  match keyClass prior, keyClass current with
  | some left, some right => left.pythonEq right
  | _, _ => false

/-- Whether one of the `priorCount` entries from `cursor` on has the key `current`. Entries are
scanned again, without being counted. -/
def hasPriorEqualKey (current : List Byte) : ℕ → ℕ → Scanner → Except WireError (Bool × Scanner)
  | 0, _, scanner => pure (false, scanner)
  | priorCount + 1, priorStart, scanner => do
    let (prior, scanner) ← child priorStart false scanner
    if sameKey (slice bytes priorStart (prior.end_ - priorStart)) current then pure (true, scanner)
    else
      let (value, scanner) ← child prior.end_ false scanner
      hasPriorEqualKey current priorCount value.end_ scanner

/-- The key check of `scan_map`. -/
def checkKey (entriesOffset entryIndex keyStart keyEnd : ℕ) (scanner : Scanner) :
    Except WireError Scanner :=
  let current := slice bytes keyStart (keyEnd - keyStart)
  if keyClass current = none then throw (.unsupportedMapKey keyStart)
  else do
    let (duplicate, scanner) ← hasPriorEqualKey bytes child current entryIndex entriesOffset scanner
    if duplicate then throw (.duplicateMapKey keyStart) else pure scanner

/-- The loop of `scan_map`: `count` entries are left, `entryIndex` are done. -/
def scanEntries (countValues : Bool) (entriesOffset : ℕ) :
    ℕ → ℕ → ℕ → Canonicality → Scanner → Except WireError (ℕ × Canonicality × Scanner)
  | 0, _, cursor, canonicality, scanner => pure (cursor, canonicality, scanner)
  | count + 1, entryIndex, cursor, canonicality, scanner => do
    let (key, scanner) ← child cursor countValues scanner
    let scanner ← checkKey bytes child entriesOffset entryIndex cursor key.end_ scanner
    let (value, scanner) ← child key.end_ countValues scanner
    scanEntries countValues entriesOffset count (entryIndex + 1) value.end_
      ((canonicality.merge key.canonicality).merge value.canonicality) scanner

/-- A map, whose keys have to come in order to be canonical. -/
def scanMap (markerOffset cursor count : ℕ) (markerCanonical countValues : Bool)
    (scanner : Scanner) : Except WireError (Scanned × Scanner) := do
  checkContainer limits markerOffset count
  let (end_, canonicality, scanner) ←
    scanEntries bytes child countValues cursor count 0 cursor (.ofBool markerCanonical) scanner
  return (⟨end_, .map, canonicality⟩, scanner)

/-- What `scan_value_mode` does for each form of marker. -/
def scanForm (offset : ℕ) (countValue : Bool) (scanner : Scanner) :
    MarkerForm → Except WireError (Scanned × Scanner)
  | .scalar length kind canonical => do
    return (← scalar bytes offset length kind canonical, scanner)
  | .reserved => throw (.reservedMarker offset)
  | .integer width canonical => do
    let value ← numberAt bytes width (offset + 1) offset
    return (← scalar bytes offset (1 + width) .integer (canonical value), scanner)
  | .string argument canonical => do
    let (length, payload) ← readArgument bytes offset argument
    return (← scanString limits bytes offset payload length (canonical length), scanner)
  | .blob argument canonical => do
    let (length, payload) ← readArgument bytes offset argument
    return (← scanBlob limits bytes offset payload length .binary (canonical length), scanner)
  | .extension argument canonical => do
    let (length, type) ← readArgument bytes offset argument
    return (← scanExtension limits bytes offset type length (canonical length), scanner)
  | .array argument canonical => do
    let (count, cursor) ← readArgument bytes offset argument
    scanArray limits child offset cursor count (canonical count) countValue scanner
  | .map argument canonical => do
    let (count, cursor) ← readArgument bytes offset argument
    scanMap limits bytes child offset cursor count (canonical count) countValue scanner

/-- `scan_value_mode`, where `levels` levels of nesting are left from this value on. The check
against the nesting limit fails exactly when there is none. -/
def scanValueMode : ℕ → ℕ → ℕ → Bool → Scanner → Except WireError (Scanned × Scanner)
  | 0, offset, depth, _, scanner => do
    let _ ← bumpScanStep limits offset scanner
    throw (.limitExceeded .nestingDepth depth (effectiveMaximum limits) offset)
  | levels + 1, offset, depth, countValue, scanner => do
    let scanner ← bumpScanStep limits offset scanner
    let scanner ← noteValue limits offset countValue scanner
    let marker ← byteAt bytes offset offset
    scanForm limits bytes (fun offset => scanValueMode levels offset (depth + 1)) offset countValue
      scanner (markerForm marker)

/-- One value. -/
def scanValue (offset depth : ℕ) (scanner : Scanner) : Except WireError (Scanned × Scanner) :=
  scanValueMode limits bytes (effectiveMaximum limits + 1 - depth) offset depth true scanner

/-- Account for a container that the caller parses itself. -/
def noteContainer (offset depth count : ℕ) (scanner : Scanner) : Except WireError Scanner := do
  let scanner ← bumpScanStep limits offset scanner
  checkDepth limits offset depth
  let scanner ← bumpValue limits offset scanner
  checkContainer limits offset count
  return scanner

/-- Validate exactly one value. -/
def validateMessagepackValue : Except WireError MessagePackValue := do
  checkLimit .wireBytes bytes.length limits.maxWireBytes 0
  let (scanned, _) ← scanValue limits bytes 0 1 .new
  if scanned.end_ ≠ bytes.length then
    throw (.trailingBytes scanned.end_ (bytes.length - scanned.end_))
  else pure ⟨bytes, scanned.kind, scanned.canonicality⟩

end Scanner

end Lxmf
