import ReticulumFirmware.Codec.Cbor

/-!
# Reading the device interface

The helpers of `device-api/src/cbor.rs` that all decoders share. A decoder takes what it reads off
the front of its input.
-/

namespace DeviceApi

open Nor (Byte)
open Cbor (Reader Writer Kind)

/-- The largest message of the interface. -/
abbrev maxMessageBytes : ℕ := 512

/-- The largest body of a message. -/
abbrev maxBodyBytes : ℕ := 480

/-- The most entries of a map. -/
abbrev maxMapEntries : ℕ := 32

/-- The deepest nesting that a decoder enters. -/
abbrev maxCborNestingDepth : ℕ := 8

/-- Major and minor version of the interface. -/
structure ApiVersion where
  major : BitVec 16
  minor : BitVec 16
  deriving DecidableEq

/-- The fields that decoding errors name. -/
inductive RequiredField where
  | envelopeVersion
  | envelopeRequestId
  | envelopeKind
  | envelopeBody
  | versionMajor
  | versionMinor
  | lxmfPeerCursorIncarnation
  | lxmfPeerCursorGeneration
  | lxmfPeerLatestGeneration
  | lxmfPeerOldestGeneration
  | lxmfPeerHistoryGap
  | lxmfPeerRecord
  | lxmfPeerDestination
  | lxmfPeerIdentityHash
  | lxmfPeerAppData
  | lxmfPeerHops
  | lxmfPeerInterfaceId
  | lxmfPeerRssiDbm
  | lxmfPeerSnrDb
  | lxmfPeerObservedAge
  | lxmfPeerGeneration
  | radioTraceEntries
  | radioTraceAfterCursor
  | radioTraceAppliedLoraProfile
  | radioTraceProfileFingerprint
  | radioTraceEventKind
  | radioTraceEventValue
  | radioTracePacketInterface
  | radioTracePacketSha256
  | radioTracePacketAttemptToken
  | radioTraceTxOutcome
  | radioTraceTxFrameCompletedAt
  | radioTraceRouteDestination
  | radioTraceRouteNextHop
  | radioTraceRouteResolution
  | radioTraceTerminalAttemptToken
  | radioTraceTerminalOutcome
  | radioTraceInboundProofCorrelationToken
  | radioTraceInboundProofStage
  | radioTraceInboundProofMessageId
  | radioTraceInboundProofPacketSha256
  | radioTraceInboundProofInterface
  | radioTraceInboundProofSignal
  | ingressInterface
  | ingressRssi
  | ingressSnr
  deriving DecidableEq

/-- Why an input is refused. -/
inductive DecodeError where
  | messageTooLarge (actual max : ℕ)
  | malformed
  | indefiniteLength
  | tooManyMapEntries (actual max : ℕ)
  | nestingTooDeep (actual max : ℕ)
  | bodyTooLarge (actual max : ℕ)
  | trailingData
  | duplicateField (field : RequiredField)
  | missingField (field : RequiredField)
  | invalidArrayLength (field : RequiredField) (expected actual : ℕ)
  | invalidByteStringLength (field : RequiredField) (expected actual : ℕ)
  | lxmfPeerAppDataTooLarge (actual max : ℕ)
  | unsupportedVersion (version : ApiVersion)
  | unsupportedResponseKind (kind : BitVec 16)
  | invalidValue (field : RequiredField) (value : ℕ)
  | invalidRadioTracePage
  | invalidRadioTraceDataTx
  | invalidRadioTraceRouteSelected
  | invalidRadioTraceAttemptTerminal
  | invalidRadioTraceInboundProof
  deriving DecidableEq

/-- A decoder from the input that is left to what is left after it. -/
abbrev Decode (α : Type) := StateT (List Byte) (Except DecodeError) α

namespace Decode

variable {α β σ : Type}

/-- Refuse the input. -/
def fail (error : DecodeError) : Decode α := fun _ => .error error

/-- A primitive read, whose failure is a malformed input. -/
def primitive (read : List Byte → Option (α × List Byte)) : Decode α := fun input =>
  match read input with
  | some result => .ok result
  | none => .error .malformed

/-- The next type, without reading it. -/
def peek (reader : Reader) : Decode Kind := fun input =>
  match reader.datatype input with
  | some kind => .ok (kind, input)
  | none => .error .malformed

/-- The value of a partial constructor. -/
def orFail (value : Option α) (error : DecodeError) : Decode α :=
  match value with
  | some value => pure value
  | none => fail error

/-- Take a step `count` times. -/
def times (step : σ → Decode σ) : ℕ → σ → Decode σ
  | 0, state => pure state
  | count + 1, state => step state >>= times step count

/-- A sequence decodes exactly where its first part does and then its second. -/
theorem bind_eq_ok {x : Decode α} {f : α → Decode β} {input rest : List Byte} {b : β} :
    (x >>= f) input = .ok (b, rest) ↔
      ∃ a middle, x input = .ok (a, middle) ∧ f a middle = .ok (b, rest) := by
  change (x input >>= fun result => f result.1 result.2) = _ ↔ _
  cases x input with
  | error error => exact ⟨fun h => (nomatch h), fun ⟨_, _, h, _⟩ => (nomatch h)⟩
  | ok result =>
    constructor
    · exact fun h => ⟨result.1, result.2, rfl, h⟩
    · rintro ⟨a, middle, hresult, hf⟩
      cases hresult
      exact hf

/-- A value is decoded from no bytes. -/
theorem pure_eq_ok {a b : α} {input rest : List Byte} :
    (pure a : Decode α) input = .ok (b, rest) ↔ a = b ∧ input = rest := by
  change (Except.ok (a, input) : Except DecodeError (α × List Byte)) = _ ↔ _
  rw [Except.ok.injEq, Prod.mk.injEq]

/-- A mapped decoder decodes exactly what the decoder does. -/
theorem map_eq_ok {x : Decode α} {f : α → β} {input rest : List Byte} {b : β} :
    (f <$> x) input = .ok (b, rest) ↔ ∃ a, x input = .ok (a, rest) ∧ f a = b := by
  rw [map_eq_pure_bind, bind_eq_ok]
  constructor
  · rintro ⟨a, middle, hx, hpure⟩
    obtain ⟨hb, rfl⟩ := pure_eq_ok.mp hpure
    exact ⟨a, hx, hb⟩
  · rintro ⟨a, hx, rfl⟩
    exact ⟨a, rest, hx, rfl⟩

/-- A primitive decodes exactly what its reader reads. -/
theorem primitive_eq_ok {read : List Byte → Option (α × List Byte)} {a : α}
    {input rest : List Byte} :
    primitive read input = .ok (a, rest) ↔ read input = some (a, rest) := by
  unfold primitive
  cases read input <;> simp

/-- A look at the next kind takes no bytes. -/
theorem peek_eq_ok {reader : Reader} {kind : Kind} {input rest : List Byte} :
    peek reader input = .ok (kind, rest) ↔ reader.datatype input = some kind ∧ input = rest := by
  unfold peek
  cases reader.datatype input <;> simp

/-- A value that may be missing is decoded exactly where it is there. -/
theorem orFail_eq_ok {value : Option α} {error : DecodeError} {a : α} {input rest : List Byte} :
    orFail value error input = .ok (a, rest) ↔ value = some a ∧ input = rest := by
  cases value with
  | none => simp [orFail, fail]
  | some value => rw [orFail, pure_eq_ok, Option.some.injEq]

/-- A failure decodes nothing. -/
@[simp] theorem fail_ne_ok {error : DecodeError} {input : List Byte} {result : α × List Byte} :
    (fail error : Decode α) input ≠ .ok result := by
  simp [fail]

end Decode

variable (reader : Reader)

open Decode

/-- A length, which must be definite. -/
def definite (read : List Byte → Option (Option ℕ × List Byte)) : Decode ℕ := do
  let length ← primitive read
  orFail length .indefiniteLength

/-- The number of entries of a map, which must be definite and within the limit. -/
def decodeMapLen : Decode ℕ := do
  let entries ← definite reader.map
  if maxMapEntries < entries then fail (.tooManyMapEntries entries maxMapEntries)
  else pure entries

/-- The head of an array of one length. -/
def decodeExactArrayLen (expected : ℕ) (field : RequiredField) : Decode ℕ := do
  let actual ← definite reader.array
  if actual ≠ expected then fail (.invalidArrayLength field expected actual)
  else pure expected

/-- A byte string of one length. -/
def decodeFixedBytes (n : ℕ) (field : RequiredField) : Decode (Vector Byte n) := do
  let bytes ← primitive reader.bytes
  if h : bytes.length = n then pure ⟨bytes.toArray, h⟩
  else fail (.invalidByteStringLength field n bytes.length)

/-- An element that may be null. -/
def nullable {α : Type} (decode : Decode α) : Decode (Option α) := do
  let kind ← peek reader
  if kind = .null then
    (fun _ => none) <$> primitive reader.null
  else
    some <$> decode

/-- Null, or a byte string of one length. -/
def decodeOptionalFixedBytes (n : ℕ) (field : RequiredField) : Decode (Option (Vector Byte n)) :=
  nullable reader (decodeFixedBytes reader n field)

/-- A key may occur once. -/
def rejectDuplicate (present : Bool) (field : RequiredField) : Decode Unit :=
  if present then fail (.duplicateField field) else pure ()

/-- A field must be present. -/
def require {α : Type} (value : Option α) (field : RequiredField) : Decode α :=
  orFail value (.missingField field)

/-- Pass over one item, where `child` passes over the items inside it. -/
def skipItem (child : Option (Decode Unit)) : Decode Unit := do
  let enter : Decode (Decode Unit) :=
    orFail child (.nestingTooDeep (maxCborNestingDepth + 1) maxCborNestingDepth)
  let kind ← peek reader
  match kind with
  | .indefinite => fail .indefiniteLength
  | .array => do
    let child ← enter
    let entries ← definite reader.array
    times (fun _ => child) entries ()
  | .map => do
    let child ← enter
    let entries ← definite reader.map
    times (fun _ => do child; child) entries ()
  | .tag => do
    let child ← enter
    let _ ← primitive reader.tag
    child
  | .invalid => fail .malformed
  | .null | .scalar => primitive reader.skip

/-- Pass over one item with at most `remaining` levels inside it. -/
def skipWithin : ℕ → Decode Unit
  | 0 => skipItem reader none
  | remaining + 1 => skipItem reader (some (skipWithin remaining))

/-- Pass over one item, without leaving the nesting limit. -/
def skipStrict (depth : ℕ) : Decode Unit := skipWithin reader (maxCborNestingDepth - depth)

/-- A byte string of one length. -/
def encodeFixedBytes (writer : Writer) {n : ℕ} (bytes : Vector Byte n) : List Byte :=
  writer.bytes bytes.toList

end DeviceApi
