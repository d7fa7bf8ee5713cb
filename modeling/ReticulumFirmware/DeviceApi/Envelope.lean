import ReticulumFirmware.DeviceApi.DecodeOutput

/-!
# Responses

`encode_response` and `decode_response` of `device-api/src/cbor.rs`: the version, the request and
the kind of a response around its body. How the body of each kind is written and read is a
parameter.
-/

namespace DeviceApi

open Nor (Byte)
open Cbor
open Decode

/-- The major version that this interface speaks. -/
abbrev apiVersionMajor : BitVec 16 := 6

/-- The number that pairs a response with its request. -/
abbrev RequestId := BitVec 64

/-- One response, with the request that it answers. -/
structure ResponseEnvelope (Response : Type) where
  version : ApiVersion
  requestId : RequestId
  response : Response

/-- Why a response is not encoded. -/
inductive EncodeError where
  | outputTooSmall
  | unsupportedVersion (version : ApiVersion)
  deriving DecidableEq

/-- The kinds of responses, and their bodies on the wire. -/
structure Responses (Response : Type) where
  kind : Response → BitVec 16
  /-- The version inside a snapshot of the capabilities. -/
  capabilitiesVersion : Response → Option ApiVersion
  encodeBody : Response → List Byte
  decodeBody : BitVec 16 → List Byte → Except DecodeError Response

section Decoding

variable (reader : Reader)

/-- The fields of a version that have been read. -/
structure VersionFields where
  major : Option (BitVec 16)
  minor : Option (BitVec 16)

/-- Read one entry of a version. -/
def decodeVersionEntry (fields : VersionFields) : Decode VersionFields := do
  let key ← primitive reader.u64
  match key.toNat with
  | 0 => do
    rejectDuplicate fields.major.isSome .versionMajor
    let major ← primitive reader.u16
    pure { fields with major := some major }
  | 1 => do
    rejectDuplicate fields.minor.isSome .versionMinor
    let minor ← primitive reader.u16
    pure { fields with minor := some minor }
  | _ => do
    skipStrict reader 0
    pure fields

/-- Read a version, whose fields are both required. -/
def decodeVersion : Decode ApiVersion := do
  let entries ← decodeMapLen reader
  let fields ← times (decodeVersionEntry reader) entries ⟨none, none⟩
  let major ← require fields.major .versionMajor
  let minor ← require fields.minor .versionMinor
  pure ⟨major, minor⟩

/-- The bytes of one item. -/
def captureBody : Decode (List Byte) := fun input =>
  match skipStrict reader 0 input with
  | .error error => .error error
  | .ok ((), rest) =>
    let size := input.length - rest.length
    if maxBodyBytes < size then .error (.bodyTooLarge size maxBodyBytes)
    else .ok (input.take size, rest)

/-- The end of the input, or an error. -/
def finish (error : DecodeError) : Decode Unit := fun rest =>
  if rest = [] then .ok ((), rest) else .error error

/-- What is known of a response while its map is read. -/
structure EnvelopeFields where
  version : Option ApiVersion
  requestId : Option RequestId
  kind : Option (BitVec 16)
  body : Option (List Byte)

/-- Read one entry of an envelope. -/
def decodeEnvelopeEntry (fields : EnvelopeFields) : Decode EnvelopeFields := do
  let key ← primitive reader.u64
  match key.toNat with
  | 0 => do
    rejectDuplicate fields.version.isSome .envelopeVersion
    let version ← decodeVersion reader
    pure { fields with version := some version }
  | 1 => do
    rejectDuplicate fields.requestId.isSome .envelopeRequestId
    let requestId ← primitive reader.u64
    pure { fields with requestId := some requestId }
  | 2 => do
    rejectDuplicate fields.kind.isSome .envelopeKind
    let kind ← primitive reader.u16
    pure { fields with kind := some kind }
  | 3 => do
    rejectDuplicate fields.body.isSome .envelopeBody
    let body ← captureBody reader
    pure { fields with body := some body }
  | _ => do
    skipStrict reader 0
    pure fields

/-- Only one major version is understood. -/
def checkVersion (version : ApiVersion) : Decode Unit :=
  if version.major = apiVersionMajor then pure () else fail (.unsupportedVersion version)

/-- Run a decoder on a complete input. -/
def Decode.run {α : Type} (decode : Decode α) (input : List Byte) : Except DecodeError α :=
  match decode input with
  | .ok (value, _) => .ok value
  | .error error => .error error

/-- The response of an envelope, once its entries are read. -/
def decodeEnvelope {Response : Type} (responses : Responses Response) :
    Decode (ResponseEnvelope Response) := do
  let entries ← decodeMapLen reader
  let fields ← times (decodeEnvelopeEntry reader) entries ⟨none, none, none, none⟩
  finish .trailingData
  let version ← require fields.version .envelopeVersion
  checkVersion version
  let requestId ← require fields.requestId .envelopeRequestId
  let kind ← require fields.kind .envelopeKind
  let body ← require fields.body .envelopeBody
  let response ← fun rest => (responses.decodeBody kind body).map (·, rest)
  pure ⟨version, requestId, response⟩

/-- Read a response: its envelope, and its body by its kind. -/
def decodeResponse {Response : Type} (responses : Responses Response) (input : List Byte) :
    Except DecodeError (ResponseEnvelope Response) :=
  if maxMessageBytes < input.length then .error (.messageTooLarge input.length maxMessageBytes)
  else (decodeEnvelope reader responses).run input

end Decoding

section Encoding

variable (writer : Writer)

/-- The map of a version. -/
def encodeVersion (version : ApiVersion) : List Byte :=
  writer.map 2 ++ ((writer.u8 0 ++ writer.u16 version.major) ++
    (writer.u8 1 ++ writer.u16 version.minor))

/-- The map of a response. -/
def encodeEnvelope {Response : Type} (responses : Responses Response)
    (envelope : ResponseEnvelope Response) : List Byte :=
  writer.map 4 ++ ((writer.u8 0 ++ encodeVersion writer envelope.version) ++
    (writer.u8 1 ++ writer.u64 envelope.requestId) ++
    (writer.u8 2 ++ writer.u16 (responses.kind envelope.response)) ++
    (writer.u8 3 ++ responses.encodeBody envelope.response))

/-- Only one major version is written. -/
def checkEncodeVersion (version : ApiVersion) : Except EncodeError Unit :=
  if version.major = apiVersionMajor then .ok () else .error (.unsupportedVersion version)

/-- Every write that does not fit the buffer fails, so a response is written exactly if it fits. -/
def encodeResponse {Response : Type} (responses : Responses Response)
    (envelope : ResponseEnvelope Response) (capacity : ℕ) : Except EncodeError (List Byte) := do
  checkEncodeVersion envelope.version
  match responses.capabilitiesVersion envelope.response with
  | some version => checkEncodeVersion version
  | none => .ok ()
  let output := encodeEnvelope writer responses envelope
  if min capacity maxMessageBytes < output.length then .error .outputTooSmall else .ok output

end Encoding

section RoundTrip

variable {reader : Reader} {writer : Writer} {next : List Byte → Option (Token × List Byte)}

/-- A written version is taken. -/
theorem takes_version (h : reader.Lawful next) (h' : writer.Lawful next) (version : ApiVersion) :
    Takes (decodeVersion reader) (encodeVersion writer version) version := by
  have hmajor : Takes (decodeVersionEntry reader ⟨none, none⟩)
      (writer.u8 0 ++ writer.u16 version.major) ⟨some version.major, none⟩ :=
    (takes_key h h' 0).bind ((takes_rejectDuplicate _ rfl).bind
      ((takes_u16 h h' version.major).bind_nil (.pure _)))
  have hminor : Takes (decodeVersionEntry reader ⟨some version.major, none⟩)
      (writer.u8 1 ++ writer.u16 version.minor) ⟨some version.major, some version.minor⟩ :=
    (takes_key h h' 1).bind ((takes_rejectDuplicate _ rfl).bind
      ((takes_u16 h h' version.minor).bind_nil (.pure _)))
  refine (takes_mapLen h h' (by decide)).bind ((hmajor.step.add hminor.step).bind_nil ?_)
  exact (takes_require _ rfl).bind ((takes_require _ rfl).bind (.pure _))

/-- A body that can be passed over is captured as it was written. -/
theorem takes_captureBody {body : List Byte} (hskip : Takes (skipStrict reader 0) body ())
    (hfits : body.length ≤ maxBodyBytes) : Takes (captureBody reader) body body := by
  intro tail
  have hsize : (body ++ tail).length - tail.length = body.length := by
    rw [List.length_append, Nat.add_sub_cancel]
  unfold captureBody
  rw [hskip tail]
  dsimp only
  rw [hsize, if_neg (Nat.not_lt.mpr hfits), List.take_left]

/-- The bytes around the body of a response. -/
theorem length_envelope (h' : writer.Lawful next) {Response : Type}
    (responses : Responses Response) (envelope : ResponseEnvelope Response) :
    (encodeEnvelope writer responses envelope).length ≤
      (responses.encodeBody envelope.response).length + 32 := by
  have hkey : ∀ key : BitVec 8, key.toNat < 24 → (writer.u8 key).length = 1 :=
    fun _ => h'.length_code
  have hzero := hkey 0 (by decide)
  have hone := hkey 1 (by decide)
  have htwo := hkey 2 (by decide)
  have hthree := hkey 3 (by decide)
  have hmajor := h'.length_u16_le envelope.version.major
  have hminor := h'.length_u16_le envelope.version.minor
  have hrequest : (writer.u64 envelope.requestId).length ≤ 9 := h'.length_u64_le _
  have hkind := h'.length_u16_le (responses.kind envelope.response)
  have houter := h'.length_map (by decide : 4 < 24)
  have hinner := h'.length_map (by decide : 2 < 24)
  unfold encodeEnvelope encodeVersion
  simp only [List.length_append]
  omega

/-- A written envelope of the supported major version is taken where its body is. -/
theorem takes_envelope (h : reader.Lawful next) (h' : writer.Lawful next) {Response : Type}
    {responses : Responses Response} {envelope : ResponseEnvelope Response}
    (hversion : envelope.version.major = apiVersionMajor)
    (hskip : Takes (skipStrict reader 0) (responses.encodeBody envelope.response) ())
    (hfits : (responses.encodeBody envelope.response).length ≤ maxBodyBytes)
    (hbody : responses.decodeBody (responses.kind envelope.response)
      (responses.encodeBody envelope.response) = .ok envelope.response) :
    decodeEnvelope reader responses (encodeEnvelope writer responses envelope) =
      .ok (envelope, []) := by
  have hversionEntry : Takes (decodeEnvelopeEntry reader ⟨none, none, none, none⟩)
      (writer.u8 0 ++ encodeVersion writer envelope.version)
      ⟨some envelope.version, none, none, none⟩ :=
    (takes_key h h' 0).bind ((takes_rejectDuplicate _ rfl).bind
      ((takes_version h h' envelope.version).bind_nil (.pure _)))
  have hrequestEntry : Takes (decodeEnvelopeEntry reader ⟨some envelope.version, none, none, none⟩)
      (writer.u8 1 ++ writer.u64 envelope.requestId)
      ⟨some envelope.version, some envelope.requestId, none, none⟩ :=
    (takes_key h h' 1).bind ((takes_rejectDuplicate _ rfl).bind
      ((takes_u64 h h' envelope.requestId).bind_nil (.pure _)))
  have hkindEntry : Takes (decodeEnvelopeEntry reader
        ⟨some envelope.version, some envelope.requestId, none, none⟩)
      (writer.u8 2 ++ writer.u16 (responses.kind envelope.response))
      ⟨some envelope.version, some envelope.requestId,
        some (responses.kind envelope.response), none⟩ :=
    (takes_key h h' 2).bind ((takes_rejectDuplicate _ rfl).bind
      ((takes_u16 h h' _).bind_nil (.pure _)))
  have hbodyEntry : Takes (decodeEnvelopeEntry reader
        ⟨some envelope.version, some envelope.requestId,
          some (responses.kind envelope.response), none⟩)
      (writer.u8 3 ++ responses.encodeBody envelope.response)
      ⟨some envelope.version, some envelope.requestId, some (responses.kind envelope.response),
        some (responses.encodeBody envelope.response)⟩ :=
    (takes_key h h' 3).bind ((takes_rejectDuplicate _ rfl).bind
      ((takes_captureBody hskip hfits).bind_nil (.pure _)))
  have hentries := ((hversionEntry.step.add hrequestEntry.step).add hkindEntry.step).add
    hbodyEntry.step
  have hcheck : Takes (checkVersion envelope.version) [] () := by
    unfold checkVersion
    rw [if_pos hversion]
    exact .pure ()
  have hresponse : Takes (fun rest => (responses.decodeBody (responses.kind envelope.response)
      (responses.encodeBody envelope.response)).map (·, rest)) [] envelope.response := by
    intro tail
    rw [hbody]
    rfl
  refine bind_eq_ok.mpr ⟨4, _, takes_mapLen h h' (by decide : 4 ≤ maxMapEntries) _, ?_⟩
  refine bind_eq_ok.mpr ⟨_, [], by simpa only [List.append_nil] using hentries [], ?_⟩
  refine bind_eq_ok.mpr ⟨(), [], if_pos rfl, ?_⟩
  refine (?_ : Takes _ [] envelope) []
  refine .bind_nil (takes_require _ rfl) (.bind_nil hcheck ?_)
  refine .bind_nil (takes_require _ rfl) (.bind_nil (takes_require _ rfl) ?_)
  exact .bind_nil (takes_require _ rfl) (.bind_nil hresponse (.pure _))

/-- A response whose body fits and comes back is written and read back. -/
theorem decode_encode_response (h : reader.Lawful next) (h' : writer.Lawful next) {Response : Type}
    {responses : Responses Response} {envelope : ResponseEnvelope Response}
    (hversion : envelope.version.major = apiVersionMajor)
    (hcapabilities : responses.capabilitiesVersion envelope.response = none)
    (hskip : Takes (skipStrict reader 0) (responses.encodeBody envelope.response) ())
    (hfits : (responses.encodeBody envelope.response).length ≤ maxBodyBytes)
    (hbody : responses.decodeBody (responses.kind envelope.response)
      (responses.encodeBody envelope.response) = .ok envelope.response) :
    ∃ output, encodeResponse writer responses envelope maxMessageBytes = .ok output ∧
      decodeResponse reader responses output = .ok envelope := by
  have hlength := length_envelope h' responses envelope
  have hmessage : ¬ maxMessageBytes < (encodeEnvelope writer responses envelope).length := by
    simp only [maxBodyBytes, maxMessageBytes] at hfits ⊢
    omega
  refine ⟨encodeEnvelope writer responses envelope, ?_, ?_⟩
  · unfold encodeResponse
    rw [hcapabilities, checkEncodeVersion, if_pos hversion, Nat.min_self]
    exact if_neg hmessage
  · unfold decodeResponse Decode.run
    rw [if_neg hmessage, takes_envelope h h' hversion hskip hfits hbody]

end RoundTrip

end DeviceApi
