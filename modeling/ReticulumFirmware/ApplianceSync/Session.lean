import ReticulumFirmware.DeviceApi.Lxmf

/-!
# Collecting one message from a device

`read_complete_lxmf` of `appliance-sync/src/session.rs`: a client asks for one chunk after
another until it holds the whole wire. The device is any requester at all, with any state.
-/

namespace ApplianceSync

open Nor (Byte Sha256)
open DeviceApi

/-- The longest wire the client collects. -/
abbrev maxRequestSessionLxmfWireBytes : ℕ := 16 * 1024 * 1024

/-- `DeviceRequest::LxmfRead`. -/
structure LxmfReadRequest where
  handle : LxmfMessageHandle
  offset : ℕ
  maxBytes : LxmfReadLength
  deriving DecidableEq

/-- The code and the operation of a typed failure. -/
structure ApiErrorResponse where
  code : ℕ
  operation : Option (BitVec 16)
  deriving DecidableEq

/-- A decoded response: a chunk, a typed failure, or the body of some other operation. -/
inductive DeviceResponse where
  | lxmfRead (chunk : LxmfReadChunk)
  | error (error : ApiErrorResponse)
  | other (kind : BitVec 16) (ne_read : kind ≠ opLxmfRead) (ne_error : kind ≠ responseError)
  deriving DecidableEq

/-- Operation or response-kind number encoded on the wire. -/
def DeviceResponse.kind : DeviceResponse → BitVec 16
  | .lxmfRead _ => opLxmfRead
  | .error _ => responseError
  | .other kind _ _ => kind

/-- Why a session with the device fails. -/
inductive DeviceSessionError where
  | request (reason : String)
  | api (error : ApiErrorResponse)
  | unexpectedResponse (expected actual : BitVec 16)
  | invalidLxmf (reason : String)
  deriving DecidableEq

/-- What the transport hands back for one request. -/
abbrev Answer := Except String DeviceResponse

/-- A device behind its transport: any answer to any request, in any state. -/
abbrev DeviceApiRequester (σ : Type*) := LxmfReadRequest → σ → Answer × σ

/-- One request and its answer. -/
abbrev Exchange := LxmfReadRequest × Answer

/-- Accept only a response of the operation that was requested. -/
def exchange (expected : BitVec 16) : Answer → Except DeviceSessionError DeviceResponse
  | .error reason => .error (.request reason)
  | .ok (.error error) => .error (.api error)
  | .ok response =>
    if response.kind = expected then .ok response
    else .error (.unexpectedResponse expected response.kind)

/-- The kind of an error response is not the kind of a chunk. -/
theorem responseError_ne_opLxmfRead : responseError ≠ opLxmfRead := by decide

/-- An exchange that succeeds returns a response of the expected kind. -/
theorem kind_of_exchange {expected : BitVec 16} {answer : Answer} {response : DeviceResponse}
    (h : exchange expected answer = .ok response) : response.kind = expected := by
  unfold exchange at h
  split at h
  · cases h
  · cases h
  · split at h
    · rename_i hkind
      exact Except.ok.inj h ▸ hkind
    · cases h

/-- The chunk in an answer to a read. The other bodies have other kinds. -/
def readChunk (answer : Answer) : Except DeviceSessionError LxmfReadChunk :=
  match h : exchange opLxmfRead answer with
  | .error error => .error error
  | .ok (.lxmfRead chunk) => .ok chunk
  | .ok (.error _) => absurd (kind_of_exchange h) responseError_ne_opLxmfRead
  | .ok (.other _ ne_read _) => absurd (kind_of_exchange h) ne_read

/-- A response with a chunk is read as that chunk. -/
@[simp] theorem readChunk_lxmfRead (chunk : LxmfReadChunk) :
    readChunk (.ok (.lxmfRead chunk)) = .ok chunk := rfl

/-- Only a chunk response gives a chunk. -/
theorem readChunk_eq_ok {answer : Answer} {chunk : LxmfReadChunk} :
    readChunk answer = .ok chunk ↔ answer = .ok (.lxmfRead chunk) := by
  refine ⟨fun h => ?_, fun h => h ▸ rfl⟩
  match answer with
  | .error _ => cases h
  | .ok (.error _) => cases h
  | .ok (.lxmfRead _) => rw [Except.ok.inj h]
  | .ok (.other kind ne_read ne_error) =>
    have hfail : exchange opLxmfRead (.ok (.other kind ne_read ne_error)) =
        .error (.unexpectedResponse opLxmfRead kind) := if_neg ne_read
    unfold readChunk at h
    split at h
    · cases h
    all_goals
      rename_i heq
      rw [hfail] at heq
      cases heq

/-- The next read of a message whose first `offset` bytes are held. -/
def nextRequest (summary : LxmfMessageSummary) (offset : ℕ)
    (h : offset < summary.normalizedWireLen) : LxmfReadRequest where
  handle := summary.handle
  offset := offset
  maxBytes :=
    { get := min (summary.normalizedWireLen - offset) maxLxmfReadChunkBytes
      pos := by simp only [maxLxmfReadChunkBytes]; omega
      le := Nat.min_le_right _ _ }

/-- Where the next read starts once `chunk` is accepted. -/
def acceptChunk (summary : LxmfMessageSummary) (request : LxmfReadRequest)
    (chunk : LxmfReadChunk) : Except DeviceSessionError ℕ :=
  if chunk.handle ≠ summary.handle ∨ chunk.offset ≠ request.offset ∨
      chunk.totalLen ≠ summary.normalizedWireLen ∨ chunk.bytes = [] ∨
      request.maxBytes.get < chunk.bytes.length then
    .error (.invalidLxmf "read chunk did not match its authenticated summary")
  else
    let next := request.offset + chunk.bytes.length
    if 2 ^ 32 ≤ next then .error (.invalidLxmf "read offset overflowed")
    else if summary.normalizedWireLen < next ∨
        chunk.isFinal ≠ (next == summary.normalizedWireLen) then
      .error (.invalidLxmf "read chunk had an invalid final boundary")
    else .ok next

/-- A chunk is accepted exactly when it continues the message of the summary. -/
theorem acceptChunk_eq_ok {summary : LxmfMessageSummary} {request : LxmfReadRequest}
    {chunk : LxmfReadChunk} {next : ℕ} :
    acceptChunk summary request chunk = .ok next ↔
      chunk.handle = summary.handle ∧ chunk.offset = request.offset ∧
        chunk.totalLen = summary.normalizedWireLen ∧
        chunk.bytes.length ≤ request.maxBytes.get ∧
        next = request.offset + chunk.bytes.length := by
  have hnonempty := chunk.nonempty
  have hinside := chunk.inside
  have hlt := summary.wire_lt
  constructor
  · intro h
    unfold acceptChunk at h
    split at h
    · cases h
    · rename_i hmatch
      simp only [not_or, not_not, not_lt] at hmatch
      obtain ⟨hhandle, hoffset, htotal, -, hlength⟩ := hmatch
      dsimp only at h
      split at h
      · cases h
      · split at h
        · cases h
        · exact ⟨hhandle, hoffset, htotal, hlength, (Except.ok.inj h).symm⟩
  · rintro ⟨hhandle, hoffset, htotal, hlength, rfl⟩
    have hmatch : ¬ (chunk.handle ≠ summary.handle ∨ chunk.offset ≠ request.offset ∨
        chunk.totalLen ≠ summary.normalizedWireLen ∨ chunk.bytes = [] ∨
        request.maxBytes.get < chunk.bytes.length) := by
      simp only [not_or, not_not, not_lt]
      exact ⟨hhandle, hoffset, htotal, hnonempty, hlength⟩
    have hfinal : ¬ (summary.normalizedWireLen < request.offset + chunk.bytes.length ∨
        chunk.isFinal ≠
          (request.offset + chunk.bytes.length == summary.normalizedWireLen)) := by
      rw [LxmfReadChunk.isFinal, hoffset, htotal]
      simp only [not_or, not_not, not_lt, and_true]
      omega
    simp only [acceptChunk]
    rw [if_neg hmatch, if_neg (by omega), if_neg hfinal]

/-- An accepted chunk moves the offset on and keeps it inside the message. -/
theorem acceptChunk_bounds {summary : LxmfMessageSummary} {request : LxmfReadRequest}
    {chunk : LxmfReadChunk} {next : ℕ} (h : acceptChunk summary request chunk = .ok next) :
    request.offset < next ∧ next ≤ summary.normalizedWireLen := by
  obtain ⟨-, hoffset, htotal, -, rfl⟩ := acceptChunk_eq_ok.mp h
  have hpos := chunk.length_pos
  have hinside := chunk.inside
  omega

/-- A finished or failed collection: its result, the exchanges made and the device after them. -/
structure Transcript (σ : Type*) where
  result : Except DeviceSessionError (List Byte)
  exchanges : List Exchange
  state : σ

namespace Transcript

variable {σ : Type*}

/-- A collection that makes one exchange before the others. -/
def after (exchange : Exchange) (transcript : Transcript σ) : Transcript σ :=
  { transcript with exchanges := exchange :: transcript.exchanges }

/-- An exchange that is put before a transcript leaves its result. -/
@[simp] theorem after_result (exchange : Exchange) (transcript : Transcript σ) :
    (transcript.after exchange).result = transcript.result := rfl

/-- The exchange that is put before a transcript comes first in it. -/
@[simp] theorem after_exchanges (exchange : Exchange) (transcript : Transcript σ) :
    (transcript.after exchange).exchanges = exchange :: transcript.exchanges := rfl

end Transcript

variable {σ : Type*}

/-- The loop of `read_complete_lxmf`, holding the bytes before `offset`, and the digest check
after it. -/
def collect (sha256 : Sha256) (requester : DeviceApiRequester σ) (summary : LxmfMessageSummary)
    (offset : ℕ) (wire : List Byte) (state : σ) : Transcript σ :=
  if hoffset : offset < summary.normalizedWireLen then
    let request := nextRequest summary offset hoffset
    let answered := requester request state
    match readChunk answered.1 with
    | .error error => ⟨.error error, [(request, answered.1)], answered.2⟩
    | .ok chunk =>
      match _ : acceptChunk summary request chunk with
      | .error error => ⟨.error error, [(request, answered.1)], answered.2⟩
      | .ok next =>
        (collect sha256 requester summary next (wire ++ chunk.bytes) answered.2).after
          (request, answered.1)
  else if sha256 wire ≠ summary.exactWireSha256 then
    ⟨.error (.invalidLxmf "complete wire digest did not match its summary"), [], state⟩
  else ⟨.ok wire, [], state⟩
termination_by summary.normalizedWireLen - offset
decreasing_by
  have hbounds : offset < next ∧ _ := acceptChunk_bounds ‹acceptChunk _ _ _ = _›
  omega

/-- Collect the complete wire of a listed message. The allocator reports whether it can
reserve the buffer; the length always fits the client's address width. -/
def readCompleteLxmf (sha256 : Sha256) (reserves : ℕ → Bool) (requester : DeviceApiRequester σ)
    (summary : LxmfMessageSummary) (state : σ) : Transcript σ :=
  if maxRequestSessionLxmfWireBytes < summary.normalizedWireLen then
    ⟨.error (.invalidLxmf "wire exceeds the client collection limit"), [], state⟩
  else if ¬ reserves summary.normalizedWireLen then
    ⟨.error (.invalidLxmf "wire allocation failed"), [], state⟩
  else collect sha256 requester summary 0 [] state

end ApplianceSync
