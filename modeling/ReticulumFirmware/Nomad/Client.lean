import ReticulumFirmware.Nor.Bytes

/-!
# The NomadNet page client

One bounded page fetch over path discovery, a link and an anonymous request, with a single
cached link that outlives fetches. Every operation returns its result and the client it leaves.
-/

namespace Nomad

open Nor

/-- A destination of the network. -/
abbrev DestinationHash := Vector Byte 16

/-- The identifier of a link. -/
abbrev LinkId := Vector Byte 16

/-- The identifier of a request. -/
abbrev RequestId := Vector Byte 16

/-- A reading of the clock. -/
abbrev MonotonicMillis := UInt64

/-- Largest request path. -/
abbrev maxPagePathBytes : ℕ := 128

/-- Largest direct page body. -/
abbrev maxPageBytes : ℕ := 400

/-- Why a path is refused. -/
inductive PathError where
  | invalid
  | tooLong (actual maximum : ℕ)
  deriving DecidableEq

/-- A validated absolute request path. -/
structure PagePath where
  text : String
  absolute : text.toList.head? = some '/'
  clean : '\x00' ∉ text.toList
  bounded : text.utf8ByteSize ≤ maxPagePathBytes
  deriving DecidableEq

/-- Validate one absolute path. -/
def PagePath.new (path : String) : Except PathError PagePath :=
  if h : path.toList.head? = some '/' ∧ '\x00' ∉ path.toList then
    if hlen : path.utf8ByteSize ≤ maxPagePathBytes then .ok ⟨path, h.1, h.2, hlen⟩
    else .error (.tooLong path.utf8ByteSize maxPagePathBytes)
  else .error .invalid

/-- Time allowed after a confirmed dispatch. -/
structure FetchConfig where
  requestTimeoutMs : UInt64
  nonzero : requestTimeoutMs ≠ 0

/-- A link and the destination it serves. -/
structure CachedLink where
  destination : DestinationHash
  link : LinkId
  deriving DecidableEq

/-- What the caller has to do next. -/
inductive FetchAction where
  | requestPath (destination : DestinationHash)
  | establishLink (destination : DestinationHash)
  | prepareAnonymousRequest (destination : DestinationHash) (link : LinkId) (path : PagePath)
  deriving DecidableEq

/-- Why a fetch is not started. -/
inductive StartError where
  | busy
  deriving DecidableEq

/-- Where a link failed. -/
inductive LinkFailureStage where
  | preparation
  | dispatch
  | establishment
  | closed
  | unavailable
  deriving DecidableEq

/-- Where a link failed, and with which code. -/
structure LinkFailure where
  stage : LinkFailureStage
  code : UInt16
  deriving DecidableEq

/-- Where a request failed. -/
inductive RequestFailureStage where
  | preparation
  | dispatch
  | remote
  deriving DecidableEq

/-- Where a request failed, and with which code. -/
structure RequestFailure where
  stage : RequestFailureStage
  code : UInt16
  deriving DecidableEq

/-- How a fetch fails. -/
inductive FetchFailure where
  | noPath (destination : DestinationHash)
  | link (destination : DestinationHash) (failure : LinkFailure)
  | request (link : LinkId) (request : Option RequestId) (failure : RequestFailure)
  | timeout (link : LinkId) (request : RequestId) (dispatchedAt deadline : MonotonicMillis)
  | tooLarge (actual maximum : ℕ)
  | invalidUtf8
  deriving DecidableEq

/-- What became of an observation. -/
inductive ObservationDisposition where
  | applied
  | unrelated
  | wrongPhase
  deriving DecidableEq

/-- Why a control transition is refused. -/
inductive ControlError where
  | wrongPhase
  | destinationMismatch
  | linkMismatch
  | requestMismatch
  | dispatchTimeMismatch
  | deadlineMismatch
  deriving DecidableEq

/-- A request that awaits its dispatch. -/
structure PreparedRequest where
  destination : DestinationHash
  link : LinkId
  request : RequestId
  path : PagePath
  deriving DecidableEq

/-- A confirmed request whose deadline is due. -/
structure RequestTimeoutCandidate where
  link : LinkId
  request : RequestId
  dispatchedAt : MonotonicMillis
  deadline : MonotonicMillis
  deriving DecidableEq

/-- Whether `str::from_utf8` accepts the bytes. -/
def isUtf8 (bytes : List Byte) : Bool :=
  (String.fromUTF8? ⟨(bytes.map UInt8.ofBitVec).toArray⟩).isSome

/-- A page body. -/
structure Page where
  bytes : List Byte
  bounded : bytes.length ≤ maxPageBytes
  valid : isUtf8 bytes = true
  deriving DecidableEq

/-- Take over a response body. -/
def Page.fromUtf8 (bytes : List Byte) : Except FetchFailure Page :=
  if hlen : bytes.length > maxPageBytes then .error (.tooLarge bytes.length maxPageBytes)
  else if hvalid : isUtf8 bytes = true then .ok ⟨bytes, not_lt.mp hlen, hvalid⟩
  else .error .invalidUtf8

/-- Terminal result of a fetch. -/
inductive FetchOutcome where
  | ready (page : Page)
  | failed (failure : FetchFailure)
  deriving DecidableEq

/-- The single fetch slot. -/
inductive FetchState where
  | idle
  | needPath (destination : DestinationHash) (path : PagePath)
  | waitingPath (destination : DestinationHash) (path : PagePath)
  | needLink (destination : DestinationHash) (path : PagePath)
  | waitingLink (destination : DestinationHash) (path : PagePath) (link : LinkId)
  | needRequest (destination : DestinationHash) (path : PagePath) (link : LinkId)
  | prepared (request : PreparedRequest)
  | waitingResponse (destination : DestinationHash) (path : PagePath) (link : LinkId)
      (request : RequestId) (dispatchedAt deadline : MonotonicMillis)
  | ready (page : Page)
  | failed (failure : FetchFailure)
  deriving DecidableEq

/-- The owner of one fetch. -/
structure NomadClient where
  config : FetchConfig
  cachedLink : Option CachedLink
  state : FetchState

namespace NomadClient

/-- An idle client without a cached link. -/
def new (config : FetchConfig) : NomadClient := ⟨config, none, .idle⟩

variable (self : NomadClient)

/-- The action that is ready for the caller. -/
def action : Option FetchAction :=
  match self.state with
  | .needPath destination _ => some (.requestPath destination)
  | .needLink destination _ => some (.establishLink destination)
  | .needRequest destination path link => some (.prepareAnonymousRequest destination link path)
  | _ => none

/-- Seed or replace the cached link while idle. -/
def seedCachedLink (link : CachedLink) : Except StartError Unit × NomadClient :=
  match self.state with
  | .idle => (.ok (), { self with cachedLink := some link })
  | _ => (.error .busy, self)

/-- Begin one fetch. -/
def start (destination : DestinationHash) (path : PagePath) :
    Except StartError Unit × NomadClient :=
  match self.state with
  | .idle =>
    match self.cachedLink with
    | some cached =>
      if cached.destination = destination then
        (.ok (), { self with state := .needRequest destination path cached.link })
      else (.ok (), { self with state := .needPath destination path })
    | none => (.ok (), { self with state := .needPath destination path })
  | _ => (.error .busy, self)

/-- Confirm that path discovery was taken over. -/
def confirmPathRequest (destination : DestinationHash) : Except ControlError Unit × NomadClient :=
  match self.state with
  | .needPath expected path =>
    if destination ≠ expected then (.error .destinationMismatch, self)
    else (.ok (), { self with state := .waitingPath destination path })
  | .waitingPath expected _ =>
    if destination = expected then (.ok (), self) else (.error .destinationMismatch, self)
  | _ => (.error .wrongPhase, self)

/-- Cancel path discovery so that it is prepared again. -/
def cancelPathRequest (destination : DestinationHash) : Except ControlError Unit × NomadClient :=
  match self.state with
  | .waitingPath expected path =>
    if destination ≠ expected then (.error .destinationMismatch, self)
    else (.ok (), { self with state := .needPath destination path })
  | _ => (.error .wrongPhase, self)

/-- Path discovery found a path. -/
def pathAvailable (destination : DestinationHash) : ObservationDisposition × NomadClient :=
  match self.state with
  | .waitingPath expected path =>
    if destination ≠ expected then (.unrelated, self)
    else (.applied, { self with state := .needLink destination path })
  | _ => (.wrongPhase, self)

/-- Path discovery ended without a path. -/
def pathUnavailable (destination : DestinationHash) : ObservationDisposition × NomadClient :=
  match self.state with
  | .waitingPath expected _ =>
    if destination ≠ expected then (.unrelated, self)
    else (.applied, { self with state := .failed (.noPath destination) })
  | _ => (.wrongPhase, self)

/-- Confirm that link establishment was taken over. -/
def confirmLinkRequest (destination : DestinationHash) (link : LinkId) :
    Except ControlError Unit × NomadClient :=
  match self.state with
  | .needLink expected path =>
    if destination ≠ expected then (.error .destinationMismatch, self)
    else (.ok (), { self with state := .waitingLink destination path link })
  | .waitingLink expected _ expectedLink =>
    if destination ≠ expected then (.error .destinationMismatch, self)
    else if link ≠ expectedLink then (.error .linkMismatch, self)
    else (.ok (), self)
  | _ => (.error .wrongPhase, self)

/-- Cancel link establishment so that it is prepared again. -/
def cancelLinkRequest (destination : DestinationHash) (link : LinkId) :
    Except ControlError Unit × NomadClient :=
  match self.state with
  | .waitingLink expected path expectedLink =>
    if destination ≠ expected then (.error .destinationMismatch, self)
    else if link ≠ expectedLink then (.error .linkMismatch, self)
    else (.ok (), { self with state := .needLink destination path })
  | _ => (.error .wrongPhase, self)

/-- The link was established. -/
def linkEstablished (destination : DestinationHash) (link : LinkId) :
    ObservationDisposition × NomadClient :=
  match self.state with
  | .waitingLink expected path expectedLink =>
    if destination ≠ expected then (.unrelated, self)
    else if link ≠ expectedLink then (.unrelated, self)
    else (.applied, { self with
      cachedLink := some ⟨destination, link⟩
      state := .needRequest destination path link })
  | _ => (.wrongPhase, self)

/-- The link could not be prepared. -/
def linkPreparationFailed (destination : DestinationHash) (failure : LinkFailure) :
    ObservationDisposition × NomadClient :=
  match self.state with
  | .needLink expected _ =>
    if destination ≠ expected then (.unrelated, self)
    else (.applied, { self with state := .failed (.link destination failure) })
  | _ => (.wrongPhase, self)

/-- A prepared link failed. -/
def linkFailed (destination : DestinationHash) (link : LinkId) (failure : LinkFailure) :
    ObservationDisposition × NomadClient :=
  match self.state with
  | .waitingLink expectedDestination _ expectedLink =>
    if destination ≠ expectedDestination ∨ link ≠ expectedLink then (.unrelated, self)
    else (.applied, { self with state := .failed (.link destination failure) })
  | _ => (.wrongPhase, self)

/-- The destination of the fetch, if it depends on a link. -/
def dependsOn (state : FetchState) (link : LinkId) : Option DestinationHash :=
  match state with
  | .waitingLink destination _ expected | .needRequest destination _ expected
  | .waitingResponse destination _ expected _ _ _ =>
    if expected = link then some destination else none
  | .prepared request => if request.link = link then some request.destination else none
  | _ => none

/-- An established link closed or disappeared. -/
def linkClosed (link : LinkId) (code : UInt16) : ObservationDisposition × NomadClient :=
  let wasCached := self.cachedLink.any (·.link = link)
  let cachedLink := if wasCached then none else self.cachedLink
  match dependsOn self.state link with
  | some destination =>
    (.applied, { self with
      cachedLink
      state := .failed (.link destination ⟨.closed, code⟩) })
  | none => (if wasCached then .applied else .unrelated, { self with cachedLink })

/-- Request preparation found the link unavailable. -/
def requestLinkUnavailable (link : LinkId) (code : UInt16) :
    ObservationDisposition × NomadClient :=
  match self.state with
  | .needRequest destination _ expected =>
    if link ≠ expected then (.unrelated, self)
    else (.applied, { self with
      cachedLink := if self.cachedLink.any (·.link = link) then none else self.cachedLink
      state := .failed (.link destination ⟨.unavailable, code⟩) })
  | _ => (.wrongPhase, self)

/-- Bind the request that was prepared. -/
def requestPrepared (link : LinkId) (request : RequestId) :
    Except ControlError PreparedRequest × NomadClient :=
  match self.state with
  | .needRequest destination path expected =>
    if link ≠ expected then (.error .linkMismatch, self)
    else
      let prepared : PreparedRequest := ⟨destination, link, request, path⟩
      (.ok prepared, { self with state := .prepared prepared })
  | .prepared prepared =>
    if link ≠ prepared.link then (.error .linkMismatch, self)
    else if request ≠ prepared.request then (.error .requestMismatch, self)
    else (.ok prepared, self)
  | _ => (.error .wrongPhase, self)

/-- Check that a prepared request is the one named. -/
def ensureRequestCorrelation (prepared : PreparedRequest) (link : LinkId) (request : RequestId) :
    Except ControlError Unit :=
  if link ≠ prepared.link then .error .linkMismatch
  else if request ≠ prepared.request then .error .requestMismatch
  else .ok ()

/-- `u64::saturating_add`. -/
def saturatingAdd (a b : UInt64) : UInt64 :=
  if a.toNat + b.toNat < 2 ^ 64 then a + b else 0xffffffffffffffff

/-- Confirm the first dispatch of the prepared request. -/
def confirmRequestDispatch (link : LinkId) (request : RequestId)
    (dispatchedAt : MonotonicMillis) : Except ControlError Unit × NomadClient :=
  match self.state with
  | .prepared prepared =>
    match ensureRequestCorrelation prepared link request with
    | .error error => (.error error, self)
    | .ok () =>
      let deadline := saturatingAdd dispatchedAt self.config.requestTimeoutMs
      (.ok (), { self with
        state := .waitingResponse prepared.destination prepared.path link request dispatchedAt
          deadline })
  | .waitingResponse _ _ expectedLink expectedRequest expectedTime _ =>
    if link ≠ expectedLink then (.error .linkMismatch, self)
    else if request ≠ expectedRequest then (.error .requestMismatch, self)
    else if dispatchedAt ≠ expectedTime then (.error .dispatchTimeMismatch, self)
    else (.ok (), self)
  | _ => (.error .wrongPhase, self)

/-- Cancel a prepared request and return to its preparation. -/
def cancelRequestDispatch (link : LinkId) (request : RequestId) :
    Except ControlError Unit × NomadClient :=
  match self.state with
  | .prepared prepared =>
    match ensureRequestCorrelation prepared link request with
    | .error error => (.error error, self)
    | .ok () =>
      (.ok (), { self with state := .needRequest prepared.destination prepared.path link })
  | _ => (.error .wrongPhase, self)

/-- The request could not be prepared. -/
def requestPreparationFailed (link : LinkId) (failure : RequestFailure) :
    ObservationDisposition × NomadClient :=
  match self.state with
  | .needRequest _ _ expected =>
    if link ≠ expected then (.unrelated, self)
    else (.applied, { self with state := .failed (.request link none failure) })
  | _ => (.wrongPhase, self)

/-- The prepared request could not be dispatched. -/
def requestDispatchFailed (link : LinkId) (request : RequestId) (failure : RequestFailure) :
    ObservationDisposition × NomadClient :=
  match self.state with
  | .prepared prepared =>
    if link ≠ prepared.link ∨ request ≠ prepared.request then (.unrelated, self)
    else (.applied, { self with state := .failed (.request link (some request) failure) })
  | _ => (.wrongPhase, self)

/-- The confirmed request failed remotely. -/
def requestFailed (link : LinkId) (request : RequestId) (failure : RequestFailure) :
    ObservationDisposition × NomadClient :=
  match self.state with
  | .waitingResponse _ _ expectedLink expectedRequest _ _ =>
    if link ≠ expectedLink ∨ request ≠ expectedRequest then (.unrelated, self)
    else (.applied, { self with state := .failed (.request link (some request) failure) })
  | _ => (.wrongPhase, self)

/-- The confirmed request was answered. -/
def responseReceived (link : LinkId) (request : RequestId) (responseBody : List Byte) :
    ObservationDisposition × NomadClient :=
  match self.state with
  | .waitingResponse _ _ expectedLink expectedRequest _ _ =>
    if link ≠ expectedLink ∨ request ≠ expectedRequest then (.unrelated, self)
    else
      match Page.fromUtf8 responseBody with
      | .ok page => (.applied, { self with state := .ready page })
      | .error failure => (.applied, { self with state := .failed failure })
  | _ => (.wrongPhase, self)

/-- The confirmed request, if its deadline is due. -/
def requestTimeoutCandidate (now : MonotonicMillis) : Option RequestTimeoutCandidate :=
  match self.state with
  | .waitingResponse _ _ link request dispatchedAt deadline =>
    if deadline ≤ now then some ⟨link, request, dispatchedAt, deadline⟩ else none
  | _ => none

/-- Commit a timeout after the request was cancelled. -/
def confirmRequestTimeout (candidate : RequestTimeoutCandidate) :
    Except ControlError Unit × NomadClient :=
  match self.state with
  | .waitingResponse _ _ link request dispatchedAt deadline =>
    if candidate.link ≠ link then (.error .linkMismatch, self)
    else if candidate.request ≠ request then (.error .requestMismatch, self)
    else if candidate.dispatchedAt ≠ dispatchedAt then (.error .dispatchTimeMismatch, self)
    else if candidate.deadline ≠ deadline then (.error .deadlineMismatch, self)
    else (.ok (), { self with state := .failed (.timeout link request dispatchedAt deadline) })
  | _ => (.error .wrongPhase, self)

/-- Take a terminal outcome and free the slot. -/
def takeOutcome : Option FetchOutcome × NomadClient :=
  match self.state with
  | .ready page => (some (.ready page), { self with state := .idle })
  | .failed failure => (some (.failed failure), { self with state := .idle })
  | _ => (none, self)

end NomadClient

end Nomad
