import ReticulumFirmware.Ota.Coordinator

/-!
# Update requests of the product task

How `prns_product_task.rs` drives the coordinator. The answers of the node (whether a
resource strategy was set, whether a response was accepted) come with the event; what a
handler does to the link is its result.
-/

namespace Ota

open Nor

/-- The update routes of a management request. -/
inductive ManagementRequestKind where
  | otaStart
  | otaNext
  | otaStatus
  | otaReboot
  deriving DecidableEq, Repr

/-- An authorized management request. -/
structure ManagementRequest where
  requester : Option (Vector Byte 16)
  link : LinkId
  kind : ManagementRequestKind
  data : List Byte

/-- The answers of the node to the commands a handler issues. -/
structure NodeAnswers where
  /-- Whether the resource strategy of the link was set. -/
  strategy : Bool
  /-- Whether a response was encoded and accepted. -/
  response : Bool

/-- What a handler does to the link in the end. -/
inductive Reply where
  | closeLink
  | respondStatus (status : OtaStatus)
  | softwareReset
  | silent
  deriving DecidableEq

/-- Body of a status request. -/
def otaStatusRequestValue : List Byte := [0xc0]

/-- Body of a reboot request. -/
def otaRebootRequestValue : List Byte := [0xc0]

section Handlers

variable {m : Type → Type} [Monad m] {ε : Type}
variable (sha256 : Sha256) (backend : OtaBackend m ε)

/-- Open the resource gate of an armed session. -/
def openResourceGate (answers : NodeAnswers) (c : OtaCoordinator) : OtaCoordinator × Reply :=
  if answers.strategy then (c, .respondStatus c.status) else (c.disarm, .closeLink)

/-- The gate of a session that was armed, the given reply otherwise. -/
def afterArm (answers : NodeAnswers) (rejected : OtaCoordinator → Reply)
    (armed : OtaCoordinator × Except (OtaCoordinatorError Unit) Unit) : OtaCoordinator × Reply :=
  match armed.2 with
  | .error _ => (armed.1, rejected armed.1)
  | .ok _ => openResourceGate answers armed.1

/-- Answer a start request. -/
def answerStart (c : OtaCoordinator) (answers : NodeAnswers) (nowMillis : UInt64)
    (request : ManagementRequest) : m (OtaCoordinator × Reply) :=
  match decodeStartRequest request.data with
  | .error _ => pure (c, .closeLink)
  | .ok manifest => do
    let begun ← c.begin sha256 backend request.link nowMillis manifest
    match begun.2 with
    | .error _ => pure (begun.1, .respondStatus begun.1.status)
    | .ok session =>
      pure (afterArm answers (fun _ => .closeLink) (begun.1.armNext request.link session 0))

/-- Answer a request for the next resource. -/
def answerNext (c : OtaCoordinator) (answers : NodeAnswers) (request : ManagementRequest) :
    OtaCoordinator × Reply :=
  match decodeNextRequest request.data with
  | .error _ => (c, .closeLink)
  | .ok next =>
    afterArm answers (fun c => .respondStatus c.status) (c.armNext request.link next.1 next.2)

/-- Answer a reboot request. -/
def answerReboot (c : OtaCoordinator) (answers : NodeAnswers) (request : ManagementRequest) :
    Reply :=
  if request.data ≠ otaRebootRequestValue then .closeLink
  else if c.status.phase ≠ .activated then .respondStatus c.status
  else if answers.response then .softwareReset
  else .closeLink

/-- Answer a request on one of the update routes. -/
def answerOtaControl (c : OtaCoordinator) (answers : NodeAnswers) (nowMillis : UInt64)
    (request : ManagementRequest) : m (OtaCoordinator × Reply) :=
  if request.requester.isNone then pure (c, .closeLink)
  else
    match request.kind with
    | .otaStart => answerStart sha256 backend c answers nowMillis request
    | .otaNext => pure (answerNext c answers request)
    | .otaStatus =>
      pure (c, if request.data ≠ otaStatusRequestValue then .closeLink else .respondStatus c.status)
    | .otaReboot => pure (c, answerReboot c answers request)

/-- Hand a received resource to the coordinator. -/
def consumeOtaResource (c : OtaCoordinator) (answers : NodeAnswers) (link : LinkId)
    (metadata : Option (List Byte)) (data : List Byte) : m (OtaCoordinator × Reply) :=
  if answers.strategy then do
    let ingested ← c.ingestResource sha256 backend link (metadata.getD []) data
    match ingested.2 with
    | .error _ => pure (ingested.1, .closeLink)
    | .ok _ => pure (ingested.1, .silent)
  else pure (c.linkClosed link, .closeLink)

end Handlers

/-- An event the product task handles. -/
inductive ProductEvent where
  | control (answers : NodeAnswers) (nowMillis : UInt64) (request : ManagementRequest)
  | resource (answers : NodeAnswers) (link : LinkId) (metadata : Option (List Byte))
      (data : List Byte)
  | linkClosed (link : LinkId)

/-- Handle one event. -/
def handle {m : Type → Type} [Monad m] {ε : Type} (sha256 : Sha256) (backend : OtaBackend m ε)
    (c : OtaCoordinator) : ProductEvent → m (OtaCoordinator × Reply)
  | .control answers nowMillis request =>
      answerOtaControl sha256 backend c answers nowMillis request
  | .resource answers link metadata data =>
    consumeOtaResource sha256 backend c answers link metadata data
  | .linkClosed link => pure (c.linkClosed link, .silent)

/-- Whether an event is a start request that reaches the backend. -/
def ProductEvent.Admitted (c : OtaCoordinator) : ProductEvent → Prop
  | .control _ _ request => request.requester.isSome = true ∧ request.kind = .otaStart ∧
      c.active = none ∧ ∃ manifest, decodeStartRequest request.data = .ok manifest ∧
        manifest.imageBytes ≤ maxOtaImageBytes
  | _ => False

end Ota
