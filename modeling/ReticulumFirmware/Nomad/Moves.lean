import ReticulumFirmware.Nomad.LiveLinks

/-!
# Moves of a page fetch

Every operation moves the single fetch in one of a few ways, and a refused operation changes
nothing.
-/

namespace Nomad

/-- The operation was refused, or its observation did not apply. -/
def Reply.Refused : Reply → Prop
  | .started (.error _) | .controlled (.error _) | .prepared (.error _)
  | .observed .unrelated | .observed .wrongPhase => True
  | _ => False

/-- The event is neither a start, nor an outcome, nor a dispatch, nor an answer. -/
def Quiet : Event → Prop
  | (.start .., .started (.ok _)) => False
  | (.takeOutcome, .taken (some _)) => False
  | (.confirmRequestDispatch .., .controlled (.ok _)) => False
  | (.responseReceived .., .observed .applied) => False
  | _ => True

namespace FetchState

/-- The destination and path of a fetch whose request is not dispatched. -/
def unsent : FetchState → Option (DestinationHash × PagePath)
  | .needPath destination path | .waitingPath destination path | .needLink destination path
  | .waitingLink destination path _ | .needRequest destination path _ => some (destination, path)
  | .prepared request => some (request.destination, request.path)
  | _ => none

/-- The destination and path of a fetch that has not ended. -/
def target : FetchState → Option (DestinationHash × PagePath)
  | .waitingResponse destination path .. => some (destination, path)
  | state => state.unsent

/-- The outcome of a fetch that has ended. -/
def outcome : FetchState → Option FetchOutcome
  | .ready page => some (.ready page)
  | .failed failure => some (.failed failure)
  | _ => none

end FetchState

/-- The destination that a failure names. -/
def FetchFailure.destination : FetchFailure → Option DestinationHash
  | .noPath destination | .link destination _ => some destination
  | _ => none

/-- The failure is not that of an expired deadline. -/
def FetchFailure.Untimed : FetchFailure → Prop
  | .timeout .. => False
  | _ => True

/-- What an operation can do to the fetch. -/
inductive Move (timeoutMs : UInt64) : FetchState → Event → FetchState → Prop
  | stays {state : FetchState} {event : Event} (h : Quiet event) : Move timeoutMs state event state
  | starts {destination : DestinationHash} {path : PagePath} {state : FetchState}
      (h : state.unsent = some (destination, path)) :
      Move timeoutMs .idle (.start destination path, .started (.ok ())) state
  | advances {state later : FetchState} {event : Event} (h : Quiet event)
      (hunsent : state.unsent.isSome) (hlater : later.unsent = state.unsent) :
      Move timeoutMs state event later
  | dispatches (prepared : PreparedRequest) (dispatchedAt : MonotonicMillis) :
      Move timeoutMs (.prepared prepared)
        (.confirmRequestDispatch prepared.link prepared.request dispatchedAt, .controlled (.ok ()))
        (.waitingResponse prepared.destination prepared.path prepared.link prepared.request
          dispatchedAt (NomadClient.saturatingAdd dispatchedAt timeoutMs))
  | repeats (destination : DestinationHash) (path : PagePath) (link : LinkId)
      (request : RequestId) (dispatchedAt deadline : MonotonicMillis) :
      Move timeoutMs (.waitingResponse destination path link request dispatchedAt deadline)
        (.confirmRequestDispatch link request dispatchedAt, .controlled (.ok ()))
        (.waitingResponse destination path link request dispatchedAt deadline)
  | answers (destination : DestinationHash) (path : PagePath) (link : LinkId)
      (request : RequestId) (dispatchedAt deadline : MonotonicMillis) (page : Page) :
      Move timeoutMs (.waitingResponse destination path link request dispatchedAt deadline)
        (.responseReceived link request page.bytes, .observed .applied) (.ready page)
  | garbles (destination : DestinationHash) (path : PagePath) (link : LinkId)
      (request : RequestId) (dispatchedAt deadline : MonotonicMillis) (body : List Nor.Byte)
      {failure : FetchFailure} (h : failure.Untimed) (hdestination : failure.destination = none) :
      Move timeoutMs (.waitingResponse destination path link request dispatchedAt deadline)
        (.responseReceived link request body, .observed .applied) (.failed failure)
  | expires (destination : DestinationHash) (path : PagePath) (link : LinkId)
      (request : RequestId) (dispatchedAt deadline : MonotonicMillis) :
      Move timeoutMs (.waitingResponse destination path link request dispatchedAt deadline)
        (.confirmRequestTimeout ⟨link, request, dispatchedAt, deadline⟩, .controlled (.ok ()))
        (.failed (.timeout link request dispatchedAt deadline))
  | fails {state : FetchState} {event : Event} {failure : FetchFailure} (h : Quiet event)
      {destination : DestinationHash} {path : PagePath}
      (htarget : state.target = some (destination, path)) (huntimed : failure.Untimed)
      (hdestination : ∀ named, failure.destination = some named → named = destination) :
      Move timeoutMs state event (.failed failure)
  | ends {state : FetchState} {outcome : FetchOutcome} (h : state.outcome = some outcome) :
      Move timeoutMs state (.takeOutcome, .taken (some outcome)) .idle

/-- What one operation does: it moves the fetch, and it changes nothing when it is refused. -/
structure Turn (client : NomadClient) (event : Event) (later : NomadClient) : Prop where
  moves : Move client.config.requestTimeoutMs client.state event later.state
  unchanged : event.2.Refused → later = client
  config : later.config = client.config

variable {client later : NomadClient} {event : Event}

/-- A quiet event on an unchanged client is a turn. -/
theorem Turn.refused (h : Quiet event) : Turn client event client := ⟨.stays h, fun _ => rfl, rfl⟩

/-- A move of the state with the same configuration is a turn. -/
theorem Turn.moved (hconfig : later.config = client.config) (haccepted : ¬ event.2.Refused)
    (h : Move client.config.requestTimeoutMs client.state event later.state) :
    Turn client event later :=
  ⟨h, fun hrefused => absurd hrefused haccepted, hconfig⟩

namespace NomadClient

variable (client : NomadClient)

/-- A start is a turn. -/
theorem turn_start (destination : DestinationHash) (path : PagePath) :
    Turn client
      (.start destination path, .started (client.start destination path).1)
      (client.start destination path).2 := by
  unfold start
  split
  · next hidle =>
    split
    · split_ifs
      · refine .moved rfl nofun ?_
        rw [hidle]
        exact .starts rfl
      · refine .moved rfl nofun ?_
        rw [hidle]
        exact .starts rfl
    · refine .moved rfl nofun ?_
      rw [hidle]
      exact .starts rfl
  · exact .refused trivial

/-- A confirmed path request is a turn. -/
theorem turn_confirmPathRequest (destination : DestinationHash) :
    Turn client
      (.confirmPathRequest destination, .controlled (client.confirmPathRequest destination).1)
      (client.confirmPathRequest destination).2 := by
  unfold confirmPathRequest
  split
  · next hstate =>
    split_ifs with hother
    · exact .refused trivial
    · refine .moved rfl nofun ?_
      rw [hstate, not_not.mp hother]
      exact .advances trivial rfl rfl
  · split_ifs
    · exact .refused trivial
    · exact .refused trivial
  · exact .refused trivial

/-- A cancelled path request is a turn. -/
theorem turn_cancelPathRequest (destination : DestinationHash) :
    Turn client
      (.cancelPathRequest destination, .controlled (client.cancelPathRequest destination).1)
      (client.cancelPathRequest destination).2 := by
  unfold cancelPathRequest
  split
  · next hstate =>
    split_ifs with hother
    · exact .refused trivial
    · refine .moved rfl nofun ?_
      rw [hstate, not_not.mp hother]
      exact .advances trivial rfl rfl
  · exact .refused trivial

/-- A path that is available is a turn. -/
theorem turn_pathAvailable (destination : DestinationHash) :
    Turn client
      (.pathAvailable destination, .observed (client.pathAvailable destination).1)
      (client.pathAvailable destination).2 := by
  unfold pathAvailable
  split
  · next hstate =>
    split_ifs with hother
    · exact .refused trivial
    · refine .moved rfl nofun ?_
      rw [hstate, not_not.mp hother]
      exact .advances trivial rfl rfl
  · exact .refused trivial

/-- A path that is not available is a turn. -/
theorem turn_pathUnavailable (destination : DestinationHash) :
    Turn client
      (.pathUnavailable destination, .observed (client.pathUnavailable destination).1)
      (client.pathUnavailable destination).2 := by
  unfold pathUnavailable
  split
  · next hstate =>
    split_ifs with hother
    · exact .refused trivial
    · refine .moved rfl nofun ?_
      rw [hstate, not_not.mp hother]
      exact .fails trivial rfl trivial (by rintro _ ⟨⟩; rfl)
  · exact .refused trivial

/-- A confirmed link request is a turn. -/
theorem turn_confirmLinkRequest (destination : DestinationHash) (link : LinkId) :
    Turn client
      (.confirmLinkRequest destination link,
        .controlled (client.confirmLinkRequest destination link).1)
      (client.confirmLinkRequest destination link).2 := by
  unfold confirmLinkRequest
  split
  · next hstate =>
    split_ifs with hother
    · exact .refused trivial
    · refine .moved rfl nofun ?_
      rw [hstate, not_not.mp hother]
      exact .advances trivial rfl rfl
  · split_ifs
    · exact .refused trivial
    · exact .refused trivial
    · exact .refused trivial
  · exact .refused trivial

/-- A cancelled link request is a turn. -/
theorem turn_cancelLinkRequest (destination : DestinationHash) (link : LinkId) :
    Turn client
      (.cancelLinkRequest destination link,
        .controlled (client.cancelLinkRequest destination link).1)
      (client.cancelLinkRequest destination link).2 := by
  unfold cancelLinkRequest
  split
  · next hstate =>
    split_ifs with hother
    · exact .refused trivial
    · exact .refused trivial
    · refine .moved rfl nofun ?_
      rw [hstate, not_not.mp hother]
      exact .advances trivial rfl rfl
  · exact .refused trivial

/-- An established link is a turn. -/
theorem turn_linkEstablished (destination : DestinationHash) (link : LinkId) :
    Turn client
      (.linkEstablished destination link, .observed (client.linkEstablished destination link).1)
      (client.linkEstablished destination link).2 := by
  unfold linkEstablished
  split
  · next hstate =>
    split_ifs with hother
    · exact .refused trivial
    · exact .refused trivial
    · refine .moved rfl nofun ?_
      rw [hstate, not_not.mp hother]
      exact .advances trivial rfl rfl
  · exact .refused trivial

/-- A failed preparation of a link is a turn. -/
theorem turn_linkPreparationFailed (destination : DestinationHash) (failure : LinkFailure) :
    Turn client
      (.linkPreparationFailed destination failure,
        .observed (client.linkPreparationFailed destination failure).1)
      (client.linkPreparationFailed destination failure).2 := by
  unfold linkPreparationFailed
  split
  · next hstate =>
    split_ifs with hother
    · exact .refused trivial
    · refine .moved rfl nofun ?_
      rw [hstate, not_not.mp hother]
      exact .fails trivial rfl trivial (by rintro _ ⟨⟩; rfl)
  · exact .refused trivial

/-- A failed link is a turn. -/
theorem turn_linkFailed (destination : DestinationHash) (link : LinkId) (failure : LinkFailure) :
    Turn client
      (.linkFailed destination link failure,
        .observed (client.linkFailed destination link failure).1)
      (client.linkFailed destination link failure).2 := by
  unfold linkFailed
  split
  · next hstate =>
    split_ifs with hother
    · exact .refused trivial
    · refine .moved rfl nofun ?_
      rw [hstate, not_not.mp (not_or.mp hother).1]
      exact .fails trivial rfl trivial (by rintro _ ⟨⟩; rfl)
  · exact .refused trivial

/-- A fetch that depends on a link has the destination that is reported. -/
theorem target_of_dependsOn {state : FetchState} {link : LinkId} {destination : DestinationHash}
    (h : dependsOn state link = some destination) :
    ∃ path, state.target = some (destination, path) := by
  unfold dependsOn at h
  split at h
  · split_ifs at h
    cases h
    exact ⟨_, rfl⟩
  · split_ifs at h
    cases h
    exact ⟨_, rfl⟩
  · split_ifs at h
    cases h
    exact ⟨_, rfl⟩
  · split_ifs at h
    cases h
    exact ⟨_, rfl⟩
  · cases h

/-- A closed link is a turn. -/
theorem turn_linkClosed (link : LinkId) (code : UInt16) :
    Turn client
      (.linkClosed link code, .observed (client.linkClosed link code).1)
      (client.linkClosed link code).2 := by
  unfold linkClosed
  dsimp only
  split
  · next hdepends =>
    obtain ⟨path, htarget⟩ := target_of_dependsOn hdepends
    exact .moved rfl nofun (.fails trivial htarget trivial (by rintro _ ⟨⟩; rfl))
  · by_cases hcached : client.cachedLink.any (·.link = link) = true
    · simp only [hcached, if_true]
      exact .moved rfl nofun (.stays trivial)
    · simp only [hcached]
      exact .refused trivial

/-- An unavailable link is a turn. -/
theorem turn_requestLinkUnavailable (link : LinkId) (code : UInt16) :
    Turn client
      (.requestLinkUnavailable link code, .observed (client.requestLinkUnavailable link code).1)
      (client.requestLinkUnavailable link code).2 := by
  unfold requestLinkUnavailable
  split
  · next hstate =>
    split_ifs
    · exact .refused trivial
    · refine .moved rfl nofun ?_
      rw [hstate]
      exact .fails trivial rfl trivial (by rintro _ ⟨⟩; rfl)
    · refine .moved rfl nofun ?_
      rw [hstate]
      exact .fails trivial rfl trivial (by rintro _ ⟨⟩; rfl)
  · exact .refused trivial

/-- A prepared request is a turn. -/
theorem turn_requestPrepared (link : LinkId) (request : RequestId) :
    Turn client
      (.requestPrepared link request, .prepared (client.requestPrepared link request).1)
      (client.requestPrepared link request).2 := by
  unfold requestPrepared
  split
  · next hstate =>
    split_ifs
    · exact .refused trivial
    · refine .moved rfl nofun ?_
      rw [hstate]
      exact .advances trivial rfl rfl
  · split_ifs
    · exact .refused trivial
    · exact .refused trivial
    · exact .refused trivial
  · exact .refused trivial

/-- A correlated request is the one named. -/
theorem request_of_correlation {prepared : PreparedRequest} {link : LinkId} {request : RequestId}
    (h : ensureRequestCorrelation prepared link request = .ok ()) : request = prepared.request := by
  unfold ensureRequestCorrelation at h
  split_ifs at h with hlink hrequest
  exact not_not.mp hrequest

/-- A confirmed dispatch is a turn. -/
theorem turn_confirmRequestDispatch (link : LinkId) (request : RequestId)
    (dispatchedAt : MonotonicMillis) :
    Turn client
      (.confirmRequestDispatch link request dispatchedAt,
        .controlled (client.confirmRequestDispatch link request dispatchedAt).1)
      (client.confirmRequestDispatch link request dispatchedAt).2 := by
  unfold confirmRequestDispatch
  split
  · next prepared hstate =>
    split
    · exact .refused trivial
    · next hcorrelated =>
      refine .moved rfl nofun ?_
      rw [hstate, link_of_correlation hcorrelated, request_of_correlation hcorrelated]
      exact .dispatches prepared dispatchedAt
  · next hstate =>
    split_ifs with hlink hrequest htime
    · exact .refused trivial
    · exact .refused trivial
    · exact .refused trivial
    · refine .moved rfl nofun ?_
      rw [not_not.mp hlink, not_not.mp hrequest, not_not.mp htime, hstate]
      exact .repeats ..
  · exact .refused trivial

/-- A cancelled dispatch is a turn. -/
theorem turn_cancelRequestDispatch (link : LinkId) (request : RequestId) :
    Turn client
      (.cancelRequestDispatch link request,
        .controlled (client.cancelRequestDispatch link request).1)
      (client.cancelRequestDispatch link request).2 := by
  unfold cancelRequestDispatch
  split
  · next hstate =>
    split
    · exact .refused trivial
    · refine .moved rfl nofun ?_
      rw [hstate]
      exact .advances trivial rfl rfl
  · exact .refused trivial

/-- A failed preparation of a request is a turn. -/
theorem turn_requestPreparationFailed (link : LinkId) (failure : RequestFailure) :
    Turn client
      (.requestPreparationFailed link failure,
        .observed (client.requestPreparationFailed link failure).1)
      (client.requestPreparationFailed link failure).2 := by
  unfold requestPreparationFailed
  split
  · next hstate =>
    split_ifs
    · exact .refused trivial
    · refine .moved rfl nofun ?_
      rw [hstate]
      exact .fails trivial rfl trivial nofun
  · exact .refused trivial

/-- A failed dispatch is a turn. -/
theorem turn_requestDispatchFailed (link : LinkId) (request : RequestId)
    (failure : RequestFailure) :
    Turn client
      (.requestDispatchFailed link request failure,
        .observed (client.requestDispatchFailed link request failure).1)
      (client.requestDispatchFailed link request failure).2 := by
  unfold requestDispatchFailed
  split
  · next hstate =>
    split_ifs
    · exact .refused trivial
    · refine .moved rfl nofun ?_
      rw [hstate]
      exact .fails trivial rfl trivial nofun
  · exact .refused trivial

/-- A failed request is a turn. -/
theorem turn_requestFailed (link : LinkId) (request : RequestId) (failure : RequestFailure) :
    Turn client
      (.requestFailed link request failure, .observed (client.requestFailed link request failure).1)
      (client.requestFailed link request failure).2 := by
  unfold requestFailed
  split
  · next hstate =>
    split_ifs
    · exact .refused trivial
    · refine .moved rfl nofun ?_
      rw [hstate]
      exact .fails trivial rfl trivial nofun
  · exact .refused trivial

/-- An accepted page has the bytes of the body. -/
theorem bytes_of_fromUtf8 {body : List Nor.Byte} {page : Page}
    (h : Page.fromUtf8 body = .ok page) : page.bytes = body := by
  unfold Page.fromUtf8 at h
  split_ifs at h
  cases h
  rfl

/-- A refused body fails the fetch without a destination. -/
theorem failure_of_fromUtf8 {body : List Nor.Byte} {failure : FetchFailure}
    (h : Page.fromUtf8 body = .error failure) :
    failure.Untimed ∧ failure.destination = none := by
  unfold Page.fromUtf8 at h
  split_ifs at h
  · cases h
    exact ⟨trivial, rfl⟩
  · cases h
    exact ⟨trivial, rfl⟩

/-- A response is a turn. -/
theorem turn_responseReceived (link : LinkId) (request : RequestId) (body : List Nor.Byte) :
    Turn client
      (.responseReceived link request body,
        .observed (client.responseReceived link request body).1)
      (client.responseReceived link request body).2 := by
  unfold responseReceived
  split
  · next hstate =>
    split_ifs with hother
    · exact .refused trivial
    · have hsame := not_or.mp hother
      split
      · next page hpage =>
        refine .moved rfl nofun ?_
        rw [hstate, ← not_not.mp hsame.1, ← not_not.mp hsame.2, ← bytes_of_fromUtf8 hpage]
        exact .answers ..
      · next failure hfailure =>
        obtain ⟨huntimed, hdestination⟩ := failure_of_fromUtf8 hfailure
        refine .moved rfl nofun ?_
        rw [hstate, ← not_not.mp hsame.1, ← not_not.mp hsame.2]
        exact .garbles _ _ _ _ _ _ _ huntimed hdestination
  · exact .refused trivial

/-- A confirmed timeout is a turn. -/
theorem turn_confirmRequestTimeout (candidate : RequestTimeoutCandidate) :
    Turn client
      (.confirmRequestTimeout candidate, .controlled (client.confirmRequestTimeout candidate).1)
      (client.confirmRequestTimeout candidate).2 := by
  unfold confirmRequestTimeout
  split
  · next hstate =>
    split_ifs with hlink hrequest htime hdeadline
    · exact .refused trivial
    · exact .refused trivial
    · exact .refused trivial
    · exact .refused trivial
    · refine .moved rfl nofun ?_
      rw [hstate]
      cases candidate
      cases not_not.mp hlink
      cases not_not.mp hrequest
      cases not_not.mp htime
      cases not_not.mp hdeadline
      exact .expires ..
  · exact .refused trivial

/-- A page that is ready is taken once. -/
theorem takeOutcome_ready {page : Page} (h : client.state = .ready page) :
    client.takeOutcome = (some (.ready page), { client with state := .idle }) := by
  unfold takeOutcome
  rw [h]

/-- The failure of a fetch is taken once. -/
theorem takeOutcome_failed {failure : FetchFailure} (h : client.state = .failed failure) :
    client.takeOutcome = (some (.failed failure), { client with state := .idle }) := by
  unfold takeOutcome
  rw [h]

/-- A fetch that has not ended has no outcome to take. -/
theorem takeOutcome_none (h : client.state.outcome = none) :
    client.takeOutcome = (none, client) := by
  unfold takeOutcome
  split
  · next page hready =>
    rw [hready] at h
    cases h
  · next failure hfailed =>
    rw [hfailed] at h
    cases h
  · rfl

/-- An outcome that is taken is a turn. -/
theorem turn_takeOutcome :
    Turn client
      (.takeOutcome, .taken client.takeOutcome.1) client.takeOutcome.2 := by
  unfold takeOutcome
  split
  · next hstate => exact .moved rfl nofun (.ends (by rw [hstate]; rfl))
  · next hstate => exact .moved rfl nofun (.ends (by rw [hstate]; rfl))
  · exact .refused trivial

/-- A seeded link is a turn. -/
theorem turn_seedCachedLink (link : CachedLink) :
    Turn client
      (.seedCachedLink link, .started (client.seedCachedLink link).1)
      (client.seedCachedLink link).2 := by
  unfold seedCachedLink
  split
  · exact .moved rfl nofun (.stays trivial)
  · exact .refused trivial

end NomadClient

/-- Every operation moves the fetch in one of the ways listed. -/
theorem Operation.turn (client : NomadClient) (operation : Operation) :
    Turn client (operation, (operation.apply client).1)
      (operation.apply client).2 := by
  cases operation with
  | seedCachedLink link => exact client.turn_seedCachedLink link
  | start destination path => exact client.turn_start destination path
  | confirmPathRequest destination => exact client.turn_confirmPathRequest destination
  | cancelPathRequest destination => exact client.turn_cancelPathRequest destination
  | pathAvailable destination => exact client.turn_pathAvailable destination
  | pathUnavailable destination => exact client.turn_pathUnavailable destination
  | confirmLinkRequest destination link => exact client.turn_confirmLinkRequest destination link
  | cancelLinkRequest destination link => exact client.turn_cancelLinkRequest destination link
  | linkEstablished destination link => exact client.turn_linkEstablished destination link
  | linkPreparationFailed destination failure =>
    exact client.turn_linkPreparationFailed destination failure
  | linkFailed destination link failure => exact client.turn_linkFailed destination link failure
  | linkClosed link code => exact client.turn_linkClosed link code
  | requestLinkUnavailable link code => exact client.turn_requestLinkUnavailable link code
  | requestPrepared link request => exact client.turn_requestPrepared link request
  | confirmRequestDispatch link request dispatchedAt =>
    exact client.turn_confirmRequestDispatch link request dispatchedAt
  | cancelRequestDispatch link request => exact client.turn_cancelRequestDispatch link request
  | requestPreparationFailed link failure =>
    exact client.turn_requestPreparationFailed link failure
  | requestDispatchFailed link request failure =>
    exact client.turn_requestDispatchFailed link request failure
  | requestFailed link request failure => exact client.turn_requestFailed link request failure
  | responseReceived link request body => exact client.turn_responseReceived link request body
  | confirmRequestTimeout candidate => exact client.turn_confirmRequestTimeout candidate
  | takeOutcome => exact client.turn_takeOutcome

end Nomad
