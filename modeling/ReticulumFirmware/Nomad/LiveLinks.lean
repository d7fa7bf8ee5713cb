import ReticulumFirmware.Collections.Since
import ReticulumFirmware.Nomad.Client

/-!
# Links of the page client

A history of operations with their replies says which links are alive: those seeded or
established, and not closed or found unavailable since. Every link that the client holds, in
its cache or for its request, is alive for the destination it is held for.
-/

namespace Nomad

/-- The mutating operations of the client. -/
inductive Operation where
  | seedCachedLink (link : CachedLink)
  | start (destination : DestinationHash) (path : PagePath)
  | confirmPathRequest (destination : DestinationHash)
  | cancelPathRequest (destination : DestinationHash)
  | pathAvailable (destination : DestinationHash)
  | pathUnavailable (destination : DestinationHash)
  | confirmLinkRequest (destination : DestinationHash) (link : LinkId)
  | cancelLinkRequest (destination : DestinationHash) (link : LinkId)
  | linkEstablished (destination : DestinationHash) (link : LinkId)
  | linkPreparationFailed (destination : DestinationHash) (failure : LinkFailure)
  | linkFailed (destination : DestinationHash) (link : LinkId) (failure : LinkFailure)
  | linkClosed (link : LinkId) (code : UInt16)
  | requestLinkUnavailable (link : LinkId) (code : UInt16)
  | requestPrepared (link : LinkId) (request : RequestId)
  | confirmRequestDispatch (link : LinkId) (request : RequestId) (dispatchedAt : MonotonicMillis)
  | cancelRequestDispatch (link : LinkId) (request : RequestId)
  | requestPreparationFailed (link : LinkId) (failure : RequestFailure)
  | requestDispatchFailed (link : LinkId) (request : RequestId) (failure : RequestFailure)
  | requestFailed (link : LinkId) (request : RequestId) (failure : RequestFailure)
  | responseReceived (link : LinkId) (request : RequestId) (responseBody : List Nor.Byte)
  | confirmRequestTimeout (candidate : RequestTimeoutCandidate)
  | takeOutcome

/-- What an operation returns. -/
inductive Reply where
  | started (result : Except StartError Unit)
  | controlled (result : Except ControlError Unit)
  | prepared (result : Except ControlError PreparedRequest)
  | observed (disposition : ObservationDisposition)
  | taken (outcome : Option FetchOutcome)

/-- Perform an operation. -/
def Operation.apply (client : NomadClient) : Operation → Reply × NomadClient
  | .seedCachedLink link => (client.seedCachedLink link).map .started id
  | .start destination path => (client.start destination path).map .started id
  | .confirmPathRequest destination => (client.confirmPathRequest destination).map .controlled id
  | .cancelPathRequest destination => (client.cancelPathRequest destination).map .controlled id
  | .pathAvailable destination => (client.pathAvailable destination).map .observed id
  | .pathUnavailable destination => (client.pathUnavailable destination).map .observed id
  | .confirmLinkRequest destination link =>
    (client.confirmLinkRequest destination link).map .controlled id
  | .cancelLinkRequest destination link =>
    (client.cancelLinkRequest destination link).map .controlled id
  | .linkEstablished destination link => (client.linkEstablished destination link).map .observed id
  | .linkPreparationFailed destination failure =>
    (client.linkPreparationFailed destination failure).map .observed id
  | .linkFailed destination link failure =>
    (client.linkFailed destination link failure).map .observed id
  | .linkClosed link code => (client.linkClosed link code).map .observed id
  | .requestLinkUnavailable link code =>
    (client.requestLinkUnavailable link code).map .observed id
  | .requestPrepared link request => (client.requestPrepared link request).map .prepared id
  | .confirmRequestDispatch link request dispatchedAt =>
    (client.confirmRequestDispatch link request dispatchedAt).map .controlled id
  | .cancelRequestDispatch link request =>
    (client.cancelRequestDispatch link request).map .controlled id
  | .requestPreparationFailed link failure =>
    (client.requestPreparationFailed link failure).map .observed id
  | .requestDispatchFailed link request failure =>
    (client.requestDispatchFailed link request failure).map .observed id
  | .requestFailed link request failure =>
    (client.requestFailed link request failure).map .observed id
  | .responseReceived link request responseBody =>
    (client.responseReceived link request responseBody).map .observed id
  | .confirmRequestTimeout candidate => (client.confirmRequestTimeout candidate).map .controlled id
  | .takeOutcome => client.takeOutcome.map .taken id

/-- An operation with what it returned. -/
abbrev Event := Operation × Reply

/-- The events of a run of operations, and the client after it. -/
def NomadClient.run (client : NomadClient) (history : List Event) :
    List Operation → List Event × NomadClient
  | [] => (history, client)
  | operation :: operations =>
    (operation.apply client).2.run (history ++ [(operation, (operation.apply client).1)]) operations

/-- The link was seeded or reported established for the destination. -/
inductive Opens (cached : CachedLink) : Event → Prop
  | seeded : Opens cached (.seedCachedLink cached, .started (.ok ()))
  | established : Opens cached
      (.linkEstablished cached.destination cached.link, .observed .applied)

/-- The link closed, or was found unavailable. -/
inductive Closes (link : LinkId) : Event → Prop
  | closed (code : UInt16) (reply : Reply) : Closes link (.linkClosed link code, reply)
  | unavailable (code : UInt16) :
      Closes link (.requestLinkUnavailable link code, .observed .applied)

/-- The link is alive for the destination. -/
def Live (history : List Event) (cached : CachedLink) : Prop :=
  history.Since (Opens cached) (Closes cached.link)

/-- The link of the request that is to be prepared or is under way. -/
def FetchState.linkInUse : FetchState → Option CachedLink
  | .needRequest destination _ link => some ⟨destination, link⟩
  | .prepared request => some ⟨request.destination, request.link⟩
  | .waitingResponse destination _ link _ _ _ => some ⟨destination, link⟩
  | _ => none

/-- The client holds a link in its cache or for its request. -/
def NomadClient.Holds (client : NomadClient) (cached : CachedLink) : Prop :=
  client.cachedLink = some cached ∨ client.state.linkInUse = some cached

/-- The later client holds no new links. -/
def NomadClient.Keeps (client later : NomadClient) : Prop :=
  ∀ cached, later.Holds cached → client.Holds cached

namespace NomadClient

variable {client : NomadClient}

/-- A client that is left alone has no new link. -/
theorem Keeps.refl (client : NomadClient) : client.Keeps client := fun _ h => h

/-- The fetch goes on without a link. -/
theorem Keeps.unlinked {state : FetchState} (h : state.linkInUse = none) :
    client.Keeps { client with state } := by
  rintro cached (hcached | hused)
  · exact Or.inl hcached
  · change state.linkInUse = some cached at hused
    rw [h] at hused
    cases hused

/-- The fetch goes on with a link that the client holds. -/
theorem Keeps.linked {state : FetchState} {cached : CachedLink} (hheld : client.Holds cached)
    (h : state.linkInUse = some cached) : client.Keeps { client with state } := by
  rintro cached' (hcached | hused)
  · exact Or.inl hcached
  · change state.linkInUse = some cached' at hused
    rw [h] at hused
    cases hused
    exact hheld

variable (client)

/-- A start brings no new link. -/
theorem keeps_start (destination : DestinationHash) (path : PagePath) :
    client.Keeps (client.start destination path).2 := by
  unfold start
  split
  · split
    · next cached hcached =>
      split_ifs with hdestination
      · exact .linked (Or.inl hcached) (by rw [← hdestination]; rfl)
      · exact .unlinked rfl
    · exact .unlinked rfl
  · exact .refl client

/-- A confirmed path request brings no new link. -/
theorem keeps_confirmPathRequest (destination : DestinationHash) :
    client.Keeps (client.confirmPathRequest destination).2 := by
  unfold confirmPathRequest
  split
  · split_ifs
    · exact .refl client
    · exact .unlinked rfl
  · split_ifs <;> exact .refl client
  · exact .refl client

/-- A cancelled path request brings no new link. -/
theorem keeps_cancelPathRequest (destination : DestinationHash) :
    client.Keeps (client.cancelPathRequest destination).2 := by
  unfold cancelPathRequest
  split
  · split_ifs
    · exact .refl client
    · exact .unlinked rfl
  · exact .refl client

/-- A path that is available brings no new link. -/
theorem keeps_pathAvailable (destination : DestinationHash) :
    client.Keeps (client.pathAvailable destination).2 := by
  unfold pathAvailable
  split
  · split_ifs
    · exact .refl client
    · exact .unlinked rfl
  · exact .refl client

/-- A path that is not available brings no new link. -/
theorem keeps_pathUnavailable (destination : DestinationHash) :
    client.Keeps (client.pathUnavailable destination).2 := by
  unfold pathUnavailable
  split
  · split_ifs
    · exact .refl client
    · exact .unlinked rfl
  · exact .refl client

/-- A confirmed link request brings no new link. -/
theorem keeps_confirmLinkRequest (destination : DestinationHash) (link : LinkId) :
    client.Keeps (client.confirmLinkRequest destination link).2 := by
  unfold confirmLinkRequest
  split
  · split_ifs
    · exact .refl client
    · exact .unlinked rfl
  · split_ifs <;> exact .refl client
  · exact .refl client

/-- A cancelled link request brings no new link. -/
theorem keeps_cancelLinkRequest (destination : DestinationHash) (link : LinkId) :
    client.Keeps (client.cancelLinkRequest destination link).2 := by
  unfold cancelLinkRequest
  split
  · split_ifs
    · exact .refl client
    · exact .refl client
    · exact .unlinked rfl
  · exact .refl client

/-- A failed preparation of a link brings no new link. -/
theorem keeps_linkPreparationFailed (destination : DestinationHash) (failure : LinkFailure) :
    client.Keeps (client.linkPreparationFailed destination failure).2 := by
  unfold linkPreparationFailed
  split
  · split_ifs
    · exact .refl client
    · exact .unlinked rfl
  · exact .refl client

/-- A failed link brings no new link. -/
theorem keeps_linkFailed (destination : DestinationHash) (link : LinkId) (failure : LinkFailure) :
    client.Keeps (client.linkFailed destination link failure).2 := by
  unfold linkFailed
  split
  · split_ifs
    · exact .refl client
    · exact .unlinked rfl
  · exact .refl client

/-- A prepared request brings no new link. -/
theorem keeps_requestPrepared (link : LinkId) (request : RequestId) :
    client.Keeps (client.requestPrepared link request).2 := by
  unfold requestPrepared
  split
  · next destination path expected hstate =>
    split_ifs with hlink
    · exact .refl client
    · rw [not_not] at hlink
      exact .linked (Or.inr (by rw [hstate]; rfl)) (by rw [hlink]; rfl)
  · split_ifs <;> exact .refl client
  · exact .refl client

/-- A correlated request is on the link named. -/
theorem link_of_correlation {prepared : PreparedRequest} {link : LinkId} {request : RequestId}
    (h : ensureRequestCorrelation prepared link request = .ok ()) : link = prepared.link := by
  unfold ensureRequestCorrelation at h
  split_ifs at h with hlink
  exact not_not.mp hlink

/-- A confirmed dispatch brings no new link. -/
theorem keeps_confirmRequestDispatch (link : LinkId) (request : RequestId)
    (dispatchedAt : MonotonicMillis) :
    client.Keeps (client.confirmRequestDispatch link request dispatchedAt).2 := by
  unfold confirmRequestDispatch
  split
  · next prepared hstate =>
    split
    · exact .refl client
    · next hcorrelated =>
      exact .linked (Or.inr (by rw [hstate]; rfl)) (by rw [link_of_correlation hcorrelated]; rfl)
  · split_ifs <;> exact .refl client
  · exact .refl client

/-- A cancelled dispatch brings no new link. -/
theorem keeps_cancelRequestDispatch (link : LinkId) (request : RequestId) :
    client.Keeps (client.cancelRequestDispatch link request).2 := by
  unfold cancelRequestDispatch
  split
  · next prepared hstate =>
    split
    · exact .refl client
    · next hcorrelated =>
      exact .linked (Or.inr (by rw [hstate]; rfl)) (by rw [link_of_correlation hcorrelated]; rfl)
  · exact .refl client

/-- A failed preparation of a request brings no new link. -/
theorem keeps_requestPreparationFailed (link : LinkId) (failure : RequestFailure) :
    client.Keeps (client.requestPreparationFailed link failure).2 := by
  unfold requestPreparationFailed
  split
  · split_ifs
    · exact .refl client
    · exact .unlinked rfl
  · exact .refl client

/-- A failed dispatch brings no new link. -/
theorem keeps_requestDispatchFailed (link : LinkId) (request : RequestId)
    (failure : RequestFailure) :
    client.Keeps (client.requestDispatchFailed link request failure).2 := by
  unfold requestDispatchFailed
  split
  · split_ifs
    · exact .refl client
    · exact .unlinked rfl
  · exact .refl client

/-- A failed request brings no new link. -/
theorem keeps_requestFailed (link : LinkId) (request : RequestId) (failure : RequestFailure) :
    client.Keeps (client.requestFailed link request failure).2 := by
  unfold requestFailed
  split
  · split_ifs
    · exact .refl client
    · exact .unlinked rfl
  · exact .refl client

/-- A response brings no new link. -/
theorem keeps_responseReceived (link : LinkId) (request : RequestId)
    (responseBody : List Nor.Byte) :
    client.Keeps (client.responseReceived link request responseBody).2 := by
  unfold responseReceived
  split
  · split_ifs
    · exact .refl client
    · split
      · exact .unlinked rfl
      · exact .unlinked rfl
  · exact .refl client

/-- A confirmed timeout brings no new link. -/
theorem keeps_confirmRequestTimeout (candidate : RequestTimeoutCandidate) :
    client.Keeps (client.confirmRequestTimeout candidate).2 := by
  unfold confirmRequestTimeout
  split
  · split_ifs
    · exact .refl client
    · exact .refl client
    · exact .refl client
    · exact .refl client
    · exact .unlinked rfl
  · exact .refl client

/-- An outcome that is taken brings no new link. -/
theorem keeps_takeOutcome : client.Keeps client.takeOutcome.2 := by
  unfold takeOutcome
  split
  · exact .unlinked rfl
  · exact .unlinked rfl
  · exact .refl client

/-- The cache after a link was given up. -/
theorem cachedLink_given_up {link : LinkId} {cached : CachedLink}
    (h : (if client.cachedLink.any (·.link = link) then none else client.cachedLink) =
      some cached) :
    client.cachedLink = some cached ∧ cached.link ≠ link := by
  split_ifs at h with hany
  refine ⟨h, ?_⟩
  rw [h] at hany
  simpa using hany

/-- A fetch that does not depend on a link uses another. -/
theorem link_ne_of_dependsOn {state : FetchState} {link : LinkId} {cached : CachedLink}
    (h : dependsOn state link = none) (hused : state.linkInUse = some cached) :
    cached.link ≠ link := by
  unfold FetchState.linkInUse at hused
  split at hused
  all_goals
    first
    | cases hused
      unfold dependsOn at h
      simpa using h
    | cases hused

/-- A held link was seeded, or was held before. -/
theorem holds_seedCachedLink (link : CachedLink) {cached : CachedLink}
    (h : (client.seedCachedLink link).2.Holds cached) :
    Opens cached (.seedCachedLink link, .started (client.seedCachedLink link).1) ∨
      client.Holds cached ∧ ¬ Closes cached.link
        (.seedCachedLink link, .started (client.seedCachedLink link).1) := by
  unfold seedCachedLink at h ⊢
  split at h
  · rcases h with hcached | hused
    · cases hcached
      exact Or.inl .seeded
    · exact Or.inr ⟨Or.inr hused, nofun⟩
  · exact Or.inr ⟨h, nofun⟩

/-- A held link was established, or was held before. -/
theorem holds_linkEstablished (destination : DestinationHash) (link : LinkId)
    {cached : CachedLink} (h : (client.linkEstablished destination link).2.Holds cached) :
    Opens cached (.linkEstablished destination link,
        .observed (client.linkEstablished destination link).1) ∨
      client.Holds cached ∧ ¬ Closes cached.link (.linkEstablished destination link,
        .observed (client.linkEstablished destination link).1) := by
  unfold linkEstablished at h ⊢
  split at h
  · split_ifs at h ⊢
    · exact Or.inr ⟨h, nofun⟩
    · exact Or.inr ⟨h, nofun⟩
    · have hcached : cached = ⟨destination, link⟩ := by
        rcases h with hcached | hused
        · exact (Option.some.inj hcached).symm
        · exact (Option.some.inj hused).symm
      rw [hcached]
      exact Or.inl .established
  · exact Or.inr ⟨h, nofun⟩

/-- A held link was held before and is not the closed one. -/
theorem holds_linkClosed (link : LinkId) (code : UInt16) {cached : CachedLink}
    (h : (client.linkClosed link code).2.Holds cached) :
    client.Holds cached ∧ ¬ Closes cached.link (.linkClosed link code,
      .observed (client.linkClosed link code).1) := by
  suffices hother : client.Holds cached ∧ cached.link ≠ link by
    refine ⟨hother.1, ?_⟩
    rintro ⟨⟩
    exact hother.2 rfl
  unfold linkClosed at h
  dsimp only at h
  split at h
  · rcases h with hcached | hused
    · obtain ⟨hold, hne⟩ := client.cachedLink_given_up hcached
      exact ⟨Or.inl hold, hne⟩
    · cases hused
  · next hdepends =>
    rcases h with hcached | hused
    · obtain ⟨hold, hne⟩ := client.cachedLink_given_up hcached
      exact ⟨Or.inl hold, hne⟩
    · exact ⟨Or.inr hused, link_ne_of_dependsOn hdepends hused⟩

/-- A held link was held before and is not the unavailable one. -/
theorem holds_requestLinkUnavailable (link : LinkId) (code : UInt16) {cached : CachedLink}
    (h : (client.requestLinkUnavailable link code).2.Holds cached) :
    client.Holds cached ∧ ¬ Closes cached.link (.requestLinkUnavailable link code,
      .observed (client.requestLinkUnavailable link code).1) := by
  unfold requestLinkUnavailable at h ⊢
  split at h
  · next destination path expected hstate =>
    by_cases hlink : link ≠ expected
    · rw [if_pos hlink] at h ⊢
      exact ⟨h, nofun⟩
    · rw [if_neg hlink] at h ⊢
      rcases h with hcached | hused
      · obtain ⟨hold, hne⟩ := client.cachedLink_given_up hcached
        refine ⟨Or.inl hold, ?_⟩
        rintro ⟨⟩
        exact hne rfl
      · cases hused
  · exact ⟨h, nofun⟩

end NomadClient

/-- A link that is held after an operation was just opened, or was held and not closed. -/
theorem Operation.holds (client : NomadClient) (operation : Operation) {cached : CachedLink}
    (h : (operation.apply client).2.Holds cached) :
    Opens cached (operation, (operation.apply client).1) ∨
      client.Holds cached ∧ ¬ Closes cached.link (operation, (operation.apply client).1) := by
  cases operation with
  | seedCachedLink link => exact client.holds_seedCachedLink link h
  | linkEstablished destination link => exact client.holds_linkEstablished destination link h
  | linkClosed link code => exact Or.inr (client.holds_linkClosed link code h)
  | requestLinkUnavailable link code =>
    exact Or.inr (client.holds_requestLinkUnavailable link code h)
  | start destination path => exact Or.inr ⟨client.keeps_start _ _ cached h, nofun⟩
  | confirmPathRequest destination =>
    exact Or.inr ⟨client.keeps_confirmPathRequest _ cached h, nofun⟩
  | cancelPathRequest destination =>
    exact Or.inr ⟨client.keeps_cancelPathRequest _ cached h, nofun⟩
  | pathAvailable destination => exact Or.inr ⟨client.keeps_pathAvailable _ cached h, nofun⟩
  | pathUnavailable destination => exact Or.inr ⟨client.keeps_pathUnavailable _ cached h, nofun⟩
  | confirmLinkRequest destination link =>
    exact Or.inr ⟨client.keeps_confirmLinkRequest _ _ cached h, nofun⟩
  | cancelLinkRequest destination link =>
    exact Or.inr ⟨client.keeps_cancelLinkRequest _ _ cached h, nofun⟩
  | linkPreparationFailed destination failure =>
    exact Or.inr ⟨client.keeps_linkPreparationFailed _ _ cached h, nofun⟩
  | linkFailed destination link failure =>
    exact Or.inr ⟨client.keeps_linkFailed _ _ _ cached h, nofun⟩
  | requestPrepared link request =>
    exact Or.inr ⟨client.keeps_requestPrepared _ _ cached h, nofun⟩
  | confirmRequestDispatch link request dispatchedAt =>
    exact Or.inr ⟨client.keeps_confirmRequestDispatch _ _ _ cached h, nofun⟩
  | cancelRequestDispatch link request =>
    exact Or.inr ⟨client.keeps_cancelRequestDispatch _ _ cached h, nofun⟩
  | requestPreparationFailed link failure =>
    exact Or.inr ⟨client.keeps_requestPreparationFailed _ _ cached h, nofun⟩
  | requestDispatchFailed link request failure =>
    exact Or.inr ⟨client.keeps_requestDispatchFailed _ _ _ cached h, nofun⟩
  | requestFailed link request failure =>
    exact Or.inr ⟨client.keeps_requestFailed _ _ _ cached h, nofun⟩
  | responseReceived link request responseBody =>
    exact Or.inr ⟨client.keeps_responseReceived _ _ _ cached h, nofun⟩
  | confirmRequestTimeout candidate =>
    exact Or.inr ⟨client.keeps_confirmRequestTimeout _ cached h, nofun⟩
  | takeOutcome => exact Or.inr ⟨client.keeps_takeOutcome cached h, nofun⟩

/-- Every link that the client holds is alive. -/
def NomadClient.Sound (client : NomadClient) (history : List Event) : Prop :=
  ∀ cached, client.Holds cached → Live history cached

/-- Every operation keeps the links sound. -/
theorem NomadClient.Sound.step {client : NomadClient} {history : List Event}
    (h : client.Sound history) (operation : Operation) :
    (operation.apply client).2.Sound (history ++ [(operation, (operation.apply client).1)]) := by
  intro cached hheld
  rcases operation.holds client hheld with hopens | ⟨hold, hcloses⟩
  · exact List.since_start hopens
  · exact (h cached hold).snoc hcloses

/-- Every run keeps the links sound. -/
theorem NomadClient.Sound.run {client : NomadClient} {history : List Event}
    (h : client.Sound history) (operations : List Operation) :
    (client.run history operations).2.Sound (client.run history operations).1 := by
  induction operations generalizing client history with
  | nil => exact h
  | cons operation operations ih => exact ih (h.step operation)

/-- What a client does with links after a history. -/
structure LinkLaw (history : List Event) (client : NomadClient) : Prop where
  action : ∀ destination link path,
    client.action = some (.prepareAnonymousRequest destination link path) →
    Live history ⟨destination, link⟩
  prepared : ∀ request, client.state = .prepared request →
    Live history ⟨request.destination, request.link⟩
  waiting : ∀ destination path link request dispatchedAt deadline,
    client.state = .waitingResponse destination path link request dispatchedAt deadline →
    Live history ⟨destination, link⟩
  cached : ∀ cached, client.cachedLink = some cached → Live history cached

/-- In every run the client uses and caches only links that were seeded or established for the
destination and neither closed nor found unavailable since. -/
theorem links_are_live (config : FetchConfig) (operations : List Operation) :
    LinkLaw ((NomadClient.new config).run [] operations).1
      ((NomadClient.new config).run [] operations).2 := by
  have hnew : (NomadClient.new config).Sound [] := by
    rintro cached (hcached | hused)
    · cases hcached
    · cases hused
  have hsound := hnew.run operations
  refine ⟨?_, ?_, ?_, ?_⟩
  · intro destination link path haction
    apply hsound
    unfold NomadClient.action at haction
    split at haction
    · cases haction
    · cases haction
    · next hstate =>
      cases haction
      exact Or.inr (by rw [hstate]; rfl)
    · cases haction
  · intro request hstate
    exact hsound _ (Or.inr (by rw [hstate]; rfl))
  · intro destination path link request dispatchedAt deadline hstate
    exact hsound _ (Or.inr (by rw [hstate]; rfl))
  · exact fun cached hcached => hsound cached (Or.inl hcached)

end Nomad
