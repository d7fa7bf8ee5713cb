import ReticulumFirmware.Nomad.Moves

/-!
# Correlation of a page fetch

What a history says about the fetch under way (its start, its last confirmed dispatch, the
answer it accepted) follows from the moves of the fetch by induction over the run.
-/

namespace Nomad

/-- The event began a fetch. -/
def startsFetch : Event → Bool
  | (.start .., .started (.ok _)) => true
  | _ => false

/-- The event took the outcome of a fetch. -/
def takesOutcome : Event → Bool
  | (.takeOutcome, .taken (some _)) => true
  | _ => false

/-- The event confirmed a dispatch. -/
inductive Dispatches (link : LinkId) (request : RequestId) (dispatchedAt : MonotonicMillis) :
    Event → Prop
  | confirmed : Dispatches link request dispatchedAt
      (.confirmRequestDispatch link request dispatchedAt, .controlled (.ok ()))

/-- The event confirmed some dispatch. -/
def IsDispatch (event : Event) : Prop :=
  ∃ link request dispatchedAt, Dispatches link request dispatchedAt event

/-- The last dispatch that the events confirmed. -/
def LastDispatch (events : List Event) (link : LinkId) (request : RequestId)
    (dispatchedAt : MonotonicMillis) : Prop :=
  events.Since (Dispatches link request dispatchedAt) IsDispatch

/-- The history ends with a fetch whose outcome is not taken, and with its events. -/
def UnderWay (history : List Event) (destination : DestinationHash) (path : PagePath)
    (events : List Event) : Prop :=
  ∃ before, history = before ++ (.start destination path, .started (.ok ())) :: events ∧
    ∀ event ∈ events, startsFetch event = false ∧ takesOutcome event = false

/-- How many fetches were started. -/
def starts (history : List Event) : ℕ := history.countP startsFetch

/-- How many outcomes were taken. -/
def outcomes (history : List Event) : ℕ := history.countP takesOutcome

/-- Each fetch ends with one outcome before the next one starts. -/
def Alternates (history : List Event) : Prop :=
  ∀ before, before <+: history → outcomes before ≤ starts before ∧
    starts before ≤ outcomes before + 1

section Quiet

variable {event : Event}

/-- A quiet event is no start. -/
theorem Quiet.startsFetch (h : Quiet event) : startsFetch event = false := by
  unfold Nomad.startsFetch
  split
  · exact h.elim
  · rfl

/-- A quiet event takes no outcome. -/
theorem Quiet.takesOutcome (h : Quiet event) : takesOutcome event = false := by
  unfold Nomad.takesOutcome
  split
  · exact h.elim
  · rfl

/-- A quiet event is no dispatch. -/
theorem Quiet.not_dispatch (h : Quiet event) : ¬ IsDispatch event := by
  rintro ⟨link, request, dispatchedAt, ⟨⟩⟩
  exact h

end Quiet

variable {timeoutMs : UInt64} {destination : DestinationHash} {path : PagePath}
  {history events : List Event} {event : Event} {state later : FetchState}

/-- After its start a fetch is under way. -/
theorem UnderWay.begin (history : List Event) (destination : DestinationHash) (path : PagePath) :
    UnderWay (history ++ [(.start destination path, .started (.ok ()))]) destination path [] :=
  ⟨history, rfl, by simp⟩

/-- A fetch stays under way through events that neither start nor take one. -/
theorem UnderWay.snoc (h : UnderWay history destination path events)
    (hstart : startsFetch event = false) (houtcome : takesOutcome event = false) :
    UnderWay (history ++ [event]) destination path (events ++ [event]) := by
  obtain ⟨before, rfl, hevents⟩ := h
  refine ⟨before, by simp, ?_⟩
  intro event' hmem
  rcases List.mem_append.mp hmem with hold | hnew
  · exact hevents event' hold
  · rw [List.mem_singleton.mp hnew]
    exact ⟨hstart, houtcome⟩

/-- What the events of a fetch say about its state. -/
inductive Tracks (timeoutMs : UInt64) (destination : DestinationHash) (path : PagePath)
    (events : List Event) : FetchState → Prop
  | unsent {state : FetchState} (h : state.unsent = some (destination, path)) :
      Tracks timeoutMs destination path events state
  | waiting {link : LinkId} {request : RequestId} {dispatchedAt : MonotonicMillis}
      (h : LastDispatch events link request dispatchedAt) :
      Tracks timeoutMs destination path events
        (.waitingResponse destination path link request dispatchedAt
          (NomadClient.saturatingAdd dispatchedAt timeoutMs))
  | ready {before after : List Event} {link : LinkId} {request : RequestId}
      {dispatchedAt : MonotonicMillis} {page : Page}
      (hevents : events =
        before ++ (.responseReceived link request page.bytes, .observed .applied) :: after)
      (hlast : LastDispatch before link request dispatchedAt)
      (hafter : ∀ event ∈ after, ¬ IsDispatch event) :
      Tracks timeoutMs destination path events (.ready page)
  | expired {link : LinkId} {request : RequestId} {dispatchedAt : MonotonicMillis}
      (hlast : LastDispatch events link request dispatchedAt)
      (hconfirmed : (.confirmRequestTimeout ⟨link, request, dispatchedAt,
        NomadClient.saturatingAdd dispatchedAt timeoutMs⟩, .controlled (.ok ())) ∈ events) :
      Tracks timeoutMs destination path events (.failed (.timeout link request dispatchedAt
        (NomadClient.saturatingAdd dispatchedAt timeoutMs)))
  | failed {failure : FetchFailure} (huntimed : failure.Untimed)
      (hdestination : ∀ named, failure.destination = some named → named = destination) :
      Tracks timeoutMs destination path events (.failed failure)

/-- A fetch that stays where it is while no dispatch is confirmed. -/
theorem Tracks.snoc (h : Tracks timeoutMs destination path events state)
    (hdispatch : ¬ IsDispatch event) :
    Tracks timeoutMs destination path (events ++ [event]) state := by
  cases h with
  | unsent h => exact .unsent h
  | waiting h => exact .waiting (h.snoc hdispatch)
  | @ready before after _ _ _ _ hevents hlast hafter =>
    refine @Tracks.ready _ _ _ _ before (after ++ [event]) _ _ _ _ (by simp [hevents]) hlast ?_
    intro event' hmem
    rcases List.mem_append.mp hmem with hold | hnew
    · exact hafter event' hold
    · rw [List.mem_singleton.mp hnew]
      exact hdispatch
  | expired hlast hconfirmed =>
    exact .expired (hlast.snoc hdispatch) (List.mem_append_left _ hconfirmed)
  | failed huntimed hdestination => exact .failed huntimed hdestination

/-- A fetch under way has the destination and path of its start. -/
theorem Tracks.target {target : DestinationHash × PagePath}
    (h : Tracks timeoutMs destination path events state) (htarget : state.target = some target) :
    target = (destination, path) := by
  cases h with
  | unsent h =>
    have hsame : state.target = state.unsent := by
      unfold FetchState.target
      split
      · cases h
      · rfl
    rw [hsame, h] at htarget
    exact (Option.some.inj htarget).symm
  | waiting h => exact (Option.some.inj htarget).symm
  | ready => cases htarget
  | expired => cases htarget
  | failed => cases htarget

/-- What a history says about the fetch slot. -/
inductive Tracked (timeoutMs : UInt64) (history : List Event) : FetchState → Prop
  | idle (hcount : starts history = outcomes history) : Tracked timeoutMs history .idle
  | busy {destination : DestinationHash} {path : PagePath} {events : List Event}
      {state : FetchState} (hunderWay : UnderWay history destination path events)
      (htracks : Tracks timeoutMs destination path events state)
      (hcount : starts history = outcomes history + 1) : Tracked timeoutMs history state

/-- The last event adds one start if it is one. -/
theorem starts_snoc (history : List Event) (event : Event) :
    starts (history ++ [event]) = starts history + if startsFetch event then 1 else 0 := by
  simp [starts, List.countP_append, List.countP_singleton]

/-- The last event adds one outcome if it takes one. -/
theorem outcomes_snoc (history : List Event) (event : Event) :
    outcomes (history ++ [event]) = outcomes history + if takesOutcome event then 1 else 0 := by
  simp [outcomes, List.countP_append, List.countP_singleton]

/-- The fetch goes on. -/
theorem Tracked.go_on (hunderWay : UnderWay history destination path events)
    (hcount : starts history = outcomes history + 1) (hstart : startsFetch event = false)
    (houtcome : takesOutcome event = false)
    (h : Tracks timeoutMs destination path (events ++ [event]) state) :
    Tracked timeoutMs (history ++ [event]) state := by
  refine .busy (hunderWay.snoc hstart houtcome) h ?_
  rw [starts_snoc, outcomes_snoc, hstart, houtcome]
  simpa using hcount

/-- A move keeps the history tracked by the state. -/
theorem Tracked.step (h : Tracked timeoutMs history state)
    (hmove : Move timeoutMs state event later) :
    Tracked timeoutMs (history ++ [event]) later := by
  cases h with
  | idle hcount =>
    cases hmove with
    | stays hquiet =>
      refine .idle ?_
      rw [starts_snoc, outcomes_snoc, hquiet.startsFetch, hquiet.takesOutcome]
      simpa using hcount
    | @starts destination path _ hunsent =>
      refine .busy (.begin history destination path) (.unsent hunsent) ?_
      rw [starts_snoc, outcomes_snoc]
      simp [startsFetch, takesOutcome, hcount]
    | advances _ hunsent => cases hunsent
    | fails _ htarget => cases htarget
    | ends houtcome => cases houtcome
  | @busy destination path events state hunderWay htracks hcount =>
    cases hmove with
    | stays hquiet =>
      exact .go_on hunderWay hcount hquiet.startsFetch hquiet.takesOutcome
        (htracks.snoc hquiet.not_dispatch)
    | starts hunsent =>
      cases htracks with
      | unsent h => cases h
    | advances hquiet hunsent hlater =>
      refine .go_on hunderWay hcount hquiet.startsFetch hquiet.takesOutcome ?_
      cases htracks with
      | unsent h => exact .unsent (hlater.trans h)
      | waiting => cases hunsent
      | ready => cases hunsent
      | expired => cases hunsent
      | failed => cases hunsent
    | dispatches prepared dispatchedAt =>
      refine .go_on hunderWay hcount rfl rfl ?_
      cases htracks.target rfl
      exact .waiting (List.since_start .confirmed)
    | repeats _ _ link request dispatchedAt deadline =>
      refine .go_on hunderWay hcount rfl rfl ?_
      cases htracks with
      | unsent h => cases h
      | waiting _ => exact .waiting (List.since_start .confirmed)
    | answers _ _ link request dispatchedAt deadline page =>
      refine .go_on hunderWay hcount rfl rfl ?_
      cases htracks with
      | unsent h => cases h
      | waiting hlast => exact .ready rfl hlast (by simp)
    | garbles _ _ _ _ _ _ _ huntimed hdestination =>
      refine .go_on hunderWay hcount rfl rfl (.failed huntimed ?_)
      rw [hdestination]
      exact nofun
    | expires _ _ link request dispatchedAt deadline =>
      refine .go_on hunderWay hcount rfl rfl ?_
      cases htracks with
      | unsent h => cases h
      | waiting hlast =>
        have hdispatch : ¬ IsDispatch (.confirmRequestTimeout ⟨link, request, dispatchedAt,
            NomadClient.saturatingAdd dispatchedAt timeoutMs⟩, .controlled (.ok ())) := nofun
        exact .expired (hlast.snoc hdispatch) (by simp)
    | fails hquiet htarget huntimed hdestination =>
      refine .go_on hunderWay hcount hquiet.startsFetch hquiet.takesOutcome (.failed huntimed ?_)
      cases htracks.target htarget
      exact hdestination
    | ends houtcome =>
      refine .idle ?_
      rw [starts_snoc, outcomes_snoc, hcount]
      simp [startsFetch, takesOutcome]

/-- Starts and outcomes still alternate after an event that keeps their counts so. -/
theorem Alternates.snoc (h : Alternates history)
    (hafter : outcomes (history ++ [event]) ≤ starts (history ++ [event]) ∧
      starts (history ++ [event]) ≤ outcomes (history ++ [event]) + 1) :
    Alternates (history ++ [event]) := by
  intro before hstart
  rcases List.prefix_concat_iff.mp hstart with rfl | hold
  · exact hafter
  · exact h before hold

/-- What a history says about the fetch slot bounds its outcomes. -/
theorem Tracked.balanced (h : Tracked timeoutMs history state) :
    outcomes history ≤ starts history ∧ starts history ≤ outcomes history + 1 := by
  cases h with
  | idle hcount => omega
  | busy _ _ hcount => omega

/-- The client's fetch is what its history says. -/
structure NomadClient.Correlated (client : NomadClient) (config : FetchConfig)
    (history : List Event) : Prop where
  configured : client.config = config
  tracked : Tracked config.requestTimeoutMs history client.state
  alternates : Alternates history

/-- Every operation keeps the client correlated. -/
theorem NomadClient.Correlated.step {client : NomadClient} {config : FetchConfig}
    (h : client.Correlated config history) (operation : Operation) :
    (operation.apply client).2.Correlated config
      (history ++ [(operation, (operation.apply client).1)]) := by
  have hturn := operation.turn client
  have hmove := hturn.moves
  rw [h.configured] at hmove
  have htracked := h.tracked.step hmove
  exact
    { configured := hturn.config.trans h.configured
      tracked := htracked
      alternates := h.alternates.snoc htracked.balanced }

/-- Every run keeps the client correlated. -/
theorem NomadClient.Correlated.run {client : NomadClient} {config : FetchConfig}
    (h : client.Correlated config history) (operations : List Operation) :
    (client.run history operations).2.Correlated config (client.run history operations).1 := by
  induction operations generalizing client history with
  | nil => exact h
  | cons operation operations ih => exact ih (h.step operation)

/-- A history lists the operations that were performed. -/
theorem NomadClient.map_fst_run (client : NomadClient) (history : List Event)
    (operations : List Operation) :
    (client.run history operations).1.map Prod.fst = history.map Prod.fst ++ operations := by
  induction operations generalizing client history with
  | nil => simp [run]
  | cons operation operations ih => simp [run, ih]

/-- Some client reported the candidate as due. -/
def RequestTimeoutCandidate.ObtainedAt (candidate : RequestTimeoutCandidate)
    (now : MonotonicMillis) : Prop :=
  ∃ config operations,
    ((NomadClient.new config).run [] operations).2.requestTimeoutCandidate now = some candidate

/-- A candidate is reported no earlier than its deadline. -/
theorem RequestTimeoutCandidate.ObtainedAt.due {candidate : RequestTimeoutCandidate}
    {now : MonotonicMillis} (h : candidate.ObtainedAt now) : candidate.deadline ≤ now := by
  obtain ⟨config, operations, hreported⟩ := h
  unfold NomadClient.requestTimeoutCandidate at hreported
  split at hreported
  · split_ifs at hreported with hdue
    cases hreported
    exact hdue
  · cases hreported

/-- A saturated sum is the sum or the largest number. -/
theorem NomadClient.saturatingAdd_toNat (a b : UInt64) :
    (saturatingAdd a b).toNat = min (a.toNat + b.toNat) (2 ^ 64 - 1) := by
  unfold saturatingAdd
  split_ifs with hfits
  · rw [UInt64.toNat_add, Nat.mod_eq_of_lt hfits]
    omega
  · have hmax : (0xffffffffffffffff : UInt64).toNat = 2 ^ 64 - 1 := rfl
    rw [hmax]
    omega

/-- A closed link on which no fetch depends only leaves the cache. -/
theorem NomadClient.linkClosed_of_independent (client : NomadClient) {link : LinkId}
    {code : UInt16} (h : dependsOn client.state link = none) :
    (client.linkClosed link code).2 = client ∨
      (client.linkClosed link code).1 = .applied ∧
        (client.linkClosed link code).2 = { client with cachedLink := none } ∧
        ∃ cached, client.cachedLink = some cached ∧ cached.link = link := by
  unfold linkClosed
  rw [h]
  by_cases hcached : client.cachedLink.any (·.link = link) = true
  · have hmatches : ∃ cached, client.cachedLink = some cached ∧ cached.link = link := by
      simpa [Option.any_eq_true] using hcached
    simp only [hcached, if_true]
    exact Or.inr ⟨trivial, trivial, hmatches⟩
  · simp only [hcached]
    exact Or.inl rfl

/-- What a client does with its fetch after a history. -/
structure FetchLaw (config : FetchConfig) (history : List Event) (client : NomadClient) :
    Prop where
  unchanged : ∀ operation : Operation, (operation.apply client).1.Refused →
    (operation.apply client).2 = client
  linkClosed : ∀ link code, NomadClient.dependsOn client.state link = none →
    (client.linkClosed link code).2 = client ∨
      (client.linkClosed link code).1 = .applied ∧
        (client.linkClosed link code).2 = { client with cachedLink := none } ∧
        ∃ cached, client.cachedLink = some cached ∧ cached.link = link
  target : ∀ destination path, client.state.target = some (destination, path) →
    ∃ events, UnderWay history destination path events
  failedDestination : ∀ failure named, client.state = .failed failure →
    failure.destination = some named → ∃ path events, UnderWay history named path events
  ready : ∀ page, client.state = .ready page →
    ∃ destination path before link request dispatchedAt after,
      UnderWay history destination path
        (before ++ (.responseReceived link request page.bytes, .observed .applied) :: after) ∧
      LastDispatch before link request dispatchedAt ∧ ∀ event ∈ after, ¬ IsDispatch event
  timedOut : ∀ link request dispatchedAt deadline,
    client.state = .failed (.timeout link request dispatchedAt deadline) →
    ∃ destination path events now,
      UnderWay history destination path events ∧
      LastDispatch events link request dispatchedAt ∧
      (.confirmRequestTimeout ⟨link, request, dispatchedAt, deadline⟩, .controlled (.ok ()))
        ∈ events ∧
      RequestTimeoutCandidate.ObtainedAt ⟨link, request, dispatchedAt, deadline⟩ now ∧
      min (dispatchedAt.toNat + config.requestTimeoutMs.toNat) (2 ^ 64 - 1) ≤ now.toNat
  takenPage : ∀ page, client.state = .ready page →
    client.takeOutcome = (some (.ready page), { client with state := .idle })
  takenFailure : ∀ failure, client.state = .failed failure →
    client.takeOutcome = (some (.failed failure), { client with state := .idle })
  takenNothing : client.state.outcome = none → client.takeOutcome = (none, client)
  alternates : Alternates history
  open_iff : starts history = outcomes history ↔ client.state = .idle

/-- In every run the client correlates what it is told with the fetch under way: refusals change
nothing, an outcome has the destination, dispatch and body of its own fetch, a timeout needs a
due candidate, the outcome handed out is the one of the fetch and frees its slot, and starts and
outcomes alternate. -/
theorem fetches_are_correlated (config : FetchConfig) (operations : List Operation)
    (hobtained : ∀ candidate, .confirmRequestTimeout candidate ∈ operations →
      ∃ now, candidate.ObtainedAt now) :
    FetchLaw config ((NomadClient.new config).run [] operations).1
      ((NomadClient.new config).run [] operations).2 := by
  have hnew : (NomadClient.new config).Correlated config [] :=
    ⟨rfl, .idle rfl, by rintro before hstart; rw [List.prefix_nil.mp hstart]; decide⟩
  have hrun := hnew.run operations
  have hperformed := (NomadClient.new config).map_fst_run [] operations
  generalize (NomadClient.new config).run [] operations = result at hrun hperformed
  obtain ⟨history, client⟩ := result
  change client.Correlated config history at hrun
  refine
    { unchanged := fun operation => (operation.turn client).unchanged
      linkClosed := fun link code => client.linkClosed_of_independent
      target := ?_
      failedDestination := ?_
      ready := ?_
      timedOut := ?_
      takenPage := fun page => client.takeOutcome_ready
      takenFailure := fun failure => client.takeOutcome_failed
      takenNothing := client.takeOutcome_none
      alternates := hrun.alternates
      open_iff := ?_ }
  · intro destination path htarget
    have htracked := hrun.tracked
    generalize client.state = state at htarget htracked
    cases htracked with
    | idle => cases htarget
    | busy hunderWay htracks _ =>
      cases htracks.target htarget
      exact ⟨_, hunderWay⟩
  · intro failure named hstate hnamed
    have htracked := hrun.tracked
    rw [hstate] at htracked
    cases htracked with
    | busy hunderWay htracks _ =>
      cases htracks with
      | unsent h => cases h
      | expired => cases hnamed
      | failed _ hdestination =>
        rw [hdestination named hnamed]
        exact ⟨_, _, hunderWay⟩
  · intro page hstate
    have htracked := hrun.tracked
    rw [hstate] at htracked
    cases htracked with
    | busy hunderWay htracks _ =>
      cases htracks with
      | unsent h => cases h
      | ready hevents hlast hafter =>
        rw [hevents] at hunderWay
        exact ⟨_, _, _, _, _, _, _, hunderWay, hlast, hafter⟩
  · intro link request dispatchedAt deadline hstate
    have htracked := hrun.tracked
    rw [hstate] at htracked
    cases htracked with
    | @busy destination path events _ hunderWay htracks _ =>
      cases htracks with
      | unsent h => cases h
      | failed huntimed _ => exact huntimed.elim
      | expired hlast hconfirmed =>
        have ⟨before, hhistory, _⟩ := hunderWay
        have hmem : .confirmRequestTimeout ⟨link, request, dispatchedAt,
            NomadClient.saturatingAdd dispatchedAt config.requestTimeoutMs⟩ ∈ operations := by
          have hlisted := List.mem_map_of_mem (f := Prod.fst) hconfirmed
          change history.map Prod.fst = operations at hperformed
          rw [← hperformed, hhistory, List.map_append, List.map_cons]
          exact List.mem_append_right _ (List.mem_cons_of_mem _ hlisted)
        obtain ⟨now, hnow⟩ := hobtained _ hmem
        have hdue := UInt64.le_iff_toNat_le.mp hnow.due
        rw [NomadClient.saturatingAdd_toNat] at hdue
        exact ⟨destination, path, events, now, hunderWay, hlast, hconfirmed, hnow, hdue⟩
  · have htracked := hrun.tracked
    generalize client.state = state at htracked
    cases htracked with
    | idle hcount => simp [hcount]
    | busy hunderWay htracks hcount =>
      constructor
      · intro h
        change starts history = outcomes history at h
        omega
      · intro hidle
        rw [hidle] at htracks
        cases htracks with
        | unsent h => cases h

/-- The page at the root. -/
def rootPage : PagePath := ⟨"/", rfl, by decide, by decide⟩

/-- A second for every answer. -/
def shortConfig : FetchConfig := ⟨1000, by decide⟩

/-- A fetch whose request was dispatched. -/
def sentFetch : List Operation :=
  let destination := Vector.replicate 16 1
  let link := Vector.replicate 16 2
  let request := Vector.replicate 16 3
  [.start destination rootPage, .confirmPathRequest destination, .pathAvailable destination,
    .confirmLinkRequest destination link, .linkEstablished destination link,
    .requestPrepared link request, .confirmRequestDispatch link request 5]

/-- The candidate of that request. -/
def sentCandidate : RequestTimeoutCandidate :=
  ⟨Vector.replicate 16 2, Vector.replicate 16 3, 5, 1005⟩

/-- The law for a fetch that expired. -/
theorem expired_fetch_is_correlated :
    FetchLaw shortConfig
      ((NomadClient.new shortConfig).run [] (sentFetch ++ [.confirmRequestTimeout sentCandidate])).1
      ((NomadClient.new shortConfig).run []
        (sentFetch ++ [.confirmRequestTimeout sentCandidate])).2 := by
  apply fetches_are_correlated
  intro candidate hmem
  have hcandidate : candidate = sentCandidate := by
    simpa [sentFetch] using hmem
  rw [hcandidate]
  exact ⟨1005, shortConfig, sentFetch, by decide +kernel⟩

end Nomad
