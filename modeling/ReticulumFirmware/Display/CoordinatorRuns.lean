import ReticulumFirmware.Display.Coordinator

/-!
# Runs of the display coordinator

What the coordinator keeps is told by what it has published: the view that it wants is that of
the last command, and a Home view that looks different from the retained one has a deadline.
-/

namespace Display

variable {Label : Type}

section Published

/-- A Home view that was published, with its time. -/
structure Publication (Label : Type) where
  snapshot : DisplayHomeSnapshot Label
  atMs : ℕ

/-- What an event says about the Home view that was published last. -/
def Event.lastHome (last : Option (Publication Label)) (event : Event Label) :
    Option (Publication Label) :=
  match event.output with
  | .publish (.showHome snapshot) => some ⟨snapshot, event.atMs⟩
  | _ => last

/-- What an event says about the view that is shown. -/
def Event.view (view : VisiblePresentation Label) (event : Event Label) :
    VisiblePresentation Label :=
  match event.output with
  | .publish (.showHome _) => .home
  | .publish (.showBooting label) => .booting label
  | _ => view

/-- The last Home view that the events publish. -/
def lastHome (events : List (Event Label)) : Option (Publication Label) :=
  events.foldl Event.lastHome none

/-- The view that the last command of the events asks for. -/
def desiredView (events : List (Event Label)) : VisiblePresentation Label :=
  events.foldl Event.view .none

/-- Whether an answer publishes nothing. -/
def DisplayCoordinatorOutput.Quiet : DisplayCoordinatorOutput Label → Prop
  | .publish _ => False
  | .deferred _ | .unchanged => True

variable {events : List (Event Label)}

/-- The last event decides which home snapshot is the last one. -/
theorem lastHome_concat (event : Event Label) :
    lastHome (events ++ [event]) = event.lastHome (lastHome events) :=
  List.foldl_append ..

/-- The last event decides which view is desired. -/
theorem desiredView_concat (event : Event Label) :
    desiredView (events ++ [event]) = event.view (desiredView events) :=
  List.foldl_append ..

/-- An output without a command leaves the last home snapshot. -/
theorem lastHome_concat_quiet {output : DisplayCoordinatorOutput Label} (h : output.Quiet)
    (nowMs : ℕ) : lastHome (events ++ [⟨output, nowMs⟩]) = lastHome events := by
  rw [lastHome_concat]
  cases output with
  | publish => exact h.elim
  | deferred | unchanged => rfl

/-- An output without a command leaves the desired view. -/
theorem desiredView_concat_quiet {output : DisplayCoordinatorOutput Label} (h : output.Quiet)
    (nowMs : ℕ) : desiredView (events ++ [⟨output, nowMs⟩]) = desiredView events := by
  rw [desiredView_concat]
  cases output with
  | publish => exact h.elim
  | deferred | unchanged => rfl

end Published

variable [DecidableEq Label]

section Updates

/-- What an operation says about the Home view. -/
def Operation.update : Operation Label → DisplayHomeSnapshot Label → DisplayHomeSnapshot Label
  | .setSetup setup, home => home.withSetup setup
  | .setHomeTelemetry label count, home =>
    (home.withApplianceLabel label).withUncollectedMessages count
  | .setUncollectedMessages count, home => home.withUncollectedMessages count
  | .showBooting _, home | .resumeHome, home | .poll, home => home

variable (coordinator : E290DisplayCoordinator Label)

namespace E290DisplayCoordinator

/-- A change that is published at once leaves the home state. -/
@[simp] theorem homeChangedImmediately_home (nowMs : ℕ) :
    (coordinator.homeChangedImmediately nowMs).2.home = coordinator.home := by
  unfold homeChangedImmediately
  dsimp only
  split_ifs <;> rfl

/-- A new count is put into the home state. -/
theorem setUncollectedMessages_home (nowMs count : ℕ) :
    (coordinator.setUncollectedMessages nowMs count).2.home =
      coordinator.home.withUncollectedMessages count := by
  unfold setUncollectedMessages
  dsimp only
  split_ifs with hsame
  · rw [← hsame]
    rfl
  all_goals rfl

/-- Every update is retained. -/
theorem perform_home (call : Call Label) :
    (coordinator.perform call).2.home = call.operation.update coordinator.home := by
  unfold perform
  cases call.operation with
  | showBooting label =>
    dsimp only
    unfold showBooting
    split_ifs <;> rfl
  | resumeHome =>
    dsimp only
    unfold resumeHome
    split_ifs <;> rfl
  | setSetup setup =>
    dsimp only
    unfold setSetup
    split_ifs with hsame
    · rw [← hsame]
      rfl
    · exact homeChangedImmediately_home _ _
  | setHomeTelemetry label count =>
    dsimp only
    unfold setHomeTelemetry
    split_ifs with hlabel
    · exact homeChangedImmediately_home _ _
    · rw [setUncollectedMessages_home, ← not_not.mp hlabel]
      rfl
  | setUncollectedMessages count => exact setUncollectedMessages_home _ _ _
  | poll =>
    dsimp only
    unfold poll
    split_ifs
    · rfl
    · split
      · split_ifs <;> rfl
      · rfl

/-- The home state is what the calls made of it. -/
theorem after_home (calls : List (Call Label)) :
    (coordinator.after calls).home =
      calls.foldl (fun home call => call.operation.update home) coordinator.home := by
  induction calls generalizing coordinator with
  | nil => rfl
  | cons call calls ih =>
    rw [List.foldl_cons, ← perform_home]
    exact ih _

end E290DisplayCoordinator

end Updates

section Invariant

/-- The last Home view looks like the retained one, or the deadline for the next one is set. -/
def Timely (coordinator : E290DisplayCoordinator Label) (published : Publication Label) : Prop :=
  (sameRenderedHome published.snapshot coordinator.home = true ∧
    coordinator.refreshAtMs = none) ∨
  (sameRenderedHome published.snapshot coordinator.home = false ∧
    coordinator.pendingHome = true ∧
    coordinator.refreshAtMs = some (published.atMs + messageBurstCoalesceMillis))

/-- The coordinator knows what it has published. -/
structure Tracks (coordinator : E290DisplayCoordinator Label) (events : List (Event Label)) :
    Prop where
  view : coordinator.visible = desiredView events
  requested : coordinator.lastRequestedHome = (lastHome events).map (·.snapshot)
  requestedAt : coordinator.lastHomeRequestMs = (lastHome events).map (·.atMs)
  fits : ∀ published, lastHome events = some published →
    published.atMs + messageBurstCoalesceMillis ≤ u64Max
  published : coordinator.visible = .home → ∃ published, lastHome events = some published

/-- The coordinator also keeps a deadline for what it has not published. -/
structure Current (coordinator : E290DisplayCoordinator Label) (events : List (Event Label)) :
    Prop extends Tracks coordinator events where
  timely : coordinator.visible = .home → ∀ published, lastHome events = some published →
    Timely coordinator published

variable {coordinator : E290DisplayCoordinator Label} {events : List (Event Label)}
  {nowMs : ℕ}

omit [DecidableEq Label] in
/-- What is tracked stays so when only the home state changes. -/
theorem Tracks.withHome (h : Tracks coordinator events) (home : DisplayHomeSnapshot Label) :
    Tracks { coordinator with home := home } events :=
  ⟨h.view, h.requested, h.requestedAt, h.fits, h.published⟩

/-- The display stays current after an output without a command. -/
theorem Current.quiet {output : DisplayCoordinatorOutput Label} (h : Current coordinator events)
    (hquiet : output.Quiet) : Current coordinator (events ++ [⟨output, nowMs⟩]) := by
  obtain ⟨⟨hview, hrequested, hrequestedAt, hfits, hpublished⟩, htimely⟩ := h
  refine ⟨⟨?_, ?_, ?_, ?_, ?_⟩, ?_⟩
  all_goals simp only [lastHome_concat_quiet hquiet, desiredView_concat_quiet hquiet]
  all_goals assumption

/-- A request for home makes the display current. -/
theorem current_requestHome (coordinator : E290DisplayCoordinator Label)
    (events : List (Event Label)) (hnow : nowMs + messageBurstCoalesceMillis ≤ u64Max) :
    Current (coordinator.requestHome nowMs).2
      (events ++ [⟨(coordinator.requestHome nowMs).1, nowMs⟩]) := by
  have hlast : lastHome (events ++ [⟨(coordinator.requestHome nowMs).1, nowMs⟩]) =
      some ⟨coordinator.home, nowMs⟩ := lastHome_concat _
  refine ⟨⟨?_, ?_, ?_, ?_, ?_⟩, ?_⟩
  · rw [desiredView_concat]
    rfl
  · rw [hlast]
    rfl
  · rw [hlast]
    rfl
  · rintro published hpublished
    cases hlast.symm.trans hpublished
    exact hnow
  · exact fun _ => ⟨_, hlast⟩
  · rintro - published hpublished
    cases hlast.symm.trans hpublished
    exact Or.inl ⟨decide_eq_true rfl, rfl⟩

/-- A change that is published at once makes the display current. -/
theorem Tracks.homeChangedImmediately (h : Tracks coordinator events)
    (hnow : nowMs + messageBurstCoalesceMillis ≤ u64Max) :
    Current (coordinator.homeChangedImmediately nowMs).2
      (events ++ [⟨(coordinator.homeChangedImmediately nowMs).1, nowMs⟩]) := by
  unfold E290DisplayCoordinator.homeChangedImmediately
  dsimp only
  split_ifs with hhome
  · exact current_requestHome _ _ hnow
  · refine Current.quiet ⟨⟨h.view, h.requested, h.requestedAt, h.fits, h.published⟩, ?_⟩ trivial
    exact fun hvisible => absurd hvisible hhome

/-- What the coordinator remembers looks like the retained view. -/
theorem Tracks.lastSame_eq (h : Tracks coordinator events) {published : Publication Label}
    (hpublished : lastHome events = some published) :
    coordinator.lastSame = sameRenderedHome published.snapshot coordinator.home := by
  rw [E290DisplayCoordinator.lastSame, h.requested, hpublished]
  rfl

/-- Where the retained view looks like the published one, the settled display is current. -/
theorem Tracks.settled (h : Tracks coordinator events) (hsame : coordinator.lastSame = true) :
    Current coordinator.settled events := by
  refine ⟨⟨h.view, h.requested, h.requestedAt, h.fits, h.published⟩, ?_⟩
  rintro - published hpublished
  rw [h.lastSame_eq hpublished] at hsame
  exact Or.inl ⟨hsame, rfl⟩

/-- The deadline that a change of the count takes. -/
theorem Current.deadline_cases (h : Current coordinator events) (nowMs : ℕ)
    (hhome : coordinator.visible = .home) {published : Publication Label}
    (hpublished : lastHome events = some published) :
    coordinator.refreshAtMs.getD (coordinator.nextMailboxRefresh nowMs) =
        published.atMs + messageBurstCoalesceMillis ∨
      coordinator.refreshAtMs.getD (coordinator.nextMailboxRefresh nowMs) =
        max (published.atMs + messageBurstCoalesceMillis) nowMs := by
  rcases h.timely hhome published hpublished with ⟨-, hnone⟩ | ⟨-, -, hsome⟩
  · right
    rw [hnone, Option.getD_none, E290DisplayCoordinator.nextMailboxRefresh, h.requestedAt,
      hpublished, Option.map_some, Option.elim_some, saturatingAdd,
      min_eq_left (h.fits published hpublished)]
  · left
    rw [hsome, Option.getD_some]

/-- The booting view keeps the display current. -/
theorem Current.showBooting (h : Current coordinator events) (label : Label) :
    Current (coordinator.showBooting label).2
      (events ++ [⟨(coordinator.showBooting label).1, nowMs⟩]) := by
  unfold E290DisplayCoordinator.showBooting
  split_ifs with hsame
  · exact h.quiet trivial
  · refine ⟨⟨?_, ?_, ?_, ?_, fun hhome => nomatch hhome⟩, fun hhome => nomatch hhome⟩
    · rw [desiredView_concat]
      rfl
    all_goals rw [lastHome_concat]
    · exact h.requested
    · exact h.requestedAt
    · exact h.fits

/-- The way back to home keeps the display current. -/
theorem Current.resumeHome (h : Current coordinator events)
    (hnow : nowMs + messageBurstCoalesceMillis ≤ u64Max) :
    Current (coordinator.resumeHome nowMs).2
      (events ++ [⟨(coordinator.resumeHome nowMs).1, nowMs⟩]) := by
  unfold E290DisplayCoordinator.resumeHome
  split_ifs with hsame
  · exact (h.toTracks.settled hsame.2).quiet trivial
  · exact current_requestHome _ _ hnow

/-- A new setup state keeps the display current. -/
theorem Current.setSetup (h : Current coordinator events) (setup : DisplaySetupState)
    (hnow : nowMs + messageBurstCoalesceMillis ≤ u64Max) :
    Current (coordinator.setSetup nowMs setup).2
      (events ++ [⟨(coordinator.setSetup nowMs setup).1, nowMs⟩]) := by
  unfold E290DisplayCoordinator.setSetup
  split_ifs with hsame
  · exact h.quiet trivial
  · exact (h.toTracks.withHome _).homeChangedImmediately hnow

/-- A new count keeps the display current. -/
theorem Current.setUncollectedMessages (h : Current coordinator events) (count : ℕ)
    (hnow : nowMs + messageBurstCoalesceMillis ≤ u64Max) :
    Current (coordinator.setUncollectedMessages nowMs count).2
      (events ++ [⟨(coordinator.setUncollectedMessages nowMs count).1, nowMs⟩]) := by
  have htracks := h.toTracks.withHome (coordinator.home.withUncollectedMessages count)
  unfold E290DisplayCoordinator.setUncollectedMessages
  dsimp only
  split_ifs with hcount hsame hother hzero hdue
  · exact h.quiet trivial
  · exact (htracks.settled hsame).quiet trivial
  · exact Current.quiet ⟨⟨h.view, h.requested, h.requestedAt, h.fits, h.published⟩,
      fun hhome => absurd hhome hother⟩ trivial
  · exact current_requestHome _ _ hnow
  · exact current_requestHome _ _ hnow
  · refine Current.quiet ⟨⟨h.view, h.requested, h.requestedAt, h.fits, h.published⟩, ?_⟩ trivial
    rintro hhome published hpublished
    have hdiffers := htracks.lastSame_eq hpublished
    rw [Bool.eq_false_iff.mpr hsame] at hdiffers
    -- a deadline that has not passed is that of the last Home view
    refine Or.inr ⟨hdiffers.symm, rfl, congrArg some ?_⟩
    rcases h.deadline_cases nowMs hhome hpublished with hdeadline | hdeadline
    · exact hdeadline
    · have hlater : nowMs < max (published.atMs + messageBurstCoalesceMillis) nowMs :=
        (not_le.mp hdue).trans_eq hdeadline
      exact hdeadline.trans (max_eq_left (by omega))

/-- New telemetry keeps the display current. -/
theorem Current.setHomeTelemetry (h : Current coordinator events) (label : Option Label)
    (count : ℕ) (hnow : nowMs + messageBurstCoalesceMillis ≤ u64Max) :
    Current (coordinator.setHomeTelemetry nowMs label count).2
      (events ++ [⟨(coordinator.setHomeTelemetry nowMs label count).1, nowMs⟩]) := by
  unfold E290DisplayCoordinator.setHomeTelemetry
  split_ifs with hlabel
  · exact (h.toTracks.withHome _).homeChangedImmediately hnow
  · exact h.setUncollectedMessages count hnow

/-- A poll keeps the display current. -/
theorem Current.poll (h : Current coordinator events)
    (hnow : nowMs + messageBurstCoalesceMillis ≤ u64Max) :
    Current (coordinator.poll nowMs).2
      (events ++ [⟨(coordinator.poll nowMs).1, nowMs⟩]) := by
  unfold E290DisplayCoordinator.poll
  split_ifs with hidle
  · exact h.quiet trivial
  · split
    · split_ifs
      · exact current_requestHome _ _ hnow
      · exact h.quiet trivial
    · exact h.quiet trivial

/-- Every call keeps the display current. -/
theorem Current.perform (h : Current coordinator events) (call : Call Label)
    (hnow : call.nowMs + messageBurstCoalesceMillis ≤ u64Max) :
    Current (coordinator.perform call).2
      (events ++ [⟨(coordinator.perform call).1, call.nowMs⟩]) := by
  unfold E290DisplayCoordinator.perform
  cases call.operation with
  | showBooting label => exact h.showBooting label
  | resumeHome => exact h.resumeHome hnow
  | setSetup setup => exact h.setSetup setup hnow
  | setHomeTelemetry label count => exact h.setHomeTelemetry label count hnow
  | setUncollectedMessages count => exact h.setUncollectedMessages count hnow
  | poll => exact h.poll hnow

/-- Every run keeps the coordinator current. -/
theorem current_run (home : DisplayHomeSnapshot Label) (calls : List (Call Label))
    (hearly : ∀ call ∈ calls, call.nowMs < u64Max - messageBurstCoalesceMillis) :
    Current ((E290DisplayCoordinator.new home).after calls)
      ((E290DisplayCoordinator.new home).events calls) := by
  induction calls using List.reverseRecOn with
  | nil =>
    refine ⟨⟨rfl, rfl, rfl, ?_, ?_⟩, ?_⟩
    · exact fun _ hnone => nomatch hnone
    · exact fun hhome => nomatch hhome
    · exact fun hhome => nomatch hhome
  | append_singleton calls call ih =>
    rw [E290DisplayCoordinator.after_concat, E290DisplayCoordinator.events_concat]
    have hcall := hearly call (by simp)
    exact (ih fun earlier hmem => hearly earlier (List.mem_append_left _ hmem)).perform call
      (by omega)

end Invariant

section Publishing

/-- A change of the count from zero or to zero. -/
def ZeroChange (home : DisplayHomeSnapshot Label) (count : ℕ) : Prop :=
  home.uncollectedMessages ≠ count ∧ (home.uncollectedMessages = 0 ∨ count = 0)

/-- The operations that show the Home view without waiting. -/
def Operation.Immediate (home : DisplayHomeSnapshot Label) : Operation Label → Prop
  | .resumeHome => True
  | .setSetup setup => home.setup ≠ setup
  | .setHomeTelemetry label count => home.applianceLabel ≠ label ∨ ZeroChange home count
  | .setUncollectedMessages count => ZeroChange home count
  | .showBooting _ | .poll => False

variable {coordinator : E290DisplayCoordinator Label} {events : List (Event Label)}
  {snapshot : DisplayHomeSnapshot Label} {nowMs : ℕ}

/-- The deadline has not passed before the interval has. -/
theorem Current.le_deadline (h : Current coordinator events) (nowMs : ℕ)
    (hhome : coordinator.visible = .home) {published : Publication Label}
    (hpublished : lastHome events = some published) :
    published.atMs + messageBurstCoalesceMillis ≤
      coordinator.refreshAtMs.getD (coordinator.nextMailboxRefresh nowMs) := by
  rcases h.deadline_cases nowMs hhome hpublished with hdeadline | hdeadline
  · exact hdeadline.ge
  · exact (le_max_left _ _).trans hdeadline.ge

/-- A change is published at once only while home is visible. -/
theorem homeChangedImmediately_publishes
    (hpublish : (coordinator.homeChangedImmediately nowMs).1 = .publish (.showHome snapshot)) :
    coordinator.visible = .home := by
  unfold E290DisplayCoordinator.homeChangedImmediately at hpublish
  dsimp only at hpublish
  split_ifs at hpublish with hhome
  exact hhome

/-- A change of the count shows the view on two ways. -/
theorem setUncollectedMessages_publishes {count : ℕ}
    (hpublish : (coordinator.setUncollectedMessages nowMs count).1 =
      .publish (.showHome snapshot)) :
    coordinator.visible = .home ∧
      (ZeroChange coordinator.home count ∨
        coordinator.refreshAtMs.getD (coordinator.nextMailboxRefresh nowMs) ≤ nowMs) := by
  unfold E290DisplayCoordinator.setUncollectedMessages at hpublish
  dsimp only at hpublish
  split_ifs at hpublish with hcount hsame hother hzero hdue
  · exact ⟨not_not.mp hother, Or.inl ⟨hcount, hzero⟩⟩
  · exact ⟨not_not.mp hother, Or.inr hdue⟩

/-- A poll publishes only while home is visible and a deadline has passed. -/
theorem poll_publishes
    (hpublish : (coordinator.poll nowMs).1 = .publish (.showHome snapshot)) :
    coordinator.visible = .home ∧
      ∃ deadline, coordinator.refreshAtMs = some deadline ∧ deadline ≤ nowMs := by
  unfold E290DisplayCoordinator.poll at hpublish
  split_ifs at hpublish with hidle
  split at hpublish
  · rename_i deadline hdeadline
    split_ifs at hpublish with hdue
    exact ⟨by tauto, deadline, hdeadline, hdue⟩
  · cases hpublish

/-- A Home view is asked for, shown at once because of what changed, or shown when the interval
since the last one has passed. -/
theorem Current.publishes (h : Current coordinator events) {call : Call Label}
    (hpublish : (coordinator.perform call).1 = .publish (.showHome snapshot)) :
    call.operation = .resumeHome ∨ coordinator.visible = .home ∧
      (call.operation.Immediate coordinator.home ∨
        ∀ published, lastHome events = some published →
          published.atMs + messageBurstCoalesceMillis ≤ call.nowMs) := by
  unfold E290DisplayCoordinator.perform at hpublish
  cases hoperation : call.operation with
  | resumeHome => exact Or.inl rfl
  | showBooting label =>
    simp only [hoperation] at hpublish
    unfold E290DisplayCoordinator.showBooting at hpublish
    split_ifs at hpublish
    cases hpublish
  | setSetup setup =>
    simp only [hoperation] at hpublish
    unfold E290DisplayCoordinator.setSetup at hpublish
    split_ifs at hpublish with hsame
    have hhome := homeChangedImmediately_publishes hpublish
    exact Or.inr ⟨hhome, Or.inl hsame⟩
  | setHomeTelemetry label count =>
    simp only [hoperation] at hpublish
    unfold E290DisplayCoordinator.setHomeTelemetry at hpublish
    split_ifs at hpublish with hlabel
    · have hhome := homeChangedImmediately_publishes hpublish
      exact Or.inr ⟨hhome, Or.inl (Or.inl hlabel)⟩
    · obtain ⟨hhome, hzero | hdue⟩ := setUncollectedMessages_publishes hpublish
      · exact Or.inr ⟨hhome, Or.inl (Or.inr hzero)⟩
      · exact Or.inr ⟨hhome, Or.inr fun published hpublished =>
          (h.le_deadline _ hhome hpublished).trans hdue⟩
  | setUncollectedMessages count =>
    simp only [hoperation] at hpublish
    obtain ⟨hhome, hzero | hdue⟩ := setUncollectedMessages_publishes hpublish
    · exact Or.inr ⟨hhome, Or.inl hzero⟩
    · exact Or.inr ⟨hhome, Or.inr fun published hpublished =>
        (h.le_deadline _ hhome hpublished).trans hdue⟩
  | poll =>
    simp only [hoperation] at hpublish
    obtain ⟨hhome, deadline, hdeadline, hdue⟩ := poll_publishes hpublish
    refine Or.inr ⟨hhome, Or.inr fun published hpublished => ?_⟩
    have hle := h.le_deadline call.nowMs hhome hpublished
    rw [hdeadline, Option.getD_some] at hle
    exact hle.trans hdue

/-- Back from another view, home is published as it is. -/
theorem resumeHome_publishes (hprotected : coordinator.visible ≠ .home) :
    (coordinator.resumeHome nowMs).1 = .publish (.showHome coordinator.home) := by
  unfold E290DisplayCoordinator.resumeHome
  rw [if_neg fun hsame => hprotected hsame.1]
  rfl

/-- A poll after the deadline shows the retained view. -/
theorem poll_after_deadline {deadline : ℕ} (hhome : coordinator.visible = .home)
    (hpending : coordinator.pendingHome = true)
    (hdeadline : coordinator.refreshAtMs = some deadline) (hdue : deadline ≤ nowMs) :
    (coordinator.poll nowMs).1 = .publish (.showHome coordinator.home) := by
  unfold E290DisplayCoordinator.poll
  rw [if_neg (by simp [hpending, hhome]), hdeadline]
  dsimp only
  rw [if_pos hdue]
  rfl

/-- The display coordinator loses no update. Whatever the calls were, every update is retained;
while the Home view is wanted, the last one that was published looks like the retained one or a
poll from a deadline on publishes that; while a boot view is wanted, the retained view is what
resuming publishes and nothing else publishes it; and a Home view follows another within the
interval only for a reason that does not wait. -/
theorem coordinator_loses_no_update (home : DisplayHomeSnapshot Label) (calls : List (Call Label))
    (hearly : ∀ call ∈ calls, call.nowMs < u64Max - messageBurstCoalesceMillis) :
    let coordinator := (E290DisplayCoordinator.new home).after calls
    let events := (E290DisplayCoordinator.new home).events calls
    coordinator.home = calls.foldl (fun home call => call.operation.update home) home ∧
    coordinator.visible = desiredView events ∧
    (coordinator.visible = .home → ∃ published, lastHome events = some published ∧
      (sameRenderedHome published.snapshot coordinator.home = true ∨
        ∃ deadline, coordinator.refreshAtMs = some deadline ∧
          deadline ≤ published.atMs + messageBurstCoalesceMillis ∧
          ∀ nowMs, deadline ≤ nowMs →
            (coordinator.poll nowMs).1 = .publish (.showHome coordinator.home))) ∧
    (∀ label, coordinator.visible = .booting label →
      (∀ nowMs, (coordinator.resumeHome nowMs).1 = .publish (.showHome coordinator.home)) ∧
      ∀ call snapshot, (coordinator.perform call).1 = .publish (.showHome snapshot) →
        call.operation = .resumeHome ∧ snapshot = coordinator.home) ∧
    ∀ call snapshot published, (coordinator.perform call).1 = .publish (.showHome snapshot) →
      lastHome events = some published →
      call.nowMs < published.atMs + messageBurstCoalesceMillis →
      call.operation.Immediate coordinator.home := by
  intro coordinator events
  have hcurrent : Current coordinator events := current_run home calls hearly
  refine ⟨E290DisplayCoordinator.after_home _ _, hcurrent.view, fun hhome => ?_,
    fun label hbooting => ⟨fun nowMs => ?_,
    fun call snapshot hpublish => ?_⟩, fun call snapshot published hpublish hpublished hsoon => ?_⟩
  · obtain ⟨published, hpublished⟩ := hcurrent.published hhome
    refine ⟨published, hpublished, ?_⟩
    rcases hcurrent.timely hhome published hpublished with ⟨hsame, -⟩ | ⟨-, hpending, hdeadline⟩
    · exact Or.inl hsame
    · exact Or.inr ⟨_, hdeadline, le_rfl,
        fun nowMs hdue => poll_after_deadline hhome hpending hdeadline hdue⟩
  · exact resumeHome_publishes (by simp [hbooting])
  · rcases hcurrent.publishes hpublish with hresume | ⟨hhome, -⟩
    · refine ⟨hresume, ?_⟩
      have hretained := @resumeHome_publishes _ _ coordinator call.nowMs (by simp [hbooting])
      rw [E290DisplayCoordinator.perform, hresume] at hpublish
      cases hpublish.symm.trans hretained
      rfl
    · cases hbooting.symm.trans hhome
  · rcases hcurrent.publishes hpublish with hresume | ⟨-, himmediate | hlate⟩
    · rw [hresume]
      trivial
    · exact himmediate
    · exact absurd (hlate published hpublished) hsoon.not_ge

/-- A burst of messages while the Home view is shown. -/
theorem coordinator_keeps_burst :
    let home : DisplayHomeSnapshot ℕ :=
      ⟨0, 1, none, .enrolled, .configured, .configured, .configured, .configured, 0⟩
    let coordinator := (E290DisplayCoordinator.new home).after
      [⟨.resumeHome, 100⟩, ⟨.setUncollectedMessages 1, 101⟩, ⟨.setUncollectedMessages 9, 102⟩]
    coordinator.visible = .home ∧ coordinator.home.uncollectedMessages = 9 ∧
      (coordinator.poll 5101).1 = .publish (.showHome coordinator.home) := by
  intro home coordinator
  refine ⟨rfl, rfl, ?_⟩
  have hearly : ∀ call ∈ ([⟨.resumeHome, 100⟩, ⟨.setUncollectedMessages 1, 101⟩,
      ⟨.setUncollectedMessages 9, 102⟩] : List (Call ℕ)),
      call.nowMs < u64Max - messageBurstCoalesceMillis := by
    intro call hcall
    simp only [List.mem_cons, List.not_mem_nil, or_false] at hcall
    rcases hcall with rfl | rfl | rfl
    · exact (by decide : 100 < u64Max - messageBurstCoalesceMillis)
    · exact (by decide : 101 < u64Max - messageBurstCoalesceMillis)
    · exact (by decide : 102 < u64Max - messageBurstCoalesceMillis)
  obtain ⟨published, hpublished, hsame | ⟨deadline, hdeadline, -, hpoll⟩⟩ :=
    (coordinator_loses_no_update home
      [⟨.resumeHome, 100⟩, ⟨.setUncollectedMessages 1, 101⟩, ⟨.setUncollectedMessages 9, 102⟩]
      hearly).2.2.1 rfl
  · cases hpublished
    exact absurd hsame (by decide)
  · cases hdeadline
    exact hpoll 5101 le_rfl

end Publishing

end Display
