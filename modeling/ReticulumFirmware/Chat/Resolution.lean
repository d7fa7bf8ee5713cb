import ReticulumFirmware.Chat.RfTraceRuns

/-!
# Resolving a submission in the activity log

`rf_trace_correlation` looks for the acceptances of a submission and for the event that began
the accepted attempt. This file says which message attempts it can find, and that it finds the
only one when there is only one.
-/

namespace Chat

open MemoryChatStore

/-- The log keeps the event that began an attempt, with this location. -/
def Begins (activity : List MessageActivityEvent) (outboxId : OutboxId)
    (attempt : MessageAttemptNumber) (location : AttemptLocationStamp) : Prop :=
  ∃ event ∈ activity, event.outboxId = some outboxId ∧ event.attemptNumber = some attempt ∧
    event.attemptLocation = some location

/-- The log keeps an acceptance of a submission by an attempt. -/
def Accepts (activity : List MessageActivityEvent) (submissionId : SubmissionId)
    (sequence : TimelineSequence) (outboxId : OutboxId) (attempt : MessageAttemptNumber) : Prop :=
  ∃ event ∈ activity, ∃ acceptance, event.kind = .outboundAccepted acceptance ∧
    acceptance.submissionId = submissionId ∧ event.timelineSequence = sequence ∧
    event.outboxId = some outboxId ∧ event.attemptNumber = some attempt

/-- A message attempt that the log shows for a submission. -/
structure Candidate (activity : List MessageActivityEvent) (submissionId : SubmissionId)
    (correlation : RfTraceMessageCorrelation) : Prop where
  accepts : Accepts activity submissionId correlation.timelineSequence correlation.outboxId
    correlation.attemptNumber
  begins : Begins activity correlation.outboxId correlation.attemptNumber
    correlation.attemptLocation

/-- The log is complete enough to be read without contradictions. -/
structure Readable (activity : List MessageActivityEvent) : Prop where
  /-- An attempt begins with one location. -/
  once : ∀ outboxId attempt location location', Begins activity outboxId attempt location →
    Begins activity outboxId attempt location' → location = location'
  /-- An acceptance names its attempt. -/
  named : ∀ event ∈ activity, ∀ acceptance, event.kind = .outboundAccepted acceptance →
    ∃ outboxId attempt, event.outboxId = some outboxId ∧ event.attemptNumber = some attempt

/-- The location found for an attempt. -/
theorem attemptLocationOf_ok {activity : List MessageActivityEvent} {outboxId : OutboxId}
    {attempt : MessageAttemptNumber} {found : Option AttemptLocationStamp}
    (h : attemptLocationOf activity outboxId attempt = .ok found)
    (location : AttemptLocationStamp) :
    found = some location ↔ Begins activity outboxId attempt location := by
  unfold attemptLocationOf at h
  have hsteps := List.foldlM_ok_steps (l := activity)
    (P := fun done found => ∀ location, found = some location ↔
      Begins done outboxId attempt location)
    (by simp [Begins]) ?_ h
  · exact hsteps location
  · intro done event rest found found' _hlist hdone hstep location
    have hsplit : Begins (done ++ [event]) outboxId attempt location ↔
        Begins done outboxId attempt location ∨ (event.outboxId = some outboxId ∧
          event.attemptNumber = some attempt ∧ event.attemptLocation = some location) := by
      unfold Begins
      simp only [List.mem_append, List.mem_singleton, or_and_right, exists_or, exists_eq_left]
    rw [hsplit, ← hdone location]
    split_ifs at hstep with hother
    · cases hstep
      constructor
      · exact Or.inl
      · rintro (hfound | ⟨hid, hattempt, -⟩)
        · exact hfound
        · rcases hother with h | h
          · exact absurd hid h
          · exact absurd hattempt h
    · rw [not_or, not_not, not_not] at hother
      split at hstep
      · next hnone =>
        cases hstep
        simp [hnone]
      · next stamp hstamp =>
        split_ifs at hstep with hconflict
        cases hstep
        rw [hstamp]
        constructor
        · rintro ⟨⟩
          exact Or.inr ⟨hother.1, hother.2, rfl⟩
        · rintro (hfound | ⟨-, -, hsame⟩)
          · rw [hfound] at hconflict
            have hsame : location = stamp := by simpa using hconflict
            rw [hsame]
          · exact hsame

/-- A readable log has at most one location for an attempt. -/
theorem attemptLocationOf_readable {activity : List MessageActivityEvent}
    (h : Readable activity) (outboxId : OutboxId) (attempt : MessageAttemptNumber) :
    ∃ found, attemptLocationOf activity outboxId attempt = .ok found := by
  unfold attemptLocationOf
  refine (List.foldlM_ok_of_steps (l := activity) (s := none)
    (P := fun _ found => ∀ location, found = some location →
      Begins activity outboxId attempt location) (by simp) ?_).imp fun _ h => h.1
  intro done event rest found hlist hdone
  have hmem : event ∈ activity := by
    rw [hlist]
    simp
  split_ifs with hother
  · exact ⟨found, rfl, hdone⟩
  · rw [not_or, not_not, not_not] at hother
    split
    · exact ⟨found, rfl, hdone⟩
    · next stamp hstamp =>
      have hbegins : Begins activity outboxId attempt stamp :=
        ⟨event, hmem, hother.1, hother.2, hstamp⟩
      have hfree : ¬ (found.any (· ≠ stamp) = true) := by
        cases hfound : found with
        | none => simp
        | some location =>
          have hsame := h.once outboxId attempt _ _ (hdone location hfound) hbegins
          simp [hsame]
      rw [if_neg hfree]
      refine ⟨some stamp, rfl, ?_⟩
      rintro location ⟨⟩
      exact hbegins

/-- The acceptances of a log with one event more. -/
theorem accepts_snoc {activity : List MessageActivityEvent} {event : MessageActivityEvent}
    {submissionId : SubmissionId} {sequence : TimelineSequence} {outboxId : OutboxId}
    {attempt : MessageAttemptNumber} :
    Accepts (activity ++ [event]) submissionId sequence outboxId attempt ↔
      Accepts activity submissionId sequence outboxId attempt ∨
        ∃ acceptance, event.kind = .outboundAccepted acceptance ∧
          acceptance.submissionId = submissionId ∧ event.timelineSequence = sequence ∧
          event.outboxId = some outboxId ∧ event.attemptNumber = some attempt := by
  unfold Accepts
  simp only [List.mem_append, List.mem_singleton, or_and_right, exists_or, exists_eq_left]

/-- A submission resolves to the attempts that the log shows for it. -/
theorem rfTraceCorrelation_ok {activity : List MessageActivityEvent} {submissionId : SubmissionId}
    {found : Option RfTraceMessageCorrelation}
    (h : rfTraceCorrelation activity submissionId = .ok found)
    (correlation : RfTraceMessageCorrelation) :
    found = some correlation ↔ Candidate activity submissionId correlation := by
  unfold rfTraceCorrelation at h
  have hsteps := List.foldlM_ok_steps (l := activity)
    (P := fun done found => ∀ correlation : RfTraceMessageCorrelation,
      found = some correlation ↔
        Accepts done submissionId correlation.timelineSequence correlation.outboxId
          correlation.attemptNumber ∧
        Begins activity correlation.outboxId correlation.attemptNumber
          correlation.attemptLocation)
    (by simp [Accepts]) ?_ h
  · rw [hsteps]
    exact ⟨fun h => ⟨h.1, h.2⟩, fun h => ⟨h.accepts, h.begins⟩⟩
  · intro done event rest found found' _hlist hdone hstep correlation
    rw [accepts_snoc, or_and_right, ← hdone correlation]
    split at hstep
    · next acceptance hkind =>
      split_ifs at hstep with hother
      · cases hstep
        constructor
        · exact Or.inl
        · rintro (hfound | ⟨⟨other, hsame, hid, -⟩, -⟩)
          · exact hfound
          · rw [hkind] at hsame
            cases hsame
            exact absurd hid hother
      · split at hstep
        · next outboxId attempt hid hattempt =>
          rw [not_not] at hother
          split at hstep
          · cases hstep
          · next hnone =>
            cases hstep
            constructor
            · exact Or.inl
            · rintro (hfound | ⟨⟨other, -, -, -, hid', hattempt'⟩, hbegins⟩)
              · exact hfound
              · rw [hid] at hid'
                rw [hattempt] at hattempt'
                rw [← Option.some.inj hid', ← Option.some.inj hattempt'] at hbegins
                have hsome := (attemptLocationOf_ok hnone _).mpr hbegins
                cases hsome
          · next location hlocation =>
            have hbegins := (attemptLocationOf_ok hlocation location).mp rfl
            dsimp only at hstep
            split_ifs at hstep with hconflict
            cases hstep
            constructor
            · rintro ⟨⟩
              exact Or.inr ⟨⟨acceptance, hkind, hother, rfl, hid, hattempt⟩, hbegins⟩
            · rintro (hfound | ⟨⟨other, -, -, hsequence, hid', hattempt'⟩, hbegins'⟩)
              · rw [hfound] at hconflict
                have hsame : correlation =
                  ⟨event.timelineSequence, outboxId, attempt, location⟩ := by
                  simpa using hconflict
                rw [hsame]
              · rw [hid] at hid'
                rw [hattempt] at hattempt'
                rw [← Option.some.inj hid', ← Option.some.inj hattempt'] at hbegins'
                have hsame := (attemptLocationOf_ok hlocation _).mpr hbegins'
                rw [hsequence, Option.some.inj hid', Option.some.inj hattempt',
                  Option.some.inj hsame]
        · cases hstep
    · next hkind =>
      cases hstep
      constructor
      · exact Or.inl
      · rintro (hfound | ⟨⟨acceptance, hsame, -⟩, -⟩)
        · exact hfound
        · exact absurd hsame (hkind acceptance)

/-- A submission with one attempt in a readable log resolves. -/
theorem rfTraceCorrelation_readable {activity : List MessageActivityEvent}
    {submissionId : SubmissionId} (h : Readable activity)
    (honly : ∀ correlation correlation', Candidate activity submissionId correlation →
      Candidate activity submissionId correlation' → correlation = correlation') :
    ∃ found, rfTraceCorrelation activity submissionId = .ok found := by
  unfold rfTraceCorrelation
  refine (List.foldlM_ok_of_steps (l := activity) (s := none)
    (P := fun _ found => ∀ correlation, found = some correlation →
      Candidate activity submissionId correlation) (by simp) ?_).imp fun _ h => h.1
  intro done event rest found hlist hdone
  have hmem : event ∈ activity := by
    rw [hlist]
    simp
  split
  · next acceptance hkind =>
    split_ifs with hother
    · exact ⟨found, rfl, hdone⟩
    · rw [not_not] at hother
      obtain ⟨outboxId, attempt, hid, hattempt⟩ := h.named event hmem acceptance hkind
      obtain ⟨located, hlocated⟩ := attemptLocationOf_readable h outboxId attempt
      simp only [hid, hattempt, hlocated]
      cases located with
      | none => exact ⟨found, rfl, hdone⟩
      | some location =>
        have hcandidate : Candidate activity submissionId
            ⟨event.timelineSequence, outboxId, attempt, location⟩ :=
          ⟨⟨event, hmem, acceptance, hkind, hother, rfl, hid, hattempt⟩,
            (attemptLocationOf_ok hlocated location).mp rfl⟩
        have hfree : ¬ (found.any (· ≠ (⟨event.timelineSequence, outboxId, attempt, location⟩ :
            RfTraceMessageCorrelation)) = true) := by
          cases hfound : found with
          | none => simp
          | some correlation =>
            have hsame := honly _ _ (hdone correlation hfound) hcandidate
            simp [hsame]
        dsimp only
        rw [if_neg hfree]
        refine ⟨_, rfl, ?_⟩
        rintro correlation ⟨⟩
        exact hcandidate
  · exact ⟨found, rfl, hdone⟩

end Chat
