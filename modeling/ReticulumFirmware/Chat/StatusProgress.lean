import Mathlib.Logic.Relation
import ReticulumFirmware.Chat.Changes

/-!
# Progress of an outbox row

Within one attempt the status of a row only advances, and it leaves a terminal status only
for the next attempt. Device reports may arrive in any order: those that are accepted
together always end in the same status.
-/

namespace Chat

open MemoryChatStore

/-- Device evidence that both states retain is the same. -/
def SameEvidence (state later : SubmissionState) : Prop :=
  ∀ evidence evidence', state.packetEvidence = some evidence →
    later.packetEvidence = some evidence' → evidence' = evidence

/-- One advance of a status within an attempt. -/
inductive StatusStep : OutboxStatus → OutboxStatus → Prop
  | accept : StatusStep .committed .accepted
  | report (state : SubmissionState) : StatusStep .accepted (.device state)
  | advance {state later : SubmissionState} (hrank : state.progressionRank < later.progressionRank)
      (hevidence : SameEvidence state later) : StatusStep (.device state) (.device later)

/-- What a call may do to a row: at most one advance within the attempt, or the next attempt of
a retryable failure. -/
inductive RowStep (call : Call) (row later : OutboxRecord) : Prop
  | same (hattempt : later.currentAttempt = row.currentAttempt)
      (hstatus : later.status = row.status)
  | advance (hattempt : later.currentAttempt = row.currentAttempt)
      (hstatus : StatusStep row.status later.status)
  | retry {now : Option UInt64} {idempotencyKey : IdempotencyKey} {location : AttemptLocationStamp}
      {failure : SubmissionFailure} (hcall : call = .retryOutbox now row.id idempotencyKey location)
      (hfailed : row.status = .device (.failed failure)) (hretryable : failure.isRetryable = true)
      (hattempt : row.currentAttempt.checkedNext = some later.currentAttempt)
      (hstatus : later.status = .committed)

/-- Every terminal state has the last rank. -/
theorem SubmissionState.isTerminal_iff (state : SubmissionState) :
    state.isTerminal = true ↔ state.progressionRank = 3 := by
  cases state <;> simp [isTerminal, progressionRank]

/-- No state has a rank above three. -/
theorem SubmissionState.progressionRank_le (state : SubmissionState) :
    state.progressionRank ≤ 3 := by
  cases state <;> simp [progressionRank]

/-- A terminal status has no advance. -/
theorem StatusStep.not_terminal {status later : OutboxStatus} (h : StatusStep status later) :
    status.isTerminal = false := by
  cases h with
  | accept => rfl
  | report => rfl
  | @advance state later hrank =>
    have hlater := later.progressionRank_le
    rw [OutboxStatus.isTerminal, Bool.eq_false_iff, ne_eq, SubmissionState.isTerminal_iff]
    omega

/-- An advancing projection is one advance. -/
theorem statusStep_of_project {status status' : OutboxStatus} {state : SubmissionState}
    (h : projectOutboxStatus status state = .ok (status', .advanced)) :
    StatusStep status status' ∧ status' = .device state := by
  unfold projectOutboxStatus at h
  split at h
  · cases h
  · cases h
    exact ⟨.report _, rfl⟩
  · next current =>
    split_ifs at h with hsame hterminal hstate hstale hrank
    · cases h
    · cases h
    · cases h
    have hadvance : current.progressionRank < state.progressionRank := by omega
    split at h
    · next evidence evidence' hcurrent hstate' =>
      split_ifs at h with hevidence
      cases h
      refine ⟨.advance hadvance ?_, rfl⟩
      intro e e' he he'
      rw [hcurrent] at he
      rw [hstate'] at he'
      cases he
      cases he'
      exact hevidence.symm
    · next hnone =>
      cases h
      refine ⟨.advance hadvance ?_, rfl⟩
      intro e e' he he'
      exact absurd he' (hnone e e' he)

/-- Rows are filed under their identifier, which the counter has passed, and exactly the
uncommitted ones have an acceptance. -/
structure RowSound (store : MemoryChatStore) (id : OutboxId) (row : OutboxRecord) : Prop where
  filed : row.id = id
  counted : id.get.toNat < store.nextOutboxId.toNat
  consistent : Opening.consistentOutbox row = true

/-- Every row is sound. -/
def RowsSound (store : MemoryChatStore) : Prop :=
  ∀ id row, store.outbox.get? id = some row → RowSound store id row

/-- A consistent row without an acceptance is only committed. -/
theorem consistentOutbox_none {row : OutboxRecord} (h : Opening.consistentOutbox row = true)
    (hnone : row.acceptance = none) : row.status = .committed := by
  unfold Opening.consistentOutbox at h
  rw [hnone] at h
  split at h
  · next hstatus => exact hstatus
  all_goals simp_all

/-- Rows stay sound when one is filed and the counter does not go back. -/
theorem RowsSound.insert {store later : MemoryChatStore} {id : OutboxId} {row : OutboxRecord}
    (h : RowsSound store) (houtbox : later.outbox = store.outbox.insert id row)
    (hcounter : store.nextOutboxId.toNat ≤ later.nextOutboxId.toNat)
    (hrow : RowSound later id row) : RowsSound later := by
  intro id' row' hget
  rw [houtbox, BTreeMap.get?_insert] at hget
  split_ifs at hget with heq
  · cases hget
    rw [heq]
    exact hrow
  · have hold := h id' row' hget
    exact ⟨hold.filed, by have := hold.counted; omega, hold.consistent⟩

/-- What a change does to the rows. -/
def RowsChange (store : MemoryChatStore) (call : Call) (later : MemoryChatStore) : Prop :=
  RowsSound later ∧ ∀ id row, store.outbox.get? id = some row →
    ∃ row', later.outbox.get? id = some row' ∧ RowStep call row row'

/-- A change to other tables. -/
theorem RowsChange.same {store later : MemoryChatStore} {call : Call} (hsound : RowsSound store)
    (houtbox : later.outbox = store.outbox) (hcounter : later.nextOutboxId = store.nextOutboxId) :
    RowsChange store call later := by
  constructor
  · intro id row hrow
    rw [houtbox] at hrow
    obtain ⟨hfiled, hcounted, hconsistent⟩ := hsound id row hrow
    exact ⟨hfiled, by rwa [hcounter], hconsistent⟩
  · intro id row hrow
    rw [houtbox]
    exact ⟨row, hrow, .same rfl rfl⟩

/-- A change to one row. -/
theorem RowsChange.insert {store later : MemoryChatStore} {call : Call} {id : OutboxId}
    {row : OutboxRecord} (hsound : RowsSound store)
    (houtbox : later.outbox = store.outbox.insert id row)
    (hcounter : store.nextOutboxId.toNat ≤ later.nextOutboxId.toNat)
    (hrow : RowSound later id row)
    (hstep : ∀ old, store.outbox.get? id = some old → RowStep call old row) :
    RowsChange store call later := by
  refine ⟨hsound.insert houtbox hcounter hrow, ?_⟩
  intro id' old hold
  rw [houtbox, BTreeMap.get?_insert]
  split_ifs with heq
  · subst heq
    exact ⟨row, rfl, hstep old hold⟩
  · exact ⟨old, hold, .same rfl rfl⟩

/-- Every change keeps the rows sound, and takes each of them at most one step. -/
theorem Change.rows {store later : MemoryChatStore} {call : Call} (h : Change store call later)
    (hsound : RowsSound store) : RowsChange store call later := by
  cases h with
  | nothing | contact | retained | inbound => exact .same hsound rfl rfl
  | @outbound now material location id outboxId sequence nextOutboxId nextSequence activity
      incomplete nextActivityId hnew hid hsequence hnextId hnext hlogged =>
    have hcounted : outboxId.get.toNat < nextOutboxId.toNat := by
      rw [hid]
      omega
    refine .insert hsound rfl (by dsimp only; omega) ⟨rfl, hcounted, rfl⟩ ?_
    intro old hold
    have hpassed := (hsound outboxId old hold).counted
    rw [hid] at hpassed
    omega
  | rearmed hrow hstatus hretryable hkey hfree hattempt hacceptance hlogged =>
    obtain ⟨hid, hcounted, hconsistent⟩ := hsound _ _ hrow
    refine .insert hsound rfl le_rfl ⟨hid, hcounted, rfl⟩ ?_
    intro old hold
    rw [hrow] at hold
    cases hold
    exact .retry (by rw [hid]) hstatus hretryable hattempt rfl
  | accepted hrow hnone hfree hlogged =>
    obtain ⟨hid, hcounted, hconsistent⟩ := hsound _ _ hrow
    refine .insert hsound rfl le_rfl ⟨hid, hcounted, rfl⟩ ?_
    intro old hold
    rw [hrow] at hold
    cases hold
    refine .advance rfl ?_
    rw [consistentOutbox_none hconsistent hnone]
    exact .accept
  | @projected now submissionId state outboxId record status id activity incomplete
      nextActivityId hindex hrow hstatus hproject hlogged =>
    obtain ⟨hid, hcounted, hconsistent⟩ := hsound _ _ hrow
    obtain ⟨hstep, hdevice⟩ := statusStep_of_project hproject
    have hacceptance : record.acceptance ≠ none := fun hnone =>
      hstatus (consistentOutbox_none hconsistent hnone)
    obtain ⟨acceptance, hsome⟩ := Option.ne_none_iff_exists'.mp hacceptance
    refine .insert hsound rfl le_rfl ⟨hid, hcounted, ?_⟩ ?_
    · simp [Opening.consistentOutbox, hsome, hdevice]
    · intro old hold
      rw [hrow] at hold
      cases hold
      exact .advance rfl hstep
  | imported himport =>
    have hframe := withoutTraces_imported himport
    have houtbox := congrArg outbox hframe
    have hcounter := congrArg nextOutboxId hframe
    exact .same hsound houtbox hcounter

/-- The empty store has no rows. -/
theorem rowsSound_new : RowsSound new := by
  intro id row hrow
  cases hrow

/-- Calls keep the rows sound. -/
theorem RowsSound.after {store : MemoryChatStore} (h : RowsSound store) (calls : List Call) :
    RowsSound (store.after calls) := by
  induction calls generalizing store with
  | nil => exact h
  | cons call calls ih => exact ih ((call.change store).rows h).1

/-- Attempts do not go back, and within one the status takes only advances. -/
theorem RowsSound.progress {store : MemoryChatStore} (h : RowsSound store) (calls : List Call)
    {id : OutboxId} {row : OutboxRecord} (hrow : store.outbox.get? id = some row) :
    ∃ row', (store.after calls).outbox.get? id = some row' ∧
      row.currentAttempt.get.toNat ≤ row'.currentAttempt.get.toNat ∧
      (row'.currentAttempt = row.currentAttempt →
        Relation.ReflTransGen StatusStep row.status row'.status) := by
  induction calls generalizing store row with
  | nil => exact ⟨row, hrow, le_rfl, fun _ => .refl⟩
  | cons call calls ih =>
    obtain ⟨hsound, hstep⟩ := (call.change store).rows h
    obtain ⟨middle, hmiddle, hrowStep⟩ := hstep id row hrow
    obtain ⟨row', hrow', hle, hpath⟩ := ih hsound hmiddle
    refine ⟨row', hrow', ?_⟩
    cases hrowStep with
    | same hattempt hstatus =>
      rw [hattempt] at hle hpath
      rw [← hstatus]
      exact ⟨hle, hpath⟩
    | advance hattempt hstatus =>
      rw [hattempt] at hle hpath
      exact ⟨hle, fun heq => .head hstatus (hpath heq)⟩
    | retry hcall hfailed hretryable hattempt hstatus =>
      have hnext := MessageAttemptNumber.toNat_checkedNext hattempt
      refine ⟨by omega, fun heq => ?_⟩
      rw [heq] at hle
      omega

/-- The device evidence that a status retains. -/
def OutboxStatus.retainedEvidence : OutboxStatus → Option PacketEvidence
  | .device state => state.packetEvidence
  | _ => none

/-- Only the last two ranks retain evidence. -/
theorem SubmissionState.rank_of_evidence {state : SubmissionState} {evidence : PacketEvidence}
    (h : state.packetEvidence = some evidence) : 2 ≤ state.progressionRank := by
  cases state <;> simp [packetEvidence, progressionRank] at h ⊢

/-- Evidence stays the same while the status advances. -/
theorem evidence_of_path {status later : OutboxStatus}
    (h : Relation.ReflTransGen StatusStep status later) {evidence evidence' : PacketEvidence}
    (hstatus : status.retainedEvidence = some evidence)
    (hlater : later.retainedEvidence = some evidence') : evidence' = evidence := by
  rcases h.cases_head with rfl | ⟨middle, hstep, hrest⟩
  · rw [hstatus] at hlater
    exact (Option.some.inj hlater).symm
  · cases hstep with
    | accept => cases hstatus
    | report => cases hstatus
    | @advance state next hrank hevidence =>
      -- evidence appears at rank two, so the next state is the last one
      have hlow := SubmissionState.rank_of_evidence hstatus
      have hhigh := next.progressionRank_le
      rcases hrest.cases_head with rfl | ⟨_, hstep', -⟩
      · exact hevidence _ _ hstatus hlater
      · have hterminal := hstep'.not_terminal
        rw [OutboxStatus.isTerminal, Bool.eq_false_iff, ne_eq,
          SubmissionState.isTerminal_iff] at hterminal
        omega

/-- Project device states one after the other. -/
def projectStates (status : OutboxStatus) (states : List SubmissionState) :
    Except ChatStoreError OutboxStatus :=
  states.foldlM (fun status state => (projectOutboxStatus status state).map Prod.fst) status

/-- A device state that has passed every other one. -/
def Top (states : List SubmissionState) (top : SubmissionState) : Prop :=
  top ∈ states ∧ ∀ state ∈ states, state = top ∨ state.progressionRank < top.progressionRank

/-- At most one state has passed all others. -/
theorem Top.unique {states states' : List SubmissionState} {top top' : SubmissionState}
    (hmem : ∀ state, state ∈ states ↔ state ∈ states') (h : Top states top)
    (h' : Top states' top') : top = top' := by
  rcases h'.2 top ((hmem top).mp h.1) with heq | hlt
  · exact heq
  · rcases h.2 top' ((hmem top').mpr h'.1) with heq | hlt'
    · exact heq.symm
    · omega

/-- A projection keeps the state that has passed the others. -/
theorem Top.project {states : List SubmissionState} {top state : SubmissionState}
    (h : Top states top) {status : OutboxStatus} {outcome : StatusProjectionOutcome}
    (hproject : projectOutboxStatus (.device top) state = .ok (status, outcome)) :
    ∃ top', status = .device top' ∧ Top (state :: states) top' := by
  have hkeep : state = top ∨ state.progressionRank < top.progressionRank →
      Top (state :: states) top := fun hstate =>
    ⟨List.mem_cons_of_mem _ h.1, List.forall_mem_cons.mpr ⟨hstate, h.2⟩⟩
  simp only [projectOutboxStatus] at hproject
  split_ifs at hproject with hsame hterminal hstate hstale hrank
  · cases hproject
    exact ⟨top, rfl, hkeep (Or.inl hsame.symm)⟩
  · cases hproject
    rw [SubmissionState.isTerminal_iff] at hterminal hstate
    have hle := state.progressionRank_le
    exact ⟨top, rfl, hkeep (Or.inr (by omega))⟩
  · cases hproject
    exact ⟨top, rfl, hkeep (Or.inr hstale)⟩
  · have hadvance : top.progressionRank < state.progressionRank := by omega
    have hstatus : status = .device state := by
      split at hproject
      · split_ifs at hproject
        cases hproject
        rfl
      · cases hproject
        rfl
    refine ⟨state, hstatus, List.mem_cons_self, List.forall_mem_cons.mpr ⟨Or.inl rfl, ?_⟩⟩
    intro other hother
    rcases h.2 other hother with rfl | hlt
    · exact Or.inr hadvance
    · exact Or.inr (hlt.trans hadvance)

/-- Projecting onto a device state ends at the state that has passed all others. -/
theorem top_of_projectStates {states before : List SubmissionState} {top : SubmissionState}
    {status : OutboxStatus} (hbefore : Top before top)
    (h : projectStates (.device top) states = .ok status) :
    ∃ top', status = .device top' ∧ Top (before ++ states) top' := by
  induction states generalizing before top with
  | nil =>
    cases h
    rw [List.append_nil]
    exact ⟨top, rfl, hbefore⟩
  | cons state states ih =>
    obtain ⟨middle, hfirst, hrest⟩ := List.foldlM_cons_ok h
    cases hproject : projectOutboxStatus (.device top) state with
    | error error =>
      rw [hproject] at hfirst
      cases hfirst
    | ok result =>
      obtain ⟨status', outcome⟩ := result
      rw [hproject] at hfirst
      cases hfirst
      obtain ⟨next, rfl, hnext⟩ := hbefore.project hproject
      obtain ⟨top', hstatus, htop'⟩ := ih hnext hrest
      refine ⟨top', hstatus, ?_, ?_⟩
      · have hmem := htop'.1
        simp only [List.cons_append, List.mem_cons, List.mem_append] at hmem ⊢
        tauto
      · intro other hother
        apply htop'.2
        simp only [List.cons_append, List.mem_cons, List.mem_append] at hother ⊢
        tauto

/-- Reports that are accepted in two orders end in the same status. -/
theorem projectStates_perm {status later later' : OutboxStatus}
    {states states' : List SubmissionState} (hperm : states.Perm states')
    (h : projectStates status states = .ok later)
    (h' : projectStates status states' = .ok later') : later = later' := by
  cases states with
  | nil =>
    rw [List.nil_perm] at hperm
    rw [hperm] at h'
    exact Except.ok.inj (h.symm.trans h')
  | cons state states =>
    cases states' with
    | nil => exact absurd hperm.symm (List.nil_perm.not.mpr (by simp))
    | cons state' states' =>
      have hmem := fun x => hperm.mem_iff (a := x)
      cases status with
      | committed => cases h
      | accepted =>
        -- the first report is taken whatever it is
        have hone : ∀ x : SubmissionState, Top [x] x := fun x => ⟨by simp, by simp⟩
        obtain ⟨top, rfl, htop⟩ := top_of_projectStates (hone state) h
        obtain ⟨top', rfl, htop'⟩ := top_of_projectStates (hone state') h'
        rw [htop.unique hmem htop']
      | device current =>
        have hone : Top [current] current := ⟨by simp, by simp⟩
        obtain ⟨top, rfl, htop⟩ := top_of_projectStates hone h
        obtain ⟨top', rfl, htop'⟩ := top_of_projectStates hone h'
        have hall : ∀ x, x ∈ [current] ++ state :: states ↔ x ∈ [current] ++ state' :: states' := by
          intro x
          rw [List.mem_append, List.mem_append, hmem x]
        rw [htop.unique hall htop']

/-- Project the reports of one submission onto a store, each with its clock reading. -/
def projectReports (store : MemoryChatStore) (submissionId : SubmissionId)
    (reports : List (Option UInt64 × SubmissionState)) : Except StoreFailure MemoryChatStore :=
  reports.foldlM (fun store report =>
    match store.projectSubmissionStatus report.1 submissionId report.2 with
    | (.ok _, later) => .ok later
    | (.error failure, _) => .error failure) store

/-- The outbox and the index after the row of a submission took a status. -/
def StatusSet (store later : MemoryChatStore) (id : OutboxId) (status : OutboxStatus) : Prop :=
  later.submissionIndex = store.submissionIndex ∧
    ∀ id', (later.outbox.get? id').map (·.status) =
      if id' = id then some status else (store.outbox.get? id').map (·.status)

/-- A projection that succeeds sets the status of the submission's row. -/
theorem statusSet_project {store later : MemoryChatStore} {now : Option UInt64}
    {submissionId : SubmissionId} {state : SubmissionState} {outcome : StatusProjectionOutcome}
    (h : store.projectSubmissionStatus now submissionId state = (.ok outcome, later)) :
    ∃ id row status, store.submissionIndex.get? submissionId = some id ∧
      store.outbox.get? id = some row ∧
      (projectOutboxStatus row.status state).map Prod.fst = .ok status ∧
      StatusSet store later id status := by
  unfold projectSubmissionStatus at h
  split at h
  · cases h
  next id hindex =>
  split at h
  · cases h
  next row hrow =>
  split at h
  · cases h
  split at h
  · cases h
  · next status hproject =>
    split at h
    · cases h
    cases h
    refine ⟨id, row, status, hindex, hrow, by rw [hproject]; rfl, ?_, ?_⟩
    · unfold appendActivity
      dsimp only
      split_ifs <;> rfl
    · intro id'
      rw [outbox_appendActivity, BTreeMap.get?_insert]
      split_ifs <;> rfl
  · next status outcome' hadvanced hproject =>
    cases h
    refine ⟨id, row, status, hindex, hrow, by rw [hproject]; rfl, rfl, ?_⟩
    -- a report that does not advance returns the status it found
    have hstatus : status = row.status := by
      unfold projectOutboxStatus at hproject
      split at hproject
      · cases hproject
      · cases hproject
        exact (hadvanced rfl).elim
      · next current hcurrent =>
        rw [hcurrent]
        split_ifs at hproject
        · cases hproject
          rfl
        · cases hproject
          rfl
        · cases hproject
          rfl
        · split at hproject
          · split_ifs at hproject
            cases hproject
            exact (hadvanced rfl).elim
          · cases hproject
            exact (hadvanced rfl).elim
    intro id'
    split_ifs with heq
    · rw [heq, hrow, hstatus, Option.map_some]
    · rfl

/-- Projecting reports projects their states onto the row of the submission. -/
theorem statusSet_projectReports {store later : MemoryChatStore} {submissionId : SubmissionId}
    {reports : List (Option UInt64 × SubmissionState)} {id : OutboxId} {row : OutboxRecord}
    (hindex : store.submissionIndex.get? submissionId = some id)
    (hrow : store.outbox.get? id = some row)
    (h : projectReports store submissionId reports = .ok later) :
    ∃ status, projectStates row.status (reports.map Prod.snd) = .ok status ∧
      StatusSet store later id status := by
  induction reports generalizing store row with
  | nil =>
    cases h
    refine ⟨row.status, rfl, rfl, fun id' => ?_⟩
    split_ifs with heq
    · rw [heq, hrow, Option.map_some]
    · rfl
  | cons report reports ih =>
    obtain ⟨middle, hfirst, hrest⟩ := List.foldlM_cons_ok h
    split at hfirst
    · next outcome middle' heq =>
      cases hfirst
      obtain ⟨id', row', status, hindex', hrow', hproject, hset⟩ := statusSet_project heq
      rw [hindex] at hindex'
      cases hindex'
      rw [hrow] at hrow'
      cases hrow'
      have hmiddle := hset.2 id
      rw [if_pos rfl] at hmiddle
      obtain ⟨next, hnext, hstatus⟩ := Option.map_eq_some_iff.mp hmiddle
      obtain ⟨status', hstates, hset'⟩ := ih (by rw [hset.1]; exact hindex) hnext hrest
      refine ⟨status', ?_, hset'.1.trans hset.1, fun id' => ?_⟩
      · rw [List.map_cons, projectStates, List.foldlM_cons, hproject]
        rw [hstatus] at hstates
        exact hstates
      · rw [hset'.2 id', hset.2 id']
        split_ifs <;> rfl
    · cases hfirst

/-- Reports that a store accepts in two orders leave the same statuses. -/
theorem projectReports_perm {store later later' : MemoryChatStore} {submissionId : SubmissionId}
    {reports reports' : List (Option UInt64 × SubmissionState)}
    (hperm : (reports.map Prod.snd).Perm (reports'.map Prod.snd))
    (h : projectReports store submissionId reports = .ok later)
    (h' : projectReports store submissionId reports' = .ok later') (id : OutboxId) :
    (later.outbox.get? id).map (·.status) = (later'.outbox.get? id).map (·.status) := by
  cases reports with
  | nil =>
    have hnil : reports' = [] := List.map_eq_nil_iff.mp (List.nil_perm.mp hperm)
    subst hnil
    rw [Except.ok.inj (h.symm.trans h')]
  | cons report reports =>
    obtain ⟨middle, hfirst, -⟩ := List.foldlM_cons_ok h
    split at hfirst
    · next heq =>
      obtain ⟨id', row, status, hindex, hrow, -⟩ := statusSet_project heq
      obtain ⟨status, hstates, hset⟩ := statusSet_projectReports hindex hrow h
      obtain ⟨status', hstates', hset'⟩ := statusSet_projectReports hindex hrow h'
      rw [hset.2 id, hset'.2 id, projectStates_perm hperm hstates hstates']
    · cases hfirst

/-- How the rows of a store move from here on. -/
structure StatusLaw (store : MemoryChatStore) : Prop where
  /-- A call advances the status of a row at most once, or starts the next attempt of a
  retryable failure. -/
  step : ∀ (call : Call) (id : OutboxId) (row : OutboxRecord), store.outbox.get? id = some row →
    ∃ row', (call.apply store).2.outbox.get? id = some row' ∧ RowStep call row row'
  /-- A terminal status is left only by a retry. -/
  terminal : ∀ (call : Call) (id : OutboxId) (row row' : OutboxRecord),
    store.outbox.get? id = some row → row.status.isTerminal = true →
    (call.apply store).2.outbox.get? id = some row' → row'.status ≠ row.status →
    ∃ now idempotencyKey location failure, call = .retryOutbox now id idempotencyKey location ∧
      row.status = .device (.failed failure) ∧ failure.isRetryable = true ∧
      row.currentAttempt.checkedNext = some row'.currentAttempt
  /-- Over any number of calls, within one attempt the status only advances and retained packet
  evidence stays the same. -/
  attempt : ∀ (calls : List Call) (id : OutboxId) (row : OutboxRecord),
    store.outbox.get? id = some row → ∃ row', (store.after calls).outbox.get? id = some row' ∧
      (row'.currentAttempt = row.currentAttempt →
        Relation.ReflTransGen StatusStep row.status row'.status ∧
        ∀ evidence evidence', row.status.retainedEvidence = some evidence →
          row'.status.retainedEvidence = some evidence' → evidence' = evidence)
  /-- The order of accepted reports does not matter. -/
  order : ∀ submissionId reports reports' later later',
    (reports.map Prod.snd).Perm (reports'.map Prod.snd) →
    projectReports store submissionId reports = .ok later →
    projectReports store submissionId reports' = .ok later' →
    ∀ id, (later.outbox.get? id).map (·.status) = (later'.outbox.get? id).map (·.status)

/-- In every reachable store the status of a row only moves forward. -/
theorem status_moves_forward (calls : List Call) : StatusLaw (new.after calls) := by
  have hsound := rowsSound_new.after calls
  have hstep := fun call : Call => ((call.change (new.after calls)).rows hsound).2
  refine ⟨hstep, ?_, ?_, ?_⟩
  · intro call id row row' hrow hterminal hrow' hchanged
    obtain ⟨later, hlater, hrowStep⟩ := hstep call id row hrow
    rw [hrow'] at hlater
    cases hlater
    cases hrowStep with
    | same hattempt hstatus => exact absurd hstatus hchanged
    | advance hattempt hstatus =>
      rw [hstatus.not_terminal] at hterminal
      cases hterminal
    | @retry now idempotencyKey location failure hcall hfailed hretryable hattempt hstatus =>
      rw [(hsound id row hrow).filed] at hcall
      exact ⟨now, idempotencyKey, location, failure, hcall, hfailed, hretryable, hattempt⟩
  · intro more id row hrow
    obtain ⟨row', hrow', -, hpath⟩ := hsound.progress more hrow
    refine ⟨row', hrow', fun hattempt => ?_⟩
    exact ⟨hpath hattempt, fun _ _ => evidence_of_path (hpath hattempt)⟩
  · intro submissionId reports reports' later later' hperm h h' id
    exact projectReports_perm hperm h h' id

end Chat
