import ReticulumFirmware.LxmfStore.FirstArrival

/-!
# Power loss in a commit

A commit that loses power anywhere has either not happened or has happened as a whole: the next
mount finds the index before it, or that index with the candidate's entry last.
-/

namespace LxmfStore

open Nor Lxmf

variable {ε : Type} {φ ψ : Faults} {sha256 : Sha256} {access : BoundLxmfStore} {g : Flash}
  {pending : PendingMutation} {candidate : InboundMessageCandidate} {resumed : Bool}
  {store : MountedLxmfStore} {system : LxmfSystem}

section Loss

/-- A commit that lost power left its span for another attempt. -/
theorem commit_lost {f : Flash} {position : Position} {before : Option PendingMutation}
    (h : Orderly ε sha256 access f (some store) position before)
    (hadmission : (admission sha256 access store candidate : Except (LxmfCommitError ε) Admission) =
      .ok (.append pending resumed)) {tr : List Mutation}
    (hlost : Prog.Exec ψ (commit (ε := ε) sha256 access store candidate) f tr none g) :
    PendingSpan ε sha256 access g position pending ∧ Found ε sha256 access g position := by
  have hadmitted := admitted hadmission
  have hmounts := h.mounts store rfl
  obtain ⟨hspan, herased⟩ := h.behind.ready hmounts hadmitted
  have hattempt := wp_attempt (ε := ε) (φ := ψ) hspan.allocated
    ⟨hadmitted.replay, hadmitted.metadata⟩ hspan.state herased
  have hkept : Kept ε sha256 access f pending g := by
    rw [commit, hadmission] at hlost
    dsimp only at hlost
    obtain ⟨-, hfirst⟩ | ⟨result, f', tr₁, tr₂, -, hfirst, hrest⟩ := hlost.bind_cases
    · exact hattempt.crashes hfirst
    · have hresult := hattempt.returns hfirst
      cases result with
      | error error =>
        cases hrest with
        | cut => exact hresult
      | ok result =>
        have hcompleted : Completed sha256 access f pending candidate result f' := hresult
        cases hrest with
        | cut => exact hcompleted.kept
  exact ⟨hspan.kept hkept, h.found.kept hspan.first hkept⟩

/-- In every run, whatever the backend reports and wherever power was lost before: the mount that
follows a power loss in an admitted commit, into an index at least as large, succeeds with the
entries before the commit, and with the candidate's entry after them exactly if the whole commit
marker was programmed. -/
theorem commit_atomic (h : LxmfSystem.Reachable ε φ sha256 access system)
    (hstore : system.store = some store)
    (hadmission : (admission sha256 access store candidate : Except (LxmfCommitError ε) Admission) =
      .ok (.append pending resumed)) {tr : List Mutation}
    (hlost : Prog.Exec ψ (commit (ε := ε) sha256 access store candidate) system.flash tr none g)
    {capacity : ℕ} (hcapacity : store.capacity ≤ capacity) :
    pending.handle.get = store.nextHandle ∧ pending.firstExtent = store.appendExtent ∧
      ∃ mounted, (mount sha256 access capacity : MountAction ε MountedLxmfStore).answer g =
          .ok mounted ∧
        mounted.entries = if SpanMarked g pending then
            store.entries ++ [committedEntry sha256 candidate pending.handle pending.firstExtent
              pending.extentCount]
          else store.entries := by
  obtain ⟨position, before, horderly⟩ := h.orderly
  rw [hstore] at horderly
  have hadmitted := admitted hadmission
  have hmounts := horderly.mounts store rfl
  have hvalid := validShape_of_read hmounts.readable
  obtain ⟨hspan, hfound⟩ := commit_lost horderly hadmission hlost
  have hentries : store.entries = position.entries := by rw [hmounts.store_eq]
  have hroom := hadmitted.room
  have hlength := hmounts.room
  refine ⟨?_, ?_, ?_⟩
  · rw [hspan.handle, hmounts.store_eq]
  · rw [hspan.first, hmounts.store_eq]
  obtain ⟨next, hnext, hblank, hcases⟩ := hspan.settles hfound hvalid
  obtain ⟨hmarked, rfl⟩ | ⟨hunmarked, hsame⟩ := hcases
  · refine ⟨_, hnext.mount hmounts.readable hblank ?_, ?_⟩
    · rw [Position.push, List.length_append, List.length_singleton, ← hentries]
      rw [← hentries] at hlength
      omega
    · rw [if_pos hmarked, Position.push, hentries,
        pendingEntry_eq ⟨hadmitted.replay, hadmitted.metadata⟩]
  · refine ⟨_, hnext.mount hmounts.readable hblank ?_, ?_⟩
    · rw [hsame]
      omega
    · rw [if_neg hunmarked, hentries]
      exact hsame

end Loss

section Sample

/-- A wire of 112 bytes has a length of four bytes. -/
theorem second_lt : 16 + 96 < 2 ^ 32 := by decide

/-- Another complete message of 112 bytes. -/
def secondCandidate : InboundMessageCandidate :=
  paddedCandidate 96 second_lt

/-- The second handle fits into eight bytes. -/
theorem two_lt_two_pow_64 : 2 < 2 ^ 64 := by decide

/-- The mutation that commits the second message behind the sample. -/
def secondPending (sha256 : Sha256) : PendingMutation where
  replay := candidateReplay sha256 secondCandidate
  metadata := secondCandidate.metadata
  firstExtent := 1
  extentCount := 1
  handle := ⟨2, Nat.two_pos, two_lt_two_pow_64⟩

/-- The second message is admitted to the second extent. -/
theorem admission_second (sha256 : Sha256) :
    (admission sha256 twoExtents (halfStore sha256) secondCandidate :
      Except (LxmfCommitError ε) Admission) = .ok (.append (secondPending sha256) false) := by
  exact (admission_of_fresh twoExtents_writable (halfStore_same sha256)
    (halfStore_fresh sha256 second_lt) (halfStore_room sha256) rfl).trans
    (allocate_fresh rfl requiredExtents_sample (by decide : ¬(2 - 1 < 1 ∨ 2 ^ 16 ≤ 1)) rfl)

/-- The first byte of the claim of the second message. -/
def tornSecond (f : Flash) : Flash := f.program 4096 [0x6d]

/-- Power may be lost inside the first program of a commit of the second message. -/
theorem exec_commit_torn {f : Flash} (herased : SpanErased f (secondPending sha256))
    (hcut : ψ.cut = true) :
    ∃ tr, Prog.Exec ψ (commit (ε := ε) sha256 twoExtents (halfStore sha256) secondCandidate) f tr
      none (tornSecond f) := by
  have hprepare : Prog.Exec ψ (prepareSpan sha256 twoExtents secondCandidate (secondPending sha256)
      false : CommitAction ε (Option IndexEntry)).run f [] (some (.ok none)) f := by
    have hspan : Prog.Exec ψ (spanIsErased (LxmfCommitError.backend .verification) 1 1 :
        CommitAction ε Bool).run f [] (some (.ok true)) f :=
      (query_spanIsErased 1 1).exec_eval ψ ((query_spanIsErased 1 1).eval_eq f ▸
        congrArg (·, f) (answer_spanIsErased herased))
    exact hspan.action_bind (.done _ _)
  obtain ⟨claimed, rest, hclaim⟩ : ∃ claimed rest, programRecord (ε := ε) sha256 twoExtents
      secondCandidate 1 1 (secondPending sha256).handle = programClaim 4096 ([0x6d] ++
        (claimMarker.tail ++ List.replicate 224 erasedByte)) claimed 1 :: rest := ⟨_, _, rfl⟩
  obtain ⟨tr, hprogram⟩ : ∃ tr, Prog.Exec ψ (CheckedPatch.actAll (programRecord sha256 twoExtents
      secondCandidate 1 1 (secondPending sha256).handle) : CommitAction ε Unit).run f tr none
        (tornSecond f) := by
    rw [hclaim]
    exact ⟨_, Prog.Exec.action_bind_none
      (.writeCut hcut (Flash.torn_program_append f 4096 [0x6d] _))⟩
  have hwrite : Prog.Exec ψ (writeRecord sha256 twoExtents secondCandidate (secondPending sha256) :
      CommitAction ε IndexEntry).run f tr none (tornSecond f) := hprogram.action_bind_none
  rw [commit, admission_second]
  exact ⟨_, Prog.Exec.bind_none (hprepare.action_bind hwrite.action_bind_none)⟩

/-- The commit of a second message loses power at its end, and inside its first program: the next
mount finds both messages, and the first one. -/
theorem commit_atomic_sample : ∃ f : Flash,
    (∃ tr g mounted, Prog.Exec Faults.programCuts (commit (ε := Unit) Nor.sha256 twoExtents
        (halfStore Nor.sha256) secondCandidate) f tr none g ∧
      (mount Nor.sha256 twoExtents 4 : MountAction Unit MountedLxmfStore).answer g = .ok mounted ∧
      mounted.entries = [sampleEntry Nor.sha256,
        committedEntry Nor.sha256 secondCandidate (secondPending Nor.sha256).handle 1 1]) ∧
    ∃ tr mounted, Prog.Exec Faults.programCuts (commit (ε := Unit) Nor.sha256 twoExtents
        (halfStore Nor.sha256) secondCandidate) f tr none (tornSecond f) ∧
      (mount Nor.sha256 twoExtents 4 : MountAction Unit MountedLxmfStore).answer (tornSecond f) =
        .ok mounted ∧
      mounted.entries = [sampleEntry Nor.sha256] := by
  obtain ⟨system, hreachable, -, hstore, hlive⟩ := committedSystem_reachable
    (admission_sample Nor.sha256)
  have hlive : Live Unit Faults.none Nor.sha256 twoExtents system.flash (halfStore Nor.sha256) :=
    hlive
  have hadmission : (admission Nor.sha256 twoExtents (halfStore Nor.sha256) secondCandidate :
      Except (LxmfCommitError Unit) Admission) = .ok (.append (secondPending Nor.sha256) false) :=
    admission_second Nor.sha256
  have herased := (hlive.serving.ready (admitted hadmission)).2 rfl
  refine ⟨system.flash, ?_, ?_⟩
  · obtain ⟨outcome, g, hresult, hfull⟩ := hlive.commits hadmission
    obtain ⟨tr, hrun⟩ := Prog.exec_run Faults.programCuts (commit (ε := Unit) Nor.sha256 twoExtents
      (halfStore Nor.sha256) secondCandidate) system.flash
    rw [hresult] at hrun
    have hmarked : SpanMarked g (secondPending Nor.sha256) := hfull.marked ⟨rfl, rfl⟩
    obtain ⟨-, -, mounted, hmounted, hentries⟩ :=
      commit_atomic hreachable hstore hadmission (hrun.crash rfl) le_rfl
    rw [if_pos hmarked] at hentries
    exact ⟨tr, g, mounted, hrun.crash rfl, hmounted, hentries⟩
  · obtain ⟨tr, hlost⟩ := exec_commit_torn (ε := Unit) herased (ψ := Faults.programCuts) rfl
    have hunmarked : ¬SpanMarked (tornSecond system.flash) (secondPending Nor.sha256) := by
      refine not_marked_of_erased (Flash.Torn.program_erased
        (Flash.torn_program_append system.flash 4096 [0x6d] []) ((herased 0 Nat.one_pos).mono ?_ ?_)
          (Or.inr ?_))
      · exact Nat.le_add_right _ _
      · decide
      · decide
    obtain ⟨-, -, mounted, hmounted, hentries⟩ :=
      commit_atomic hreachable hstore hadmission hlost le_rfl
    rw [if_neg hunmarked] at hentries
    exact ⟨_, mounted, hlost, hmounted, hentries⟩

end Sample

end LxmfStore
