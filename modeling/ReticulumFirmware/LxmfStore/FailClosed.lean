import ReticulumFirmware.LxmfStore.PowerLoss

/-!
# Mounts of arbitrary contents

Whatever the region contains, a commit after a mount that succeeds keeps the records that were
indexed, and gives a new one a handle above theirs.
-/

namespace LxmfStore

open Nor Lxmf

variable {ε : Type} {φ : Faults} {sha256 : Sha256} {access : BoundLxmfStore} {f g : Flash}
  {store : MountedLxmfStore}

section Commits

variable {candidate : InboundMessageCandidate}

/-- A commit to a store with a blank tail changes nothing below the append position, wherever it
ends, and gives a new record the next handle. -/
theorem commit_keeps_below (hpending : store.pending = none)
    (hblank : validateSameBinding store.binding access.binding = .ok () →
      BlankFrom access f store.appendExtent) {tr : List Mutation}
    {r : Option (Except (LxmfCommitError ε) LxmfCommitOutcome × MountedLxmfStore)}
    (hrun : Prog.Exec φ (commit sha256 access store candidate) f tr r g) :
    f.Agree g 0 (extentOffset store.appendExtent) ∧
      ∀ receipt after, r = some (.ok (.committed receipt), after) →
        receipt.handle.get = store.nextHandle := by
  have hsame : ∀ {answer : Except (LxmfCommitError ε) LxmfCommitOutcome × MountedLxmfStore},
      (∀ receipt, answer.1 ≠ .ok (.committed receipt)) →
      Prog.Exec φ (.pure answer : Prog ε _) f tr r g →
      f.Agree g 0 (extentOffset store.appendExtent) ∧
        ∀ receipt after, r = some (.ok (.committed receipt), after) →
          receipt.handle.get = store.nextHandle := by
    rintro answer hanswer hpure
    cases hpure with
    | done =>
      refine ⟨fun a _ _ => rfl, fun receipt after h => ?_⟩
      exact absurd (congrArg Prod.fst (Option.some.inj h)) (hanswer receipt)
    | cut => exact ⟨fun a _ _ => rfl, fun receipt after h => by cases h⟩
  rw [commit] at hrun
  cases hadmission : (admission sha256 access store candidate :
      Except (LxmfCommitError ε) Admission) with
  | error error =>
    rw [hadmission] at hrun
    exact hsame (fun receipt h => by cases h) hrun
  | ok admission =>
    rw [hadmission] at hrun
    cases admission with
    | alreadyDurable receipt => exact hsame (fun receipt h => by cases h) hrun
    | append pending resumed =>
      have hadmitted := admitted hadmission
      have htail : Tail sha256 access (fun _ => True) f store :=
        .idle hpending (hblank hadmitted.same)
      have hready := htail.ready hadmitted
      have hfor : IsFor sha256 pending candidate := ⟨hadmitted.replay, hadmitted.metadata⟩
      have hattempt := wp_appendRecord (ε := ε) (φ := φ) hready.allocated hfor trivial
        hready.behind hready.span hready.fresh
      dsimp only at hrun
      obtain ⟨rfl, hlost⟩ | ⟨result, f', tr₁, tr₂, rfl, hfirst, hrest⟩ := hrun.bind_cases
      · exact ⟨(hattempt.crashes hlost).agree hready.first, fun receipt after h => by cases h⟩
      · have hresult := hattempt.returns hfirst
        cases result with
        | error error =>
          have hkept := hresult.agree hready.first
          cases hrest with
          | done => exact ⟨hkept, fun receipt after h => by cases h⟩
          | cut => exact ⟨hkept, fun receipt after h => by cases h⟩
        | ok result =>
          have hkept := hresult.1.stopped.agree hready.first
          cases hrest with
          | done =>
            refine ⟨hkept, fun receipt after h => ?_⟩
            split_ifs at h
            · cases h
            · obtain ⟨rfl, -⟩ : result.1.receipt = receipt ∧ True := by
                cases h
                exact ⟨rfl, trivial⟩
              rw [hresult.1.entry_eq, ← hready.handle]
              rfl
          | cut => exact ⟨hkept, fun receipt after h => by cases h⟩

/-- Views of one binding have one length. -/
theorem length_of_same {expected actual : LxmfStoreBinding}
    (h : validateSameBinding expected actual = .ok ()) : expected.length = actual.length := by
  unfold validateSameBinding at h
  split_ifs at h with _ hrange
  rw [not_or, not_not, not_not] at hrange
  exact hrange.2

/-- A mount that succeeds, whatever the region contains and into an index of any capacity, changes
nothing and gives a safe index; no commit that follows, through any view, under any faults and
wherever it ends, changes the extents or the wire of an entry or takes its handle. -/
theorem mount_fails_closed {capacity : ℕ} {tr : List Mutation}
    (hrun : Prog.Exec φ (mount sha256 access capacity : MountAction ε MountedLxmfStore).run f tr
      (some (.ok store)) g) :
    g = f ∧ SafelyMounted sha256 access f store ∧
      ∀ (view : BoundLxmfStore) (candidate : InboundMessageCandidate) (ψ : Faults)
        (tr' : List Mutation)
        (r : Option (Except (LxmfCommitError ε) LxmfCommitOutcome × MountedLxmfStore)) (g' : Flash),
        Prog.Exec ψ (commit sha256 view store candidate) f tr' r g' →
        (∀ entry ∈ store.entries,
          f.Agree g' (extentOffset entry.firstExtent)
            (extentOffset (entry.firstExtent + entry.extentCount)) ∧
          storedWire g' entry = storedWire f entry) ∧
        ∀ receipt after, r = some (.ok (.committed receipt), after) →
          ∀ entry ∈ store.entries, entry.receipt.handle.get < receipt.handle.get := by
  obtain ⟨hflash, -, hanswer⟩ := (query_mount capacity).exec_answer hrun
  obtain ⟨hsafe, hpending⟩ := safelyMounted (hanswer store rfl)
  refine ⟨hflash, hsafe, fun view candidate ψ tr' r g' hcommit => ?_⟩
  have hblank : validateSameBinding store.binding view.binding = .ok () →
      BlankFrom view f store.appendExtent := by
    intro hsame extent hfrom hto
    rw [← length_of_same hsame, hsafe.binding] at hto
    exact hsafe.blank extent hfrom hto
  obtain ⟨hagree, hhandle⟩ := commit_keeps_below hpending hblank hcommit
  refine ⟨fun entry hentry => ?_, fun receipt after hr entry hentry => ?_⟩
  · have hkept : f.Agree g' (extentOffset entry.firstExtent)
        (extentOffset (entry.firstExtent + entry.extentCount)) :=
      hagree.mono (Nat.zero_le _) (Nat.mul_le_mul_right _ (hsafe.below entry hentry))
    exact ⟨hkept, by rw [storedWire, storedWire, payloadAt_congr hkept]⟩
  · rw [hhandle receipt after hr]
    exact hsafe.handle_lt entry hentry

/-- A partition with one message is mounted, and the commit of a second one keeps its wire. -/
theorem mount_fails_closed_sample : ∃ (f : Flash) (store : MountedLxmfStore) (entry : IndexEntry),
    store.entries = [entry] ∧ SafelyMounted Nor.sha256 twoExtents f store ∧
      ∃ tr outcome after g, Prog.Exec Faults.none (commit (ε := Unit) Nor.sha256 twoExtents store
          secondCandidate) f tr (some (.ok outcome, after)) g ∧
        after.entries.length = 2 ∧ storedWire g entry = storedWire f entry := by
  obtain ⟨system, hreachable, -, hstore, hlive⟩ := committedSystem_reachable
    (admission_sample Nor.sha256)
  have hlive : Live Unit Faults.none Nor.sha256 twoExtents system.flash (halfStore Nor.sha256) :=
    hlive
  obtain ⟨position, pending, horderly⟩ := hreachable.orderly
  rw [hstore] at horderly
  have hmounts := horderly.mounts (halfStore Nor.sha256) rfl
  have hidle : pending = none := by
    have hpending : (halfStore Nor.sha256).pending = pending := by rw [hmounts.store_eq]
    exact hpending.symm
  subst hidle
  have hanswer : (mount Nor.sha256 twoExtents 4 : MountAction Unit MountedLxmfStore).answer
      system.flash = .ok (halfStore Nor.sha256) := horderly.remounts (by decide : 1 ≤ 4)
  obtain ⟨tr, hmount⟩ := Prog.exec_run Faults.none
    (mount Nor.sha256 twoExtents 4 : MountAction Unit MountedLxmfStore).run system.flash
  change Prog.Exec _ _ _ _ (some ((mount Nor.sha256 twoExtents 4 :
    MountAction Unit MountedLxmfStore).answer system.flash)) _ at hmount
  rw [hanswer] at hmount
  obtain ⟨-, hsafe, hkeeps⟩ := mount_fails_closed hmount
  obtain ⟨outcome, g, hresult, -⟩ := hlive.commits (admission_second Nor.sha256)
  obtain ⟨tr', hrun⟩ := Prog.exec_run Faults.none (commit (ε := Unit) Nor.sha256 twoExtents
    (halfStore Nor.sha256) secondCandidate) system.flash
  rw [hresult] at hrun
  obtain ⟨hkept, -⟩ := hkeeps twoExtents secondCandidate Faults.none tr' _ g hrun
  exact ⟨system.flash, halfStore Nor.sha256, sampleEntry Nor.sha256, rfl, hsafe,
    tr', outcome, _, g, hrun, rfl, (hkept _ List.mem_cons_self).2⟩

end Commits

end LxmfStore
