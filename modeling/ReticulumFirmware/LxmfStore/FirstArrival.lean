import Mathlib.Data.List.Nodup
import ReticulumFirmware.LxmfStore.Retries

/-!
# The first arrival of a message

A message identifier is indexed once. A candidate whose identifier is indexed never reaches the
flash: it gets the receipt of the first arrival, or is told apart from it. Handles are given in
increasing order over the whole run, mounts and power losses included.
-/

namespace LxmfStore

open Nor Lxmf

variable {ε : Type} {φ : Faults} {sha256 : Sha256} {access : BoundLxmfStore} {f g : Flash}
  {store store' : MountedLxmfStore} {system : LxmfSystem} {candidate : InboundMessageCandidate}
  {position : Position} {before : Option PendingMutation} {pending : PendingMutation}

section Access

/-- What a run has come to without a view that a commit accepts. -/
structure Untouched (access : BoundLxmfStore) (system : LxmfSystem) : Prop where
  blank : BlankFrom access system.flash 0
  entries : ∀ store, system.store = some store → store.entries = []

/-- A commit through a view that it does not accept changes nothing. -/
theorem commit_of_refused (hrefused : validateWriteAccess access ≠ .ok ()) :
    ∃ error, (commit (ε := ε) sha256 access store candidate) = .pure (.error error, store) := by
  obtain ⟨error, herror⟩ : ∃ error, (validateWriteAccess access >>= fun _ =>
      validateSameBinding store.binding access.binding) = .error error := by
    cases hvalid : validateWriteAccess access with
    | ok _ => exact absurd hvalid hrefused
    | error error => exact ⟨error, rfl⟩
  refine ⟨.binding error, ?_⟩
  rw [commit, admission, herror]

/-- Without write access no step touches the region. -/
theorem LxmfSystem.Step.untouched {next : LxmfSystem}
    (hstep : LxmfSystem.Step ε φ sha256 access system next)
    (hrefused : validateWriteAccess access ≠ .ok ()) (h : Untouched access system) :
    Untouched access next := by
  cases hstep with
  | @mount capacity tr r g hrun =>
    obtain ⟨rfl, -, hanswer⟩ := (query_mount capacity).exec_answer hrun
    refine ⟨h.blank, fun store hstore => ?_⟩
    match r, hanswer, hstore with
    | some (.ok mounted), hanswer, hstore =>
      obtain rfl := Option.some.inj hstore
      have hmounted := hanswer _ rfl
      obtain ⟨hread, -⟩ := walk_of_mount hmounted
      rw [mount_erased hread h.blank] at hmounted
      rw [← Except.ok.inj hmounted]
  | @commit store candidate tr r g hstore hrun =>
    obtain ⟨error, hcommit⟩ := @commit_of_refused ε sha256 access store candidate hrefused
    rw [hcommit] at hrun
    cases hrun with
    | done => exact ⟨h.blank, fun store' hsome => Option.some.inj hsome ▸ h.entries store hstore⟩
    | cut => exact ⟨h.blank, fun store' hsome => absurd hsome (by simp [afterCommit])⟩
  | reset => exact ⟨h.blank, fun store hsome => absurd hsome (by simp)⟩

/-- Messages are indexed only through a view that a commit accepts. -/
theorem LxmfSystem.Reachable.writable (h : LxmfSystem.Reachable ε φ sha256 access system)
    (hstore : system.store = some store) {entry : IndexEntry} (hentry : entry ∈ store.entries) :
    validateWriteAccess access = .ok () := by
  by_contra hrefused
  have huntouched : Untouched access system := by
    clear hstore hentry
    induction h with
    | @fresh system hfresh =>
      obtain ⟨hblank, hnone, -, -⟩ := hfresh
      refine ⟨fun extent _ hto => hblank extent hto, fun store hsome => ?_⟩
      exact absurd (hnone.symm.trans hsome) (by simp)
    | step _ hstep ih => exact hstep.untouched hrefused ih
  rw [huntouched.entries store hstore] at hentry
  exact absurd hentry List.not_mem_nil

end Access

section Handles

/-- A committed message has the next handle. -/
theorem Orderly.committed_handle (h : Orderly ε sha256 access f (some store) position before)
    {tr : List Mutation} {receipt : DurableMessageReceipt}
    (hrun : Prog.Exec φ (LxmfStore.commit (ε := ε) sha256 access store candidate) f tr
      (some (.ok (.committed receipt), store')) g) :
    receipt.handle.get = position.maxHandle + 1 := by
  rw [LxmfStore.commit] at hrun
  cases hadmission : (admission sha256 access store candidate :
      Except (LxmfCommitError ε) Admission) with
  | error error =>
    rw [hadmission] at hrun
    cases hrun
  | ok admission =>
    rw [hadmission] at hrun
    cases admission with
    | alreadyDurable receipt => cases hrun
    | append pending resumed =>
      have hadmitted := admitted hadmission
      obtain ⟨hspan, herased⟩ := h.behind.ready (h.mounts store rfl) hadmitted
      have hattempt := wp_attempt (ε := ε) (φ := φ) hspan.allocated
        ⟨hadmitted.replay, hadmitted.metadata⟩ hspan.state herased
      dsimp only at hrun
      obtain ⟨hnone, -⟩ | ⟨result, f', tr₁, tr₂, -, hfirst, hrest⟩ := hrun.bind_cases
      · cases hnone
      · have hresult := hattempt.returns hfirst
        cases result with
        | error error => cases hrest
        | ok result =>
          have hcompleted : Completed sha256 access f pending candidate result f' := hresult
          obtain ⟨entry, recovered⟩ := result
          cases recovered with
          | true => cases hrest
          | false =>
            cases hrest
            obtain rfl : entry = pendingEntry pending := hcompleted.entry_eq
            exact hspan.handle

/-- A logged message has its entry. -/
theorem Logged.entry {entries : List IndexEntry}
    {acknowledged : List (DurableMessageReceipt × InboundMessageCandidate)}
    {message : DurableMessageReceipt × InboundMessageCandidate} (h : Logged f entries acknowledged)
    (hmessage : message ∈ acknowledged) : ∃ entry ∈ entries, Acknowledged f entry message := by
  obtain ⟨logged, hsublist, hlogged⟩ := h
  obtain ⟨entry, hentry, hfirst⟩ : ∃ entry ∈ logged, Acknowledged f entry message := by
    clear hsublist
    induction hlogged with
    | nil => exact absurd hmessage List.not_mem_nil
    | cons hfirst _ ih =>
      rcases List.mem_cons.mp hmessage with rfl | hrest
      · exact ⟨_, List.mem_cons_self, hfirst⟩
      · obtain ⟨entry, hentry, hfound⟩ := ih hrest
        exact ⟨entry, List.mem_cons_of_mem _ hentry, hfound⟩
  exact ⟨entry, hsublist.subset hentry, hfirst⟩

/-- Acknowledged messages are indexed while a store is mounted. -/
theorem LxmfSystem.Reachable.acknowledged (h : LxmfSystem.Reachable ε φ sha256 access system)
    (hstore : system.store = some store) {message : DurableMessageReceipt × InboundMessageCandidate}
    (hmessage : message ∈ system.acknowledged) :
    ∃ entry ∈ store.entries, Acknowledged system.flash entry message := by
  obtain ⟨capacity, position, hsound⟩ := h.sound
  rw [← (hsound.mounted store hstore).entries]
  exact hsound.logged.entry hmessage

/-- Handles of acknowledged messages increase. -/
theorem LxmfSystem.Reachable.handles (h : LxmfSystem.Reachable ε φ sha256 access system) :
    system.acknowledged.Pairwise fun earlier later =>
      earlier.1.handle.get < later.1.handle.get := by
  induction h with
  | fresh hfresh =>
    rw [hfresh.2.2.2]
    exact .nil
  | @step system next hreachable hstep ih =>
    cases hstep with
    | mount => exact ih
    | reset => exact ih
    | @commit store candidate tr r g hstore hrun =>
      match r, hrun with
      | none, _ => exact ih
      | some (.error _, _), _ => exact ih
      | some (.ok (.alreadyDurable _), _), _ => exact ih
      | some (.ok (.committed receipt), store'), hrun =>
        obtain ⟨position, pending, horderly⟩ := hreachable.orderly
        rw [hstore] at horderly
        refine List.pairwise_append.mpr ⟨ih, List.pairwise_singleton _ _, ?_⟩
        intro earlier hearlier later hlater
        rw [List.mem_singleton.mp hlater, horderly.committed_handle hrun]
        obtain ⟨entry, hentry, hacknowledged⟩ := hreachable.acknowledged hstore hearlier
        rw [(horderly.mounts store rfl).store_eq] at hentry
        rw [← hacknowledged.receipt]
        exact Nat.lt_succ_of_le (horderly.found.indexed.handle_le entry hentry)

end Handles

section Arrival

/-- A binding is the same as itself. -/
theorem validateSameBinding_self (binding : LxmfStoreBinding) :
    validateSameBinding binding binding = .ok () := by
  simp [validateSameBinding]

/-- The entry of an indexed identifier is found. -/
theorem entryForMessage_eq
    (hmessages : store.entries.Pairwise fun earlier later =>
      earlier.receipt.messageId ≠ later.receipt.messageId) {entry : IndexEntry}
    (hentry : entry ∈ store.entries) :
    store.entryForMessage entry.receipt.messageId = some entry := by
  cases hfound : store.entryForMessage entry.receipt.messageId with
  | none => exact absurd (decide_eq_true rfl) (List.find?_eq_none.mp hfound entry hentry)
  | some found =>
    rw [MountedLxmfStore.entryForMessage] at hfound
    have htest := List.find?_some hfound
    have hsame : found.receipt.messageId = entry.receipt.messageId := of_decide_eq_true htest
    have hnodup : (store.entries.map fun entry => entry.receipt.messageId).Nodup :=
      List.pairwise_map.mpr hmessages
    rw [List.inj_on_of_nodup_map hnodup (List.mem_of_find?_eq_some hfound) hentry hsame]

/-- A candidate with an indexed identifier is classified against the first arrival. -/
theorem commit_of_indexed (hvalid : validateWriteAccess access = .ok ())
    (hsame : validateSameBinding store.binding access.binding = .ok ()) {entry : IndexEntry}
    (hfound : store.entryForMessage candidate.metadata.messageId = some entry)
    (hid : candidate.metadata.messageId = entry.receipt.messageId) :
    commit (ε := ε) sha256 access store candidate =
      .pure (if candidate.metadata.authenticatedFingerprint =
        entry.receipt.fingerprint.authenticated
        then .ok (.alreadyDurable entry.receipt)
        else .error (.hashCollision candidate.metadata.messageId), store) := by
  have hidentifier : ¬(candidateReplay sha256 candidate).authenticated.messageId ≠
      entry.receipt.fingerprint.authenticated.messageId := not_not.mpr hid
  rw [commit, admission, checks_ok hvalid hsame]
  dsimp only
  rw [hfound]
  dsimp only
  rw [classifyReplay, ReplayFingerprint.classifyAgainst, if_neg hidentifier]
  by_cases hagree : candidate.metadata.authenticatedFingerprint =
    entry.receipt.fingerprint.authenticated
  · have hreplay : ¬(candidateReplay sha256 candidate).authenticated ≠
        entry.receipt.fingerprint.authenticated := not_not.mpr hagree
    rw [if_pos hagree, if_neg hreplay]
    split_ifs
    · rfl
    · rfl
  · have hreplay : (candidateReplay sha256 candidate).authenticated ≠
        entry.receipt.fingerprint.authenticated := hagree
    rw [if_neg hagree, if_pos hreplay]

/-- In every run, whatever the backend reports and wherever power is lost: handles of committed
messages increase over the whole run. While a store is mounted, no two entries have one message
identifier, every handle is below the next one, and every committed message has its entry. A
candidate whose identifier is indexed changes neither the flash nor the store and reads nothing:
it is answered with the receipt of the first arrival if its authenticated fingerprint is the one
of the first arrival, whatever its exact wire, and otherwise refused. -/
theorem first_arrival_wins (h : LxmfSystem.Reachable ε φ sha256 access system) :
    (system.acknowledged.Pairwise fun earlier later =>
      earlier.1.handle.get < later.1.handle.get) ∧
    ∀ store, system.store = some store →
      (store.entries.Pairwise fun earlier later =>
        earlier.receipt.messageId ≠ later.receipt.messageId) ∧
      (∀ entry ∈ store.entries, entry.receipt.handle.get < store.nextHandle) ∧
      (∀ message ∈ system.acknowledged, ∃ entry ∈ store.entries,
        entry.receipt = message.1 ∧ entry.metadata = message.2.metadata) ∧
      ∀ entry ∈ store.entries, ∀ candidate : InboundMessageCandidate,
        candidate.metadata.messageId = entry.receipt.messageId →
        commit (ε := ε) sha256 access store candidate =
          .pure (if candidate.metadata.authenticatedFingerprint =
              entry.receipt.fingerprint.authenticated
            then .ok (.alreadyDurable entry.receipt)
            else .error (.hashCollision candidate.metadata.messageId), store) := by
  refine ⟨h.handles, fun store hstore => ?_⟩
  obtain ⟨position, pending, horderly⟩ := h.orderly
  have hmounts := horderly.mounts store hstore
  have hindexed := horderly.found.indexed
  have hentries : store.entries = position.entries := by rw [hmounts.store_eq]
  have hmessages : store.entries.Pairwise fun earlier later =>
      earlier.receipt.messageId ≠ later.receipt.messageId := by
    rw [hentries]
    exact hindexed.messages
  refine ⟨hmessages, fun entry hentry => ?_, fun message hmessage => ?_,
    fun entry hentry candidate hid => ?_⟩
  · have hnext : store.nextHandle = position.maxHandle + 1 := by rw [hmounts.store_eq]
    rw [hentries] at hentry
    rw [hnext]
    exact Nat.lt_succ_of_le (hindexed.handle_le entry hentry)
  · obtain ⟨entry, hentry, hacknowledged⟩ := h.acknowledged hstore hmessage
    exact ⟨entry, hentry, hacknowledged.receipt, hacknowledged.metadata⟩
  · have hsame : validateSameBinding store.binding access.binding = .ok () := by
      rw [hmounts.store_eq]
      exact validateSameBinding_self _
    refine commit_of_indexed (h.writable hstore hentry) hsame ?_ hid
    rw [hid]
    exact entryForMessage_eq hmessages hentry

/-- An erased partition of two extents with a mounted store. -/
def mountedSystem : LxmfSystem := ⟨Flash.erased, some (emptyStore twoExtents), [], []⟩

/-- The mounted store of two extents is reached. -/
theorem mountedSystem_reachable (sha256 : Sha256) :
    LxmfSystem.Reachable ε φ sha256 twoExtents mountedSystem := by
  have hfresh : LxmfSystem.Fresh twoExtents ⟨Flash.erased, none, [], []⟩ :=
    ⟨fun _ _ _ _ => rfl, rfl, rfl, rfl⟩
  obtain ⟨tr, hrun⟩ := Prog.exec_run φ
    (mount sha256 twoExtents 4 : MountAction ε MountedLxmfStore).run Flash.erased
  have hflash := ((query_mount 4).exec_answer hrun).1
  have hanswer : ((mount sha256 twoExtents 4 : MountAction ε MountedLxmfStore).run.run
      Flash.erased).1 = .ok (emptyStore twoExtents) := mount_twoExtents sha256
  rw [hanswer, hflash] at hrun
  exact .step (.fresh hfresh)
    (@LxmfSystem.Step.mount ε φ sha256 twoExtents ⟨Flash.erased, none, [], []⟩ 4 tr
      (some (.ok (emptyStore twoExtents))) Flash.erased hrun)

/-- A new message is committed to a live store by a backend that reports nothing. -/
theorem Live.commits (hlive : Live ε Faults.none sha256 access f store)
    (hadmission : (admission sha256 access store candidate :
      Except (LxmfCommitError ε) Admission) = .ok (.append pending false)) :
    ∃ outcome g, (commit (ε := ε) sha256 access store candidate).run f =
        ((.ok outcome, store.complete pending (pendingEntry pending)), g) ∧
      FullSpan sha256 access g candidate pending := by
  obtain ⟨hspan, herased⟩ := hlive.serving.ready (admitted hadmission)
  obtain ⟨tr, hrun⟩ := Prog.exec_run Faults.none (commit (ε := ε) sha256 access store candidate) f
  generalize (commit (ε := ε) sha256 access store candidate).run f = result at hrun
  obtain ⟨⟨answer, final⟩, g⟩ := result
  have hattempted : Attempted ε Faults.none sha256 access candidate pending f store answer
      (g, final) := Retried.fresh.attempt hspan.allocated hadmission (herased rfl) hrun
  cases answer with
  | error e => exact absurd hattempted.answered (by simp [Faults.none])
  | ok outcome =>
    obtain ⟨hfinal, hfull, -⟩ := hattempted.answered
    obtain rfl : final = _ := hfinal
    exact ⟨outcome, g, rfl, hfull⟩

/-- The partition of two extents after the commit of a new message. -/
theorem committedSystem_reachable
    (hadmission : (admission sha256 twoExtents (emptyStore twoExtents) candidate :
      Except (LxmfCommitError Unit) Admission) = .ok (.append pending false)) :
    ∃ system, LxmfSystem.Reachable Unit Faults.none sha256 twoExtents system ∧
      system.submitted = [candidate] ∧
      system.store = some ((emptyStore twoExtents).complete pending (pendingEntry pending)) ∧
      Live Unit Faults.none sha256 twoExtents system.flash
        ((emptyStore twoExtents).complete pending (pendingEntry pending)) := by
  have hlive : Live Unit Faults.none sha256 twoExtents Flash.erased (emptyStore twoExtents) :=
    .mounted (mount_twoExtents sha256)
  obtain ⟨outcome, g, hresult, -⟩ := hlive.commits hadmission
  obtain ⟨tr, hrun⟩ := Prog.exec_run Faults.none (commit (ε := Unit) sha256 twoExtents
    (emptyStore twoExtents) candidate) Flash.erased
  rw [hresult] at hrun
  refine ⟨_, .step (mountedSystem_reachable sha256)
    (@LxmfSystem.Step.commit Unit Faults.none sha256 twoExtents mountedSystem _ _ _ _ _ rfl
      hrun), ?_⟩
  cases outcome with
  | committed receipt => exact ⟨rfl, rfl, .committed hlive hrun⟩
  | alreadyDurable receipt => exact ⟨rfl, rfl, .committed hlive hrun⟩

/-- A second message under the identifier of the first one is answered with its receipt. -/
theorem first_arrival_wins_sample :
    ∃ store : MountedLxmfStore, store.entries = [pendingEntry (samplePending Nor.sha256)] ∧
      commit (ε := Unit) Nor.sha256 twoExtents store sampleCandidate =
        .pure (.ok (.alreadyDurable (pendingEntry (samplePending Nor.sha256)).receipt), store) := by
  obtain ⟨system, hreachable, -, hstore, -⟩ := committedSystem_reachable
    (admission_sample Nor.sha256)
  obtain ⟨-, hmounted⟩ := first_arrival_wins hreachable
  obtain ⟨-, -, -, hindexed⟩ := hmounted _ hstore
  have hanswer := hindexed (pendingEntry (samplePending Nor.sha256)) List.mem_cons_self
    sampleCandidate rfl
  exact ⟨_, rfl, hanswer.trans (congrArg (fun answer => Prog.pure (answer, _)) (if_pos rfl))⟩

end Arrival

end LxmfStore
