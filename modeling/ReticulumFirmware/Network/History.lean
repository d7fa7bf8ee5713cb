import ReticulumFirmware.Nor.Sha256
import ReticulumFirmware.Network.Outcome

/-!
# The history of the network configuration is linear

Clients call mount, commit and cleanup in any order, with tokens that may be stale, on a
backend that does not fail. Every call either leaves the mounted revision and configuration
alone or moves them to a direct successor, and only a commit that names the mounted revision
does the latter.
-/

namespace Network

open Nor

variable {ε : Type} {sha256 : Sha256} {access : BoundNetworkConfigStore}
  {store store' : MountedNetworkConfigStore} {token : NetworkConfigRevision}
  {configuration : NetworkConfig} {f g : Flash}

/-- One call of a client. -/
inductive ClientCall where
  | mount
  | commitSuccessor (token : NetworkConfigRevision) (configuration : NetworkConfig)
  | cleanup (token : NetworkConfigRevision)

/-- The token a call names. -/
def ClientCall.token? : ClientCall → Option NetworkConfigRevision
  | mount => none
  | commitSuccessor token _ | cleanup token => some token

/-- The operation of a call. -/
def perform (ε : Type) (sha256 : Sha256) (access : BoundNetworkConfigStore) :
    ClientCall → NetworkConfigAction ε MountedNetworkConfigStore
  | .mount => mount sha256 access
  | .commitSuccessor token configuration => commitSuccessor sha256 access token configuration
  | .cleanup token => cleanup sha256 access token

/-- The answer of a call on a backend that does not fail. -/
def answer (ε : Type) (sha256 : Sha256) (access : BoundNetworkConfigStore) (f : Flash)
    (call : ClientCall) : Except (NetworkConfigStoreError ε) MountedNetworkConfigStore :=
  ((perform ε sha256 access call).eval f).1

/-- The contents after some calls. -/
def contents (ε : Type) (sha256 : Sha256) (access : BoundNetworkConfigStore) (f : Flash)
    (calls : List ClientCall) : Flash :=
  calls.foldl (fun f call => ((perform ε sha256 access call).eval f).2) f

/-- Calls in two groups are made one group after another. -/
theorem contents_append (f : Flash) (before after : List ClientCall) :
    contents ε sha256 access f (before ++ after) =
      contents ε sha256 access (contents ε sha256 access f before) after :=
  List.foldl_append ..

/-- The checks that commit and cleanup share. -/
def authorize (ε : Type) (sha256 : Sha256) (access : BoundNetworkConfigStore)
    (token : NetworkConfigRevision) (f : Flash) :
    Except (NetworkConfigStoreError ε) MountedNetworkConfigStore := do
  (validateWriteBinding access).mapError .binding
  (validateSameBinding token.binding access.binding).mapError .binding
  let store ← (mounted sha256 access.binding f).mapError .fault
  if store.revision = token then .ok store else .error (.fault .staleRevision)

/-- What the shared checks let through. -/
theorem authorize_ok : authorize ε sha256 access token f = .ok store ↔
    validateWriteBinding access = .ok () ∧ mounted sha256 access.binding f = .ok store ∧
      store.revision = token := by
  unfold authorize
  cases hwrite : validateWriteBinding access with
  | error error =>
    constructor
    · rintro ⟨⟩
    · rintro ⟨⟨⟩, -⟩
  | ok u =>
    cases hsame : validateSameBinding token.binding access.binding with
    | error error =>
      constructor
      · rintro ⟨⟩
      · rintro ⟨-, hmounted, htoken⟩
        obtain ⟨-, -, -, -, -, hbinding⟩ := mounted_revision hmounted
        rw [htoken] at hbinding
        rw [validateSameBinding_iff.mpr hbinding] at hsame
        cases hsame
    | ok u =>
      cases hmounted : mounted sha256 access.binding f with
      | error fault =>
        constructor
        · rintro ⟨⟩
        · rintro ⟨-, ⟨⟩, -⟩
      | ok observed =>
        change (if observed.revision = token then Except.ok observed else _) = _ ↔ _
        constructor
        · intro h
          split at h
          · next htoken =>
            cases h
            exact ⟨rfl, rfl, htoken⟩
          · cases h
        · rintro ⟨-, ⟨⟩, htoken⟩
          exact if_pos htoken

/-- A stale token of the store's own binding is reported as such. -/
theorem authorize_stale (hwrite : validateWriteBinding access = .ok ())
    (hbinding : token.binding = access.binding)
    (hmounted : mounted sha256 access.binding f = .ok store) (hstale : token ≠ store.revision) :
    authorize ε sha256 access token f = .error (.fault .staleRevision) := by
  unfold authorize
  rw [hwrite, validateSameBinding_iff.mpr hbinding, hmounted]
  exact if_neg fun h => hstale h.symm

/-- Running the shared checks before an operation. -/
theorem eval_authorized {β : Type}
    {next : MountedNetworkConfigStore → NetworkConfigAction ε β} (f : Flash) :
    Action.eval (do
      requireBinding (validateWriteBinding access)
      requireBinding (validateSameBinding token.binding access.binding)
      let observed ← mount sha256 access
      Action.ensure (observed.revision = token) (.fault .staleRevision)
      next observed) f =
      match authorize ε sha256 access token f with
      | .ok observed => (next observed).eval f
      | .error error => (.error error, f) := by
  unfold authorize
  cases hwrite : validateWriteBinding access with
  | error error => rfl
  | ok u =>
    cases hsame : validateSameBinding token.binding access.binding with
    | error error => rfl
    | ok u =>
      change Action.eval (mount sha256 access >>= _) f = _
      have hmount : (mount sha256 access : NetworkConfigAction ε _).eval f = _ :=
        eval_mount (validateReadBinding_of_write hwrite) f
      cases hmounted : mounted sha256 access.binding f with
      | error fault =>
        rw [hmounted] at hmount
        rw [Action.eval_bind_error hmount]
        rfl
      | ok observed =>
        rw [hmounted] at hmount
        rw [Action.eval_bind_ok hmount, Action.eval_ensure_bind]
        change _ = match (if observed.revision = token then Except.ok observed else _) with
          | .ok observed => (next observed).eval f
          | .error error => (.error error, f)
        split <;> rfl

/-- The contents when the successor of a store is complete. -/
def successorContents (sha256 : Sha256) (store : MountedNetworkConfigStore)
    (generation : NonZeroU64) (configuration : NetworkConfig) (f : Flash) : Flash :=
  (eraseSector store.target f).program store.target.offset
    (successorRecord sha256 store generation configuration)

/-- Changing the target of a mounted store keeps its own sector. -/
theorem status_own {binding : NetworkConfigStoreBinding} (h : SameOutside store.target f g) :
    statusOf sha256 binding g store.revision.sector =
      statusOf sha256 binding f store.revision.sector := by
  have hsame : statusOf sha256 binding g store.target.other =
      statusOf sha256 binding f store.target.other := h.statusOf_other
  simpa [MountedNetworkConfigStore.target] using hsame

/-- An erasure changes nothing outside its sector. -/
theorem outside_eraseSector (sector : NetworkConfigStoreSector) (f : Flash) :
    SameOutside sector f (eraseSector sector f) := fun _ ha => Flash.erase_of_not_mem ha

/-- A successor changes nothing outside its target sector. -/
theorem outside_successorContents (sha256 : Sha256) (store : MountedNetworkConfigStore)
    (generation : NonZeroU64) (configuration : NetworkConfig) (f : Flash) :
    SameOutside store.target f (successorContents sha256 store generation configuration f) := by
  have hrecord : IsRecord (successorRecord sha256 store generation configuration) :=
    isRecord_encodeRecord ..
  have hfinish := hrecord.applyAll store.target (eraseSector store.target f) ▸
    Trajectory.finish (recordScript store.target _) (eraseSector store.target f)
  exact fun a ha => (hrecord.outside hfinish a ha).trans (outside_eraseSector _ f a ha)

/-- What is mounted when the successor of a store is complete. -/
theorem mounted_successorContents {generation : NonZeroU64}
    (hmounted : mounted sha256 access.binding f = .ok store)
    (hgeneration : generation.get = store.revision.generation.get + 1)
    (configuration : NetworkConfig) :
    mounted sha256 access.binding (successorContents sha256 store generation configuration f) =
      if store.revision.digest = zeroDigest then .error (.committedSnapshotCorrupt store.target)
      else .ok ⟨(successorSnapshot sha256 store generation configuration).revision,
        configuration.compact, .eraseInactive store.revision.sector⟩ := by
  obtain ⟨snapshot, hvalid, -, hrevision, -, hbinding⟩ := mounted_revision hmounted
  have hown : statusOf sha256 access.binding
      (successorContents sha256 store generation configuration f) store.target.other =
      .valid snapshot := by
    rw [(outside_successorContents sha256 store generation configuration f).statusOf_other]
    simpa [MountedNetworkConfigStore.target] using hvalid
  have hstatus : statusOf sha256 access.binding
      (successorContents sha256 store generation configuration f) store.target = _ :=
    status_successor hgeneration hbinding f
  split
  · next hzero =>
    rw [if_pos hzero] at hstatus
    exact mounted_beside_invalid hown hstatus
  · next hzero =>
    rw [if_neg hzero] at hstatus
    rw [mounted_of_valid hstatus (hown ▸ Or.inr (Or.inr ⟨snapshot, rfl,
      follows_successorSnapshot hrevision hgeneration⟩)), hown]
    simp [mountedSnapshot, peerCleanup, MountedNetworkConfigStore.target, successorSnapshot,
      recordSnapshot]

/-- A commit on a backend that does not fail, from its checks and the contents. -/
theorem eval_commitSuccessor (token : NetworkConfigRevision) (configuration : NetworkConfig)
    (f : Flash) :
    (commitSuccessor sha256 access token configuration : NetworkConfigAction ε _).eval f =
      match authorize ε sha256 access token f with
      | .error error => (.error error, f)
      | .ok store =>
        match NonZeroU64.new (store.revision.generation.get + 1) with
        | none => (.error (.fault .generationExhausted), f)
        | some generation =>
          (if store.revision.digest = zeroDigest then
              .error (.fault (.committedSnapshotCorrupt store.target))
            else .ok ⟨(successorSnapshot sha256 store generation configuration).revision,
              configuration.compact, .eraseInactive store.revision.sector⟩,
            successorContents sha256 store generation configuration f) := by
  unfold commitSuccessor
  rw [eval_authorized]
  cases hauthorized : authorize ε sha256 access token f with
  | error error => rfl
  | ok store =>
    obtain ⟨hwrite, hmounted, rfl⟩ := authorize_ok.mp hauthorized
    dsimp only
    cases hnext : NonZeroU64.new (store.revision.generation.get + 1) with
    | none => rfl
    | some generation =>
      have hgeneration := NonZeroU64.get_of_new hnext
      have hmount : (mount sha256 access : NetworkConfigAction ε _).eval
          (successorContents sha256 store generation configuration f) = _ :=
        eval_mount (validateReadBinding_of_write hwrite) _
      rw [mounted_successorContents hmounted hgeneration] at hmount
      change Action.eval (eraseVerified store.target >>= fun _ => writeSnapshot sha256
        store.revision.binding store.target generation store.revision.generation.get
          store.revision.digest configuration >>= fun _ => _) f = _
      rw [Action.eval_bind_ok (eval_eraseVerified ..),
        Action.eval_bind_ok (eval_writeSnapshot rfl (erased_eraseSector _ f))]
      unfold verifySuccessor
      dsimp only
      by_cases hzero : store.revision.digest = zeroDigest
      · rw [if_pos hzero] at hmount ⊢
        exact Action.eval_bind_error hmount
      · rw [if_neg hzero] at hmount ⊢
        refine (Action.eval_bind_ok hmount).trans ?_
        rw [Action.eval_ensure_bind, if_pos]
        · rfl
        · exact ⟨rfl, rfl, configurationEq_iff.mpr configuration.compact_same⟩

/-- What is mounted when the inactive sector of a store has been erased. -/
theorem mounted_eraseSector (hmounted : mounted sha256 access.binding f = .ok store) :
    mounted sha256 access.binding (eraseSector store.target f) =
      .ok ⟨store.revision, store.configuration, .clean⟩ := by
  obtain ⟨snapshot, hvalid, -, hrevision, hconfiguration, -⟩ := mounted_revision hmounted
  have hown : statusOf sha256 access.binding (eraseSector store.target f)
      store.revision.sector = .valid snapshot := by
    rw [status_own (outside_eraseSector _ f), hvalid]
  have hpeer : statusOf sha256 access.binding (eraseSector store.target f)
      store.revision.sector.other = .erased := statusOf_erased (erased_eraseSector _ f)
  rw [mounted_of_valid hown (Or.inl hpeer), hpeer, hrevision, hconfiguration]
  rfl

/-- The only sector a mount asks to erase is the inactive one. -/
theorem cleanup_target {sector : NetworkConfigStoreSector}
    (hmounted : mounted sha256 access.binding f = .ok store)
    (hcleanup : store.cleanup = .eraseInactive sector) : sector = store.target := by
  obtain ⟨own, snapshot, hvalid, -, hstore⟩ := mounted_ok hmounted
  have hown : store.revision.sector = own := by
    rw [hstore]
    exact (valid_revision hvalid).2.1
  rw [hstore] at hcleanup
  unfold mountedSnapshot peerCleanup at hcleanup
  dsimp only at hcleanup
  split at hcleanup
  · cases hcleanup
  · cases hcleanup
    rw [MountedNetworkConfigStore.target, hown]

/-- A cleanup on a backend that does not fail, from its checks and the contents. -/
theorem eval_cleanup (token : NetworkConfigRevision) (f : Flash) :
    (cleanup sha256 access token : NetworkConfigAction ε _).eval f =
      match authorize ε sha256 access token f with
      | .error error => (.error error, f)
      | .ok store =>
        match store.cleanup with
        | .clean => (.ok store, f)
        | .eraseInactive _ =>
          (.ok ⟨store.revision, store.configuration, .clean⟩, eraseSector store.target f) := by
  unfold cleanup
  rw [eval_authorized]
  cases hauthorized : authorize ε sha256 access token f with
  | error error => rfl
  | ok store =>
    obtain ⟨hwrite, hmounted, rfl⟩ := authorize_ok.mp hauthorized
    cases hcleanup : store.cleanup with
    | clean =>
      dsimp only
      rw [hcleanup]
      rfl
    | eraseInactive sector =>
      have hmount : (mount sha256 access : NetworkConfigAction ε _).eval
          (eraseSector store.target f) = _ := eval_mount (validateReadBinding_of_write hwrite) _
      rw [mounted_eraseSector hmounted] at hmount
      dsimp only
      rw [hcleanup, cleanup_target hmounted hcleanup]
      dsimp only
      rw [Action.eval_bind_ok (eval_eraseVerified ..), hmount]
      rfl

/-- What one call does. -/
inductive Step (ε : Type) (sha256 : Sha256) (access : BoundNetworkConfigStore) (f : Flash)
    (call : ClientCall) (r : Except (NetworkConfigStoreError ε) MountedNetworkConfigStore)
    (g : Flash) : Prop
  /-- The contents are kept; a commit is refused. -/
  | kept (h : g = f) (hrefused : ∀ token configuration,
      call = .commitSuccessor token configuration → ∃ error, r = .error error)
  /-- The inactive sector has been erased. -/
  | cleaned (store : MountedNetworkConfigStore) (hcall : call = .cleanup store.revision)
      (hmounted : mounted sha256 access.binding f = .ok store)
      (hcleaned : mounted sha256 access.binding g =
        .ok ⟨store.revision, store.configuration, .clean⟩)
  /-- The successor of the mounted store has been written. -/
  | committed (store : MountedNetworkConfigStore) (configuration : NetworkConfig)
      (generation : NonZeroU64)
      (hcall : call = .commitSuccessor store.revision configuration)
      (hmounted : mounted sha256 access.binding f = .ok store)
      (hgeneration : generation.get = store.revision.generation.get + 1)
      (h : g = successorContents sha256 store generation configuration f)
      (hanswer : r.toOption = if store.revision.digest = zeroDigest then none else
        some ⟨(successorSnapshot sha256 store generation configuration).revision,
          configuration.compact, .eraseInactive store.revision.sector⟩)

/-- Every call is a step. -/
theorem step_perform (f : Flash) (call : ClientCall) :
    Step ε sha256 access f call (answer ε sha256 access f call)
      ((perform ε sha256 access call).eval f).2 := by
  cases call with
  | mount =>
    refine .kept ?_ (fun _ _ h => nomatch h)
    have hmount : (mount sha256 access : NetworkConfigAction ε _).eval f = _ := eval_mountAnswer f
    exact congrArg Prod.snd hmount
  | cleanup token =>
    have heval : (perform ε sha256 access (.cleanup token)).eval f = _ := eval_cleanup token f
    cases hauthorized : authorize ε sha256 access token f with
    | error error =>
      rw [hauthorized] at heval
      exact .kept (congrArg Prod.snd heval) (fun _ _ h => nomatch h)
    | ok store =>
      obtain ⟨hwrite, hmounted, rfl⟩ := authorize_ok.mp hauthorized
      rw [hauthorized] at heval
      dsimp only at heval
      cases hcleanup : store.cleanup with
      | clean =>
        rw [hcleanup] at heval
        exact .kept (congrArg Prod.snd heval) (fun _ _ h => nomatch h)
      | eraseInactive sector =>
        rw [hcleanup] at heval
        refine .cleaned store rfl hmounted ?_
        rw [congrArg Prod.snd heval]
        exact mounted_eraseSector hmounted
  | commitSuccessor token configuration =>
    have heval : (perform ε sha256 access (.commitSuccessor token configuration)).eval f = _ :=
      eval_commitSuccessor token configuration f
    have hanswer : answer ε sha256 access f (.commitSuccessor token configuration) = _ :=
      congrArg Prod.fst heval
    cases hauthorized : authorize ε sha256 access token f with
    | error error =>
      rw [hauthorized] at heval hanswer
      exact .kept (congrArg Prod.snd heval) (fun _ _ _ => ⟨error, hanswer⟩)
    | ok store =>
      obtain ⟨hwrite, hmounted, rfl⟩ := authorize_ok.mp hauthorized
      rw [hauthorized] at heval hanswer
      dsimp only at heval hanswer
      cases hnext : NonZeroU64.new (store.revision.generation.get + 1) with
      | none =>
        rw [hnext] at heval hanswer
        exact .kept (congrArg Prod.snd heval) (fun _ _ _ => ⟨_, hanswer⟩)
      | some generation =>
        rw [hnext] at heval hanswer
        refine .committed store configuration generation rfl hmounted
          (NonZeroU64.get_of_new hnext)
          (congrArg Prod.snd heval) ?_
        rw [hanswer]
        dsimp only
        split <;> rfl

/-- A call whose token does not pass the shared checks is refused and changes nothing. -/
theorem perform_refused {call : ClientCall} {error : NetworkConfigStoreError ε}
    (htoken : call.token? = some token)
    (h : authorize ε sha256 access token f = .error error) :
    (perform ε sha256 access call).eval f = (.error error, f) := by
  cases call with
  | mount => cases htoken
  | commitSuccessor token' configuration =>
    cases htoken
    have heval : (perform ε sha256 access (.commitSuccessor token configuration)).eval f = _ :=
      eval_commitSuccessor token configuration f
    rw [h] at heval
    exact heval
  | cleanup token' =>
    cases htoken
    have heval : (perform ε sha256 access (.cleanup token)).eval f = _ := eval_cleanup token f
    rw [h] at heval
    exact heval

namespace Step

variable {call : ClientCall} {r : Except (NetworkConfigStoreError ε) MountedNetworkConfigStore}

/-- A call never moves the mounted generation back. -/
theorem generation_le (h : Step ε sha256 access f call r g)
    (hg : mounted sha256 access.binding g = .ok store') :
    ∃ store, mounted sha256 access.binding f = .ok store ∧
      store.revision.generation.get ≤ store'.revision.generation.get := by
  cases h with
  | kept h => exact ⟨store', h ▸ hg, le_refl _⟩
  | cleaned store hcall hmounted hcleaned =>
    have heq := hcleaned.symm.trans hg
    cases heq
    exact ⟨store, hmounted, le_refl _⟩
  | committed store configuration generation hcall hmounted hgeneration h =>
    rw [h, mounted_successorContents hmounted hgeneration] at hg
    split at hg
    · cases hg
    · cases hg
      refine ⟨store, hmounted, ?_⟩
      change store.revision.generation.get ≤ generation.get
      omega

/-- A call that is no commit of the mounted revision keeps revision and configuration. -/
theorem keeps (h : Step ε sha256 access f call r g)
    (hf : mounted sha256 access.binding f = .ok store)
    (hcall : ∀ configuration, call ≠ .commitSuccessor store.revision configuration) :
    ∃ store', mounted sha256 access.binding g = .ok store' ∧
      store'.revision = store.revision ∧ store'.configuration = store.configuration := by
  cases h with
  | kept h => exact ⟨store, h ▸ hf, rfl, rfl⟩
  | cleaned store' hcall' hmounted hcleaned =>
    have heq := hmounted.symm.trans hf
    cases heq
    exact ⟨_, hcleaned, rfl, rfl⟩
  | committed store' configuration generation hcall' hmounted =>
    have heq := hmounted.symm.trans hf
    cases heq
    exact absurd hcall' (hcall configuration)

/-- A commit that succeeds has mounted the successor of its token. -/
theorem of_ok (h : Step ε sha256 access f (.commitSuccessor token configuration) (.ok store') g) :
    ∃ store, mounted sha256 access.binding f = .ok store ∧ store.revision = token ∧
      mounted sha256 access.binding g = .ok store' ∧
      store'.revision.generation.get = token.generation.get + 1 ∧
      store'.configuration.Same configuration ∧
      ∃ snapshot, statusOf sha256 access.binding g store'.revision.sector = .valid snapshot ∧
        snapshot.revision = store'.revision ∧
        snapshot.predecessorGeneration = token.generation.get ∧
        snapshot.predecessorDigest = token.digest := by
  cases h with
  | kept _ hrefused =>
    obtain ⟨error, herror⟩ := hrefused token configuration rfl
    cases herror
  | cleaned store hcall => cases hcall
  | committed store configuration' generation hcall hmounted hgeneration h hanswer =>
    cases hcall
    by_cases hzero : store.revision.digest = zeroDigest
    · rw [if_pos hzero] at hanswer
      cases hanswer
    · rw [if_neg hzero] at hanswer
      cases hanswer
      obtain ⟨snapshot, -, -, -, -, hbinding⟩ := mounted_revision hmounted
      have hstatus : statusOf sha256 access.binding
          (successorContents sha256 store generation configuration f) store.target = _ :=
        status_successor hgeneration hbinding f
      rw [if_neg hzero] at hstatus
      refine ⟨store, hmounted, rfl, ?_, hgeneration, configuration.compact_same,
        successorSnapshot sha256 store generation configuration, ?_, rfl, rfl, rfl⟩
      · rw [h, mounted_successorContents hmounted hgeneration, if_neg hzero]
      · rw [h]
        exact hstatus

/-- A commit of the mounted revision that is refused changes nothing. -/
theorem refused {error : NetworkConfigStoreError ε}
    (h : Step ε sha256 access f (.commitSuccessor store.revision configuration) (.error error) g)
    (hf : mounted sha256 access.binding f = .ok store)
    (hdigest : store.revision.digest ≠ zeroDigest) : g = f := by
  cases h with
  | kept h => exact h
  | cleaned store' hcall => cases hcall
  | committed store' configuration' generation hcall hmounted hgeneration h hanswer =>
    have heq := hmounted.symm.trans hf
    cases heq
    rw [if_neg hdigest] at hanswer
    cases hanswer

end Step

/-- The last call is made on what the others left. -/
theorem contents_concat (f : Flash) (calls : List ClientCall) (call : ClientCall) :
    contents ε sha256 access f (calls ++ [call]) =
      ((perform ε sha256 access call).eval (contents ε sha256 access f calls)).2 :=
  contents_append ..

/-- One call of a run. -/
theorem step_concat (f : Flash) (calls : List ClientCall) (call : ClientCall) :
    Step ε sha256 access (contents ε sha256 access f calls) call
      (answer ε sha256 access (contents ε sha256 access f calls) call)
      (contents ε sha256 access f (calls ++ [call])) := by
  rw [contents_concat]
  exact step_perform ..

/-- A run never moves the mounted generation back. -/
theorem generation_le_contents (calls : List ClientCall)
    (hg : mounted sha256 access.binding (contents ε sha256 access f calls) = .ok store') :
    ∃ store, mounted sha256 access.binding f = .ok store ∧
      store.revision.generation.get ≤ store'.revision.generation.get := by
  induction calls generalizing f with
  | nil => exact ⟨store', hg, le_refl _⟩
  | cons call calls ih =>
    obtain ⟨store'', hmounted'', hle''⟩ := ih hg
    obtain ⟨store, hmounted, hle⟩ := (step_perform f call).generation_le hmounted''
    exact ⟨store, hmounted, hle.trans hle''⟩

/-- A mounted revision and configuration stay through some calls, or until a commit among them
that names the revision is answered with success. A revision whose digest stands for no
predecessor has no readable successor. -/
def KeptUntilCommit (ε : Type) (sha256 : Sha256) (access : BoundNetworkConfigStore) (f : Flash)
    (calls : List ClientCall) (store : MountedNetworkConfigStore) : Prop :=
  (∃ store', mounted sha256 access.binding (contents ε sha256 access f calls) = .ok store' ∧
      store'.revision = store.revision ∧ store'.configuration = store.configuration) ∨
    ∃ prior configuration later,
      calls = prior ++ .commitSuccessor store.revision configuration :: later ∧
      (∃ store', mounted sha256 access.binding (contents ε sha256 access f prior) = .ok store' ∧
        store'.revision = store.revision ∧ store'.configuration = store.configuration) ∧
      (store.revision.digest = zeroDigest ∨
        ∃ store', answer ε sha256 access (contents ε sha256 access f prior)
          (.commitSuccessor store.revision configuration) = .ok store')

/-- A mounted configuration is not overwritten without a commit that names it. -/
theorem keptUntilCommit (calls : List ClientCall)
    (hf : mounted sha256 access.binding f = .ok store) :
    KeptUntilCommit ε sha256 access f calls store := by
  induction calls generalizing f store with
  | nil => exact Or.inl ⟨store, hf, rfl, rfl⟩
  | cons call calls ih =>
    have hstep : Step ε sha256 access f call _ _ := step_perform f call
    -- a call that keeps the mount hands over to the rest of the run
    have hrest : ∀ store', mounted sha256 access.binding
        ((perform ε sha256 access call).eval f).2 = .ok store' →
        store'.revision = store.revision → store'.configuration = store.configuration →
        KeptUntilCommit ε sha256 access f (call :: calls) store := by
      intro store' hmounted hrevision hconfiguration
      have hih := ih hmounted
      unfold KeptUntilCommit at hih
      rw [hrevision, hconfiguration] at hih
      refine hih.imp_right ?_
      rintro ⟨prior, configuration, later, rfl, hprior⟩
      exact ⟨call :: prior, configuration, later, rfl, hprior⟩
    by_cases hcall : ∃ configuration, call = .commitSuccessor store.revision configuration
    · obtain ⟨configuration, rfl⟩ := hcall
      cases hanswer : answer ε sha256 access f (.commitSuccessor store.revision configuration) with
      | ok store' =>
        exact Or.inr ⟨[], configuration, calls, rfl, ⟨store, hf, rfl, rfl⟩,
          Or.inr ⟨store', hanswer⟩⟩
      | error error =>
        by_cases hzero : store.revision.digest = zeroDigest
        · exact Or.inr ⟨[], configuration, calls, rfl, ⟨store, hf, rfl, rfl⟩, Or.inl hzero⟩
        · rw [hanswer] at hstep
          refine hrest store ?_ rfl rfl
          rw [hstep.refused hf hzero, hf]
    · obtain ⟨store', hmounted, hrevision, hconfiguration⟩ :=
        hstep.keeps hf fun configuration h => hcall ⟨configuration, h⟩
      exact hrest store' hmounted hrevision hconfiguration

/-- What it means for the history that starts with some contents to be linear. -/
structure LinearHistory (ε : Type) (sha256 : Sha256) (access : BoundNetworkConfigStore)
    (f : Flash) : Prop where
  /-- A call with a token that is not the mounted revision is refused, as stale when the token
  names this store, and changes nothing. -/
  stale : ∀ calls call token, ClientCall.token? call = some token →
    (∀ store, mounted sha256 access.binding (contents ε sha256 access f calls) = .ok store →
      token ≠ store.revision) →
    contents ε sha256 access f (calls ++ [call]) = contents ε sha256 access f calls ∧
      ∃ error, answer ε sha256 access (contents ε sha256 access f calls) call = .error error ∧
        (validateWriteBinding access = .ok () →
          (∃ store, mounted sha256 access.binding (contents ε sha256 access f calls) = .ok store) →
          if token.binding = access.binding then error = .fault .staleRevision
          else ∃ mismatch, error = .binding mismatch)
  /-- A successful commit was made from the mounted revision and has mounted its successor,
  which names it as its predecessor. -/
  successor : ∀ calls token configuration store',
    answer ε sha256 access (contents ε sha256 access f calls)
      (.commitSuccessor token configuration) = .ok store' →
    (∃ store, mounted sha256 access.binding (contents ε sha256 access f calls) = .ok store ∧
      store.revision = token) ∧
    mounted sha256 access.binding (contents ε sha256 access f
      (calls ++ [.commitSuccessor token configuration])) = .ok store' ∧
    store'.revision.generation.get = token.generation.get + 1 ∧
    store'.configuration.Same configuration ∧
    ∃ snapshot, statusOf sha256 access.binding (contents ε sha256 access f
        (calls ++ [.commitSuccessor token configuration])) store'.revision.sector =
        .valid snapshot ∧
      snapshot.revision = store'.revision ∧
      snapshot.predecessorGeneration = token.generation.get ∧
      snapshot.predecessorDigest = token.digest
  /-- A cleanup keeps the mounted revision and configuration. -/
  cleanup : ∀ calls token store,
    mounted sha256 access.binding (contents ε sha256 access f calls) = .ok store →
    ∃ store', mounted sha256 access.binding (contents ε sha256 access f
        (calls ++ [.cleanup token])) = .ok store' ∧
      store'.revision = store.revision ∧ store'.configuration = store.configuration
  /-- At most one of two commits from one token succeeds. -/
  once : ∀ before between token configuration configuration' store',
    answer ε sha256 access (contents ε sha256 access f before)
      (.commitSuccessor token configuration) = .ok store' →
    ∃ error, answer ε sha256 access (contents ε sha256 access f
      (before ++ .commitSuccessor token configuration :: between))
      (.commitSuccessor token configuration') = .error error
  /-- A commit from the mounted revision succeeds. -/
  first : ∀ calls configuration store, validateWriteBinding access = .ok () →
    mounted sha256 access.binding (contents ε sha256 access f calls) = .ok store →
    store.revision.generation.get + 1 < 2 ^ 64 → store.revision.digest ≠ zeroDigest →
    ∃ store', answer ε sha256 access (contents ε sha256 access f calls)
      (.commitSuccessor store.revision configuration) = .ok store'
  /-- A mounted configuration stays until a commit that names it is answered with success. -/
  kept : ∀ before after store,
    mounted sha256 access.binding (contents ε sha256 access f before) = .ok store →
    KeptUntilCommit ε sha256 access (contents ε sha256 access f before) after store

/-- A call that names no mounted revision is refused and changes nothing. -/
theorem refused_of_stale {call : ClientCall} (f : Flash) (htoken : call.token? = some token)
    (hstale : ∀ store, mounted sha256 access.binding f = .ok store → token ≠ store.revision) :
    ∃ error, (perform ε sha256 access call).eval f = (.error error, f) ∧
      (validateWriteBinding access = .ok () →
        (∃ store, mounted sha256 access.binding f = .ok store) →
        if token.binding = access.binding then error = .fault .staleRevision
        else ∃ mismatch, error = .binding mismatch) := by
  cases hauthorized : authorize ε sha256 access token f with
  | ok store =>
    obtain ⟨-, hmounted, hrevision⟩ := authorize_ok.mp hauthorized
    exact absurd hrevision.symm (hstale store hmounted)
  | error error =>
    refine ⟨error, perform_refused htoken hauthorized, ?_⟩
    rintro hwrite ⟨store, hmounted⟩
    split
    · next hbinding =>
      rw [authorize_stale hwrite hbinding hmounted (hstale store hmounted)] at hauthorized
      cases hauthorized
      rfl
    · next hbinding =>
      unfold authorize at hauthorized
      rw [hwrite] at hauthorized
      cases hsame : validateSameBinding token.binding access.binding with
      | ok u => exact absurd (validateSameBinding_iff.mp hsame) hbinding
      | error mismatch =>
        rw [hsame] at hauthorized
        cases hauthorized
        exact ⟨mismatch, rfl⟩

/-- A commit from the mounted revision succeeds. -/
theorem commit_of_mounted (hwrite : validateWriteBinding access = .ok ())
    (hmounted : mounted sha256 access.binding f = .ok store)
    (hgeneration : store.revision.generation.get + 1 < 2 ^ 64)
    (hdigest : store.revision.digest ≠ zeroDigest) (configuration : NetworkConfig) :
    ∃ store', answer ε sha256 access f (.commitSuccessor store.revision configuration) =
      .ok store' := by
  have hanswer : answer ε sha256 access f (.commitSuccessor store.revision configuration) = _ :=
    congrArg Prod.fst (eval_commitSuccessor store.revision configuration f)
  rw [authorize_ok.mpr ⟨hwrite, hmounted, rfl⟩] at hanswer
  dsimp only at hanswer
  have hnext : NonZeroU64.new (store.revision.generation.get + 1) =
      some ⟨store.revision.generation.get + 1, Nat.succ_pos _, hgeneration⟩ :=
    dif_pos ⟨Nat.succ_pos _, hgeneration⟩
  rw [hnext] at hanswer
  dsimp only at hanswer
  rw [if_neg hdigest] at hanswer
  exact ⟨_, hanswer⟩

/-- The history of the network configuration is linear. -/
theorem history_linear (ε : Type) (sha256 : Sha256) (access : BoundNetworkConfigStore)
    (f : Flash) : LinearHistory ε sha256 access f where
  stale := by
    intro calls call token htoken hstale
    obtain ⟨error, heval, herror⟩ := refused_of_stale (contents ε sha256 access f calls) htoken
      hstale
    rw [contents_concat]
    exact ⟨congrArg Prod.snd heval, error, congrArg Prod.fst heval, herror⟩
  successor := by
    intro calls token configuration store' hanswer
    have hstep : Step ε sha256 access _ _ _ _ :=
      step_concat f calls (.commitSuccessor token configuration)
    rw [hanswer] at hstep
    obtain ⟨store, hmounted, hrevision, hsuccessor⟩ := hstep.of_ok
    exact ⟨⟨store, hmounted, hrevision⟩, hsuccessor⟩
  cleanup := fun calls token store hmounted =>
    (step_concat f calls (.cleanup token)).keeps hmounted (fun _ h => nomatch h)
  once := by
    intro before between token configuration configuration' store' hanswer
    cases hanswer' : answer ε sha256 access (contents ε sha256 access f
      (before ++ .commitSuccessor token configuration :: between))
      (.commitSuccessor token configuration') with
    | error error => exact ⟨error, rfl⟩
    | ok store'' =>
      have hstep : Step ε sha256 access _ _ _ _ :=
        step_concat f before (.commitSuccessor token configuration)
      rw [hanswer] at hstep
      obtain ⟨-, -, -, hmounted, hgeneration, -⟩ := hstep.of_ok
      have hstep' : Step ε sha256 access _ _ _ _ :=
        step_concat f (before ++ .commitSuccessor token configuration :: between)
          (.commitSuccessor token configuration')
      rw [hanswer'] at hstep'
      obtain ⟨current, hcurrent, hrevision, -⟩ := hstep'.of_ok
      -- the mounted generation has passed the token's for good
      rw [List.append_cons, contents_append] at hcurrent
      obtain ⟨passed, hpassed, hle⟩ := generation_le_contents between hcurrent
      have heq := hpassed.symm.trans hmounted
      cases heq
      rw [hrevision] at hle
      omega
  first := fun _ configuration _ hwrite hmounted hgeneration hdigest =>
    commit_of_mounted hwrite hmounted hgeneration hdigest configuration
  kept := fun _ after _ hmounted => keptUntilCommit after hmounted

section LastGeneration

variable (sha256 : Sha256)

/-- A view of a partition of the product's geometry. -/
def exampleAccess : BoundNetworkConfigStore where
  binding := ⟨Vector.replicate 16 1, 0, 8192, 1⟩
  geometry := ⟨8192, 1, 4, 4096⟩
  usizeValues := 2 ^ 32

/-- The last generation. -/
def lastGeneration : NonZeroU64 where
  get := 2 ^ 64 - 1
  pos := by decide
  lt := by decide

/-- The snapshot of the last generation. -/
def lastSnapshot : ValidSnapshot :=
  recordSnapshot sha256 exampleAccess.binding .a lastGeneration (2 ^ 64 - 2)
    (Vector.replicate 32 1) .empty

/-- Contents that hold the record of the last generation. -/
def lastContents : Flash :=
  Flash.erased.program 0 (encodeRecord sha256 exampleAccess.binding .a lastGeneration
    (2 ^ 64 - 2) (Vector.replicate 32 1) .empty)

/-- The contents with the last generation are mounted. -/
theorem mounted_lastContents : mounted sha256 exampleAccess.binding (lastContents sha256) =
    .ok (mountedSnapshot (lastSnapshot sha256) .a .erased) :=
  mounted_record (f := Flash.erased) (fun _ _ => rfl) .a (by decide) (by decide) .empty

/-- The last generation has no successor. -/
theorem eval_commit_lastContents :
    (perform ε sha256 exampleAccess (.commitSuccessor (lastSnapshot sha256).revision .empty)).eval
        (lastContents sha256) = (.error (.fault .generationExhausted), lastContents sha256) := by
  have heval : (perform ε sha256 exampleAccess
      (.commitSuccessor (lastSnapshot sha256).revision .empty)).eval (lastContents sha256) = _ :=
    eval_commitSuccessor (lastSnapshot sha256).revision .empty (lastContents sha256)
  have hauthorized : authorize ε sha256 exampleAccess (lastSnapshot sha256).revision
      (lastContents sha256) = .ok (mountedSnapshot (lastSnapshot sha256) .a .erased) :=
    authorize_ok.mpr ⟨by decide, mounted_lastContents sha256, rfl⟩
  rw [hauthorized] at heval
  exact heval

/-- A token of another device is refused before its revision is compared. -/
theorem eval_cleanup_foreign (token : NetworkConfigRevision)
    (h : token.binding = ⟨Vector.replicate 16 2, 0, 8192, 1⟩) (f : Flash) :
    (perform ε sha256 exampleAccess (.cleanup token)).eval f =
      (.error (.binding (.deviceMismatch (Vector.replicate 16 2) (Vector.replicate 16 1))), f) := by
  have heval : (perform ε sha256 exampleAccess (.cleanup token)).eval f = _ := eval_cleanup token f
  rw [heval]
  unfold authorize
  rw [h]
  rfl

/-- No commit changes the last generation, so later ones meet the same contents. -/
theorem contents_lastContents :
    contents ε sha256 exampleAccess (lastContents sha256)
      [.commitSuccessor (lastSnapshot sha256).revision .empty] = lastContents sha256 :=
  congrArg Prod.snd (eval_commit_lastContents sha256)

/-- What the last generation refuses, for any hash function. -/
theorem refused_lastContents :
    mounted sha256 exampleAccess.binding (lastContents sha256) =
        .ok (mountedSnapshot (lastSnapshot sha256) .a .erased) ∧
      answer Unit sha256 exampleAccess (lastContents sha256)
          (.cleanup { (lastSnapshot sha256).revision with
            binding := ⟨Vector.replicate 16 2, 0, 8192, 1⟩ }) =
        .error (.binding (.deviceMismatch (Vector.replicate 16 2) (Vector.replicate 16 1))) ∧
      answer Unit sha256 exampleAccess (lastContents sha256)
          (.commitSuccessor (lastSnapshot sha256).revision .empty) =
        .error (.fault .generationExhausted) ∧
      answer Unit sha256 exampleAccess
          (contents Unit sha256 exampleAccess (lastContents sha256)
            [.commitSuccessor (lastSnapshot sha256).revision .empty])
          (.commitSuccessor (lastSnapshot sha256).revision .empty) =
        .error (.fault .generationExhausted) := by
  refine ⟨mounted_lastContents _, congrArg Prod.fst (eval_cleanup_foreign _ _ rfl _),
    congrArg Prod.fst (eval_commit_lastContents _), ?_⟩
  rw [contents_lastContents]
  exact congrArg Prod.fst (eval_commit_lastContents _)

end LastGeneration

/-- With a mounted store, a token of another device is not reported as stale, and of two commits
from the mounted token neither succeeds in the last generation. -/
theorem exhausted_not_linear :
    mounted Nor.sha256 exampleAccess.binding (lastContents Nor.sha256) =
        .ok (mountedSnapshot (lastSnapshot Nor.sha256) .a .erased) ∧
      answer Unit Nor.sha256 exampleAccess (lastContents Nor.sha256)
          (.cleanup { (lastSnapshot Nor.sha256).revision with
            binding := ⟨Vector.replicate 16 2, 0, 8192, 1⟩ }) =
        .error (.binding (.deviceMismatch (Vector.replicate 16 2) (Vector.replicate 16 1))) ∧
      answer Unit Nor.sha256 exampleAccess (lastContents Nor.sha256)
          (.commitSuccessor (lastSnapshot Nor.sha256).revision .empty) =
        .error (.fault .generationExhausted) ∧
      answer Unit Nor.sha256 exampleAccess
          (contents Unit Nor.sha256 exampleAccess (lastContents Nor.sha256)
            [.commitSuccessor (lastSnapshot Nor.sha256).revision .empty])
          (.commitSuccessor (lastSnapshot Nor.sha256).revision .empty) =
        .error (.fault .generationExhausted) :=
  refused_lastContents Nor.sha256

end Network
