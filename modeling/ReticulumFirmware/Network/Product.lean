import ReticulumFirmware.Nor.Sha256
import ReticulumFirmware.Network.Outcome
import ReticulumFirmware.Network.Mutation

/-!
# The product's owner of the network configuration

The product mounts the store once at boot and then keeps the mounted configuration as its
authority. A mutation moves the authority out, commits a successor or provisions the first
configuration, and rebuilds the authority from what the flash holds when the commit reports
an error. Every outcome it reports agrees with the flash.
-/

namespace Network

open Nor

variable {ε : Type} {sha256 : Sha256} {access : BoundNetworkConfigStore} {φ : Faults}
  {f g : Flash}

/-- How the product reports an error of the store. -/
def mapNetworkConfigStoreError : NetworkConfigStoreError ε → ProductNetworkConfigError
  | .binding _ | .fault _ => .faulted
  | .backend _ => .backend

/-- The generation of the desired configuration. -/
def networkConfigRevision : NetworkAuthority → Checked ℕ
  | .freshErased => .ok 0
  | .mounted store => .ok store.revision.generation.get
  | .unavailable => .error .unavailable

/-- The authority that a mount stands for. -/
def authorityOf (allowFreshErased : Bool) :
    Except (NetworkConfigStoreError ε) MountedNetworkConfigStore → NetworkAuthority
  | .ok mounted => .mounted mounted
  | .error (.fault .unformattedErased) => if allowFreshErased then .freshErased else .unavailable
  | .error _ => .unavailable

/-- `checked_add` on 64-bit numbers. -/
def checkedAddU64 (left right : ℕ) : Option ℕ :=
  if left + right < 2 ^ 64 then some (left + right) else none

section Operations

variable (ε : Type) (sha256 : Sha256) (access : BoundNetworkConfigStore)

/-- Mount the store again. -/
def remountNetworkConfig (allowFreshErased : Bool) : Prog ε NetworkAuthority := do
  let mounted ← (mount sha256 access : NetworkConfigAction ε _).run
  pure (authorityOf allowFreshErased mounted)

/-- The authority at boot and the revision its actors were configured with. -/
def bootNetworkConfig : Prog ε (NetworkAuthority × ℕ) := do
  let network ← remountNetworkConfig ε sha256 access true
  let networkAppliedRevision := match network with
    | .mounted mounted => mounted.revision.generation.get
    | .freshErased | .unavailable => 0
  pure (network, networkAppliedRevision)

/-- Decide the outcome and the authority after a commit has reported an error. -/
def reconcileNetworkConfig (predecessor : Option NetworkConfigRevision)
    (configuration : NetworkConfig) (expectedRevision : ℕ)
    (commitError : NetworkConfigStoreError ε) :
    Except (NetworkConfigStoreError ε) MountedNetworkConfigStore →
      Checked NetworkConfigMutationOutcome × NetworkAuthority
  | .ok mounted =>
    let revision := mounted.revision.generation.get
    let intendedRevision := checkedAddU64 expectedRevision 1 = some revision
    let intended := intendedRevision ∧
      networkConfigurationsEqual mounted.configuration configuration = true
    (if intended then .ok (.applied revision true)
      else .error (mapNetworkConfigStoreError commitError), .mounted mounted)
  | .error (.fault .unformattedErased) =>
    if predecessor.isNone then (.error (mapNetworkConfigStoreError commitError), .freshErased)
    else
      let reconcileError : NetworkConfigStoreError ε := .fault .unformattedErased
      (.error (mapNetworkConfigStoreError reconcileError), .unavailable)
  | .error reconcileError =>
    (.error (mapNetworkConfigStoreError reconcileError), .unavailable)

/-- Commit a changed configuration: a successor of its predecessor, or the first one. -/
def writeNetworkConfig (predecessor : Option NetworkConfigRevision)
    (configuration : NetworkConfig) : NetworkConfigAction ε MountedNetworkConfigStore :=
  match predecessor with
  | some predecessor => commitSuccessor sha256 access predecessor configuration
  | none => provisionErased sha256 access configuration

/-- Apply the request to a configuration that has been moved out of the authority. -/
def commitNetworkConfigFrom (predecessor : Option NetworkConfigRevision)
    (configuration : NetworkConfig) (request : NetworkConfigMutationRequest) :
    Prog ε (Checked NetworkConfigMutationOutcome × NetworkAuthority) :=
  match applyNetworkConfigMutation configuration request.mutation with
  | .error error => do
    let network ← remountNetworkConfig ε sha256 access predecessor.isNone
    pure (.error error, network)
  | .ok configuration => do
    match ← (writeNetworkConfig ε sha256 access predecessor configuration).run with
    | .ok mounted =>
      pure (.ok (.applied mounted.revision.generation.get true), .mounted mounted)
    | .error commitError =>
      let mounted ← (mount sha256 access : NetworkConfigAction ε _).run
      pure (reconcileNetworkConfig ε predecessor configuration request.expectedRevision
        commitError mounted)

/-- Commit a mutation that changes the configuration. -/
def commitNetworkConfigMutation (network : NetworkAuthority)
    (request : NetworkConfigMutationRequest) :
    Prog ε (Checked NetworkConfigMutationOutcome × NetworkAuthority) :=
  match network with
  | .freshErased => commitNetworkConfigFrom ε sha256 access none .empty request
  | .mounted store =>
    commitNetworkConfigFrom ε sha256 access (some store.revision) store.configuration request
  | .unavailable => pure (.error .unavailable, .unavailable)

/-- Apply one compare-and-swap mutation. -/
def mutateNetworkConfig (networkAppliedRevision : ℕ) (network : NetworkAuthority)
    (request : NetworkConfigMutationRequest) :
    Prog ε (Checked NetworkConfigMutationOutcome × NetworkAuthority) :=
  match networkConfigRevision network with
  | .error error => pure (.error error, network)
  | .ok currentRevision =>
    if request.expectedRevision ≠ currentRevision then
      pure (.ok (.revisionConflict currentRevision), network)
    else
      match networkConfigMutationIsNoop network request.mutation with
      | .error error => pure (.error error, network)
      | .ok true =>
        pure (.ok (.applied currentRevision (currentRevision ≠ networkAppliedRevision)), network)
      | .ok false => commitNetworkConfigMutation ε sha256 access network request

end Operations

section Reasoning

variable {network network' : NetworkAuthority} {request : NetworkConfigMutationRequest}
  {store store' : MountedNetworkConfigStore} {configuration : NetworkConfig}

/-- The configuration that an authority stands for: without one, the defaults. -/
def NetworkAuthority.desired : NetworkAuthority → NetworkConfig
  | mounted store => store.configuration
  | freshErased | unavailable => .empty

/-- A remount of the flash would give the same authority. -/
def Consistent (ε : Type) (sha256 : Sha256) (access : BoundNetworkConfigStore)
    (network : NetworkAuthority) (f : Flash) : Prop :=
  match network with
  | .mounted store => (mount sha256 access : NetworkConfigAction ε _).eval f = (.ok store, f)
  | .freshErased => (mount sha256 access : NetworkConfigAction ε _).eval f =
      (.error (.fault .unformattedErased), f)
  | .unavailable => True

/-- Two authorities stand for the same revision and configuration. -/
def SameAuthority : NetworkAuthority → NetworkAuthority → Prop
  | .freshErased, .freshErased => True
  | .mounted store, .mounted store' =>
    store'.revision = store.revision ∧ store'.configuration = store.configuration
  | _, _ => False

/-- No erase of the mounted store's inactive sector has forged a digest. -/
def Unforged (sha256 : Sha256) (network : NetworkAuthority) (f g : Flash) : Prop :=
  ∀ store, network = .mounted store → ¬ Forged sha256 store.target f g

/-- A mount on a working backend is told by its answer. -/
theorem mount_eval_iff {r : Except (NetworkConfigStoreError ε) MountedNetworkConfigStore} :
    (mount sha256 access : NetworkConfigAction ε _).eval f = (r, f) ↔
      mountAnswer sha256 access ε f = r := by
  rw [eval_mountAnswer, Prod.mk.injEq, and_iff_left rfl]

/-- A mount inside a larger program answers from the contents or fails. -/
theorem wp_mount_bind {α : Type} {G : Mutation → Prop}
    {next : Except (NetworkConfigStoreError ε) MountedNetworkConfigStore → Prog ε α}
    {Q : α → Flash → Prop}
    (hanswer : wp φ G (next (mountAnswer sha256 access ε f)) Q (fun _ => True) f)
    (herror : ∀ e, wp φ G (next (.error (.backend e))) Q (fun _ => True) f) :
    wp φ G ((mount sha256 access : NetworkConfigAction ε _).run >>= next) Q (fun _ => True) f := by
  apply wp_bind
  refine query_mount.wp (fun _ => trivial) ?_ fun _ e => herror e
  have hmount : ((mount sha256 access).run.run f).1 = mountAnswer sha256 access ε f :=
    congrArg Prod.fst (eval_mountAnswer f)
  rw [hmount]
  exact hanswer

/-- The authority of a mount is consistent with the contents. -/
theorem consistent_authorityOf (allowFreshErased : Bool) :
    Consistent ε sha256 access
      (authorityOf allowFreshErased (mountAnswer sha256 access ε f)) f := by
  cases hanswer : mountAnswer sha256 access ε f with
  | ok store => exact mount_eval_iff.mpr hanswer
  | error error =>
    unfold authorityOf
    split
    · next mounted h => cases h
    · next h =>
      cases h
      split
      · exact mount_eval_iff.mpr hanswer
      · trivial
    · trivial

/-- How a commit of a changed configuration ends. -/
inductive Settled (ε : Type) (sha256 : Sha256) (access : BoundNetworkConfigStore)
    (network : NetworkAuthority) (request : NetworkConfigMutationRequest) (f g : Flash) :
    Checked NetworkConfigMutationOutcome × NetworkAuthority → Prop
  /-- The intended successor is mounted. -/
  | applied (configuration : NetworkConfig) (store' : MountedNetworkConfigStore)
      (happly : applyNetworkConfigMutation network.desired request.mutation = .ok configuration)
      (hgeneration : store'.revision.generation.get = request.expectedRevision + 1)
      (hmount : (mount sha256 access : NetworkConfigAction ε _).eval g = (.ok store', g))
      (hsame : store'.configuration.Same configuration) :
      Settled ε sha256 access network request f g
        (.ok (.applied store'.revision.generation.get true), .mounted store')
  /-- An error is reported. -/
  | refused (error : ProductNetworkConfigError) (network' : NetworkAuthority)
      (hconsistent : Consistent ε sha256 access network' g)
      (hkept : Unforged sha256 network f g →
        network' = .unavailable ∨ SameAuthority network network') :
      Settled ε sha256 access network request f g (.error error, network')

/-- What a commit that reports an error leaves behind: whatever can be mounted is the old or
the intended configuration. -/
def Interrupted (ε : Type) (sha256 : Sha256) (access : BoundNetworkConfigStore)
    (network : NetworkAuthority) (configuration : NetworkConfig) (expectedRevision : ℕ)
    (f g : Flash) : Prop :=
  Unforged sha256 network f g → ∀ store', mountAnswer sha256 access ε g = .ok store' →
    SameAuthority network (.mounted store') ∨
      (store'.revision.generation.get = expectedRevision + 1 ∧
        store'.configuration.Same configuration)

/-- The token of the configuration that an authority stands for. -/
def NetworkAuthority.predecessor : NetworkAuthority → Option NetworkConfigRevision
  | mounted store => some store.revision
  | freshErased | unavailable => none

/-- A write of a changed configuration succeeds as intended or is interrupted. -/
theorem wp_writeNetworkConfig {G : Mutation → Prop} (hG : ∀ m, G m) {expectedRevision : ℕ}
    (hconsistent : Consistent ε sha256 access network f)
    (hrevision : networkConfigRevision network = .ok expectedRevision) :
    wp φ G (writeNetworkConfig ε sha256 access network.predecessor configuration).run
      (fun r g => match r with
        | .ok store' => mountAnswer sha256 access ε g = .ok store' ∧
            store'.revision.generation.get = expectedRevision + 1 ∧
            store'.configuration.Same configuration
        | .error _ => Interrupted ε sha256 access network configuration expectedRevision f g)
      (fun _ => True) f := by
  cases network with
  | unavailable => cases hrevision
  | mounted store =>
    cases hrevision
    obtain ⟨hread, hmounted⟩ := mountAnswer_ok.mp (mount_eval_iff.mp hconsistent)
    refine (wp_commitSuccessor hG).mono (fun r g h => ?_) fun _ _ => trivial
    cases r with
    | ok store' =>
      exact ⟨mountAnswer_ok.mpr ⟨hread, h.mounted⟩, h.generation, h.same⟩
    | error error =>
      intro hunforged store' hanswer
      exact Residue.mounted_cases h hmounted (hunforged store rfl) (mountAnswer_ok.mp hanswer).2
  | freshErased =>
    cases hrevision
    have hanswer := mount_eval_iff.mp hconsistent
    unfold mountAnswer at hanswer
    split at hanswer
    · next hread =>
      have hfresh : mounted sha256 access.binding f = .error .unformattedErased := by
        cases hmounted : mounted sha256 access.binding f with
        | ok store =>
          rw [hmounted] at hanswer
          cases hanswer
        | error fault =>
          rw [hmounted] at hanswer
          cases hanswer
          rfl
      refine (wp_provisionErased hG).mono (fun r g h => ?_) fun _ _ => trivial
      cases r with
      | ok store' => exact ⟨mountAnswer_ok.mpr ⟨hread, h.mounted⟩, h.generation, h.same⟩
      | error error =>
        intro _ store' hmount
        exact Or.inr (ProvisionResidue.mounted_first h hfresh (mountAnswer_ok.mp hmount).2)
    · cases hanswer

/-- Reconciling after an interrupted write settles the request. -/
theorem settled_reconcile {expectedRevision : ℕ} (commitError : NetworkConfigStoreError ε)
    (happly : applyNetworkConfigMutation network.desired request.mutation = .ok configuration)
    (hrevision : networkConfigRevision network = .ok expectedRevision)
    (hexpected : request.expectedRevision = expectedRevision)
    (hinterrupted : Interrupted ε sha256 access network configuration expectedRevision f g) :
    Settled ε sha256 access network request f g
      (reconcileNetworkConfig ε network.predecessor configuration request.expectedRevision
        commitError (mountAnswer sha256 access ε g)) := by
  subst hexpected
  cases hanswer : mountAnswer sha256 access ε g with
  | ok store' =>
    unfold reconcileNetworkConfig
    dsimp only
    split
    · next hintended =>
      obtain ⟨hnext, hequal⟩ := hintended
      unfold checkedAddU64 at hnext
      split at hnext
      · exact .applied configuration store' happly (Option.some.inj hnext).symm
          (mount_eval_iff.mpr hanswer) (networkConfigurationsEqual_iff.mp hequal)
      · cases hnext
    · next hintended =>
      refine .refused _ _ (mount_eval_iff.mpr hanswer) fun hunforged => Or.inr ?_
      rcases hinterrupted hunforged store' hanswer with hsame | ⟨hgeneration, hsame⟩
      · exact hsame
      · refine absurd ⟨?_, networkConfigurationsEqual_iff.mpr hsame⟩ hintended
        unfold checkedAddU64
        rw [← hgeneration, if_pos store'.revision.generation.lt]
  | error reconcileError =>
    unfold reconcileNetworkConfig
    split
    · next mounted h => cases h
    · next h =>
      cases h
      split
      · next hnone =>
        refine .refused _ _ (mount_eval_iff.mpr hanswer) fun _ => Or.inr ?_
        cases network with
        | freshErased => trivial
        | mounted store => cases hnone
        | unavailable => cases hrevision
      · exact .refused _ _ trivial fun _ => Or.inl rfl
    · exact .refused _ _ trivial fun _ => Or.inl rfl

/-- A request that is applied to the configuration of an authority is settled. -/
theorem wp_commitNetworkConfigFrom {G : Mutation → Prop} (hG : ∀ m, G m)
    (hconsistent : Consistent ε sha256 access network f)
    (hrevision : networkConfigRevision network = .ok request.expectedRevision) :
    wp φ G (commitNetworkConfigFrom ε sha256 access network.predecessor network.desired request)
      (fun r g => Settled ε sha256 access network request f g r) (fun _ => True) f := by
  unfold commitNetworkConfigFrom
  split
  · next error happly =>
    -- nothing has been written, and the remount finds what was mounted before
    unfold remountNetworkConfig
    rw [bind_assoc]
    refine wp_mount_bind ?_ fun e => ?_
    · refine wp_pure (fun _ => trivial) (.refused _ _ (consistent_authorityOf _) fun _ => Or.inr ?_)
      cases network with
      | mounted store =>
        rw [mount_eval_iff.mp hconsistent]
        exact ⟨rfl, rfl⟩
      | freshErased =>
        rw [mount_eval_iff.mp hconsistent]
        trivial
      | unavailable => cases hrevision
    · exact wp_pure (fun _ => trivial) (.refused _ _ trivial fun _ => Or.inl rfl)
  · next configuration happly =>
    apply wp_bind
    refine (wp_writeNetworkConfig hG hconsistent hrevision).mono (fun r g h => ?_) fun _ _ =>
      trivial
    cases r with
    | ok store' =>
      exact wp_pure (fun _ => trivial)
        (.applied configuration store' happly h.2.1 (mount_eval_iff.mpr h.1) h.2.2)
    | error commitError =>
      refine wp_mount_bind ?_ fun e => ?_
      · exact wp_pure (fun _ => trivial) (settled_reconcile commitError happly hrevision rfl h)
      · exact wp_pure (fun _ => trivial) (.refused _ _ trivial fun _ => Or.inl rfl)

/-- What it means for the outcome of one request to be truthful. -/
structure Truthful (ε : Type) (sha256 : Sha256) (access : BoundNetworkConfigStore)
    (networkAppliedRevision : ℕ) (network : NetworkAuthority)
    (request : NetworkConfigMutationRequest) (f : Flash)
    (outcome : Checked NetworkConfigMutationOutcome) (network' : NetworkAuthority) (g : Flash) :
    Prop where
  /-- A conflict changes nothing and reports the current revision. -/
  conflict : ∀ currentRevision, outcome = .ok (.revisionConflict currentRevision) →
    network' = network ∧ g = f ∧ networkConfigRevision network = .ok currentRevision ∧
      request.expectedRevision ≠ currentRevision
  /-- A mutation that would change nothing changes nothing and reports the current revision. -/
  noop : networkConfigRevision network = .ok request.expectedRevision →
    networkConfigMutationIsNoop network request.mutation = .ok true →
    outcome = .ok (.applied request.expectedRevision
      (request.expectedRevision ≠ networkAppliedRevision)) ∧ network' = network ∧ g = f ∧
      applyNetworkConfigMutation network.desired request.mutation = .ok network.desired
  /-- Any other applied mutation has made the flash and the authority the intended successor. -/
  applied : ∀ revision rebootRequired, outcome = .ok (.applied revision rebootRequired) →
    networkConfigMutationIsNoop network request.mutation ≠ .ok true →
    revision = request.expectedRevision + 1 ∧ rebootRequired = true ∧
      ∃ configuration store',
        applyNetworkConfigMutation network.desired request.mutation = .ok configuration ∧
        network' = .mounted store' ∧
        (mount sha256 access : NetworkConfigAction ε _).eval g = (.ok store', g) ∧
        store'.revision.generation.get = revision ∧ store'.configuration.Same configuration
  /-- After an error the authority is unavailable or what it was, in agreement with the flash. -/
  error : ∀ error, outcome = .error error → Unforged sha256 network f g →
    network' = .unavailable ∨
      (SameAuthority network network' ∧ Consistent ε sha256 access network' g)

/-- A settled request is truthful and leaves an authority that agrees with the flash. -/
theorem Settled.truthful {r : Checked NetworkConfigMutationOutcome × NetworkAuthority}
    (networkAppliedRevision : ℕ) (h : Settled ε sha256 access network request f g r)
    (hnoop : networkConfigMutationIsNoop network request.mutation = .ok false) :
    Truthful ε sha256 access networkAppliedRevision network request f r.1 r.2 g ∧
      Consistent ε sha256 access r.2 g := by
  have hchanges : networkConfigMutationIsNoop network request.mutation ≠ .ok true := by
    rw [hnoop]
    rintro ⟨⟩
  cases h with
  | applied configuration store' happly hgeneration hmount hsame =>
    refine ⟨⟨nofun, fun _ h => absurd h hchanges, ?_, nofun⟩, hmount⟩
    rintro revision rebootRequired ⟨⟩ -
    exact ⟨hgeneration, rfl, configuration, store', happly, rfl, hmount, rfl, hsame⟩
  | refused error network' hconsistent hkept =>
    refine ⟨⟨nofun, fun _ h => absurd h hchanges, nofun, ?_⟩,
      hconsistent⟩
    intro _ _ hunforged
    exact (hkept hunforged).imp_right fun hsame => ⟨hsame, hconsistent⟩

/-- The recognised mutation leaves the desired configuration as it is. -/
theorem apply_desired_of_noop {mutation : NetworkConfigMutation}
    (h : networkConfigMutationIsNoop network mutation = .ok true) :
    applyNetworkConfigMutation network.desired mutation = .ok network.desired := by
  obtain ⟨desired, hdesired, hrestates⟩ := checked_bind_ok.mp h
  cases network with
  | unavailable => cases hdesired
  | freshErased =>
    cases hdesired
    exact apply_restated hrestates
  | mounted store =>
    cases hdesired
    exact apply_restated hrestates

/-- An authority that is available is the same as itself. -/
theorem sameAuthority_refl (h : network ≠ .unavailable) : SameAuthority network network := by
  cases network with
  | freshErased => trivial
  | mounted store => exact ⟨rfl, rfl⟩
  | unavailable => exact absurd rfl h

/-- An answer without any change of the authority or the flash. -/
theorem truthful_unchanged {networkAppliedRevision : ℕ} {error : ProductNetworkConfigError}
    (hconsistent : Consistent ε sha256 access network f)
    (hnoop : networkConfigRevision network = .ok request.expectedRevision →
      networkConfigMutationIsNoop network request.mutation ≠ .ok true) :
    Truthful ε sha256 access networkAppliedRevision network request f (.error error) network f ∧
      Consistent ε sha256 access network f := by
  refine ⟨⟨nofun, fun hrevision h => absurd h (hnoop hrevision),
    nofun, fun _ _ _ => ?_⟩, hconsistent⟩
  by_cases h : network = .unavailable
  · exact Or.inl h
  · exact Or.inr ⟨sameAuthority_refl h, hconsistent⟩

/-- Every execution of a mutation is truthful and keeps the authority consistent. -/
theorem wp_mutateNetworkConfig {G : Mutation → Prop} (hG : ∀ m, G m) (networkAppliedRevision : ℕ)
    (hconsistent : Consistent ε sha256 access network f) :
    wp φ G (mutateNetworkConfig ε sha256 access networkAppliedRevision network request)
      (fun r g => Truthful ε sha256 access networkAppliedRevision network request f r.1 r.2 g ∧
        Consistent ε sha256 access r.2 g) (fun _ => True) f := by
  unfold mutateNetworkConfig
  split
  · next error hrevision =>
    refine wp_pure (fun _ => trivial) (truthful_unchanged hconsistent fun h => ?_)
    rw [hrevision] at h
    cases h
  · next currentRevision hrevision =>
    split
    · next hstale =>
      refine wp_pure (fun _ => trivial) ⟨⟨?_, fun h => ?_, nofun,
        nofun⟩, hconsistent⟩
      · rintro _ ⟨⟩
        exact ⟨rfl, rfl, hrevision, hstale⟩
      · rw [hrevision] at h
        exact absurd (Except.ok.inj h).symm hstale
    · next hcurrent =>
      have hexpected : request.expectedRevision = currentRevision := not_not.mp hcurrent
      subst hexpected
      split
      · next error hnoop =>
        refine wp_pure (fun _ => trivial) (truthful_unchanged hconsistent fun _ h => ?_)
        rw [hnoop] at h
        cases h
      · next hnoop =>
        refine wp_pure (fun _ => trivial) ⟨⟨nofun, fun _ _ => ?_,
          fun _ _ _ h => absurd hnoop h, nofun⟩, hconsistent⟩
        exact ⟨rfl, rfl, rfl, apply_desired_of_noop hnoop⟩
      · next hnoop =>
        have hsettled : wp φ G (commitNetworkConfigFrom ε sha256 access network.predecessor
            network.desired request) (fun r g => Settled ε sha256 access network request f g r)
            (fun _ => True) f := wp_commitNetworkConfigFrom hG hconsistent hrevision
        cases network with
        | unavailable => cases hrevision
        | freshErased =>
          exact hsettled.mono (fun r g h => h.truthful networkAppliedRevision hnoop)
            fun _ _ => trivial
        | mounted store =>
          exact hsettled.mono (fun r g h => h.truthful networkAppliedRevision hnoop)
            fun _ _ => trivial

/-- A boot finds an authority that agrees with the flash. -/
theorem wp_bootNetworkConfig {G : Mutation → Prop} :
    wp φ G (bootNetworkConfig ε sha256 access) (fun r g => Consistent ε sha256 access r.1 g)
      (fun _ => True) f := by
  unfold bootNetworkConfig remountNetworkConfig
  rw [bind_assoc]
  refine wp_mount_bind ?_ fun e => ?_
  · exact wp_pure (fun _ => trivial) (consistent_authorityOf _)
  · exact wp_pure (fun _ => trivial) trivial

/-- The authorities that the product can hold, with the contents of the flash: what a boot on
any contents finds, and what any mutations then make of it, whichever of their backend
operations fail. -/
inductive Reachable (ε : Type) (sha256 : Sha256) (access : BoundNetworkConfigStore) :
    NetworkAuthority → ℕ → Flash → Prop
  | boot {φ : Faults} {f g : Flash} {tr : List Mutation} {network : NetworkAuthority}
      {networkAppliedRevision : ℕ}
      (h : Prog.Exec φ (bootNetworkConfig ε sha256 access) f tr
        (some (network, networkAppliedRevision)) g) :
      Reachable ε sha256 access network networkAppliedRevision g
  | mutate {φ : Faults} {f g : Flash} {tr : List Mutation} {network network' : NetworkAuthority}
      {networkAppliedRevision : ℕ} {request : NetworkConfigMutationRequest}
      {outcome : Checked NetworkConfigMutationOutcome}
      (hbefore : Reachable ε sha256 access network networkAppliedRevision f)
      (h : Prog.Exec φ (mutateNetworkConfig ε sha256 access networkAppliedRevision network request)
        f tr (some (outcome, network')) g) :
      Reachable ε sha256 access network' networkAppliedRevision g

/-- A reachable authority agrees with the flash. -/
theorem Reachable.consistent {networkAppliedRevision : ℕ}
    (h : Reachable ε sha256 access network networkAppliedRevision f) :
    Consistent ε sha256 access network f := by
  induction h with
  | boot h => exact (wp_bootNetworkConfig (G := fun _ => True)).returns h
  | mutate hbefore h ih => exact ((wp_mutateNetworkConfig (fun _ => trivial) _ ih).returns h).2

/-- Every outcome of a mutation is truthful, from every reachable authority and whichever backend
operations fail. -/
theorem mutate_truthful (ε : Type) (sha256 : Sha256) (access : BoundNetworkConfigStore)
    {φ : Faults} {f g : Flash} {tr : List Mutation} {network network' : NetworkAuthority}
    {networkAppliedRevision : ℕ} {request : NetworkConfigMutationRequest}
    {outcome : Checked NetworkConfigMutationOutcome}
    (hreachable : Reachable ε sha256 access network networkAppliedRevision f)
    (hexec : Prog.Exec φ (mutateNetworkConfig ε sha256 access networkAppliedRevision network
      request)
      f tr (some (outcome, network')) g) :
    Truthful ε sha256 access networkAppliedRevision network request f outcome network' g :=
  ((wp_mutateNetworkConfig (fun _ => trivial) _ hreachable.consistent).returns hexec).1

end Reasoning

section Provisioning

/-- The flash device identifier of the product. -/
def flashDeviceId (mac : Vector Byte 6) : Vector Byte 16 :=
  #v[0x65, 0x32, 0x39, 0x30, 0x2d, 0x66, 0x6c, 0x61, 0x73, 0x68, mac[0], mac[1], mac[2], mac[3],
    mac[4], mac[5]]

/-- The product's view of its partition. -/
def productAccess (mac : Vector Byte 6) : BoundNetworkConfigStore where
  binding := ⟨flashDeviceId mac, 0xa14000, 8192, physicalFormatVersion⟩
  geometry := ⟨8192, 4, 4, 4096⟩
  usizeValues := 2 ^ 32

variable (sha256 : Sha256)

/-- The view of the first device. -/
def firstAccess : BoundNetworkConfigStore := productAccess (Vector.replicate 6 0)

/-- A request that turns the Wi-Fi transport off. -/
def transportOff : NetworkConfigMutationRequest := ⟨.setGatewayPolicy ⟨false, true⟩, 0⟩

/-- The configuration that the request asks for. -/
def transportOffConfig : NetworkConfig := { NetworkConfig.empty with wifiTransportEnabled := false }

/-- What is mounted once the request is committed to erased contents. -/
def transportOffStore : MountedNetworkConfigStore :=
  mountedSnapshot (recordSnapshot sha256 firstAccess.binding .a firstGeneration 0 zeroDigest
    transportOffConfig) .a .erased

/-- A boot on erased contents finds no configuration. -/
theorem boot_erased : (bootNetworkConfig Unit sha256 firstAccess).run Flash.erased =
    ((.freshErased, 0), Flash.erased) := by
  have hblank : mounted sha256 firstAccess.binding Flash.erased = .error .unformattedErased := by
    unfold mounted
    rw [status_of_blank fun _ _ => rfl, status_of_blank fun _ _ => rfl]
    rfl
  have hread : validateReadBinding firstAccess = .ok () := by decide
  have hmount : (mount sha256 firstAccess : NetworkConfigAction Unit _).run.run Flash.erased = _ :=
    eval_mount hread Flash.erased
  rw [hblank] at hmount
  unfold bootNetworkConfig remountNetworkConfig
  rw [bind_assoc, Prog.run_bind, hmount]
  rfl

/-- The request provisions erased contents. -/
theorem mutate_erased : (mutateNetworkConfig Unit sha256 firstAccess 0 .freshErased
      transportOff).run Flash.erased =
    ((.ok (.applied 1 true), .mounted (transportOffStore sha256)),
      Flash.erased.program 0 (provisionRecord sha256 firstAccess.binding transportOffConfig)) := by
  have hprovision : (provisionErased sha256 firstAccess transportOffConfig :
      NetworkConfigAction Unit _).run.run Flash.erased = _ :=
    eval_provisionErased (by decide) (fun _ _ => rfl) transportOffConfig
  change Prog.run ((provisionErased sha256 firstAccess transportOffConfig).run >>= _) _ = _
  rw [Prog.run_bind, hprovision]
  rfl

/-- A boot on erased contents is possible. -/
theorem reachable_erased :
    Reachable Unit sha256 firstAccess .freshErased 0 Flash.erased := by
  obtain ⟨tr, hboot⟩ :=
    Prog.exec_run Faults.none (bootNetworkConfig Unit sha256 firstAccess) Flash.erased
  rw [boot_erased] at hboot
  exact .boot hboot

/-- The request can provision erased contents. -/
theorem exec_mutate_erased : ∃ tr, Prog.Exec Faults.errors
    (mutateNetworkConfig Unit sha256 firstAccess 0 .freshErased transportOff) Flash.erased tr
    (some (.ok (.applied 1 true), .mounted (transportOffStore sha256)))
    (Flash.erased.program 0 (provisionRecord sha256 firstAccess.binding transportOffConfig)) := by
  obtain ⟨tr, hexec⟩ := Prog.exec_run Faults.errors
    (mutateNetworkConfig Unit sha256 firstAccess 0 .freshErased transportOff) Flash.erased
  rw [mutate_erased] at hexec
  exact ⟨tr, hexec⟩

end Provisioning

/-- The request's outcome is truthful. -/
theorem mutate_truthful_erased : Truthful Unit Nor.sha256 firstAccess 0 .freshErased transportOff
    Flash.erased (.ok (.applied 1 true)) (.mounted (transportOffStore Nor.sha256))
    (Flash.erased.program 0 (provisionRecord Nor.sha256 firstAccess.binding transportOffConfig)) :=
  have ⟨_, hexec⟩ := exec_mutate_erased Nor.sha256
  mutate_truthful Unit Nor.sha256 firstAccess (reachable_erased Nor.sha256) hexec

end Network
