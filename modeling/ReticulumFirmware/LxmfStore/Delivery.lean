import ReticulumFirmware.LxmfStore.Retained

/-!
# Inbound delivery

`lxmf_delivery.rs` and the inbound part of `prns_product_task.rs`: the product copies one delivery,
holds it until its message is durable or it is given up, and takes no other one meanwhile. A
mutation of the store that is not finished always belongs to the delivery that is held.
-/

namespace LxmfStore

open Nor Lxmf

section Policy

/-- Why a copied carrier is retried. -/
inductive LxmfRetryClass where
  | storeReconcile
  | storeBusy
  deriving DecidableEq

/-- Why a carrier cannot become a durable message. -/
inductive LxmfTerminalReject where
  | invalidMessage
  | candidateContradiction
  | storeFull
  | indexFull
  | handleExhausted
  | storeFault
  | hashCollision
  deriving DecidableEq

/-- What is done with a carrier that could not be made durable. -/
inductive LxmfRetentionAction where
  | retry (retryClass : LxmfRetryClass)
  | holdPendingFault
  | terminal (reject : LxmfTerminalReject)
  deriving DecidableEq

/-- Classify a retained carrier. A pending mutation holds the carrier that would else be
rejected. -/
def carrierRetentionAction {ε : Type} (reason : DurableCarrierRetentionReason ε)
    (pendingAfterCall : Option MessageId) : LxmfRetentionAction :=
  match pendingAfterCall, reason with
  | some _, .store (.backend _ _) => .retry .storeReconcile
  | some _, .store (.binding _) | some _, .store (.fault _) | some _, .store (.full _ _)
  | some _, .store (.indexFull _) | some _, .store (.hashCollision _)
  | some _, .store .handleExhausted => .holdPendingFault
  | _, .rejected _ => .terminal .invalidMessage
  | _, .candidate _ => .terminal .candidateContradiction
  | _, .store (.backend _ _) => .retry .storeReconcile
  | _, .store (.ambiguousMutationPending _) => .retry .storeBusy
  | _, .store (.full _ _) => .terminal .storeFull
  | _, .store (.indexFull _) => .terminal .indexFull
  | _, .store .handleExhausted => .terminal .handleExhausted
  | _, .store (.binding _) | _, .store (.fault _) => .terminal .storeFault
  | _, .store (.hashCollision _) => .terminal .hashCollision

/-- Whether the copied carrier is disposed of. -/
def LxmfRetentionAction.disposes : LxmfRetentionAction → Bool
  | .terminal _ => true
  | _ => false

/-- Message that owns the reconciliation of a store. -/
def MountedLxmfStore.pendingMessageId (store : MountedLxmfStore) : Option MessageId :=
  store.pending.map fun pending => pending.metadata.messageId

variable {ε : Type} {sha256 : Sha256} {access : BoundLxmfStore} {store : MountedLxmfStore}
  {candidate : InboundMessageCandidate}

/-- Where nothing is pending, a carrier that the checks refuse is given up. -/
theorem disposes_of_refused (hidle : store.pending = none) {error : LxmfCommitError ε}
    (h : admission sha256 access store candidate = .error error) :
    (carrierRetentionAction (.store error) none).disposes = true := by
  unfold admission at h
  split at h
  · cases h
    rfl
  split at h
  · unfold classifyReplay at h
    split at h
    · cases h
    · cases h
    · cases h
      rfl
    · cases h
      rfl
  · rw [conflictingPending, hidle] at h
    dsimp only [Option.filter_none] at h
    split_ifs at h
    · cases h
      rfl
    · unfold allocate at h
      dsimp only at h
      split at h
      · cases h
        rfl
      · split_ifs at h
        · cases h
          rfl
        · rw [hidle] at h
          dsimp only at h
          split at h
          · cases h
            rfl
          · cases h

/-- A pending mutation holds its carrier. -/
theorem holds_of_failure {error : LxmfCommitError ε} (h : AppendFailure error)
    (messageId : MessageId) :
    (carrierRetentionAction (.store error) (some messageId)).disposes = false := by
  cases h with
  | backend => rfl
  | fault => rfl
  | hashCollision => rfl

end Policy

section Task

/-- A copied delivery of a packet. -/
structure LxmfDelivery where
  destination : DestinationHash
  sourceInterface : InboundInterfaceId
  plaintext : List Byte

namespace LxmfDelivery

variable (delivery : LxmfDelivery)

/-- The carrier form of a delivered packet. -/
def carrier : CarrierIngress := .opportunistic delivery.destination delivery.plaintext

/-- The event carries no signal. -/
def ingressObservation : InboundTransportObservation := ⟨delivery.sourceInterface, none⟩

/-- The attempt of the product: the keys of sources are not looked up. -/
def commitLxmfCarrier (ε : Type) (sha256 : Sha256) (ed25519 : Ed25519) (access : BoundLxmfStore)
    (store : MountedLxmfStore) : Prog ε (DurableCarrierOutcome ε × MountedLxmfStore) :=
  commitParsedCarrier sha256 ed25519 delivery.carrier (some delivery.ingressObservation) wireLimits
    noSourceIdentity store access

end LxmfDelivery

/-- The inbound part of the product task. -/
structure InboundTask where
  flash : Flash
  lxmf : Option MountedLxmfStore
  pendingLxmf : Option LxmfDelivery

namespace InboundTask

/-- The task after an attempt, or after a power loss in it. -/
def settle {ε : Type} (delivery : LxmfDelivery) (g : Flash) :
    Option (DurableCarrierOutcome ε × MountedLxmfStore) → InboundTask
  | none => ⟨g, none, none⟩
  | some (.durable _, store) => ⟨g, some store, none⟩
  | some (.retained reason, store) =>
    ⟨g, some store, if (carrierRetentionAction reason store.pendingMessageId).disposes then none
      else some delivery⟩

variable (ε : Type) (φ : Faults) in
/-- One step: a boot, an arrival while no delivery is held, an attempt, a delivery given up because
the store is not available, or a loss of power. -/
inductive Step (sha256 : Sha256) (ed25519 : Ed25519) (access : BoundLxmfStore) :
    InboundTask → InboundTask → Prop
  | boot {task : InboundTask} {capacity : ℕ} {tr : List Mutation} {r : Option _} {g : Flash}
      (hrun : Prog.Exec φ (mount sha256 access capacity : MountAction ε _).run task.flash tr r g) :
      Step sha256 ed25519 access task ⟨g, mountedStore r, none⟩
  | receive {task : InboundTask} (h : task.pendingLxmf = none) (delivery : LxmfDelivery) :
      Step sha256 ed25519 access task { task with pendingLxmf := some delivery }
  | attempt {task : InboundTask} {delivery : LxmfDelivery} {store : MountedLxmfStore}
      {tr : List Mutation} {r : Option _} {g : Flash} (hdelivery : task.pendingLxmf = some delivery)
      (hstore : task.lxmf = some store)
      (hrun : Prog.Exec φ (delivery.commitLxmfCarrier ε sha256 ed25519 access store) task.flash tr r
        g) : Step sha256 ed25519 access task (settle delivery g r)
  | unavailable {task : InboundTask} (h : task.lxmf = none) :
      Step sha256 ed25519 access task { task with pendingLxmf := none }
  | reset (task : InboundTask) : Step sha256 ed25519 access task ⟨task.flash, none, none⟩

variable (ε : Type) (φ : Faults) in
/-- The tasks that a run on a region with any contents visits. -/
inductive Reachable (sha256 : Sha256) (ed25519 : Ed25519) (access : BoundLxmfStore) :
    InboundTask → Prop
  | start (f : Flash) : Reachable sha256 ed25519 access ⟨f, none, none⟩
  | step {task next : InboundTask} (h : Reachable sha256 ed25519 access task)
      (hstep : Step ε φ sha256 ed25519 access task next) : Reachable sha256 ed25519 access next

variable {ε : Type} {φ : Faults} {sha256 : Sha256} {ed25519 : Ed25519} {access : BoundLxmfStore}
  {task next : InboundTask} {delivery : LxmfDelivery} {store : MountedLxmfStore}

/-- The store of the task, and whose mutation is pending in it. -/
structure Holds (ε : Type) (φ : Faults) (sha256 : Sha256) (ed25519 : Ed25519)
    (access : BoundLxmfStore) (task : InboundTask) : Prop where
  live : ∀ store, task.lxmf = some store → Live ε φ sha256 access task.flash store
  owner : ∀ store, task.lxmf = some store → store.pending = none ∨
    ∃ delivery candidate view, task.pendingLxmf = some delivery ∧
      parseIngress wireLimits delivery.carrier = .ok view ∧
      CarriesCandidate sha256 ed25519 noSourceIdentity delivery.carrier view
        (some delivery.ingressObservation) candidate ∧
      OwnedBy ε φ sha256 access candidate task.flash store

/-- A carrier within the limits has a wire whose length fits into four bytes. -/
theorem fits_wireLimits {carrier : CarrierIngress} {view : MessageView}
    (h : parseIngress wireLimits carrier = .ok view) : view.normalizedWireLen < 2 ^ 32 := by
  obtain ⟨destination, body, -, hparses⟩ := parseIngress_ok_iff.mp h
  obtain ⟨-, hlimit, payload, -, rfl⟩ := parsesBody_iff.mp hparses
  exact hlimit.trans_lt (by decide)

/-- What an attempt of the delivery that is held comes to. -/
inductive DeliveryEnd (ε : Type) (φ : Faults) (sha256 : Sha256) (ed25519 : Ed25519)
    (access : BoundLxmfStore) (delivery : LxmfDelivery) (f : Flash) (store : MountedLxmfStore) :
    DurableCarrierOutcome ε → Flash → MountedLxmfStore → Prop
  | rejected {error : WireError} (hparse : parseIngress wireLimits delivery.carrier = .error error)
      (hidle : store.pending = none) :
      DeliveryEnd ε φ sha256 ed25519 access delivery f store (.retained (.rejected (.wire error))) f
        store
  | committed {view : MessageView} {candidate : InboundMessageCandidate}
      {answer : Except (LxmfCommitError ε) LxmfCommitOutcome} {g : Flash}
      {store' : MountedLxmfStore} (hparse : parseIngress wireLimits delivery.carrier = .ok view)
      (hcandidate : CarriesCandidate sha256 ed25519 noSourceIdentity delivery.carrier view
        (some delivery.ingressObservation) candidate)
      (hlive : Live ε φ sha256 access g store')
      (hend : AttemptEnd ε φ sha256 access candidate f store answer g store') :
      DeliveryEnd ε φ sha256 ed25519 access delivery f store (carrierOutcome answer) g store'

/-- An attempt to commit the delivery that is held keeps the task sound. -/
theorem Holds.attempt (h : Holds ε φ sha256 ed25519 access task)
    (hdelivery : task.pendingLxmf = some delivery) (hstore : task.lxmf = some store)
    {tr : List Mutation} {outcome : DurableCarrierOutcome ε} {store' : MountedLxmfStore} {g : Flash}
    (hrun : Prog.Exec φ (delivery.commitLxmfCarrier ε sha256 ed25519 access store) task.flash tr
      (some (outcome, store')) g) :
    DeliveryEnd ε φ sha256 ed25519 access delivery task.flash store outcome g store' := by
  have hlive := h.live store hstore
  cases hparse : parseIngress wireLimits delivery.carrier with
  | error error =>
    have hidle : store.pending = none := by
      obtain hidle | ⟨owner, candidate, view, howner, hview, -, -⟩ := h.owner store hstore
      · exact hidle
      · obtain rfl := Option.some.inj (howner.symm.trans hdelivery)
        exact absurd (hparse.symm.trans hview) (by simp)
    rw [LxmfDelivery.commitLxmfCarrier, commitParsedCarrier, parseLxmfCarrier, hparse] at hrun
    cases hrun
    exact .rejected hparse hidle
  | ok view =>
    obtain ⟨candidate, hcandidate, -⟩ :=
      @exists_candidate sha256 ed25519 noSourceIdentity wireLimits
      view delivery.carrier (some delivery.ingressObservation) hparse (fits_wireLimits hparse)
    obtain ⟨answer, tr', hcommit, rfl⟩ := exec_commitParsedCarrier hparse hcandidate hrun
    refine .committed hparse hcandidate (.committed hlive hcommit) ?_
    obtain hidle | ⟨owner, owned, view', howner, hview, howned, hby⟩ := h.owner store hstore
    · exact attempt_idle hlive hidle hcommit
    · obtain rfl := Option.some.inj (howner.symm.trans hdelivery)
      obtain rfl := Except.ok.inj (hparse.symm.trans hview)
      obtain rfl := candidate_unique howned hcandidate rfl
      exact hby.attempt hlive.serving hcommit

/-- The delivery stays exactly where a mutation is pending. -/
theorem DeliveryEnd.settled {f g : Flash} {outcome : DurableCarrierOutcome ε}
    {store' : MountedLxmfStore}
    (h : DeliveryEnd ε φ sha256 ed25519 access delivery f store outcome g store') :
    (settle delivery g (some (outcome, store'))).pendingLxmf = none ↔ store'.pending = none := by
  cases h with
  | rejected hparse hidle =>
    refine iff_of_true ?_ hidle
    rw [settle]
    cases store.pendingMessageId with
    | none => rfl
    | some messageId => rfl
  | committed hparse hcandidate hlive hend =>
    cases hend with
    | completed hpending => exact iff_of_true rfl hpending
    | refused hidle hrefused =>
      refine iff_of_true ?_ hidle
      rw [carrierOutcome, settle, MountedLxmfStore.pendingMessageId, hidle, Option.map_none,
        disposes_of_refused hidle hrefused]
      rfl
    | owned howned hfailure =>
      obtain ⟨pending, hpending, -, -⟩ := howned.pending
      refine iff_of_false ?_ (by simp [hpending])
      rw [carrierOutcome, settle, MountedLxmfStore.pendingMessageId, hpending, Option.map_some,
        holds_of_failure hfailure]
      simp

/-- The delivery that is held finds no mutation but its own. -/
theorem DeliveryEnd.not_ambiguous {f g : Flash} {outcome : DurableCarrierOutcome ε}
    {store' : MountedLxmfStore}
    (h : DeliveryEnd ε φ sha256 ed25519 access delivery f store outcome g store')
    (messageId : MessageId) : outcome ≠
      .retained (.store (.ambiguousMutationPending messageId)) := by
  rintro rfl
  generalize houtcome : (DurableCarrierOutcome.retained (ε := ε)
    (.store (.ambiguousMutationPending messageId))) = outcome at h
  cases h with
  | rejected => cases houtcome
  | committed hparse hcandidate hlive hend =>
    cases hend with
    | completed => cases houtcome
    | refused hidle hrefused =>
      cases houtcome
      exact absurd (disposes_of_refused hidle hrefused) Bool.false_ne_true
    | owned howned hfailure =>
      cases houtcome
      cases hfailure

/-- The limits of the product fit the durable model. -/
theorem DeliveryEnd.not_contradicted {f g : Flash} {outcome : DurableCarrierOutcome ε}
    {store' : MountedLxmfStore}
    (h : DeliveryEnd ε φ sha256 ed25519 access delivery f store outcome g store')
    (error : DurableCandidateError) : outcome ≠ .retained (.candidate error) := by
  cases h with
  | rejected => exact fun houtcome => by cases houtcome
  | @committed view candidate answer =>
    cases answer with
    | error error => exact fun houtcome => by cases houtcome
    | ok outcome => exact fun houtcome => by cases houtcome

/-- The delivery stays or is disposed of. -/
theorem settle_pending (delivery : LxmfDelivery) (g : Flash)
    (r : Option (DurableCarrierOutcome ε × MountedLxmfStore)) :
    (settle delivery g r).pendingLxmf = none ∨
      (settle delivery g r).pendingLxmf = some delivery := by
  match r with
  | none => exact .inl rfl
  | some (.durable _, _) => exact .inl rfl
  | some (.retained reason, store) =>
    rw [settle]
    cases (carrierRetentionAction reason store.pendingMessageId).disposes
    · exact .inr rfl
    · exact .inl rfl

/-- A task without a store holds nothing. -/
theorem holds_unmounted (h : task.lxmf = none) : Holds ε φ sha256 ed25519 access task :=
  ⟨fun _ hstore => absurd (h.symm.trans hstore) (by simp),
    fun _ hstore => absurd (h.symm.trans hstore) (by simp)⟩

/-- A task whose store has nothing pending is sound. -/
theorem holds_idle (hstore : task.lxmf = some store)
    (hlive : Live ε φ sha256 access task.flash store)
    (hidle : store.pending = none) : Holds ε φ sha256 ed25519 access task :=
  ⟨fun _ hsome => Option.some.inj (hstore.symm.trans hsome) ▸ hlive,
    fun _ hsome => .inl (Option.some.inj (hstore.symm.trans hsome) ▸ hidle)⟩

/-- A step keeps the pending mutation with the delivery that is held. -/
theorem Holds.step (h : Holds ε φ sha256 ed25519 access task)
    (hstep : Step ε φ sha256 ed25519 access task next) : Holds ε φ sha256 ed25519 access next := by
  cases hstep with
  | @boot capacity tr r g hrun =>
    obtain ⟨rfl, -, hanswer⟩ := (query_mount capacity).exec_answer hrun
    match r, hanswer with
    | some (.ok mounted), hanswer =>
      have hmounted := hanswer mounted rfl
      exact holds_idle rfl (.mounted hmounted) (safelyMounted hmounted).2
    | some (.error error), _ => exact holds_unmounted rfl
    | none, _ => exact holds_unmounted rfl
  | receive hnone delivery =>
    refine ⟨h.live, fun store hstore => ?_⟩
    obtain hidle | ⟨owner, candidate, view, howner, -⟩ := h.owner store hstore
    · exact .inl hidle
    · exact absurd (howner.symm.trans hnone) (by simp)
  | @attempt delivery store tr r g hdelivery hstore hrun =>
    match r, hrun with
    | none, _ => exact holds_unmounted rfl
    | some (outcome, store'), hrun =>
      have hend := h.attempt hdelivery hstore hrun
      have hsettled := hend.settled
      have hflash : (settle delivery g (some (outcome, store'))).flash = g := by
        cases outcome <;> rfl
      have hmounted : (settle delivery g (some (outcome, store'))).lxmf = some store' := by
        cases outcome <;> rfl
      cases hend with
      | rejected hparse hidle => exact holds_idle hmounted (hflash ▸ h.live store hstore) hidle
      | @committed view candidate answer g store' hparse hcandidate hlive hend =>
        cases hend with
        | completed hpending => exact holds_idle hmounted (hflash ▸ hlive) hpending
        | refused hidle => exact holds_idle hmounted (hflash ▸ hlive) hidle
        | @owned error g store' howned =>
          obtain ⟨pending, hpending, -, -⟩ := howned.pending
          have hheld := (settle_pending delivery g
            (some (carrierOutcome (.error error), store'))).resolve_left fun hnone =>
              absurd (hsettled.mp hnone) (by simp [hpending])
          exact ⟨fun _ hsome => Option.some.inj (hmounted.symm.trans hsome) ▸ hflash ▸ hlive,
            fun _ hsome => .inr ⟨delivery, candidate, view, hheld, hparse, hcandidate,
              Option.some.inj (hmounted.symm.trans hsome) ▸ hflash ▸ howned⟩⟩
  | unavailable hnone =>
    exact ⟨h.live, fun store hstore => absurd (hnone.symm.trans hstore) (by simp)⟩
  | reset => exact holds_unmounted rfl

/-- A reachable task is sound. -/
theorem Reachable.holds (h : Reachable ε φ sha256 ed25519 access task) :
    Holds ε φ sha256 ed25519 access task := by
  induction h with
  | start f => exact holds_unmounted rfl
  | step _ hstep ih => exact ih.step hstep

/-- An attempt on a backend that reports nothing leaves nothing pending. -/
theorem Holds.completes (h : Holds ε φ sha256 ed25519 access task)
    (hdelivery : task.pendingLxmf = some delivery) (hstore : task.lxmf = some store) :
    ∃ outcome store' g, (delivery.commitLxmfCarrier ε sha256 ed25519 access store).run task.flash =
        ((outcome, store'), g) ∧ store'.pending = none ∧
      (store.pending ≠ none → ∃ success, outcome = .durable success) := by
  have hlive := h.live store hstore
  rw [LxmfDelivery.commitLxmfCarrier]
  cases hparse : parseIngress wireLimits delivery.carrier with
  | error error =>
    have hidle : store.pending = none := by
      obtain hidle | ⟨owner, candidate, view, howner, hview, -, -⟩ := h.owner store hstore
      · exact hidle
      · obtain rfl := Option.some.inj (howner.symm.trans hdelivery)
        exact absurd (hparse.symm.trans hview) (by simp)
    rw [commitParsedCarrier, parseLxmfCarrier, hparse]
    exact ⟨_, _, _, rfl, hidle, fun hsome => absurd hidle hsome⟩
  | ok view =>
    obtain ⟨candidate, hcandidate, -⟩ :=
      @exists_candidate sha256 ed25519 noSourceIdentity wireLimits
      view delivery.carrier (some delivery.ingressObservation) hparse (fits_wireLimits hparse)
    rw [commitParsedCarrier_eq hparse hcandidate, Prog.run_bind]
    obtain hidle | ⟨owner, owned, view', howner, hview, howned, hby⟩ := h.owner store hstore
    · obtain ⟨answer, final, g, hrun, hfinal⟩ :=
        @attempt_idle_settles _ _ _ _ _ _ candidate hlive hidle
      rw [hrun]
      exact ⟨_, final, g, rfl, hfinal, fun hsome => absurd hidle hsome⟩
    · obtain rfl := Option.some.inj (howner.symm.trans hdelivery)
      obtain rfl := Except.ok.inj (hparse.symm.trans hview)
      obtain rfl := candidate_unique howned hcandidate rfl
      obtain ⟨outcome, final, g, hrun, hfinal⟩ := hby.completes
      rw [hrun]
      exact ⟨_, final, g, rfl, hfinal, fun _ => ⟨_, rfl⟩⟩

/-- In every run of the inbound task on a region with any contents, whatever the backend reports and
wherever power is lost: a pending mutation of the store is that of the delivery which is held. An
attempt of that delivery never finds another one's mutation, never contradicts the durable model,
and gives the delivery up or makes it durable exactly if it leaves nothing pending. On a backend
that reports nothing it does so at once, and the message is durable if its mutation was pending. -/
theorem inbound_delivery (h : Reachable ε φ sha256 ed25519 access task)
    (hstore : task.lxmf = some store) :
    (∀ pending, store.pending = some pending → ∃ delivery candidate view,
      task.pendingLxmf = some delivery ∧ parseIngress wireLimits delivery.carrier = .ok view ∧
      CarriesCandidate sha256 ed25519 noSourceIdentity delivery.carrier view
        (some delivery.ingressObservation) candidate ∧
      pending.replay = candidateReplay sha256 candidate ∧ pending.metadata = candidate.metadata) ∧
    ∀ delivery, task.pendingLxmf = some delivery →
      (∀ tr outcome store' g, Prog.Exec φ (delivery.commitLxmfCarrier ε sha256 ed25519 access store)
          task.flash tr (some (outcome, store')) g →
        (∀ messageId, outcome ≠ .retained (.store (.ambiguousMutationPending messageId))) ∧
        (∀ error, outcome ≠ .retained (.candidate error)) ∧
        ((settle delivery g (some (outcome, store'))).pendingLxmf = none ↔ store'.pending = none)) ∧
      ∃ outcome store' g, (delivery.commitLxmfCarrier ε sha256 ed25519 access store).run
        task.flash =
          ((outcome, store'), g) ∧
        (settle delivery g (some (outcome, store'))).pendingLxmf = none ∧
        (store.pending ≠ none → ∃ success, outcome = .durable success) := by
  have hholds := h.holds
  refine ⟨fun pending hpending => ?_, fun delivery hdelivery => ⟨?_, ?_⟩⟩
  · obtain hidle | ⟨delivery, candidate, view, hdelivery, hparse, hcandidate, howned⟩ :=
      hholds.owner store hstore
    · exact absurd (hpending.symm.trans hidle) (by simp)
    · obtain ⟨pending', hpending', hreplay, hmetadata⟩ := howned.pending
      obtain rfl := Option.some.inj (hpending.symm.trans hpending')
      exact ⟨delivery, candidate, view, hdelivery, hparse, hcandidate, hreplay, hmetadata⟩
  · intro tr outcome store' g hrun
    have hend := hholds.attempt hdelivery hstore hrun
    exact ⟨hend.not_ambiguous, hend.not_contradicted, hend.settled⟩
  · obtain ⟨outcome, store', g, hrun, hpending, hdurable⟩ := hholds.completes hdelivery hstore
    refine ⟨outcome, store', g, hrun, ?_, hdurable⟩
    obtain ⟨tr, hexec⟩ := Prog.exec_run φ (delivery.commitLxmfCarrier ε sha256 ed25519 access store)
      task.flash
    rw [hrun] at hexec
    exact (hholds.attempt hdelivery hstore hexec).settled.mpr hpending

/-- A delivery of a message without text. -/
def sampleDelivery : LxmfDelivery := ⟨sampleDestination, Vector.replicate 8 0, sampleBody⟩

/-- An erased partition of two extents is mounted, and the delivery is held. -/
theorem reachable_sample (sha256 : Sha256) :
    Reachable Unit Faults.all sha256 ed25519 twoExtents
      ⟨Flash.erased, some (emptyStore twoExtents), some sampleDelivery⟩ := by
  obtain ⟨tr, hrun⟩ := Prog.exec_run Faults.all
    (mount sha256 twoExtents 4 : MountAction Unit MountedLxmfStore).run Flash.erased
  have hflash := ((query_mount 4).exec_answer hrun).1
  have hanswer : ((mount sha256 twoExtents 4 : MountAction Unit MountedLxmfStore).run.run
      Flash.erased).1 = .ok (emptyStore twoExtents) := mount_twoExtents sha256
  rw [hanswer, hflash] at hrun
  have hboot : Step Unit Faults.all sha256 ed25519 twoExtents ⟨Flash.erased, none, none⟩
      ⟨Flash.erased, some (emptyStore twoExtents), none⟩ :=
    @Step.boot Unit Faults.all sha256 ed25519 twoExtents ⟨Flash.erased, none, none⟩ 4 tr
      (some (.ok (emptyStore twoExtents))) Flash.erased hrun
  exact .step (.step (.start _) hboot) (.receive rfl sampleDelivery)

/-- The delivery is held after its first read failed, and becomes durable without faults. -/
theorem inbound_delivery_sample : ∃ store, store.pending ≠ none ∧
    ∃ success store' g, (sampleDelivery.commitLxmfCarrier Unit Nor.sha256 noKeys twoExtents
      store).run
      Flash.erased = ((.durable success, store'), g) := by
  obtain ⟨view, hparses, -⟩ := parsesBody_sample .opportunistic
  have hparse : parseIngress wireLimits sampleDelivery.carrier = .ok view :=
    parseIngress_ok_iff.mpr ⟨_, _, ⟨rfl, rfl⟩, hparses⟩
  obtain ⟨candidate, hcandidate, his⟩ := @exists_candidate Nor.sha256 noKeys noSourceIdentity
    wireLimits view sampleDelivery.carrier (some sampleDelivery.ingressObservation) hparse
    (fits_wireLimits hparse)
  have hlength : candidate.wire.segments.totalLen = 111 := by
    obtain ⟨-, -, payload, -, rfl⟩ := parsesBody_iff.mp hparses
    rw [candidate.length_eq, his.normalizedWire]
    rfl
  have hfailed := failedRead_sample Nor.sha256 hcandidate hparse hlength
  have hreachable := Reachable.step (reachable_sample Nor.sha256) (.attempt rfl rfl hfailed)
  obtain ⟨-, hattempts⟩ := inbound_delivery hreachable rfl
  obtain ⟨-, outcome, store', g, hrun, -, hdurable⟩ := hattempts sampleDelivery rfl
  obtain ⟨success, rfl⟩ := hdurable (by simp)
  exact ⟨_, by simp, success, store', g, hrun⟩

end InboundTask

end Task

end LxmfStore
