import ReticulumFirmware.Nor.Sha256
import ReticulumFirmware.Ota.Confinement

/-!
# Updates and the running slot

Runs of the product task within one boot, over a flash that may report any error. A start
erases the slot that is not selected for boot, so whether the running firmware is spared
depends on the selection that the starts of the run find.
-/

namespace Ota

open Nor Prog

variable {σ ε : Type}

section Starts

variable {library : PartitionLibrary σ} {sha256 : Sha256} {slot : OtaSlot} {c : OtaCoordinator}
  {s : σ}

/-- Every execution makes a mutation with the given property. -/
def Issues {α : Type} (P : Mutation → Prop) (p : Prog ε α) : Prop :=
  ∀ f tr r g, Exec Faults.errors p f tr r g → ∃ m ∈ tr, P m

/-- A sequence issues what its first part does. -/
theorem Issues.bind {α β : Type} {P : Mutation → Prop} {p : Prog ε α} (hp : Issues P p)
    (next : α → Prog ε β) : Issues P (p >>= next) := by
  intro f tr r g hx
  rcases hx.bind_cases with ⟨-, hfirst⟩ | ⟨a, f', tr₁, tr₂, rfl, hfirst, -⟩
  · exact hp _ _ _ _ hfirst
  · obtain ⟨m, hm, hP⟩ := hp _ _ _ _ hfirst
    exact ⟨m, List.mem_append_left _ hm, hP⟩

/-- The erase of a whole slot. -/
def ErasesSlot (slot : OtaSlot) (m : Mutation) : Prop :=
  m.kind = .erase ∧ m.start = (otaSlotBounds slot).1 ∧
    m.stop = (otaSlotBounds slot).1 + (otaSlotBounds slot).2

/-- An erasure of a slot issues one. -/
theorem issues_eraseSlot {imageBytes : ℕ} (hpos : 0 < imageBytes)
    (hsize : imageBytes ≤ (otaSlotBounds slot).2) :
    Issues (ErasesSlot slot) (eraseSlot slot imageBytes : StoreAction ε Unit).run := by
  intro f tr r g hx
  have hfits : ¬ (imageBytes = 0 ∨ imageBytes > (otaSlotBounds slot).2) := by omega
  simp only [eraseSlot, Action.ensure, if_pos hfits] at hx
  cases hx with
  | cut hcut => cases hcut
  | erase _ => exact ⟨_, List.mem_cons_self, rfl, rfl, rfl⟩
  | eraseError _ _ _ _ => exact ⟨_, List.mem_cons_self, rfl, rfl, rfl⟩
  | eraseCut hcut => cases hcut

/-- A start that reaches a backend with a next slot erases the slot that is not selected. -/
theorem issues_handle (hlibrary : library.Lawful) {event : ProductEvent}
    (hadmitted : event.Admitted c) (hnext : (nextOtaSlot library s).1.toBool = true) :
    Issues (ErasesSlot (library.selected s).other)
      (handle sha256 (storeBackend library sha256) c event s : Prog ε _) := by
  cases event with
  | resource | linkClosed => exact hadmitted.elim
  | control answers nowMillis request =>
    obtain ⟨hrequester, hkind, hactive, manifest, hdecoded, hsize⟩ := hadmitted
    have hrequester : ¬ request.requester.isNone = true := by
      simpa [Option.isSome_iff_ne_none] using hrequester
    have hfits : ¬ manifest.imageBytes > maxOtaImageBytes := by omega
    simp only [handle, answerOtaControl, if_neg hrequester, hkind, answerStart, hdecoded,
      OtaCoordinator.begin, hactive, Option.isSome_none, if_neg hfits, Bool.false_eq_true,
      if_false]
    refine Issues.bind (Issues.bind ?_ _) _
    show Issues _ (prepareInactive library manifest.imageBytes s)
    unfold prepareInactive
    rcases hslot : nextOtaSlot library s with ⟨error | slot, s'⟩
    · rw [hslot] at hnext
      cases hnext
    · rw [← nextOtaSlot_ok hlibrary hslot]
      refine Issues.bind ?_ _
      rw [Action.run_bind_eq]
      refine (issues_eraseSlot ?_ ?_).bind _
      · exact Nat.lt_of_lt_of_le (by decide) manifest.minimum
      · cases slot <;> exact hsize

end Starts

section Run

variable (library : PartitionLibrary σ) (sha256 : Sha256)

/-- One event of a run: the state it was handled in and the mutations it made. -/
structure ProductStep (σ : Type) where
  event : ProductEvent
  coordinator : OtaCoordinator
  partitions : σ
  mutations : List Mutation

/-- The events handled in one boot, in order, with any backend errors. A reset ends the boot. -/
inductive ProductRun (ε : Type) : OtaCoordinator → σ → Flash → List (ProductStep σ) → Prop
  | boot (c : OtaCoordinator) (s : σ) (f : Flash) : ProductRun ε c s f []
  | event {c c' : OtaCoordinator} {s s' : σ} {f g : Flash} {event : ProductEvent} {reply : Reply}
      {tr : List Mutation} {steps : List (ProductStep σ)}
      (hexec : Exec Faults.errors (handle sha256 (storeBackend library sha256) c event s :
        Prog ε _) f tr (some ((c', reply), s')) g)
      (hreply : reply ≠ .softwareReset) (hrest : ProductRun ε c' s' g steps) :
      ProductRun ε c s f (⟨event, c, s, tr⟩ :: steps)

/-- A start that reaches the backend and finds a next slot also finds the running slot
selected. -/
def ProductStep.StartsFromRunning (running : OtaSlot) (step : ProductStep σ) : Prop :=
  step.event.Admitted step.coordinator → (nextOtaSlot library step.partitions).1.toBool = true →
    library.selected step.partitions = running

variable {library sha256}

/-- A slot is erased in full by an operation inside another slot only if they are the same. -/
theorem ErasesSlot.eq_of_inSlot {slot slot' : OtaSlot} {m : Mutation} (hm : ErasesSlot slot m)
    (hin : InSlot slot' m) : slot = slot' := by
  obtain ⟨-, hstart, hstop⟩ := hm
  unfold InSlot at hin
  rw [hstart, hstop] at hin
  revert hin
  cases slot <;> cases slot' <;> decide

/-- The steps of a run whose session targets the inactive slot keep to it if every start
finds the running slot selected. -/
theorem ProductRun.inSlot (hlibrary : library.Lawful) {running : OtaSlot} {c : OtaCoordinator}
    {s : σ} {f : Flash} {steps : List (ProductStep σ)}
    (hrun : ProductRun library sha256 ε c s f steps) (hc : Targets running.other c)
    (hsteps : ∀ step ∈ steps, step.StartsFromRunning library running) :
    ∀ step ∈ steps, ∀ m ∈ step.mutations, InSlot running.other m := by
  induction hrun with
  | boot => simp
  | @event c c' s s' f g event reply tr steps hexec _ _ ih =>
    obtain ⟨hstep, hsteps⟩ := List.forall_mem_cons.mp hsteps
    have hhandle : Confined running.other (handle sha256 (storeBackend library sha256) c event s :
        Prog ε _) fun r => Targets running.other r.1.1 := by
      refine confined_handle hlibrary hc event fun hadmitted hnext => ?_
      rw [OtaSlot.other_other]
      exact hstep hadmitted hnext
    obtain ⟨htr, hc'⟩ := hhandle f _ _ _ hexec
    exact List.forall_mem_cons.mpr ⟨htr, ih hc' hsteps⟩

/-- A step that keeps to the inactive slot found the running slot selected if it is a start. -/
theorem ProductRun.startsFromRunning (hlibrary : library.Lawful) {running : OtaSlot}
    {c : OtaCoordinator} {s : σ} {f : Flash} {steps : List (ProductStep σ)}
    (hrun : ProductRun library sha256 ε c s f steps)
    (hsteps : ∀ step ∈ steps, ∀ m ∈ step.mutations, InSlot running.other m) :
    ∀ step ∈ steps, step.StartsFromRunning library running := by
  induction hrun with
  | boot => simp
  | event hexec _ _ ih =>
    obtain ⟨hstep, hsteps⟩ := List.forall_mem_cons.mp hsteps
    refine List.forall_mem_cons.mpr ⟨fun hadmitted hnext => ?_, ih hsteps⟩
    obtain ⟨m, hm, herases⟩ := issues_handle hlibrary hadmitted hnext _ _ _ _ hexec
    have hslot := herases.eq_of_inSlot (hstep m hm)
    rw [← OtaSlot.other_other (library.selected _), hslot, OtaSlot.other_other]

/-- A run continues one event that was handled without faults. -/
theorem ProductRun.cons_run {c : OtaCoordinator} {s : σ} {f : Flash} {event : ProductEvent}
    {steps : List (ProductStep σ)} {r : ((OtaCoordinator × Reply) × σ) × Flash}
    (hr : (handle sha256 (storeBackend library sha256) c event s : Prog ε _).run f = r)
    (hreply : r.1.1.2 ≠ .softwareReset)
    (hrest : ProductRun library sha256 ε r.1.1.1 r.1.2 r.2 steps) :
    ∃ tr, Exec Faults.errors (handle sha256 (storeBackend library sha256) c event s : Prog ε _)
        f tr (some r.1) r.2 ∧
      ProductRun library sha256 ε c s f (⟨event, c, s, tr⟩ :: steps) := by
  subst hr
  obtain ⟨tr, hexec⟩ := exec_run Faults.errors
    (handle sha256 (storeBackend library sha256) c event s : Prog ε _) f
  exact ⟨tr, hexec, .event hexec hreply hrest⟩

end Run

/-- Within one boot of a slot, every erase and program of an update lies in the other slot
exactly if every start that reaches the backend, and finds a next slot there, finds the running
slot still selected. -/
theorem running_slot_spared {library : PartitionLibrary σ} (hlibrary : library.Lawful)
    {sha256 : Sha256} (running : OtaSlot) {s : σ} {f : Flash} {steps : List (ProductStep σ)}
    (hrun : ProductRun library sha256 ε .new s f steps) :
    (∀ step ∈ steps, ∀ m ∈ step.mutations, InSlot running.other m) ↔
      ∀ step ∈ steps, step.StartsFromRunning library running :=
  ⟨hrun.startsFromRunning hlibrary, hrun.inSlot hlibrary (targets_none rfl)⟩

/-- A partition library whose state is the boot selection and whose calls succeed. -/
def selectionLibrary : PartitionLibrary OtaSlot where
  nextOtaPartition s := (.ok (match s with | .ota0 => .ota1 | .ota1 => .ota0), s)
  activateNextOtaPartition s := (.ok (), s.other)
  setCurrentOtaStateNew s := (.ok (), s)
  selected s := s

/-- The sample library is lawful. -/
theorem selectionLibrary_lawful : selectionLibrary.Lawful where
  next_ok s s' subtype h := by
    cases s <;> cases h <;> rfl
  activate_ok s s' h := by
    cases h
    rfl

/-- An ESP32-S3 image of one segment of fifteen zeros, with its checksum and its digest. -/
def espImage : List Byte :=
  [0xe9, 1] ++ List.replicate 10 0 ++ [9, 0] ++ List.replicate 9 0 ++ [1] ++
    [0, 0, 0, 0, 15, 0, 0, 0] ++ List.replicate 15 0 ++ [0xef,
  0xdc, 0xa5, 0x0c, 0x98, 0xcf, 0xf7, 0xfe, 0x61, 0x93, 0x15, 0xc7, 0x8e, 0xa9, 0xf0, 0xb6, 0x0f,
  0x1c, 0xc1, 0x43, 0x0d, 0x03, 0x95, 0x7a, 0x6a, 0xdc, 0x18, 0x32, 0x61, 0x28, 0x03, 0x3d, 0x2b]

/-- An authorized request to start the transfer of the image. -/
def smallStart : ManagementRequest where
  requester := some (Vector.replicate 16 7)
  link := Vector.replicate 16 3
  kind := .otaStart
  data := otaMagic ++ [1, 1] ++ [0, 0, 0, 80] ++ [
    0x97, 0xb6, 0x5e, 0xc4, 0xf9, 0xf2, 0x8a, 0xad, 0x6b, 0x05, 0xe6, 0xab, 0x1c, 0x62, 0x20, 0x98,
    0x40, 0xab, 0x66, 0x47, 0x5e, 0xf1, 0xc1, 0xa7, 0x5f, 0xd9, 0x34, 0x9b, 0xba, 0x0a, 0x19,
    0xf1] ++ [1, 0x31]

/-- The start request as an event whose commands the node accepts. -/
def startEvent : ProductEvent := .control ⟨true, true⟩ 0 smallStart

/-- The transfer that the start opens, with the state it leaves. -/
def started : ((OtaCoordinator × Reply) × OtaSlot) × Flash :=
  (handle sha256 (storeBackend selectionLibrary sha256) .new startEvent .ota0 : Prog Unit _).run
    Flash.erased

/-- The only resource of the transfer. -/
def resourceEvent : ProductEvent :=
  .resource ⟨true, true⟩ smallStart.link (some ([0xc4, 30] ++ otaMagic ++ [1, 3] ++ [
    0x75, 0xd6, 0xfa, 0x86, 0x8e, 0x2e, 0xae, 0x2f, 0x89, 0xc6, 0xa5, 0x1a, 0xa2, 0x15, 0xe9,
    0xfe] ++
    List.replicate 8 0)) espImage

/-- The state after the transfer was activated. -/
def activated : ((OtaCoordinator × Reply) × OtaSlot) × Flash :=
  (handle sha256 (storeBackend selectionLibrary sha256) started.1.1.1 resourceEvent started.1.2 :
    Prog Unit _).run started.2

/-- The state after the same start once more. -/
def restarted : ((OtaCoordinator × Reply) × OtaSlot) × Flash :=
  (handle sha256 (storeBackend selectionLibrary sha256) activated.1.1.1 startEvent activated.1.2 :
    Prog Unit _).run activated.2

/-- The start on an erased flash runs to the started state. -/
theorem started_eq : (handle sha256 (storeBackend selectionLibrary sha256) .new startEvent .ota0 :
    Prog Unit _).run Flash.erased = started := rfl

/-- The resource with the image runs to the activated state. -/
theorem activated_eq : (handle sha256 (storeBackend selectionLibrary sha256) started.1.1.1
    resourceEvent started.1.2 : Prog Unit _).run started.2 = activated := rfl

/-- The second start runs to the restarted state. -/
theorem restarted_eq : (handle sha256 (storeBackend selectionLibrary sha256) activated.1.1.1
    startEvent activated.1.2 : Prog Unit _).run activated.2 = restarted := rfl

/-- The start request is admitted whenever no session is active. -/
theorem startEvent_admitted {c : OtaCoordinator} (hactive : c.active = none) :
    startEvent.Admitted c := by
  have hdecoded : (decodeStartRequest smallStart.data).toOption.any
      (fun manifest => decide (manifest.imageBytes ≤ maxOtaImageBytes)) = true := by
    decide +kernel
  cases hmanifest : decodeStartRequest smallStart.data with
  | error error =>
    rw [hmanifest] at hdecoded
    cases hdecoded
  | ok manifest =>
    rw [hmanifest] at hdecoded
    exact ⟨rfl, rfl, hactive, manifest, hmanifest, of_decide_eq_true hdecoded⟩

/-- The transfer is received and activated: the session ends and the boot selection moves. -/
theorem activated_state : started.1.1.2 ≠ .softwareReset ∧ activated.1.1.2 ≠ .softwareReset ∧
    restarted.1.1.2 ≠ .softwareReset ∧ activated.1.1.1.active.isNone = true ∧
    activated.1.2 = .ota1 := by
  decide +kernel

/-- The events of the transfer are a run, which any further run continues. -/
theorem productRun_activated {steps : List (ProductStep OtaSlot)}
    (hrest : ProductRun selectionLibrary sha256 Unit activated.1.1.1 activated.1.2 activated.2
      steps) :
    ∃ tr₁ tr₂, ProductRun selectionLibrary sha256 Unit .new .ota0 Flash.erased
      (⟨startEvent, .new, .ota0, tr₁⟩ :: ⟨resourceEvent, started.1.1.1, started.1.2, tr₂⟩ ::
        steps) := by
  obtain ⟨hreply₁, hreply₂, -⟩ := activated_state
  obtain ⟨tr₂, -, hactivated⟩ := ProductRun.cons_run activated_eq hreply₂ hrest
  obtain ⟨tr₁, -, hstarted⟩ := ProductRun.cons_run started_eq hreply₁ hactivated
  exact ⟨tr₁, tr₂, hstarted⟩

/-- A whole update from slot 0 writes slot 1 only. -/
theorem running_slot_spared_transfer : ∃ steps, steps.length = 2 ∧
    ProductRun selectionLibrary sha256 Unit .new .ota0 Flash.erased steps ∧
    ∀ step ∈ steps, ∀ m ∈ step.mutations, InSlot .ota1 m := by
  obtain ⟨tr₁, tr₂, hrun⟩ := productRun_activated (.boot _ _ _)
  refine ⟨_, rfl, hrun, (running_slot_spared selectionLibrary_lawful .ota0 hrun).mpr ?_⟩
  simp only [List.forall_mem_cons, List.not_mem_nil, false_implies, implies_true, and_true]
  exact ⟨fun _ _ => rfl, fun hadmitted => hadmitted.elim⟩

/-- The same start once more, before the reboot, erases the slot that is running. -/
theorem second_start_erases_running_slot : selectionLibrary.Lawful ∧
    selectionLibrary.selected .ota0 = .ota0 ∧ ∃ steps,
    ProductRun selectionLibrary sha256 Unit .new .ota0 Flash.erased steps ∧
    ∃ step ∈ steps, ∃ m ∈ step.mutations, m.kind = .erase ∧ m.start = 0x10000 ∧
      m.stop = 0x510000 ∧ ¬ InSlot (OtaSlot.other .ota0) m := by
  obtain ⟨-, -, hreply, hactive, hselected⟩ := activated_state
  have hadmitted := startEvent_admitted (Option.isNone_iff_eq_none.mp hactive)
  have hissues : Issues (ErasesSlot .ota0) (handle sha256 (storeBackend selectionLibrary sha256)
      activated.1.1.1 startEvent activated.1.2 : Prog Unit _) := by
    rw [hselected]
    exact issues_handle selectionLibrary_lawful hadmitted rfl
  obtain ⟨tr, hexec, hrestarted⟩ := ProductRun.cons_run restarted_eq hreply (.boot _ _ _)
  obtain ⟨m, hm, hkind, hstart, hstop⟩ := hissues _ _ _ _ hexec
  obtain ⟨tr₁, tr₂, hrun⟩ := productRun_activated hrestarted
  have hlast : (⟨startEvent, activated.1.1.1, activated.1.2, tr⟩ : ProductStep OtaSlot) ∈
      [⟨startEvent, .new, .ota0, tr₁⟩, ⟨resourceEvent, started.1.1.1, started.1.2, tr₂⟩,
        ⟨startEvent, activated.1.1.1, activated.1.2, tr⟩] :=
    List.mem_cons_of_mem _ (List.mem_cons_of_mem _ List.mem_cons_self)
  refine ⟨selectionLibrary_lawful, rfl, _, hrun, _, hlast, m, hm, hkind, hstart, hstop, ?_⟩
  intro hin
  exact absurd (ErasesSlot.eq_of_inSlot ⟨hkind, hstart, hstop⟩ hin) (by decide)

end Ota
