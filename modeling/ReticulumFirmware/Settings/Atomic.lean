import ReticulumFirmware.Settings.Commit

/-!
# Interrupted commits and device runs

All executions of a successor commit: it returns with the successor mounted, or power is
lost and the contents are those of an interrupted erase or of an interrupted write. A run
of the device mounts, changes and loses power in any order.
-/

namespace Settings

open Nor

variable {α ε π ρ γ : Type} {format : Format α} {sha256 : Sha256} {geometry : Geometry}
  {f g : Flash} {current : Generation α} {value : α}

/-- What a commit may leave when power is lost inside it. -/
def Interrupted (φ : Faults) (format : Format α) (sha256 : Sha256) (current : Generation α)
    (value : α) (f g : Flash) : Prop :=
  g = f ∨ (φ.cutErase = true ∧ f.Torn (eraseTarget current f) g) ∨
    Trajectory (commitScript format sha256 current value) (eraseTarget current f) g

/-- The interruption neither left part of a first generation nor damaged a committed record
under its marker. -/
def CleanCut (format : Format α) (sha256 : Sha256) (current : Generation α) (value : α)
    (f g : Flash) : Prop :=
  (current.generation = 0 → Committed format current g ∨ g.Erased 0 4096) ∧
    (current.generation ≠ 0 → Committed format current g →
      g.read (target current * 4096) 256 = f.read (target current * 4096) 256 ∨
        g.read (target current * 4096) 256 = successorRecord format sha256 current value)

/-- A clean interruption mounts as the old generation or as the successor. -/
theorem mounted_interrupted {φ : Faults} (hmounted : mounted π format sha256 f = .ok current)
    (hlinkable : Linkable current) (hrange : current.generation + 1 < 2 ^ 64)
    (h : Interrupted φ format sha256 current value f g)
    (hclean : CleanCut format sha256 current value f g) :
    mounted π format sha256 g = .ok current ∨
      mounted π format sha256 g = .ok (successor format sha256 current value) := by
  rcases h with rfl | ⟨-, htorn⟩ | htrajectory
  · exact Or.inl hmounted
  · have houtside : ∀ a, a < target current * 4096 ∨ target current * 4096 + 4096 ≤ a →
        g a = f a := fun a ha => htorn.eq_of_eq (Flash.erase_of_not_mem ha)
    by_cases hcommitted : Committed format current g
    · by_cases hgeneration : current.generation = 0
      · -- erased media stays erased
        rcases mounted_cases hmounted with ⟨rfl, hfirst, -⟩ | ⟨sector, -, -, hvalid, -⟩
        · refine Or.inl (mounted_erasing hmounted htorn (Or.inr ?_))
          apply Flash.read_eq_read_iff.mpr
          intro i hi
          have hle := Flash.Torn.le_erase htorn (0 * 4096 + i)
          have hbyte : f (0 * 4096 + i) = erasedByte := by
            rw [Nat.zero_mul]
            exact hfirst i (by omega)
          rw [hbyte] at hle
          exact (eq_erased_of_bitsLE hle).trans hbyte.symm
        · exact absurd hgeneration (valid_generation hvalid).2.2.1
      · rcases hclean.2 hgeneration hcommitted with hsame | hnew
        · exact Or.inl (mounted_erasing hmounted htorn (Or.inr hsame))
        · exact Or.inr (mounted_committed hmounted hlinkable hrange houtside hcommitted hnew)
    · exact Or.inl (mounted_erasing hmounted htorn (Or.inl hcommitted))
  · by_cases hcommitted : Committed format current g
    · exact Or.inr (mounted_committed hmounted hlinkable hrange
        (fun a => outside_of_trajectory htrajectory) hcommitted
        ((marker_of_trajectory htrajectory).2 hcommitted))
    · refine Or.inl (mounted_uncommitted hmounted htrajectory hcommitted fun hzero => ?_)
      exact (hclean.1 hzero).resolve_left hcommitted

/-- The last step of a commit: the successor must mount. -/
def verifySuccessor (format : Format α) (sha256 : Sha256) (geometry : Geometry)
    (current : Generation α) (accepts : α → Bool) : SettingsAction ε π (Generation α) := do
  let mounted ← mount format sha256 geometry
  Action.ensure (mounted.generation = current.generation + 1 ∧ accepts mounted.value = true ∧
    mounted.activeSector = some (target current)) (.fault .verification)
  pure mounted

/-- The programs of a commit from a mounted generation. -/
theorem commitSuccessor_eq {accepts : α → Bool}
    (hmounted : mounted π format sha256 f = .ok current) :
    (commitSuccessor format sha256 geometry current value accepts : SettingsAction ε π _) = (do
      Action.ensure (current.generation + 1 < 2 ^ 64) (.fault .generationExhausted)
      Action.erase .storage (target current * 4096) (target current * 4096 + 4096)
      writeVerified (target current * 4096)
        (slice (successorRecord format sha256 current value) 0 224)
      writeVerified (target current * 4096 + 224) format.commitMarker
      verifySuccessor format sha256 geometry current accepts) := by
  have htarget : ∀ next : ℕ → SettingsAction ε π (Generation α),
      (targetSector current >>= next) = next (target current) := by
    intro next
    unfold targetSector target
    rcases mounted_cases hmounted with ⟨rfl, -⟩ | ⟨sector, rfl | rfl, hactive, -⟩
    · rfl
    · rw [hactive]
      rfl
    · rw [hactive]
      rfl
  rw [← slice_successorMarker format sha256 current value]
  unfold commitSuccessor
  simp only [htarget]
  rfl

/-- The verification succeeds when the successor is mounted. -/
theorem wp_verifySuccessor {φ : Faults} {accepts : α → Bool} {C : Flash → Prop}
    (hread : φ.readError = false) (hgeometry : Mountable geometry)
    (hmounted : mounted π format sha256 g = .ok (successor format sha256 current value))
    (haccepts : accepts value = true) (hC : φ.cut = true → C g) :
    wp φ (fun _ => True)
      (verifySuccessor format sha256 geometry current accepts : SettingsAction ε π _).run
      (fun r g => r = .ok (successor format sha256 current value) ∧
        mounted π format sha256 g = .ok (successor format sha256 current value)) C g := by
  have heval : (mount format sha256 geometry : SettingsAction ε π _).eval g =
      (.ok (successor format sha256 current value), g) := by
    rw [eval_mount hgeometry, hmounted]
    rfl
  unfold verifySuccessor
  apply query_mount.wp_bind_ok hread hC heval
  apply wp_ensure_bind hC
  · intro _
    exact wp_action_pure hC ⟨rfl, hmounted⟩
  · intro hbad
    exact absurd ⟨rfl, haccepts, rfl⟩ hbad

/-- All executions of a commit without backend errors. -/
theorem wp_commitSuccessor {φ : Faults} {accepts : α → Bool} (hφ : ¬ φ.Reporting)
    (hgeometry : Mountable geometry) (hmounted : mounted π format sha256 f = .ok current)
    (hlinkable : Linkable current) (hrange : current.generation + 1 < 2 ^ 64)
    (haccepts : accepts value = true) :
    wp φ (fun _ => True)
      (commitSuccessor format sha256 geometry current value accepts : SettingsAction ε π _).run
      (fun r g => r = .ok (successor format sha256 current value) ∧
        mounted π format sha256 g = .ok (successor format sha256 current value))
      (Interrupted φ format sha256 current value f) f := by
  obtain ⟨hread, hwrite, herase⟩ : φ.readError = false ∧ φ.writeError = false ∧
      φ.eraseError = false := by
    simpa [Faults.Reporting] using hφ
  have hbody := length_successorBody format sha256 current value
  have herased := erased_eraseTarget current f
  have hdone : Trajectory (commitScript format sha256 current value) (eraseTarget current f)
      ((eraseTarget current f).applyAll (commitScript format sha256 current value)) :=
    .finish _ _
  have hmarker : Committed format current
      ((eraseTarget current f).applyAll (commitScript format sha256 current value)) := by
    have hslice := congrArg (slice · 224 32) (read_committed format sha256 current value f)
    simp only [Flash.slice_read (show 224 + 32 ≤ 256 by decide), slice_successorMarker] at hslice
    exact hslice
  rw [commitSuccessor_eq hmounted]
  apply wp_ensure_bind (fun _ => Or.inl rfl)
  · intro _
    apply wp_erase_bind_apart (fun _ _ => trivial) (fun _ => Or.inl rfl)
    · rintro (hcut | hcut) g ht
      · exact Or.inr (Or.inl ⟨hcut, ht⟩)
      · simp [herase] at hcut
    · exact fun _ => Or.inr (Or.inr (.start _ _))
    · apply wp_writeVerified_bind hread hwrite (fun _ => trivial)
      · rw [hbody]
        exact herased.mono (by omega) (by omega)
      · exact fun _ g ht => Or.inr (Or.inr (.torn ht))
      · apply wp_writeVerified_bind hread hwrite (fun _ => trivial)
        · rw [format.length_commitMarker]
          exact (Flash.Torn.finish _ _).program_erased (herased.mono (by omega) (by omega))
            (Or.inr (by rw [hbody]))
        · exact fun _ g ht => Or.inr (Or.inr (.step (.torn ht)))
        · apply wp_verifySuccessor hread hgeometry _ haccepts
          · exact fun _ => Or.inr (Or.inr hdone)
          · exact mounted_committed hmounted hlinkable hrange
              (fun a => outside_of_trajectory hdone) hmarker (read_committed ..)
    · simp [herase]
  · exact fun hbad => absurd hrange hbad

/-- Power may be lost inside the first program of a commit. -/
theorem exec_commitSuccessor_torn {φ : Faults} {accepts : α → Bool} (hcut : φ.cut = true)
    (hmounted : mounted π format sha256 f = .ok current)
    (hrange : current.generation + 1 < 2 ^ 64)
    (ht : (eraseTarget current f).Torn ((eraseTarget current f).program (target current * 4096)
      (slice (successorRecord format sha256 current value) 0 224)) g) :
    ∃ tr, Prog.Exec φ (commitSuccessor format sha256 geometry current value accepts :
      SettingsAction ε π _).run f tr none g := by
  have hensure : Prog.Exec φ (Action.ensure (current.generation + 1 < 2 ^ 64)
      (.fault .generationExhausted) : SettingsAction ε π Unit).run f [] (some (.ok ())) f := by
    unfold Action.ensure
    rw [if_pos hrange]
    exact .done _ _
  have herase : Prog.Exec φ (Action.erase .storage (target current * 4096)
      (target current * 4096 + 4096) : SettingsAction ε π Unit).run f _ (some (.ok ()))
      (eraseTarget current f) := .erase (.done _ _)
  have hwrite : Prog.Exec φ (writeVerified (target current * 4096)
      (slice (successorRecord format sha256 current value) 0 224) : SettingsAction ε π Unit).run
      (eraseTarget current f) _ none g := .writeCut hcut ht
  rw [commitSuccessor_eq hmounted]
  exact ⟨_, hensure.action_bind (herase.action_bind hwrite.action_bind_none)⟩

/-- The first program of a commit may have reached only the magic. -/
theorem torn_magic (format : Format α) (sha256 : Sha256) (current : Generation α) (value : α)
    (f : Flash) (offset : ℕ) :
    f.Torn (f.program offset (slice (successorRecord format sha256 current value) 0 224))
      (f.program offset format.magic) := by
  have hmagic : slice (successorRecord format sha256 current value) 0 8 = format.magic :=
    slice_encodeRecord (i := 0) rfl rfl format.length_magic
  have hsplit := slice_add (successorRecord format sha256 current value) 0 8 216
  rw [hmagic] at hsplit
  rw [hsplit]
  exact Flash.torn_program_append f offset format.magic _

/-- Erasing the target of erased media changes nothing. -/
theorem eraseTarget_erased (current : Generation α) :
    eraseTarget current Flash.erased = Flash.erased := by
  funext a
  unfold eraseTarget Flash.erase
  split
  · rfl
  · rfl

/-- The contents after power was lost behind the magic of the next record. -/
def tornTarget (format : Format α) (current : Generation α) (f : Flash) : Flash :=
  (eraseTarget current f).program (target current * 4096) format.magic

/-- Power may be lost behind the magic of the next record. -/
theorem exec_tornTarget {φ : Faults} {accepts : α → Bool} (hcut : φ.cut = true)
    (hmounted : mounted π format sha256 f = .ok current)
    (hrange : current.generation + 1 < 2 ^ 64) :
    ∃ tr, Prog.Exec φ (commitSuccessor format sha256 geometry current value accepts :
      SettingsAction ε π _).run f tr none (tornTarget format current f) :=
  exec_commitSuccessor_torn hcut hmounted hrange
    (torn_magic format sha256 current value (eraseTarget current f) _)

/-- Behind the magic the target stays erased. -/
theorem tornTarget_erased (format : Format α) (current : Generation α) (f : Flash) :
    (tornTarget format current f).Erased (target current * 4096 + 8) 4088 := by
  have hsector : (eraseTarget current f).Erased (target current * 4096 + 8) 4088 :=
    (erased_eraseTarget current f).mono (by omega) (by omega)
  intro i hi
  unfold tornTarget
  rw [Flash.program_of_not_mem (by rw [format.length_magic]; omega)]
  exact hsector i hi

/-- The magic alone commits nothing. -/
theorem not_committed_tornTarget (format : Format α) (current : Generation α) (f : Flash) :
    ¬Committed format current (tornTarget format current f) := by
  intro hcommitted
  have herased : (tornTarget format current f).Erased (target current * 4096 + 224) 32 :=
    (tornTarget_erased format current f).mono (by omega) (by omega)
  unfold Committed at hcommitted
  rw [herased.read_eq] at hcommitted
  exact format.commitMarker_ne_erased hcommitted.symm

/-- With a committed generation, such an interruption is clean. -/
theorem cleanCut_tornTarget (hgeneration : current.generation ≠ 0) :
    CleanCut format sha256 current value f (tornTarget format current f) :=
  ⟨fun hzero => absurd hzero hgeneration, fun _ hcommitted =>
    absurd hcommitted (not_committed_tornTarget format current f)⟩

/-- The contents after power was lost inside the first record of erased media. -/
def tornFirst (format : Format α) : Flash := Flash.erased.program 0 format.magic

/-- The first record goes to the first sector. -/
theorem tornTarget_empty (format : Format α) :
    tornTarget format (empty format) Flash.erased = tornFirst format := by
  unfold tornTarget
  rw [eraseTarget_erased, target_empty, Nat.zero_mul, tornFirst]

/-- Power may be lost inside the first record of erased media. -/
theorem exec_tornFirst {φ : Faults} {accepts : α → Bool} (hcut : φ.cut = true)
    (hmounted : mounted π format sha256 Flash.erased = .ok (empty format)) :
    ∃ tr, Prog.Exec φ (commitSuccessor format sha256 geometry (empty format) value accepts :
      SettingsAction ε π _).run Flash.erased tr none (tornFirst format) :=
  tornTarget_empty format ▸ exec_tornTarget hcut hmounted (show 0 + 1 < 2 ^ 64 by decide)

/-- Such contents do not mount. -/
theorem mounted_tornFirst (format : Format α) (sha256 : Sha256)
    (hmagic : format.magic.head? ≠ some erasedByte) :
    mounted π format sha256 (tornFirst format) = .error .corrupt := by
  have htorn : Trajectory (commitScript format sha256 (empty format) format.empty)
      (eraseTarget (empty format) Flash.erased) (tornFirst format) := by
    rw [eraseTarget_erased]
    unfold commitScript
    rw [target_empty, Nat.zero_mul]
    exact .torn (torn_magic format sha256 (empty format) format.empty Flash.erased 0)
  apply mounted_torn_first (fun _ _ => rfl) htorn
  · exact tornTarget_empty format ▸ not_committed_tornTarget format (empty format) Flash.erased
  · intro herased
    have hbyte := herased 0 (by omega)
    unfold tornFirst at hbyte
    rw [Flash.program_of_mem (by rw [format.length_magic]; omega)] at hbyte
    have hfirst : format.magic.getD 0 0 = erasedByte := by
      rw [← hbyte]
      exact BitVec.allOnes_and.symm
    apply hmagic
    cases hlist : format.magic with
    | nil =>
      have hlength := format.length_magic
      simp [hlist] at hlength
    | cons b rest => simpa [hlist] using hfirst

/-- The device: its flash, and the mounted generation while it is powered. -/
structure Device (α : Type) where
  flash : Flash
  current : Option (Generation α)

/-- What happened in one step of a run, for requests `ρ` answered with `γ`. -/
inductive Event (ρ γ err : Type) where
  | mount
  | answer (request : ρ) (result : Except err γ)
  | cut (request : ρ)

/-- One step of a run with the device before and after it. -/
structure Transition (α ρ γ err : Type) where
  before : Device α
  event : Event ρ γ err
  after : Device α

/-- The steps of a device: a boot mounts, a request is answered, or power is lost inside a
request. A request that fails keeps the mounted generation. -/
inductive Step (φ : Faults) (mounting : SettingsAction ε π (Generation α))
    (change : Generation α → ρ → SettingsAction ε π (γ × Generation α)) :
    Transition α ρ γ (AccessError ε π) → Prop
  | mount (device : Device α) :
      Step φ mounting change
        ⟨device, .mount, ⟨device.flash, (mounting.eval device.flash).1.toOption⟩⟩
  | answer {f g : Flash} {current : Generation α} {request : ρ}
      {result : Except (AccessError ε π) (γ × Generation α)}
      (h : (change current request).eval f = (result, g)) :
      Step φ mounting change ⟨⟨f, some current⟩, .answer request (result.map Prod.fst),
        ⟨g, some ((result.map Prod.snd).toOption.getD current)⟩⟩
  | cut {f g : Flash} {current : Generation α} {request : ρ} {tr : List Mutation}
      (h : Prog.Exec φ (change current request).run f tr none g) :
      Step φ mounting change ⟨⟨f, some current⟩, .cut request, ⟨g, none⟩⟩

/-- A change that succeeds leaves the device with what it returns. -/
theorem Step.committed {φ : Faults} {mounting : SettingsAction ε π (Generation α)}
    {change : Generation α → ρ → SettingsAction ε π (γ × Generation α)} {f g : Flash}
    {current next : Generation α} {request : ρ} {commit : γ}
    (h : (change current request).eval f = (.ok (commit, next), g)) :
    Step φ mounting change
      ⟨⟨f, some current⟩, .answer request (.ok commit), ⟨g, some next⟩⟩ :=
  .answer h

/-- A sequence of steps from one device to another. -/
inductive Run (φ : Faults) (mounting : SettingsAction ε π (Generation α))
    (change : Generation α → ρ → SettingsAction ε π (γ × Generation α)) :
    Device α → List (Transition α ρ γ (AccessError ε π)) → Device α → Prop
  | nil (device : Device α) : Run φ mounting change device [] device
  | cons {transition : Transition α ρ γ (AccessError ε π)}
      {transitions : List (Transition α ρ γ (AccessError ε π))} {last : Device α}
      (hstep : Step φ mounting change transition)
      (hrest : Run φ mounting change transition.after transitions last) :
      Run φ mounting change transition.before (transition :: transitions) last

/-- An invariant of every admitted step holds around every step of an admitted run. -/
theorem Run.invariant {φ : Faults} {mounting : SettingsAction ε π (Generation α)}
    {change : Generation α → ρ → SettingsAction ε π (γ × Generation α)} {first last : Device α}
    {transitions : List (Transition α ρ γ (AccessError ε π))} {I : Device α → Prop}
    {P : Transition α ρ γ (AccessError ε π) → Prop}
    (hstep : ∀ t, Step φ mounting change t → P t → I t.before → I t.after)
    (h : Run φ mounting change first transitions last) (hP : ∀ t ∈ transitions, P t)
    (hfirst : I first) :
    I last ∧ ∀ t ∈ transitions, Step φ mounting change t ∧ I t.before ∧ I t.after := by
  induction h with
  | nil device => exact ⟨hfirst, by simp⟩
  | cons hhead hrest ih =>
    have hafter := hstep _ hhead (hP _ List.mem_cons_self) hfirst
    obtain ⟨hlast, hall⟩ := ih (fun t ht => hP t (List.mem_cons_of_mem _ ht)) hafter
    refine ⟨hlast, ?_⟩
    intro t ht
    rcases List.mem_cons.mp ht with rfl | ht
    · exact ⟨hhead, hfirst, hafter⟩
    · exact hall t ht

/-- The flash mounts, and a powered device has mounted just that generation. -/
def Consistent (π : Type) (format : Format α) (sha256 : Sha256) (device : Device α) : Prop :=
  ∃ settings, mounted π format sha256 device.flash = .ok settings ∧
    ∀ current, device.current = some current → current = settings

/-- The geometry of the two-sector quota. -/
def quotaGeometry : Geometry := ⟨quotaBytes, 1, 1, sectorSize⟩

/-- The sample geometry is writable. -/
theorem writable_quotaGeometry : Writable quotaGeometry :=
  ⟨⟨by decide, by decide⟩, by decide⟩

/-- The first boot of erased media. -/
theorem step_first_mount {φ : Faults} (format : Format α) (sha256 : Sha256)
    (change : Generation α → ρ → SettingsAction ε π (γ × Generation α)) :
    Step φ (mount format sha256 quotaGeometry) change
      ⟨⟨Flash.erased, none⟩, .mount, ⟨Flash.erased, some (empty format)⟩⟩ := by
  have hmount : (mount format sha256 quotaGeometry : SettingsAction ε π _).eval Flash.erased =
      (.ok (empty format), Flash.erased) := by
    rw [eval_mount writable_quotaGeometry.1, mounted_erased fun _ _ => rfl]
    rfl
  have h := @Step.mount α ε π ρ γ φ (mount format sha256 quotaGeometry) change
    ⟨Flash.erased, none⟩
  rw [hmount] at h
  exact h

end Settings
