import ReticulumFirmware.Nor.Sha256
import ReticulumFirmware.Settings.ApplianceSettings

/-!
# Runs of the appliance label

A run of mounts, label changes and power losses inside the two programs of a change behaves
like one atomic register, unless the very first record is left half written.
-/

namespace Appliance

open Nor Settings

/-- What the quota is for: one register with a revision. -/
structure Register where
  revision : ℕ
  label : Option ApplianceLabel

/-- The register of mounted settings. -/
def register (settings : ApplianceSettings) : Register := ⟨settings.generation, settings.value⟩

/-- The steps of the register. A power loss inside a request leaves it as it was or as the
request would have left it. -/
inductive Register.Step {ε : Type} : Register →
    Event (Option ApplianceLabel) ApplianceSettingsCommit (AccessError ε LabelFault) →
    Register → Prop
  | mount (r : Register) : Step r .mount r
  | unchanged (r : Register) : Step r (.answer r.label (.ok (.unchanged r.revision))) r
  | exhausted {r : Register} {label : Option ApplianceLabel} (hlabel : r.label ≠ label)
      (hrevision : r.revision + 1 = 2 ^ 64) :
      Step r (.answer label (.error (.fault .generationExhausted))) r
  | updated {r : Register} {label : Option ApplianceLabel} (hlabel : r.label ≠ label) :
      Step r (.answer label (.ok (.updated (r.revision + 1)))) ⟨r.revision + 1, label⟩
  | lost (r : Register) (label : Option ApplianceLabel) : Step r (.cut label) r
  | kept (r : Register) (label : Option ApplianceLabel) :
      Step r (.cut label) ⟨r.revision + 1, label⟩

variable {ε : Type} {sha256 : Sha256} {geometry : Geometry} {f g : Flash}
  {current : ApplianceSettings} {label : Option ApplianceLabel}

/-- A request that writes to flash. -/
def Writes (current : ApplianceSettings) (label : Option ApplianceLabel) : Prop :=
  current.value ≠ label ∧ current.generation + 1 < 2 ^ 64

/-- What a label change may answer. -/
def Answered (sha256 : Sha256) (current : ApplianceSettings) (label : Option ApplianceLabel)
    (f : Flash) (r : Except (AccessError ε LabelFault)
      (ApplianceSettingsCommit × ApplianceSettings)) (g : Flash) : Prop :=
  (current.value = label ∧ r = .ok (.unchanged current.generation, current) ∧ g = f) ∨
  (current.value ≠ label ∧ ¬ current.generation + 1 < 2 ^ 64 ∧
    r = .error (.fault .generationExhausted) ∧ g = f) ∨
  (Writes current label ∧
    r = .ok (.updated (current.generation + 1), successor format sha256 current label) ∧
    mounted LabelFault format sha256 g = .ok (successor format sha256 current label))

/-- All executions of a label change without backend errors. -/
theorem wp_setApplianceLabel {φ : Faults} (hφ : ¬ φ.Reporting) (hgeometry : Writable geometry)
    (hmounted : mounted LabelFault format sha256 f = .ok current)
    (hlinkable : Writes current label → Linkable current) :
    wp φ (fun _ => True) (setApplianceLabel sha256 geometry current label :
        SettingsAction ε LabelFault _).run
      (Answered sha256 current label f)
      (fun g => g = f ∨ Writes current label ∧ Interrupted φ format sha256 current label f g)
      f := by
  unfold setApplianceLabel
  rw [validateGeometry_bind hgeometry]
  split
  · next hlabel => exact wp_action_pure (fun _ => Or.inl rfl) (Or.inl ⟨hlabel, rfl, rfl⟩)
  · next hlabel =>
    by_cases hrange : current.generation + 1 < 2 ^ 64
    · have hwrites : Writes current label := ⟨hlabel, hrange⟩
      apply wp_action_bind
      refine (wp_commitSuccessor hφ hgeometry.1 hmounted (hlinkable hwrites) hrange
        (decide_eq_true rfl)).and_crash.mono ?_ ?_
      · rintro r g ⟨⟨rfl, hnew⟩, hcut⟩
        exact wp_action_pure (fun h => Or.inr ⟨hwrites, hcut h⟩)
          (Or.inr (Or.inr ⟨hwrites, rfl, hnew⟩))
      · exact fun g hg => Or.inr ⟨hwrites, hg⟩
    · rw [commitSuccessor_eq hmounted]
      simp only [bind_assoc]
      apply wp_ensure_bind (fun _ => Or.inl rfl)
      · exact fun h => absurd h hrange
      · exact fun _ => Or.inr (Or.inl ⟨hlabel, hrange, rfl, rfl⟩)

/-- A change that writes links to a real digest, and a power loss inside the very first
record leaves its sector erased or its commit marker complete. -/
def Sound (t : Transition (Option ApplianceLabel) (Option ApplianceLabel) ApplianceSettingsCommit
    (AccessError ε LabelFault)) : Prop :=
  match t.before.current, t.event with
  | some current, .answer label _ => Writes current label → Linkable current
  | some current, .cut label => Writes current label → Linkable current ∧
      (current.generation = 0 →
        Committed format current t.after.flash ∨ t.after.flash.Erased 0 4096)
  | _, _ => True

/-- One sound step of a consistent device is a step of the register. -/
theorem step_register (hgeometry : Writable geometry)
    {t : Transition (Option ApplianceLabel) (Option ApplianceLabel) ApplianceSettingsCommit
      (AccessError ε LabelFault)}
    (h : Step Faults.programCuts (mountApplianceSettings sha256 geometry)
      (setApplianceLabel sha256 geometry) t) (hsound : Sound t)
    (hbefore : Consistent LabelFault format sha256 t.before) :
    Consistent LabelFault format sha256 t.after ∧
      ∃ settings settings', mounted LabelFault format sha256 t.before.flash = .ok settings ∧
        mounted LabelFault format sha256 t.after.flash = .ok settings' ∧
        Register.Step (register settings) t.event (register settings') := by
  obtain ⟨settings, hmounted, hcurrent⟩ := hbefore
  have hφ : ¬ Faults.programCuts.Reporting := by simp [Faults.Reporting, Faults.programCuts]
  cases h with
  | mount device =>
    have heval : (mountApplianceSettings sha256 geometry :
        SettingsAction ε LabelFault _).eval device.flash = (.ok settings, device.flash) := by
      unfold mountApplianceSettings
      rw [eval_mount hgeometry.1, hmounted]
      rfl
    refine ⟨⟨settings, hmounted, ?_⟩, settings, settings, hmounted, hmounted, .mount _⟩
    rw [heval]
    rintro current ⟨⟩
    rfl
  | @answer f g current label result heval =>
    obtain rfl : current = settings := hcurrent current rfl
    have hanswer := (wp_setApplianceLabel hφ hgeometry hmounted hsound).of_eval heval
    rcases hanswer with ⟨rfl, rfl, rfl⟩ | ⟨hlabel, hrange, rfl, rfl⟩ | ⟨hwrites, rfl, hnew⟩
    · exact ⟨⟨current, hmounted, by rintro _ ⟨⟩; rfl⟩, current, current, hmounted, hmounted,
        .unchanged (register current)⟩
    · have hrevision : current.generation + 1 = 2 ^ 64 := by
        have := generation_lt hmounted
        omega
      exact ⟨⟨current, hmounted, by rintro _ ⟨⟩; rfl⟩, current, current, hmounted, hmounted,
        .exhausted hlabel hrevision⟩
    · exact ⟨⟨_, hnew, by rintro _ ⟨⟩; rfl⟩, current, _, hmounted, hnew, .updated hwrites.1⟩
  | @cut f g current label tr hexec =>
    obtain rfl : current = settings := hcurrent current rfl
    have hlinkable : Writes current label → Linkable current := fun hwrites => (hsound hwrites).1
    rcases (wp_setApplianceLabel hφ hgeometry hmounted hlinkable).crashes hexec with
      rfl | ⟨hwrites, hinterrupted⟩
    · exact ⟨⟨current, hmounted, by rintro _ ⟨⟩⟩, current, current, hmounted, hmounted,
        .lost _ label⟩
    · have hclean : CleanCut format sha256 current label f g := by
        refine ⟨(hsound hwrites).2, fun hgeneration hcommitted => ?_⟩
        rcases hinterrupted with rfl | ⟨hcut, -⟩ | htrajectory
        · exact Or.inl rfl
        · cases hcut
        · exact Or.inr ((marker_of_trajectory htrajectory).2 hcommitted)
      rcases mounted_interrupted hmounted (hsound hwrites).1 hwrites.2 hinterrupted hclean with
        hold | hnew
      · exact ⟨⟨current, hold, by rintro _ ⟨⟩⟩, current, current, hmounted, hold, .lost _ label⟩
      · exact ⟨⟨_, hnew, by rintro _ ⟨⟩⟩, current, _, hmounted, hnew, .kept _ label⟩

/-- The flash mounts before and after a step, as a register that takes the step. -/
def Atomic (sha256 : Sha256) (geometry : Geometry)
    (t : Transition (Option ApplianceLabel) (Option ApplianceLabel) ApplianceSettingsCommit
      (AccessError ε LabelFault)) : Prop :=
  ∃ settings settings',
    (mountApplianceSettings sha256 geometry : SettingsAction ε LabelFault _).eval t.before.flash =
      (.ok settings, t.before.flash) ∧
    (mountApplianceSettings sha256 geometry : SettingsAction ε LabelFault _).eval t.after.flash =
      (.ok settings', t.after.flash) ∧
    Register.Step (register settings) t.event (register settings')

/-- Every step of a sound run from erased media is a step of the register. -/
theorem label_crash_safe (hgeometry : Writable geometry) (hf : f.Erased 0 quotaBytes)
    {last : Device (Option ApplianceLabel)}
    {transitions : List (Transition (Option ApplianceLabel) (Option ApplianceLabel)
      ApplianceSettingsCommit (AccessError ε LabelFault))}
    (h : Run Faults.programCuts (mountApplianceSettings sha256 geometry)
      (setApplianceLabel sha256 geometry) ⟨f, none⟩ transitions last)
    (hsound : ∀ t ∈ transitions, Sound t) : ∀ t ∈ transitions, Atomic sha256 geometry t := by
  have hfirst : Consistent LabelFault format sha256
      (⟨f, none⟩ : Device (Option ApplianceLabel)) :=
    ⟨empty format, mounted_erased hf, by rintro _ ⟨⟩⟩
  obtain ⟨-, hall⟩ := h.invariant
    (fun t ht hs hbefore => (step_register hgeometry ht hs hbefore).1) hsound hfirst
  intro t ht
  obtain ⟨hstep, hbefore, -⟩ := hall t ht
  obtain ⟨-, settings, settings', hold, hnew, hregister⟩ :=
    step_register hgeometry hstep (hsound t ht) hbefore
  refine ⟨settings, settings', ?_, ?_, hregister⟩
  · unfold mountApplianceSettings
    rw [eval_mount hgeometry.1, hold]
    rfl
  · unfold mountApplianceSettings
    rw [eval_mount hgeometry.1, hnew]
    rfl

/-- A label. -/
def northRelay : ApplianceLabel := ⟨"North relay", by decide, by decide, by decide⟩

/-- Another label. -/
def southRelay : ApplianceLabel := ⟨"South relay", by decide, by decide, by decide⟩

/-- Power may be lost behind the magic of the next record. -/
theorem step_tornTarget (hmounted : mounted LabelFault format sha256 f = .ok current)
    (hwrites : Writes current label) :
    Step Faults.programCuts (mountApplianceSettings sha256 quotaGeometry :
      SettingsAction ε LabelFault _) (setApplianceLabel sha256 quotaGeometry)
      ⟨⟨f, some current⟩, .cut label, ⟨tornTarget format current f, none⟩⟩ := by
  obtain ⟨tr, hexec⟩ := @exec_tornTarget _ ε _ format sha256 quotaGeometry f current label
    Faults.programCuts (· = label) rfl hmounted hwrites.2
  apply Step.cut
  unfold setApplianceLabel
  rw [validateGeometry_bind writable_quotaGeometry, if_neg hwrites.1]
  exact hexec.action_bind_none

/-- Such a power loss is sound when a record with a real digest is already mounted. -/
theorem sound_tornTarget (hlinkable : Linkable current) (hgeneration : current.generation ≠ 0) :
    Sound (ε := ε) ⟨⟨f, some current⟩, .cut label, ⟨tornTarget format current f, none⟩⟩ :=
  fun _ => ⟨hlinkable, fun hzero => absurd hzero hgeneration⟩

/-- The first label changes erased media. -/
theorem writes_northRelay : Writes (empty format) (some northRelay) := ⟨by decide, by decide⟩

/-- The settings with the first label. -/
def northSettings : ApplianceSettings :=
  successor format Nor.sha256 (empty format) (some northRelay)

/-- The first label is the first generation. -/
theorem generation_northSettings : northSettings.generation = 1 := rfl

/-- The second label changes the settings with the first one. -/
theorem writes_southRelay : Writes northSettings (some southRelay) := by
  constructor <;> decide

/-- The record of the first label has a real digest. -/
theorem linkable_northSettings : Linkable northSettings := fun _ => by decide +kernel

/-- A label, another one that loses power inside its record, and the boot after it. -/
theorem label_crash_safe_cut :
    ∃ transitions last,
      transitions.map (·.event) = [.mount, .answer (some northRelay) (.ok (.updated 1)),
        .cut (some southRelay), .mount] ∧
      Run Faults.programCuts (mountApplianceSettings Nor.sha256 quotaGeometry :
        SettingsAction Unit LabelFault _) (setApplianceLabel Nor.sha256 quotaGeometry)
        ⟨Flash.erased, none⟩ transitions last ∧
      ∀ t ∈ transitions, Atomic Nor.sha256 quotaGeometry t := by
  have hempty : mounted LabelFault format Nor.sha256 Flash.erased = .ok (empty format) :=
    mounted_erased fun _ _ => rfl
  have hlinkable : Writes (empty format) (some northRelay) → Linkable (empty format) :=
    fun _ hgeneration => absurd rfl hgeneration
  have hφ : ¬ Faults.programCuts.Reporting := by simp [Faults.Reporting, Faults.programCuts]
  obtain ⟨⟨result, f⟩, heval⟩ : ∃ answer, (setApplianceLabel Nor.sha256 quotaGeometry
      (empty format) (some northRelay) : SettingsAction Unit LabelFault _).eval Flash.erased =
        answer := ⟨_, rfl⟩
  rcases (wp_setApplianceLabel hφ writable_quotaGeometry hempty hlinkable).of_eval heval with
    ⟨hsame, -⟩ | ⟨-, hrange, -⟩ | ⟨_, rfl, hmounted⟩
  · exact absurd hsame writes_northRelay.1
  · exact absurd writes_northRelay.2 hrange
  · have hanswer := @Step.committed _ Unit LabelFault _ _ Faults.programCuts
      (mountApplianceSettings Nor.sha256 quotaGeometry)
      (setApplianceLabel Nor.sha256 quotaGeometry) Flash.erased f (empty format) northSettings
      (some northRelay) (.updated 1) heval
    have hcut := @step_tornTarget Unit Nor.sha256 f northSettings (some southRelay) hmounted
      writes_southRelay
    have hmount := @Step.mount _ Unit LabelFault _ _ Faults.programCuts
      (mountApplianceSettings Nor.sha256 quotaGeometry)
      (setApplianceLabel Nor.sha256 quotaGeometry) ⟨tornTarget format northSettings f, none⟩
    have hlast := Run.cons hmount (Run.nil _)
    have hrun := Run.cons (step_first_mount format Nor.sha256 _)
      (Run.cons hanswer (Run.cons hcut hlast))
    refine ⟨_, _, rfl, hrun,
      label_crash_safe writable_quotaGeometry (fun _ _ => rfl) hrun ?_⟩
    have hgeneration : northSettings.generation ≠ 0 := generation_northSettings ▸ Nat.one_ne_zero
    have hsound := @sound_tornTarget Unit f northSettings (some southRelay)
      linkable_northSettings hgeneration
    simp only [List.forall_mem_cons]
    exact ⟨trivial, hlinkable, hsound, trivial, List.forall_mem_nil _⟩

/-- Power may be lost inside the first record. -/
theorem step_tornFirst (sha256 : Sha256) :
    Step Faults.programCuts (mountApplianceSettings sha256 quotaGeometry :
      SettingsAction Unit LabelFault _) (setApplianceLabel sha256 quotaGeometry)
      ⟨⟨Flash.erased, some (empty format)⟩, .cut (some northRelay), ⟨tornFirst format, none⟩⟩ :=
  tornTarget_empty format ▸
    step_tornTarget (mounted_erased fun _ _ => rfl) writes_northRelay

/-- Losing power inside the first record of erased media makes the label unavailable, whatever
the hash function. -/
theorem label_torn_first_record :
    ¬ ∃ sha256 : Sha256, ∀ transitions last,
      Run Faults.programCuts (mountApplianceSettings sha256 quotaGeometry :
        SettingsAction Unit LabelFault _) (setApplianceLabel sha256 quotaGeometry)
        ⟨Flash.erased, none⟩ transitions last →
      ∀ t ∈ transitions, Atomic sha256 quotaGeometry t := by
  rintro ⟨sha256, h⟩
  have hrun := Run.cons (step_first_mount format sha256 _)
    (Run.cons (step_tornFirst sha256) (Run.nil _))
  obtain ⟨-, settings, -, hmount, -⟩ := h _ _ hrun _ (List.mem_cons_of_mem _ List.mem_cons_self)
  unfold mountApplianceSettings at hmount
  rw [eval_mount writable_quotaGeometry.1, mounted_tornFirst format sha256 (by decide)] at hmount
  cases hmount

end Appliance
