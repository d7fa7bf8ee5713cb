import ReticulumFirmware.Nor.Action

/-!
# Write scripts and the contents they may leave

A record is written by a fixed sequence of programs. Whatever interrupts the
sequence, the flash holds a completed prefix of it, one program in progress and
nothing of the rest. Such contents are closed under repeating the sequence from its
start, which is how an interrupted writer is resumed.
-/

namespace Nor

open Prog

variable {ε err : Type}

/-- One program of a script. -/
structure Patch where
  /-- First programmed address. -/
  offset : ℕ
  /-- Programmed bytes. -/
  bytes : List Byte

/-- Whether an address lies in the range of a patch. -/
def Patch.Covers (p : Patch) (a : ℕ) : Prop := p.offset ≤ a ∧ a < p.offset + p.bytes.length

namespace Flash

/-- Apply one patch. -/
def apply (f : Flash) (p : Patch) : Flash := f.program p.offset p.bytes

/-- Apply every patch of a script in order. -/
def applyAll (f : Flash) (ps : List Patch) : Flash := ps.foldl apply f

/-- No patches leave the contents. -/
@[simp] theorem applyAll_nil (f : Flash) : f.applyAll [] = f := rfl

/-- The first patch is applied before the others. -/
@[simp] theorem applyAll_cons (f : Flash) (p : Patch) (ps : List Patch) :
    f.applyAll (p :: ps) = (f.apply p).applyAll ps := rfl

/-- Patches in two groups are applied one group after another. -/
theorem applyAll_append (f : Flash) (ps qs : List Patch) :
    f.applyAll (ps ++ qs) = (f.applyAll ps).applyAll qs := by
  simp [applyAll]

/-- A patch changes nothing that it does not cover. -/
theorem apply_of_not_covers {f : Flash} {p : Patch} {a : ℕ} (h : ¬ p.Covers a) :
    f.apply p a = f a :=
  program_of_not_mem (by unfold Patch.Covers at h; omega)

end Flash

/-- The contents a script may leave when it is interrupted anywhere, its end
included: completed patches, then one patch in progress. -/
inductive Trajectory : List Patch → Flash → Flash → Prop
  | done (f : Flash) : Trajectory [] f f
  | torn {p : Patch} {ps : List Patch} {f g : Flash} (h : f.Torn (f.apply p) g) :
      Trajectory (p :: ps) f g
  | step {p : Patch} {ps : List Patch} {f g : Flash} (h : Trajectory ps (f.apply p) g) :
      Trajectory (p :: ps) f g

namespace Trajectory

/-- Nothing has been written yet. -/
theorem start (ps : List Patch) (f : Flash) : Trajectory ps f f := by
  cases ps with
  | nil => exact .done f
  | cons p ps => exact .torn (.start f _)

/-- Everything has been written. -/
theorem finish (ps : List Patch) (f : Flash) : Trajectory ps f (f.applyAll ps) := by
  induction ps generalizing f with
  | nil => exact .done f
  | cons p ps ih => exact .step (ih (f.apply p))

/-- Interrupted contents are below the contents the script started from. -/
theorem le {ps : List Patch} {f g : Flash} (h : Trajectory ps f g) (a : ℕ) :
    BitsLE (g a) (f a) := by
  induction h with
  | done f => exact .refl _
  | torn h => exact (h.program_between a).2
  | step _ ih => exact ih.trans (Flash.program_le _ _ _ a)

/-- Interrupted contents differ from the start only inside the patches. -/
theorem eq_of_not_covers {ps : List Patch} {f g : Flash} (h : Trajectory ps f g) {a : ℕ}
    (ha : ∀ p ∈ ps, ¬ p.Covers a) : g a = f a := by
  induction h with
  | done f => rfl
  | torn h => exact h.eq_of_eq (Flash.apply_of_not_covers (ha _ List.mem_cons_self))
  | step _ ih =>
    rw [ih fun q hq => ha q (List.mem_cons_of_mem _ hq),
      Flash.apply_of_not_covers (ha _ List.mem_cons_self)]

/-- A range no patch meets reads as before. -/
theorem read_eq {ps : List Patch} {f g : Flash} (h : Trajectory ps f g) {offset length : ℕ}
    (hps : ∀ p ∈ ps, p.offset + p.bytes.length ≤ offset ∨ offset + length ≤ p.offset) :
    g.read offset length = f.read offset length :=
  Flash.read_eq_read_iff.mpr fun i hi => h.eq_of_not_covers fun p hp => by
    have := hps p hp
    unfold Patch.Covers
    omega

/-- Contents of a script belong to every longer one. -/
theorem append_left {ps : List Patch} {f g : Flash} (h : Trajectory ps f g) (qs : List Patch) :
    Trajectory (ps ++ qs) f g := by
  induction h with
  | done f => exact start qs f
  | torn h => exact .torn h
  | step _ ih => exact .step ih

/-- Contents of a composed script belong to one of its two parts. -/
theorem append_cases {ps qs : List Patch} {f g : Flash} (h : Trajectory (ps ++ qs) f g) :
    Trajectory ps f g ∨ Trajectory qs (f.applyAll ps) g := by
  induction ps generalizing f with
  | nil => exact Or.inr h
  | cons p ps ih =>
    cases h with
    | torn h => exact Or.inl (.torn h)
    | step h =>
      rcases ih h with h | h
      · exact Or.inl (.step h)
      · exact Or.inr h

/-- Rewriting the first patch completes it and changes nothing once it is complete. -/
theorem write_head {p : Patch} {ps : List Patch} {f g : Flash} (h : Trajectory (p :: ps) f g) :
    Trajectory ps (f.apply p) (g.apply p) := by
  cases h with
  | torn h =>
    have : g.apply p = f.apply p := h.program_again
    rw [this]
    exact start ps _
  | step h =>
    have : g.apply p = g := by
      apply Flash.program_eq_self
      intro i hi
      refine (h.le (p.offset + i)).trans ?_
      rw [Flash.apply, Flash.program_of_mem hi]
      exact bitsLE_and_right _ _
    rw [this]
    exact h

/-- Interrupting the rewriting of the first patch stays on the trajectory. -/
theorem torn_head {p : Patch} {ps : List Patch} {f g g' : Flash} (h : Trajectory (p :: ps) f g)
    (ht : g.Torn (g.apply p) g') : Trajectory (p :: ps) f g' := by
  cases h with
  | torn h => exact .torn (h.program_trans ht)
  | step h =>
    have hself : g.apply p = g := by
      apply Flash.program_eq_self
      intro i hi
      refine (h.le (p.offset + i)).trans ?_
      rw [Flash.apply, Flash.program_of_mem hi]
      exact bitsLE_and_right _ _
    rw [ht.eq_of_target_eq hself]
    exact .step h

end Trajectory

/-- A patch whose success is judged by reading it back. -/
structure CheckedPatch (ε err : Type) where
  /-- The programmed range. -/
  patch : Patch
  /-- The readbacks that count as success. -/
  accepts : List Byte → Bool
  /-- The outcome for the backend's two answers. -/
  verdict : Except ε Unit → Except ε (List Byte) → Except err Unit
  /-- Only an accepted readback is a success. -/
  verdict_ok : ∀ w r, verdict w r = .ok () ↔ ∃ bytes, r = .ok bytes ∧ accepts bytes = true

namespace CheckedPatch

/-- Program the patch, read it back and judge the result. -/
def act (c : CheckedPatch ε err) : Action ε err Unit :=
  ExceptT.mk (.write c.patch.offset c.patch.bytes fun w =>
    .read c.patch.offset c.patch.bytes.length fun r => .pure (c.verdict w r))

/-- Run checked patches in order, stopping at the first failure. -/
def actAll : List (CheckedPatch ε err) → Action ε err Unit
  | [] => pure ()
  | c :: cs => c.act >>= fun _ => actAll cs

/-- Patches in two groups are programmed one group after another. -/
theorem actAll_append (cs ds : List (CheckedPatch ε err)) :
    actAll (cs ++ ds) = actAll cs >>= fun _ => actAll ds := by
  induction cs with
  | nil => rfl
  | cons c cs ih =>
    rw [List.cons_append, actAll, actAll, ih, bind_assoc]

/-- The script of a list of checked patches. -/
abbrev script (cs : List (CheckedPatch ε err)) : List Patch := cs.map patch

/-- The readback checks fit the script: a completed patch is accepted whatever the
later patches have done, and an interrupted one is accepted only when it is complete. -/
def Fits : List (CheckedPatch ε err) → Flash → Prop
  | [], _ => True
  | c :: cs, f =>
      (∀ g, Trajectory (script cs) (f.apply c.patch) g →
        c.accepts (g.read c.patch.offset c.patch.bytes.length) = true) ∧
      (∀ g, f.Torn (f.apply c.patch) g →
        c.accepts (g.read c.patch.offset c.patch.bytes.length) = true → g = f.apply c.patch) ∧
      Fits cs (f.apply c.patch)

/-- Running checked patches from any contents of their own trajectory completes the
script, or fails on it, or is cut on it; it fails only when the backend does. -/
theorem wp_actAll {φ : Faults} {G : Mutation → Prop} {cs : List (CheckedPatch ε err)}
    {f g : Flash} (hG : ∀ m, G m) (hfits : Fits cs f) (h : Trajectory (script cs) f g) :
    wp φ G (actAll cs).run
      (fun r g' => match r with
        | .ok _ => g' = f.applyAll (script cs)
        | .error _ => (φ.readError = true ∨ φ.writeError = true) ∧ Trajectory (script cs) f g')
      (Trajectory (script cs) f) g := by
  induction cs generalizing f g with
  | nil =>
    cases h
    exact wp_pure (fun _ => .done f) rfl
  | cons c cs ih =>
    obtain ⟨haccept, hexact, hrest⟩ := hfits
    -- every accepted readback leaves the rest of the script to do
    have hcontinue : ∀ g', Trajectory (script cs) (f.apply c.patch) g' →
        wp φ G (actAll cs).run
          (fun r g'' => match r with
            | .ok _ => g'' = f.applyAll (script (c :: cs))
            | .error _ => (φ.readError = true ∨ φ.writeError = true) ∧
                Trajectory (script (c :: cs)) f g'')
          (Trajectory (script (c :: cs)) f) g' := by
      intro g' h'
      refine (ih hrest h').mono ?_ fun _ h => .step h
      intro r g'' hr
      cases r with
      | ok _ => exact hr
      | error e => exact ⟨hr.1, .step hr.2⟩
    rw [actAll]
    apply wp_action_bind
    apply wp_write fun _ _ => hG _
    · exact fun _ g' ht => h.torn_head ht
    · have hwrite := h.write_head
      apply wp_read fun _ => .step hwrite
      · refine wp_pure (fun _ => .step hwrite) ?_
        have hok := (c.verdict_ok (.ok ())
          (.ok ((g.apply c.patch).read c.patch.offset c.patch.bytes.length))).mpr
          ⟨_, rfl, haccept _ hwrite⟩
        split
        · exact hcontinue _ hwrite
        · next herror => exact absurd (herror.symm.trans hok) (by simp)
      · intro hread e
        refine wp_pure (fun _ => .step hwrite) ?_
        split
        · next hok =>
          obtain ⟨_, hr, _⟩ := (c.verdict_ok _ _).mp hok
          cases hr
        · exact ⟨Or.inl hread, .step hwrite⟩
    · intro hwrite e g' ht
      have htorn := h.torn_head ht
      apply wp_read fun _ => htorn
      · refine wp_pure (fun _ => htorn) ?_
        split
        · next hok =>
          obtain ⟨bytes, hr, hbytes⟩ := (c.verdict_ok _ _).mp hok
          cases hr
          apply hcontinue
          cases htorn with
          | torn h => rw [hexact _ h hbytes]; exact .start _ _
          | step h => exact h
        · exact ⟨Or.inr hwrite, htorn⟩
      · intro hread e'
        refine wp_pure (fun _ => htorn) ?_
        split
        · next hok =>
          obtain ⟨_, hr, _⟩ := (c.verdict_ok _ _).mp hok
          cases hr
        · exact ⟨Or.inl hread, htorn⟩

end CheckedPatch

end Nor
