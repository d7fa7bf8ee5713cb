import ReticulumFirmware.Nor.Script

/-!
# Stages of a write script

Rules for checked patches that need not start from erased contents. One predicate holds wherever
the writing stops; each completed stage establishes the precondition of the next one.
-/

namespace Nor

variable {ε err : Type} {φ : Faults}

/-- The contents after an interrupted program of a patch. -/
def Flash.TornPatch (f : Flash) (p : Patch) (g : Flash) : Prop := f.Torn (f.apply p) g

/-- Two patches have no common address. -/
def Patch.Apart (p q : Patch) : Prop :=
  p.offset + p.bytes.length ≤ q.offset ∨ q.offset + q.bytes.length ≤ p.offset

namespace Flash.TornPatch

variable {f g : Flash} {p : Patch}

/-- A torn patch leaves what is read apart from it. -/
theorem read_eq (h : f.TornPatch p g) {offset length : ℕ}
    (hapart : offset + length ≤ p.offset ∨ p.offset + p.bytes.length ≤ offset) :
    g.read offset length = f.read offset length :=
  h.program_read hapart

/-- A torn patch leaves every range apart from it. -/
theorem agree (h : f.TornPatch p g) {start stop : ℕ}
    (hapart : stop ≤ p.offset ∨ p.offset + p.bytes.length ≤ start) : f.Agree g start stop :=
  fun _ _ _ => (h.program_of_not_mem (by omega)).symm

/-- A torn patch leaves what is erased apart from it. -/
theorem erased (h : f.TornPatch p g) {offset length : ℕ} (herased : f.Erased offset length)
    (hapart : offset + length ≤ p.offset ∨ p.offset + p.bytes.length ≤ offset) :
    g.Erased offset length :=
  h.program_erased herased hapart

/-- Programming what is programmed already changes nothing. -/
theorem eq_self (h : f.TornPatch p g)
    (hbelow : ∀ i < p.bytes.length, BitsLE (f (p.offset + i)) (p.bytes.getD i 0)) : g = f :=
  h.eq_of_target_eq (Flash.program_eq_self hbelow)

end Flash.TornPatch

namespace CheckedPatch

/-- `P` after a success and `J` after a failure. -/
def Ends (J P : Flash → Prop) : Except err Unit → Flash → Prop
  | .ok _, g => P g
  | .error _, g => J g

/-- From contents with `I`, the patches keep `J` wherever they stop and establish `P` when they
all succeed. -/
def Establishes (φ : Faults) (J I P : Flash → Prop) (cs : List (CheckedPatch ε err)) : Prop :=
  ∀ f, I f → wp φ (fun _ => True) (actAll cs).run (Ends J P) J f

namespace Establishes

variable {J I M P : Flash → Prop} {c : CheckedPatch ε err} {cs ds : List (CheckedPatch ε err)}

/-- No patches establish what holds already. -/
theorem nil (hJ : ∀ f, P f → J f) :
    Establishes φ J P P ([] : List (CheckedPatch ε err)) :=
  fun f hf => wp_pure (fun _ => hJ f hf) hf

/-- A stage of one patch: however it is interrupted `J` holds, and an accepted readback
establishes the next precondition. -/
theorem cons (hJ : ∀ f g, I f → f.TornPatch c.patch g → J g)
    (hM : ∀ f g, I f → f.TornPatch c.patch g →
      c.accepts (g.read c.patch.offset c.patch.bytes.length) = true → M g)
    (hrest : Establishes φ J M P cs) : Establishes φ J I P (c :: cs) := by
  intro f hf
  -- the readback decides, whatever the backend said about the program
  have hjudge : ∀ Q : Except err Unit → Flash → Prop, (∀ g, M g → Q (.ok ()) g) →
      (∀ e g, J g → Q (.error e) g) → ∀ w g, f.TornPatch c.patch g → wp φ (fun _ => True)
        (.read c.patch.offset c.patch.bytes.length fun r => .pure (c.verdict w r)) Q J g := by
    intro Q hok herror w g ht
    have hcut := hJ f g hf ht
    have hfail : ∀ r, c.verdict w r ≠ .ok () → Q (c.verdict w r) g := by
      intro r hr
      cases hverdict : c.verdict w r with
      | ok _ => exact absurd hverdict hr
      | error e => exact herror e g hcut
    apply wp_read fun _ => hcut
    · refine wp_pure (fun _ => hcut) ?_
      by_cases haccepts : c.accepts (g.read c.patch.offset c.patch.bytes.length) = true
      · rw [(c.verdict_ok _ _).mpr ⟨_, rfl, haccepts⟩]
        exact hok g (hM f g hf ht haccepts)
      · refine hfail _ fun hverdict => haccepts ?_
        obtain ⟨bytes, hbytes, haccepts⟩ := (c.verdict_ok _ _).mp hverdict
        rwa [← Except.ok.inj hbytes] at haccepts
    · intro _ e
      refine wp_pure (fun _ => hcut) (hfail _ fun hverdict => ?_)
      obtain ⟨bytes, hbytes, -⟩ := (c.verdict_ok _ _).mp hverdict
      cases hbytes
  rw [actAll]
  apply wp_action_bind
  apply wp_write fun _ _ => trivial
  · exact fun _ g ht => hJ f g hf ht
  · exact hjudge _ (fun g hg => hrest g hg) (fun _ _ hg => hg) _ _ (.finish f _)
  · exact fun _ e g ht => hjudge _ (fun g hg => hrest g hg) (fun _ _ hg => hg) _ g ht

/-- Patches in two groups establish one stage after another. -/
theorem append (h : Establishes φ J I M cs) (h' : Establishes φ J M P ds) :
    Establishes φ J I P (cs ++ ds) := by
  intro f hf
  rw [actAll_append]
  apply wp_action_bind
  refine (h f hf).mono ?_ fun _ hg => hg
  intro r g hr
  cases r with
  | ok _ => exact h' g hr
  | error e => exact hr

/-- A stage may be entered from less and left with less. -/
theorem mono {I' P' : Flash → Prop} (h : Establishes φ J I P cs) (hI : ∀ f, I' f → I f)
    (hP : ∀ f, P f → P' f) : Establishes φ J I' P' cs := by
  intro f hf
  refine (h f (hI f hf)).mono ?_ fun _ hg => hg
  intro r g hr
  cases r with
  | ok _ => exact hP g hr
  | error e => exact hr

/-- Programs that change nothing keep what holds. -/
theorem idle {K : Flash → Prop} (hJ : ∀ f, K f → J f)
    (hidle : ∀ c ∈ cs, ∀ f g, K f → f.TornPatch c.patch g → g = f) :
    Establishes φ J K K cs := by
  induction cs with
  | nil => exact .nil hJ
  | cons c cs ih =>
    have hkept : ∀ f g, K f → f.TornPatch c.patch g → K g := by
      intro f g hf ht
      rw [hidle c List.mem_cons_self f g hf ht]
      exact hf
    exact .cons (fun f g hf ht => hJ g (hkept f g hf ht)) (fun f g hf ht _ => hkept f g hf ht)
      (ih fun d hd => hidle d (List.mem_cons_of_mem c hd))

/-- Stages one after another. -/
theorem flatMap_range {I : ℕ → Flash → Prop} {step : ℕ → List (CheckedPatch ε err)} {n : ℕ}
    (hJ : ∀ f, I 0 f → J f) (h : ∀ k < n, Establishes φ J (I k) (I (k + 1)) (step k)) :
    Establishes φ J (I 0) (I n) ((List.range n).flatMap step) := by
  induction n with
  | zero => exact .nil hJ
  | succ n ih =>
    rw [List.range_succ, List.flatMap_append, List.flatMap_singleton]
    exact (ih fun k hk => h k (by omega)).append (h n (Nat.lt_succ_self n))

/-- Patches whose readbacks are exact, and that later ones do not touch, are there at the end. -/
theorem exact {K : Flash → Prop} (hJ : ∀ f, K f → J f)
    (hK : ∀ c ∈ cs, ∀ f g, K f → f.TornPatch c.patch g → K g)
    (hexact : ∀ c ∈ cs, ∀ bytes, c.accepts bytes = true → bytes = c.patch.bytes)
    (hapart : cs.Pairwise fun c d => c.patch.Apart d.patch) :
    Establishes φ J K (fun g => K g ∧
      ∀ c ∈ cs, g.read c.patch.offset c.patch.bytes.length = c.patch.bytes) cs := by
  suffices hstages : ∀ done rest : List (CheckedPatch ε err), cs = done ++ rest →
      Establishes φ J
        (fun g => K g ∧ ∀ c ∈ done, g.read c.patch.offset c.patch.bytes.length = c.patch.bytes)
        (fun g => K g ∧ ∀ c ∈ cs, g.read c.patch.offset c.patch.bytes.length = c.patch.bytes)
        rest from
    (hstages [] cs rfl).mono (fun f hf => ⟨hf, List.forall_mem_nil _⟩) fun _ hf => hf
  intro done rest
  induction rest generalizing done with
  | nil =>
    intro hcs
    rw [hcs, List.append_nil]
    exact .nil fun f hf => hJ f hf.1
  | cons c rest ih =>
    intro hcs
    have hmem : c ∈ cs := by
      rw [hcs]
      exact List.mem_append_right _ List.mem_cons_self
    have hbefore : ∀ d ∈ done, d.patch.Apart c.patch := by
      rw [hcs] at hapart
      exact fun d hd => (List.pairwise_append.mp hapart).2.2 d hd c List.mem_cons_self
    refine cons (fun f g hf ht => hJ g (hK c hmem f g hf.1 ht)) ?_
      (ih (done ++ [c]) (by rw [hcs, List.append_assoc, List.singleton_append]))
    intro f g hf ht haccepts
    refine ⟨hK c hmem f g hf.1 ht, fun d hd => ?_⟩
    obtain hd | hd := List.mem_append.mp hd
    · rw [ht.read_eq (hbefore d hd)]
      exact hf.2 d hd
    · rw [List.mem_singleton.mp hd]
      exact hexact c hmem _ haccepts

end Establishes

end CheckedPatch

end Nor
