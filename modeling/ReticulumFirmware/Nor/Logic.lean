import ReticulumFirmware.Nor.Program

/-!
# Reasoning about all executions of a program

`wp φ G p Q C f` says of every execution of `p` from `f` that each mutation it makes
satisfies `G`, that it satisfies `Q` if it returns, and that a power loss leaves
contents that satisfy `C`. The rules below follow the program's structure.
-/

namespace Nor

open Prog

variable {ε α β : Type}

/-- Every mutation satisfies `G`, every returning execution satisfies `Q` and every
interrupted one leaves `C`. -/
def wp (φ : Faults) (G : Mutation → Prop) (p : Prog ε α) (Q : α → Flash → Prop)
    (C : Flash → Prop) (f : Flash) : Prop :=
  ∀ tr r g, Exec φ p f tr r g → (∀ m ∈ tr, G m) ∧ r.elim (C g) (Q · g)

variable {φ : Faults} {G : Mutation → Prop} {C : Flash → Prop} {f g : Flash}

/-- Postconditions and crash conditions may be weakened. -/
theorem wp.mono {p : Prog ε α} {Q Q' : α → Flash → Prop} {C' : Flash → Prop}
    (h : wp φ G p Q C f) (hQ : ∀ a g, Q a g → Q' a g) (hC : ∀ g, C g → C' g) :
    wp φ G p Q' C' f := by
  intro tr r g hx
  obtain ⟨hG, hr⟩ := h tr r g hx
  refine ⟨hG, ?_⟩
  cases r with
  | none => exact hC g hr
  | some a => exact hQ a g hr

/-- A returning execution could also have lost power at its end. -/
theorem wp.and_crash {p : Prog ε α} {Q : α → Flash → Prop} (h : wp φ G p Q C f) :
    wp φ G p (fun a g => Q a g ∧ (φ.cut = true → C g)) C f := by
  intro tr r g hx
  obtain ⟨hG, hr⟩ := h tr r g hx
  refine ⟨hG, ?_⟩
  cases r with
  | none => exact hr
  | some a => exact ⟨hr, fun hcut => (h _ _ _ (hx.crash hcut)).2⟩

/-- The guard on mutations may be weakened. -/
theorem wp.guard {p : Prog ε α} {Q : α → Flash → Prop} {G' : Mutation → Prop}
    (h : wp φ G p Q C f) (hG : ∀ m, G m → G' m) : wp φ G' p Q C f := fun tr r g hx =>
  ⟨fun m hm => hG m ((h tr r g hx).1 m hm), (h tr r g hx).2⟩

/-- A returning execution satisfies the postcondition. -/
theorem wp.returns {p : Prog ε α} {Q : α → Flash → Prop} {tr : List Mutation} {a : α}
    (h : wp φ G p Q C f) (hx : Exec φ p f tr (some a) g) : Q a g := (h _ _ _ hx).2

/-- An interrupted execution satisfies the crash condition. -/
theorem wp.crashes {p : Prog ε α} {Q : α → Flash → Prop} {tr : List Mutation}
    (h : wp φ G p Q C f) (hx : Exec φ p f tr none g) : C g := (h _ _ _ hx).2

/-- The fault-free run satisfies the postcondition. -/
theorem wp.run {p : Prog ε α} {Q : α → Flash → Prop} (h : wp φ G p Q C f) :
    Q (p.run f).1 (p.run f).2 := by
  obtain ⟨_, hx⟩ := exec_run φ p f
  exact h.returns hx

/-- The rule of a value. -/
theorem wp_pure {a : α} {Q : α → Flash → Prop} (hC : φ.cut = true → C f) (hQ : Q a f) :
    wp φ G (.pure a : Prog ε α) Q C f := by
  intro tr r g hx
  cases hx with
  | done => exact ⟨by simp, hQ⟩
  | cut h => exact ⟨by simp, hC h⟩

/-- The rule of a sequence. -/
theorem wp_bind {p : Prog ε α} {next : α → Prog ε β} {Q : β → Flash → Prop}
    (h : wp φ G p (fun a g => wp φ G (next a) Q C g) C f) : wp φ G (p >>= next) Q C f := by
  intro tr r g hx
  rcases hx.bind_cases with ⟨rfl, hfirst⟩ | ⟨a, f', tr₁, tr₂, rfl, hfirst, hrest⟩
  · exact h _ _ _ hfirst
  · obtain ⟨hG₁, hnext⟩ := h _ _ _ hfirst
    obtain ⟨hG₂, hr⟩ := hnext _ _ _ hrest
    refine ⟨fun m hm => ?_, hr⟩
    rcases List.mem_append.mp hm with hm | hm
    · exact hG₁ m hm
    · exact hG₂ m hm

/-- The rule of a read, with its failure. -/
theorem wp_read {offset length : ℕ} {k : Except ε (List Byte) → Prog ε α}
    {Q : α → Flash → Prop} (hC : φ.cut = true → C f)
    (hok : wp φ G (k (.ok (f.read offset length))) Q C f)
    (herror : φ.readError = true → ∀ e, wp φ G (k (.error e)) Q C f) :
    wp φ G (.read offset length k) Q C f := by
  intro tr r g hx
  cases hx with
  | cut h => exact ⟨by simp, hC h⟩
  | read h => exact hok tr r g h
  | readError h e hx => exact herror h e tr r g hx

/-- The rule of a write, with its failure and its cuts. -/
theorem wp_write {offset : ℕ} {bytes : List Byte} {k : Except ε Unit → Prog ε α}
    {Q : α → Flash → Prop}
    (hG : ∀ g, f.Torn (f.program offset bytes) g →
      G ⟨.program, offset, offset + bytes.length, f, g⟩)
    (hC : φ.cut = true → ∀ g, f.Torn (f.program offset bytes) g → C g)
    (hok : wp φ G (k (.ok ())) Q C (f.program offset bytes))
    (herror : φ.writeError = true → ∀ e g, f.Torn (f.program offset bytes) g →
      wp φ G (k (.error e)) Q C g) :
    wp φ G (.write offset bytes k) Q C f := by
  intro tr r g hx
  cases hx with
  | cut h => exact ⟨by simp, hC h f (.start f _)⟩
  | write h =>
    obtain ⟨htr, hr⟩ := hok _ r g h
    exact ⟨List.forall_mem_cons.mpr ⟨hG _ (.finish f _), htr⟩, hr⟩
  | writeError h e htorn hx =>
    obtain ⟨htr, hr⟩ := herror h e _ htorn _ r g hx
    exact ⟨List.forall_mem_cons.mpr ⟨hG _ htorn, htr⟩, hr⟩
  | writeCut h htorn => exact ⟨List.forall_mem_singleton.mpr (hG _ htorn), hC h g htorn⟩

/-- The rule of an erasure, with its failure and its cuts. -/
theorem wp_erase {start stop : ℕ} {k : Except ε Unit → Prog ε α} {Q : α → Flash → Prop}
    (hG : ∀ g, f.Torn (f.erase start stop) g → G ⟨.erase, start, stop, f, g⟩)
    (hC : φ.cut = true → C f)
    (hCerase : φ.cutErase = true → ∀ g, f.Torn (f.erase start stop) g → C g)
    (hok : wp φ G (k (.ok ())) Q C (f.erase start stop))
    (herror : φ.eraseError = true → ∀ e g, f.Torn (f.erase start stop) g →
      wp φ G (k (.error e)) Q C g) :
    wp φ G (.erase start stop k) Q C f := by
  intro tr r g hx
  cases hx with
  | cut h => exact ⟨by simp, hC h⟩
  | erase h =>
    obtain ⟨htr, hr⟩ := hok _ r g h
    exact ⟨List.forall_mem_cons.mpr ⟨hG _ (.finish f _), htr⟩, hr⟩
  | eraseError h e htorn hx =>
    obtain ⟨htr, hr⟩ := herror h e _ htorn _ r g hx
    exact ⟨List.forall_mem_cons.mpr ⟨hG _ htorn, htr⟩, hr⟩
  | eraseCut h htorn => exact ⟨List.forall_mem_singleton.mpr (hG _ htorn), hCerase h g htorn⟩

end Nor
