import ReticulumFirmware.Nor.CommitLast

/-!
# Replacing the contents of a range

A record is replaced by erasing its range and running a write script over it. However the
replacement ends, the contents are the old ones, those of an interrupted erase, or interrupted
contents of the script on the erased range.
-/

namespace Nor

variable {ε err : Type}

/-- The last contents of a chain are its first ones or were left by one of its mutations. -/
theorem Mutation.Chain.last {f g : Flash} {tr : List Mutation} (h : Mutation.Chain f tr g) :
    g = f ∨ ∃ m ∈ tr, m.after = g := by
  induction tr generalizing f with
  | nil => exact Or.inl h
  | cons m tr ih =>
    right
    rcases ih h.2 with hlast | ⟨m', hm', hlast⟩
    · exact ⟨m, List.mem_cons_self, hlast.symm⟩
    · exact ⟨m', List.mem_cons_of_mem m hm', hlast⟩

/-- Without failing or interrupted erases, every erase is complete. -/
theorem Prog.Exec.erase_complete {α : Type} {φ : Faults} {p : Prog ε α} {f g : Flash}
    {tr : List Mutation} {r : Option α} (hx : Prog.Exec φ p f tr r g)
    (herror : φ.eraseError = false) (hcut : φ.cutErase = false) :
    ∀ m ∈ tr, m.kind = .erase → m.after = m.before.erase m.start m.stop := by
  induction hx with
  | done | cut => simp
  | read _ ih | readError _ _ _ ih => exact ih
  | write _ ih | writeError _ _ _ _ ih =>
    exact List.forall_mem_cons.mpr ⟨fun h => (by cases h), ih⟩
  | writeCut => exact List.forall_mem_singleton.mpr fun h => by cases h
  | erase _ ih => exact List.forall_mem_cons.mpr ⟨fun _ => rfl, ih⟩
  | eraseError h => simp [herror] at h
  | eraseCut h => simp [hcut] at h

/-- What a script that is written without a check in between leaves, and what each of its
programs leaves. -/
theorem wp_writeAll_guard {φ : Faults} {G : Mutation → Prop} {wrap : ε → err} (ps : List Patch)
    (f : Flash) (hG : ∀ m, m.kind = .program → Trajectory ps f m.after → G m) :
    wp φ G (Action.writeAll wrap ps).run
      (fun r g => match r with
        | .ok _ => g = f.applyAll ps
        | .error _ => φ.writeError = true ∧ Trajectory ps f g)
      (Trajectory ps f) f := by
  induction ps generalizing f with
  | nil => exact wp_pure (fun _ => .done f) rfl
  | cons p ps ih =>
    rw [Action.writeAll]
    apply wp_write_bind fun _ ht => hG _ rfl (.torn ht)
    · exact fun _ g ht => .torn ht
    · have hrest := ih (f.apply p) fun m hm ht => hG m hm (.step ht)
      refine hrest.mono ?_ fun _ hg => .step hg
      intro r g hr
      cases r with
      | ok _ => exact hr
      | error e => exact ⟨hr.1, .step hr.2⟩
    · exact fun hwrite e g ht => ⟨hwrite, .torn ht⟩

/-- The mutations of a replacement of `[start, stop)` by a script. -/
def ReplaceStep (f : Flash) (start stop : ℕ) (ps : List Patch) (m : Mutation) : Prop :=
  (m.kind = .erase ∧ m.start = start ∧ m.stop = stop ∧ m.before = f ∧
    f.Torn (f.erase start stop) m.after) ∨
    (m.kind = .program ∧ Trajectory ps (f.erase start stop) m.after)

/-- Replace `[start, stop)` by a script: erase, check the erased range, write. -/
def Action.replace (wrap : ε → err) (start stop : ℕ) (check : Action ε err Unit)
    (ps : List Patch) : Action ε err Unit := do
  erase wrap start stop
  check
  writeAll wrap ps

/-- A replacement whose check only reads and accepts the erased range makes its mutations only,
and completes the script when it succeeds. -/
theorem wp_replace {φ : Faults} {wrap : ε → err} {start stop : ℕ} {check : Action ε err Unit}
    {ps : List Patch} {f : Flash} (hcheck : Query wrap check.run)
    (haccepts : check.eval (f.erase start stop) = (.ok (), f.erase start stop)) :
    wp φ (ReplaceStep f start stop ps) (Action.replace wrap start stop check ps).run
      (fun r g => match r with
        | .ok _ => g = (f.erase start stop).applyAll ps
        | .error _ => φ.Reporting)
      (fun _ => True) f := by
  rw [Action.replace]
  apply wp_erase_bind fun _ ht => Or.inl ⟨rfl, rfl, rfl, rfl, ht⟩
  · exact fun _ _ => trivial
  · refine hcheck.wp_bind (fun _ => trivial) haccepts ?_ ?_ ?_
    · rintro _ -
      refine (wp_writeAll_guard ps _ fun m hm ht => Or.inr ⟨hm, ht⟩).mono ?_ fun _ _ => trivial
      intro r g hr
      cases r with
      | ok _ => exact hr
      | error _ => exact Or.inr (Or.inl hr.1)
    · rintro e ⟨⟩
    · exact fun hread _ => Or.inl hread
  · exact fun herase _ _ _ => Or.inr (Or.inr herase)

/-- The contents of an interrupted replacement whose erases satisfy `Clean`. -/
inductive Replacing (Clean : Mutation → Prop) (f : Flash) (start stop : ℕ) (ps : List Patch) :
    Flash → Prop
  | unchanged : Replacing Clean f start stop ps f
  | erasing {m : Mutation} (hkind : m.kind = .erase) (hstart : m.start = start)
      (hbefore : m.before = f) (ht : f.Torn (f.erase start stop) m.after) (hclean : Clean m) :
      Replacing Clean f start stop ps m.after
  | writing {g : Flash} (ht : Trajectory ps (f.erase start stop) g) :
      Replacing Clean f start stop ps g

/-- Where a replacement stands is told by its last mutation. -/
theorem Replacing.of_chain {Clean : Mutation → Prop} {f g : Flash} {start stop : ℕ}
    {ps : List Patch} {tr : List Mutation} (hchain : Mutation.Chain f tr g)
    (hsteps : ∀ m ∈ tr, ReplaceStep f start stop ps m) (hclean : ∀ m ∈ tr, Clean m) :
    Replacing Clean f start stop ps g := by
  rcases hchain.last with rfl | ⟨m, hm, rfl⟩
  · exact .unchanged
  · rcases hsteps m hm with ⟨hkind, hstart, -, hbefore, ht⟩ | ⟨-, ht⟩
    · exact .erasing hkind hstart hbefore ht (hclean m hm)
    · exact .writing ht

end Nor
