import ReticulumFirmware.Outbox.Accept

/-!
# Recording receipts

Recording a receipt keeps the invariant of the partition wherever it stops and adds no
record. A receipt is only reported when the marker was read back complete.
-/

namespace Outbox

open Nor

variable {ε : Type} {sha256 : Sha256} {binding : OutboxBinding} {f g : Flash} {frontier : ℕ}

/-- What recording a receipt may do to the partition. -/
structure MarkEffect (sha256 : Sha256) (binding : OutboxBinding) (f g : Flash) : Prop where
  evolves : Evolves sha256 binding f g
  inv : ∃ frontier, StoreInv sha256 binding g frontier
  fresh : ∀ slot < 64, ∀ entry, CommittedAt sha256 binding g slot entry →
    ∃ earlier, CommittedAt sha256 binding f slot earlier

/-- An unchanged partition is an effect. -/
theorem MarkEffect.refl (hinv : StoreInv sha256 binding f frontier) :
    MarkEffect sha256 binding f f :=
  ⟨.refl f, ⟨frontier, hinv⟩, fun _ _ entry h => ⟨entry, h⟩⟩

/-- The delivered marker of a committed record, complete or not. -/
theorem MarkEffect.of_torn {slot : ℕ} {entry : OutboxEntry}
    (hinv : StoreInv sha256 binding f frontier) (hslot : slot < 64)
    (hentry : CommittedAt sha256 binding f slot entry)
    (ht : Flash.Torn f (f.program (slot * 4096 + 832) deliveredMarker) g) :
    MarkEffect sha256 binding f g := by
  obtain ⟨later, hlater, hretained⟩ := hentry.program_delivered ht
  have hsame : SameOutside slot f g := sameOutside_of_torn ht (by omega) (by simp)
  have hback : ∀ slot' entry', CommittedAt sha256 binding g slot' entry' →
      ∃ earlier, CommittedAt sha256 binding f slot' earlier ∧ earlier.Retained entry' := by
    intro slot' entry' hentry'
    by_cases hne : slot' = slot
    · subst hne
      rw [hentry'.unique hlater]
      exact ⟨entry, hentry, hretained⟩
    · exact ⟨entry', (hsame.committedAt_iff hne entry').mp hentry', .refl entry'⟩
  have hevolves : Evolves sha256 binding f g := by
    apply hsame.evolves
    · intro htorn
      have hstate := recordState_eq_committed.mpr hentry
      rw [htorn] at hstate
      cases hstate
    · intro entry' hentry'
      rw [hentry'.unique hentry]
      exact ⟨later, hlater, hretained, fun n hn => ht.program_read (Or.inl (by omega))⟩
  have hfrontier : slot < frontier := by
    by_contra hge
    have hstate := recordState_eq_committed.mpr hentry
    rw [recordState_erased (hinv.erased slot (by omega) hslot)] at hstate
    cases hstate
  refine ⟨hevolves, ⟨frontier, hinv.le,
    fun slot' hslot' => (hinv.used slot' hslot').evolves hevolves,
    fun slot' hle hlt i hi => ?_, fun s hs s' hs' e e' he he' heq => ?_⟩,
    fun slot' _ entry' h => ?_⟩
  · have hin : InRecord slot' (slot' * 4096 + i) := ⟨by omega, by omega⟩
    rw [hsame _ (hin.ne (by omega))]
    exact hinv.erased slot' hle hlt i hi
  · obtain ⟨e₀, he₀, hr⟩ := hback s e he
    obtain ⟨e₀', he₀', hr'⟩ := hback s' e' he'
    exact hinv.unique s hs s' hs' e₀ e₀' he₀ he₀' (by rw [← hr.key_eq, heq, hr'.key_eq])
  · obtain ⟨earlier, hearlier, -⟩ := hback slot' entry' h
    exact ⟨earlier, hearlier⟩

/-- The index with one entry refreshed. -/
theorem Tracks.refresh {current : MountedOutbox} {entry later : OutboxEntry}
    (h : Tracks sha256 binding f current) (hmem : entry ∈ current.entries)
    (hlater : CommittedAt sha256 binding f entry.slot later) :
    Tracks sha256 binding f
      { current with entries := current.entries.replace entry later } := by
  obtain ⟨before, after, hsplit, hnot⟩ := List.eq_append_cons_of_mem hmem
  have hreplace : current.entries.replace entry later = before ++ later :: after := by
    rw [hsplit, List.replace_append_right hnot, List.replace_cons_self]
  have hslot := hlater.entry_spec.1
  refine ⟨h.binding_eq, h.indexLen_eq, h.nextSlot_le, ?_, h.used, fun indexed hindexed => ?_,
    fun slot hs last hlast => ?_⟩
  · simpa using h.length_le
  · simp only [hreplace, List.mem_append, List.mem_cons] at hindexed
    rcases hindexed with hbefore | rfl | hafter
    · exact h.entries indexed (by simp [hsplit, hbefore])
    · rw [hslot]
      exact ⟨(h.entries entry hmem).1, indexed, hlater, .refl indexed⟩
    · exact h.entries indexed (by simp [hsplit, hafter])
  · simp only [hreplace, List.mem_append, List.mem_cons]
    obtain ⟨indexed, hindexed, hindexedSlot, hretained⟩ := h.complete slot hs last hlast
    by_cases heq : slot = entry.slot
    · subst heq
      rw [hlast.unique hlater]
      exact ⟨later, Or.inr (Or.inl rfl), hslot, .refl later⟩
    · refine ⟨indexed, ?_, hindexedSlot, hretained⟩
      rw [hsplit, List.mem_append, List.mem_cons] at hindexed
      rcases hindexed with hbefore | rfl | hafter
      · exact Or.inl hbefore
      · exact absurd hindexedSlot.symm heq
      · exact Or.inr (Or.inr hafter)

/-- What recording a receipt leaves and answers. -/
def MarkPost (sha256 : Sha256) (binding : OutboxBinding) (f : Flash) (r : Outcome ε OutboxEntry)
    (g : Flash) : Prop :=
  MarkEffect sha256 binding f g ∧ Tracks sha256 binding g r.1 ∧
    ∀ entry, r.2 = .ok entry → entry.delivered = true ∧ entry.slot < 64 ∧
      ∃ later, CommittedAt sha256 binding g entry.slot later ∧ entry.Retained later

/-- Reading the record back after the marker was programmed. -/
theorem wp_readBack {φ : Faults} {current : MountedOutbox} {entry : OutboxEntry}
    (heffect : MarkEffect sha256 binding f g) (htracks : Tracks sha256 binding g current)
    (hmem : entry ∈ current.entries) (written : Except ε Unit) :
    wp φ (fun _ => True) (readBack sha256 current entry written)
      (MarkPost sha256 binding f) (MarkEffect sha256 binding f) g := by
  obtain rfl := htracks.binding_eq
  obtain ⟨hslot, -⟩ := htracks.entries entry hmem
  have hslot64 := Nat.lt_of_lt_of_le hslot htracks.nextSlot_le
  unfold readBack
  refine wp_inspectRecord (fun _ => heffect) ?_ fun error =>
    wp_pure (fun _ => heffect) ⟨heffect, htracks, by simp⟩
  cases hstate : recordState sha256 current.binding g entry.slot with
  | none => exact wp_pure (fun _ => heffect) ⟨heffect, htracks, by simp⟩
  | some state =>
    cases state with
    | erased => exact wp_pure (fun _ => heffect) ⟨heffect, htracks, by simp⟩
    | torn => exact wp_pure (fun _ => heffect) ⟨heffect, htracks, by simp⟩
    | committed recovered =>
      have hrecovered := recordState_eq_committed.mp hstate
      simp only [stateAnswer]
      split
      · next hdelivered =>
        refine wp_pure (fun _ => heffect) ⟨heffect, htracks.refresh hmem hrecovered, fun e he => ?_⟩
        cases he
        rw [hrecovered.entry_spec.1]
        exact ⟨hdelivered, hslot64, recovered, hrecovered, .refl recovered⟩
      · exact wp_pure (fun _ => heffect) ⟨heffect, htracks, by simp⟩

/-- Recording a receipt. -/
theorem wp_markDelivered {φ : Faults} {geometry : Geometry} {current : MountedOutbox}
    {entry : OutboxEntry} (htracks : Tracks sha256 binding f current)
    (hinv : StoreInv sha256 binding f frontier) :
    wp φ (fun _ => True) (markDelivered geometry sha256 current entry : Prog ε _)
      (MarkPost sha256 binding f) (MarkEffect sha256 binding f) f := by
  have hrefl : MarkEffect sha256 binding f f := .refl hinv
  obtain rfl := htracks.binding_eq
  unfold markDelivered
  split
  · split
    · next hmem =>
      obtain ⟨hslot, later, hlater, hretained⟩ := htracks.entries entry hmem
      have hslot64 := Nat.lt_of_lt_of_le hslot htracks.nextSlot_le
      split
      · next hdelivered =>
        refine wp_pure (fun _ => hrefl) ⟨hrefl, htracks, fun e he => ?_⟩
        cases he
        exact ⟨hdelivered, hslot64, later, hlater, hretained⟩
      · have hwrite : recordOffset entry.slot deliveredOffset = entry.slot * 4096 + 832 := rfl
        rw [hwrite]
        -- whatever the write answered, the record is read back
        have hback : ∀ (written : Except ε Unit) g, MarkEffect sha256 current.binding f g →
            wp φ (fun _ => True) (readBack sha256 current entry written)
              (MarkPost sha256 current.binding f) (MarkEffect sha256 current.binding f) g :=
          fun written g heffect =>
            wp_readBack heffect (htracks.evolves heffect.evolves) hmem written
        have htorn : ∀ g, Flash.Torn f (f.program (entry.slot * 4096 + 832) deliveredMarker) g →
            MarkEffect sha256 current.binding f g := fun g ht => .of_torn hinv hslot64 hlater ht
        exact wp_write (fun _ _ => trivial) (fun _ => htorn) (hback _ _ (htorn _ (.finish f _)))
          fun _ e g ht => hback _ g (htorn g ht)
    · exact wp_pure (fun _ => hrefl) ⟨hrefl, htracks, by simp⟩
  · exact wp_pure (fun _ => hrefl) ⟨hrefl, htracks, by simp⟩

end Outbox
