import ReticulumFirmware.Nor.CommitLast
import ReticulumFirmware.Nor.Stages

/-!
# Scripts in pieces

A long script programs one area after the other. If the checks of every piece fit from an erased
area, the checks of the script fit from erased areas. Wherever the script is interrupted, the areas
of the earlier pieces are complete, those of the later ones are erased and one piece is interrupted.
-/

namespace Nor

open Prog

variable {ε err : Type} {f g : Flash}

/-- Contents that cover some bytes cover a slice of them where it stands. -/
theorem Flash.Covers.slice {offset at_ n : ℕ} {bytes : List Byte} (h : f.Covers offset bytes)
    (hn : at_ + n ≤ bytes.length) : f.Covers (offset + at_) (slice bytes at_ n) := by
  intro i hi
  rw [length_slice hn] at hi
  have hbyte := h (at_ + i) (by omega)
  rw [List.getD_eq_getElem?_getD, getElem?_slice hi, ← List.getD_eq_getElem?_getD,
    Nat.add_assoc]
  exact hbyte

namespace CheckedPatch

/-- Checks fit a composed script if they fit its parts and the parts have no common address. -/
theorem Fits.append {cs ds : List (CheckedPatch ε err)} (hcs : Fits cs f)
    (hds : Fits ds (f.applyAll (script cs)))
    (hapart : ∀ c ∈ cs, ∀ d ∈ ds, c.patch.Apart d.patch) : Fits (cs ++ ds) f := by
  induction cs generalizing f with
  | nil => exact hds
  | cons c cs ih =>
    rw [List.forall_mem_cons] at hapart
    obtain ⟨haccept, hexact, hrest⟩ := hcs
    refine ⟨fun g hg => ?_, hexact, ih hrest hds hapart.2⟩
    change Trajectory (script (cs ++ ds)) (f.apply c.patch) g at hg
    rw [script, List.map_append] at hg
    rcases hg.append_cases with hg | hg
    · exact haccept g hg
    · -- the second part leaves the range as the first part left it
      have hkept : g.read c.patch.offset c.patch.bytes.length =
          ((f.apply c.patch).applyAll (script cs)).read c.patch.offset c.patch.bytes.length := by
        refine hg.read_eq fun p hp => ?_
        obtain ⟨d, hd, rfl⟩ := List.mem_map.mp hp
        exact (hapart.1 d hd).symm
      rw [hkept]
      exact haccept _ (.finish _ _)

/-- A check that accepts exactly what its program leaves fits. -/
theorem fits_last {c : CheckedPatch ε err}
    (haccepts : ∀ bytes, c.accepts bytes = true ↔
      bytes = (f.apply c.patch).read c.patch.offset c.patch.bytes.length) : Fits [c] f := by
  refine ⟨fun g hg => ?_, fun g ht hg => ?_, trivial⟩
  · cases hg
    exact (haccepts _).mpr rfl
  · funext a
    by_cases ha : a < c.patch.offset ∨ c.patch.offset + c.patch.bytes.length ≤ a
    · exact (ht.program_of_not_mem ha).trans (Flash.program_of_not_mem ha).symm
    · obtain ⟨i, rfl⟩ := Nat.exists_eq_add_of_le (not_lt.mp (not_or.mp ha).1)
      exact Flash.read_eq_read_iff.mp ((haccepts _).mp hg) i (by omega)

/-- The check accepts the programmed bytes and nothing else. -/
def IsExact (c : CheckedPatch ε err) : Prop :=
  ∀ bytes, c.accepts bytes = true ↔ bytes = c.patch.bytes

/-- Bytes that the contents can take are read back after they are programmed. -/
theorem read_program_of_covers {offset : ℕ} {bytes : List Byte} (h : f.Covers offset bytes) :
    (f.program offset bytes).read offset bytes.length = bytes := by
  refine Flash.read_eq_iff.mpr fun i hi => ?_
  rw [Flash.program_of_mem hi, BitVec.and_comm]
  exact h i hi

/-- Exact checks of programs apart from each other fit contents that cover all of them, and leave
their bytes. -/
theorem fits_exacts {cs : List (CheckedPatch ε err)} (hexact : ∀ c ∈ cs, IsExact c)
    (hapart : cs.Pairwise fun c d => c.patch.Apart d.patch)
    (hcovers : ∀ c ∈ cs, f.Covers c.patch.offset c.patch.bytes) :
    Fits cs f ∧ ∀ c ∈ cs, (f.applyAll (script cs)).read c.patch.offset c.patch.bytes.length =
      c.patch.bytes := by
  induction cs generalizing f with
  | nil => exact ⟨trivial, fun c hc => absurd hc List.not_mem_nil⟩
  | cons c cs ih =>
    rw [List.forall_mem_cons] at hexact hcovers
    rw [List.pairwise_cons] at hapart
    have hread : (f.apply c.patch).read c.patch.offset c.patch.bytes.length = c.patch.bytes :=
      read_program_of_covers hcovers.1
    have hrest : ∀ d ∈ cs, (f.apply c.patch).Covers d.patch.offset d.patch.bytes := by
      intro d hd i hi
      have hcd := hapart.1 d hd
      unfold Patch.Apart at hcd
      rw [Flash.apply, Flash.program_of_not_mem (by omega)]
      exact hcovers.2 d hd i hi
    obtain ⟨hfits, hreads⟩ := ih hexact.2 hapart.2 hrest
    have hfirst : Fits [c] f := fits_last fun bytes => by rw [hexact.1 bytes, hread]
    refine ⟨hfirst.append hfits fun c' hc' d hd => ?_, List.forall_mem_cons.mpr ⟨?_, hreads⟩⟩
    · rw [List.mem_singleton.mp hc']
      exact hapart.1 d hd
    · refine ((Trajectory.finish (script cs) (f.apply c.patch)).read_eq fun p hp => ?_).trans hread
      obtain ⟨d, hd, rfl⟩ := List.mem_map.mp hp
      exact (hapart.1 d hd).symm

end CheckedPatch

/-- A part of a script that programs one erased area to an image. -/
structure Piece (ε err : Type) where
  offset : ℕ
  /-- What the area holds when the piece is complete. -/
  image : List Byte
  patches : List (CheckedPatch ε err)
  inside : ∀ c ∈ patches, offset ≤ c.patch.offset ∧
    c.patch.offset + c.patch.bytes.length ≤ offset + image.length
  fits : ∀ f : Flash, f.Erased offset image.length → CheckedPatch.Fits patches f
  complete : ∀ f : Flash, f.Erased offset image.length →
    (f.applyAll (CheckedPatch.script patches)).read offset image.length = image

namespace Piece

open CheckedPatch

/-- The areas of two pieces have no common address. -/
def Apart (p q : Piece ε err) : Prop :=
  p.offset + p.image.length ≤ q.offset ∨ q.offset + q.image.length ≤ p.offset

/-- The area of a piece holds its image. -/
def Done (g : Flash) (p : Piece ε err) : Prop := g.read p.offset p.image.length = p.image

/-- The area of a piece is erased. -/
def Blank (g : Flash) (p : Piece ε err) : Prop := g.Erased p.offset p.image.length

/-- The script of some pieces. -/
def all (ps : List (Piece ε err)) : List (CheckedPatch ε err) := ps.flatMap patches

/-- The first piece comes before the others. -/
theorem all_cons (p : Piece ε err) (ps : List (Piece ε err)) :
    all (p :: ps) = p.patches ++ all ps := List.flatMap_cons

variable {p q : Piece ε err} {ps : List (Piece ε err)}

/-- The patches of the pieces are those of each. -/
theorem mem_all {c : CheckedPatch ε err} : c ∈ all ps ↔ ∃ q ∈ ps, c ∈ q.patches :=
  List.mem_flatMap

/-- A piece, wherever it is interrupted, keeps what is outside of its area. -/
theorem agree_of_trajectory (h : Trajectory (script p.patches) f g) {start stop : ℕ}
    (hapart : stop ≤ p.offset ∨ p.offset + p.image.length ≤ start) : f.Agree g start stop := by
  intro a hstart hstop
  refine (h.eq_of_not_covers fun patch hpatch => ?_).symm
  obtain ⟨c, hc, rfl⟩ := List.mem_map.mp hpatch
  have hinside := p.inside c hc
  unfold Patch.Covers
  omega

/-- Some pieces, wherever they are interrupted, keep an area apart from theirs. -/
theorem agree_of_trajectory_all (h : Trajectory (script (all ps)) f g)
    (hapart : ∀ q ∈ ps, p.Apart q) : f.Agree g p.offset (p.offset + p.image.length) := by
  intro a hstart hstop
  refine (h.eq_of_not_covers fun patch hpatch => ?_).symm
  obtain ⟨c, hc, rfl⟩ := List.mem_map.mp hpatch
  obtain ⟨q, hq, hc⟩ := mem_all.mp hc
  have hinside := q.inside c hc
  have hqapart := hapart q hq
  unfold Apart at hqapart
  unfold Patch.Covers
  omega

/-- A piece is blank in every flash that agrees on it. -/
theorem Blank.congr (h : p.Blank f) (hagree : f.Agree g p.offset (p.offset + p.image.length)) :
    p.Blank g :=
  Flash.Erased.congr h hagree

/-- A piece is done in every flash that agrees on it. -/
theorem Done.congr (h : p.Done f) (hagree : f.Agree g p.offset (p.offset + p.image.length)) :
    p.Done g :=
  (hagree.read_eq le_rfl le_rfl).symm.trans h

/-- The checks of pieces with erased areas apart from each other fit. -/
theorem fits_all (hapart : ps.Pairwise Apart) (hblank : ∀ p ∈ ps, p.Blank f) :
    Fits (all ps) f := by
  induction ps generalizing f with
  | nil => trivial
  | cons p ps ih =>
    rw [List.pairwise_cons] at hapart
    rw [List.forall_mem_cons] at hblank
    rw [all_cons]
    refine (p.fits f hblank.1).append (ih hapart.2 fun q hq => ?_) fun c hc d hd => ?_
    · exact (hblank.2 q hq).congr (agree_of_trajectory (.finish _ _) (hapart.1 q hq).symm)
    · obtain ⟨q, hq, hd⟩ := mem_all.mp hd
      have hc := p.inside c hc
      have hd := q.inside d hd
      have hpq := hapart.1 q hq
      unfold Apart at hpq
      unfold Patch.Apart
      omega

/-- Where an interrupted script of pieces stands: it is complete, or the earlier pieces are done,
the later ones blank and one is interrupted. -/
inductive Standing (ps : List (Piece ε err)) (g : Flash) : Prop
  | complete (hdone : ∀ q ∈ ps, q.Done g)
  | within {before after : List (Piece ε err)} {p : Piece ε err} {f : Flash}
      (hsplit : ps = before ++ p :: after) (hdone : ∀ q ∈ before, q.Done g)
      (hblank : ∀ q ∈ after, q.Blank g) (hstart : p.Blank f)
      (htorn : Trajectory (script p.patches) f g)

/-- Every interruption of a script of pieces stands somewhere. -/
theorem standing (hapart : ps.Pairwise Apart) (hblank : ∀ p ∈ ps, p.Blank f)
    (h : Trajectory (script (all ps)) f g) : Standing ps g := by
  induction ps generalizing f with
  | nil => exact .complete fun q hq => absurd hq List.not_mem_nil
  | cons p ps ih =>
    rw [List.pairwise_cons] at hapart
    rw [List.forall_mem_cons] at hblank
    rw [all_cons, script, List.map_append] at h
    rcases h.append_cases with h | h
    · refine @Standing.within _ _ _ _ [] _ _ _ rfl (fun q hq => absurd hq List.not_mem_nil)
        (fun q hq => ?_)
        hblank.1 h
      exact (hblank.2 q hq).congr (agree_of_trajectory h (hapart.1 q hq).symm)
    · have hblank' : ∀ q ∈ ps, q.Blank (f.applyAll (script p.patches)) := fun q hq =>
        (hblank.2 q hq).congr (agree_of_trajectory (.finish _ _) (hapart.1 q hq).symm)
      have hfirst : p.Done (f.applyAll (script p.patches)) := p.complete f hblank.1
      have hdone : p.Done g := hfirst.congr (agree_of_trajectory_all h hapart.1)
      cases ih hapart.2 hblank' h with
      | complete hrest => exact .complete (List.forall_mem_cons.mpr ⟨hdone, hrest⟩)
      | @within before after q f' hsplit hbefore hafter hstart htorn =>
        refine @Standing.within _ _ _ _ (p :: before) _ _ _ (by rw [hsplit, List.cons_append])
          (List.forall_mem_cons.mpr ⟨hdone, hbefore⟩) hafter hstart htorn

/-- Where an interrupted script stands, by the position of the interrupted piece. -/
theorem Standing.position (h : Standing ps g) : (∀ q ∈ ps, q.Done g) ∨
    ∃ (k : ℕ) (p : Piece ε err) (f : Flash), ps[k]? = some p ∧
      (∀ i < k, ∀ q : Piece ε err, ps[i]? = some q → q.Done g) ∧
      (∀ i, k < i → ∀ q : Piece ε err, ps[i]? = some q → q.Blank g) ∧ p.Blank f ∧
      Trajectory (script p.patches) f g := by
  cases h with
  | complete hdone => exact .inl hdone
  | @within before after p f hsplit hdone hblank hstart htorn =>
    refine .inr ⟨before.length, p, f, ?_, fun i hi q hq => ?_, fun i hi q hq => ?_, hstart, htorn⟩
    · rw [hsplit, List.getElem?_append_right le_rfl, Nat.sub_self, List.getElem?_cons_zero]
    · rw [hsplit, List.getElem?_append_left hi] at hq
      exact hdone q (List.mem_of_getElem? hq)
    · rw [hsplit, List.getElem?_append_right hi.le, List.getElem?_cons,
        if_neg (Nat.sub_ne_zero_of_lt hi)] at hq
      exact hblank q (List.mem_of_getElem? hq)

/-- Outside of every area nothing is programmed. -/
theorem eq_of_outside (h : Trajectory (script (all ps)) f g) {a : ℕ}
    (ha : ∀ q ∈ ps, a < q.offset ∨ q.offset + q.image.length ≤ a) : g a = f a := by
  refine h.eq_of_not_covers fun patch hpatch => ?_
  obtain ⟨c, hc, rfl⟩ := List.mem_map.mp hpatch
  obtain ⟨q, hq, hc⟩ := mem_all.mp hc
  have hinside := q.inside c hc
  have houtside := ha q hq
  unfold Patch.Covers
  omega

/-- A complete script of pieces stands at its end. -/
theorem done_of_complete (hapart : ps.Pairwise Apart) (hblank : ∀ p ∈ ps, p.Blank f) :
    ∀ q ∈ ps, q.Done (f.applyAll (script (all ps))) := by
  induction ps generalizing f with
  | nil => exact fun q hq => absurd hq List.not_mem_nil
  | cons p ps ih =>
    rw [List.pairwise_cons] at hapart
    rw [List.forall_mem_cons] at hblank
    rw [all_cons, script, List.map_append, Flash.applyAll_append, List.forall_mem_cons]
    have hfirst : p.Done (f.applyAll (script p.patches)) := p.complete f hblank.1
    refine ⟨hfirst.congr (agree_of_trajectory_all (.finish _ _) hapart.1), ih hapart.2 ?_⟩
    exact fun q hq => (hblank.2 q hq).congr
      (agree_of_trajectory (.finish _ _) (hapart.1 q hq).symm)

/-- An interrupted piece covers its image. -/
theorem covers_of_trajectory (hblank : p.Blank f) (h : Trajectory (script p.patches) f g) :
    g.Covers p.offset p.image :=
  h.covers (p.complete f hblank)

end Piece

end Nor
