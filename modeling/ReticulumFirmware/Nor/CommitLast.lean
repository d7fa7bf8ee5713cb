import ReticulumFirmware.Nor.Script

/-!
# Commit-last records

A record that must appear all at once is written into an erased range, its commit marker
last. Wherever the writing stops, the marker area still covers the marker, and it holds
the marker only when the whole record is there. This file also has the verified program
and the erased-range scan that such writers and their readers use.
-/

namespace Nor

variable {ε err β : Type}

/-- Two adjacent programs are one program of the concatenation. -/
theorem Flash.program_program (f : Flash) (offset : ℕ) (head rest : List Byte) :
    (f.program offset head).program (offset + head.length) rest =
      f.program offset (head ++ rest) := by
  funext a
  by_cases hhead : offset ≤ a ∧ a < offset + head.length
  · rw [Flash.program_of_not_mem (by omega), Flash.program, if_pos hhead, Flash.program,
      if_pos (by rw [List.length_append]; omega), List.getD_eq_getElem?_getD,
      List.getD_eq_getElem?_getD, List.getElem?_append_left (by omega)]
  · have hbefore : f.program offset head a = f a := Flash.program_of_not_mem (by omega)
    by_cases hrest : offset + head.length ≤ a ∧ a < offset + head.length + rest.length
    · rw [Flash.program, if_pos hrest, hbefore, Flash.program,
        if_pos (by rw [List.length_append]; omega), List.getD_eq_getElem?_getD,
        List.getD_eq_getElem?_getD, List.getElem?_append_right (by omega), Nat.sub_sub]
    · rw [Flash.program_of_not_mem (by omega), hbefore,
        Flash.program_of_not_mem (by rw [List.length_append]; omega)]

namespace Trajectory

/-- Interrupted contents are above the contents of the completed script. -/
theorem above {ps : List Patch} {f g : Flash} (h : Trajectory ps f g) (a : ℕ) :
    BitsLE (f.applyAll ps a) (g a) := by
  induction h with
  | done f => exact .refl _
  | @torn p ps f g h =>
    have hrest : BitsLE ((f.apply p).applyAll ps a) (f.apply p a) :=
      (Trajectory.finish ps (f.apply p)).le a
    exact hrest.trans (h.program_between a).1
  | step _ ih => exact ih

/-- Interrupted contents cover whatever the completed script holds. -/
theorem covers {ps : List Patch} {f g : Flash} {offset : ℕ} {bytes : List Byte}
    (h : Trajectory ps f g) (hread : (f.applyAll ps).read offset bytes.length = bytes) :
    g.Covers offset bytes := by
  intro i hi
  have habove := h.above (offset + i)
  rwa [Flash.byte_of_read_eq hread hi] at habove

/-- Contents left by a script whose last patch is a marker over an erased range: the range
covers the marker, and holds it exactly when the script is complete. -/
theorem commitLast {ps : List Patch} {offset : ℕ} {marker : List Byte} {f g : Flash}
    (h : Trajectory (ps ++ [⟨offset, marker⟩]) f g)
    (hps : ∀ p ∈ ps, p.offset + p.bytes.length ≤ offset)
    (herased : f.Erased offset marker.length)
    (hmarker : marker ≠ List.replicate marker.length erasedByte) :
    g.Covers offset marker ∧
      (g.read offset marker.length = marker ↔ g = f.applyAll (ps ++ [⟨offset, marker⟩])) := by
  have hkeeps : ∀ g, Trajectory ps f g → g.Erased offset marker.length := by
    intro g hg i hi
    have heq : g (offset + i) = f (offset + i) := by
      apply hg.eq_of_not_covers
      intro p hp
      have := hps p hp
      unfold Patch.Covers
      omega
    rw [heq]
    exact herased i hi
  have hready : (f.applyAll ps).Erased offset marker.length := hkeeps _ (.finish ps f)
  have hdone : (f.applyAll (ps ++ [⟨offset, marker⟩])).read offset marker.length = marker := by
    rw [Flash.applyAll_append]
    exact Flash.read_program_erased hready
  rcases h.append_cases with hbody | hlast
  · -- the marker has not been started
    have hempty := hkeeps g hbody
    refine ⟨hempty.covers, ?_, ?_⟩
    · intro hread
      rw [hempty.read_eq] at hread
      exact absurd hread.symm hmarker
    · intro heq
      rw [heq]
      exact hdone
  · have htorn : (f.applyAll ps).Torn ((f.applyAll ps).program offset marker) g := by
      cases hlast with
      | torn ht => exact ht
      | step hrest =>
        cases hrest
        exact .finish _ _
    have hcovers := htorn.program_covers hready
    refine ⟨hcovers, ?_, ?_⟩
    · intro hread
      rw [Flash.applyAll_append]
      change g = (f.applyAll ps).program offset marker
      rw [← htorn.program_again]
      symm
      apply Flash.program_eq_self
      intro i hi
      rw [Flash.byte_of_read_eq hread hi]
      exact BitsLE.refl _
    · intro heq
      rw [heq]
      exact hdone

end Trajectory

namespace Action

/-- Program bytes and require that they read back exactly. -/
def writeVerified (wrap : ε → err) (mismatch : err) (offset : ℕ) (bytes : List Byte) :
    Action ε err Unit := do
  write wrap offset bytes
  let readback ← read wrap offset bytes.length
  ensure (readback = bytes) mismatch

/-- Program patches in order, stopping at the first failure. -/
def writeAll (wrap : ε → err) : List Patch → Action ε err Unit
  | [] => pure ()
  | p :: ps => write wrap p.offset p.bytes >>= fun _ => writeAll wrap ps

/-- Whether consecutive chunks from `offset` on are erased. The scan stops at the first chunk
that is not. -/
def chunksErased (wrap : ε → err) : ℕ → List ℕ → Action ε err Bool
  | _, [] => pure true
  | offset, chunk :: chunks => do
    let bytes ← read wrap offset chunk
    if bytes.all (· == erasedByte) then chunksErased wrap (offset + chunk) chunks else pure false

/-- A scan without backend errors answers whether all chunks are erased. -/
theorem eval_chunksErased (wrap : ε → err) (offset : ℕ) (chunks : List ℕ) (f : Flash) :
    (chunksErased wrap offset chunks).eval f =
      (.ok ((f.read offset chunks.sum).all (· == erasedByte)), f) := by
  induction chunks generalizing offset with
  | nil => rfl
  | cons chunk chunks ih =>
    rw [chunksErased, eval_bind_ok (eval_read ..), List.sum_cons, Flash.read_add, List.all_append]
    split
    · next herased => rw [ih, herased, Bool.true_and]
    · next hbad => rw [Bool.eq_false_iff.mpr hbad, Bool.false_and, eval_pure]

/-- A scan only reads. -/
theorem query_chunksErased (wrap : ε → err) (offset : ℕ) (chunks : List ℕ) :
    Query wrap (chunksErased wrap offset chunks).run := by
  induction chunks generalizing offset with
  | nil => exact .pureAction ..
  | cons chunk chunks ih =>
    refine .bind (.readAction ..) fun bytes => ?_
    split
    · exact ih _
    · exact .pureAction ..

/-- The chunk lengths in which a range of this length is read. -/
def chunkLengths (chunk length : ℕ) : List ℕ :=
  List.replicate (length / chunk) chunk ++ if length % chunk = 0 then [] else [length % chunk]

/-- The chunks are as long as what is read. -/
@[simp] theorem sum_chunkLengths (chunk length : ℕ) : (chunkLengths chunk length).sum = length := by
  have hsplit := Nat.div_add_mod' length chunk
  unfold chunkLengths
  split
  · next hzero =>
    rw [List.append_nil, List.sum_replicate_nat]
    omega
  · rw [List.sum_append, List.sum_replicate_nat, List.sum_singleton]
    exact hsplit

/-- Require that consecutive chunks from `offset` on hold the bytes. The comparison stops at the
first chunk that differs. -/
def verifyChunks (wrap : ε → err) (mismatch : err) : ℕ → List Byte → List ℕ → Action ε err Unit
  | _, _, [] => pure ()
  | offset, bytes, chunk :: chunks => do
    let actual ← read wrap offset chunk
    ensure (actual = bytes.take chunk) mismatch
    verifyChunks wrap mismatch (offset + chunk) (bytes.drop chunk) chunks

/-- A comparison without backend errors answers whether the range holds the bytes. -/
theorem eval_verifyChunks (wrap : ε → err) (mismatch : err) (offset : ℕ) (bytes : List Byte)
    (chunks : List ℕ) (f : Flash) (hlength : chunks.sum = bytes.length) :
    (verifyChunks wrap mismatch offset bytes chunks).eval f =
      (if f.read offset bytes.length = bytes then .ok () else .error mismatch, f) := by
  induction chunks generalizing offset bytes with
  | nil =>
    have hnil : bytes = [] := List.eq_nil_of_length_eq_zero hlength.symm
    rw [hnil]
    rfl
  | cons chunk chunks ih =>
    rw [List.sum_cons] at hlength
    have hhead : (f.read offset chunk).length = chunk := Flash.length_read ..
    have hsplit : f.read offset bytes.length = bytes ↔
        f.read offset chunk = bytes.take chunk ∧
          f.read (offset + chunk) (bytes.drop chunk).length = bytes.drop chunk := by
      rw [List.length_drop, show bytes.length - chunk = chunks.sum by omega, ← hlength,
        Flash.read_add]
      conv_lhs => rhs; rw [← List.take_append_drop chunk bytes]
      constructor
      · exact fun h => List.append_inj h (by rw [hhead, List.length_take]; omega)
      · exact fun h => by rw [h.1, h.2]
    rw [verifyChunks, eval_bind_ok (eval_read ..), eval_ensure_bind]
    split
    · next hchunk =>
      rw [ih _ _ (by rw [List.length_drop]; omega)]
      simp only [hsplit, hchunk, true_and]
    · next hchunk => rw [if_neg fun h => hchunk (hsplit.mp h).1]

/-- A comparison only reads. -/
theorem query_verifyChunks (wrap : ε → err) (mismatch : err) (offset : ℕ) (bytes : List Byte)
    (chunks : List ℕ) : Query wrap (verifyChunks wrap mismatch offset bytes chunks).run := by
  induction chunks generalizing offset bytes with
  | nil => exact .pureAction ..
  | cons chunk chunks ih =>
    exact .bind (.readAction ..) fun _ => .bind (.ensureAction ..) fun _ => ih ..

/-- Whether `count` chunks from `offset` on are erased. Every chunk is read. -/
def scanErased (wrap : ε → err) (offset chunk count : ℕ) : Action ε err Bool :=
  (List.range count).foldlM (fun erased i => do
    let bytes ← read wrap (offset + i * chunk) chunk
    pure (erased && bytes.all (· == erasedByte))) true

/-- Chunks are all erased exactly where the whole range is. -/
theorem foldl_erased (f : Flash) (offset chunk count : ℕ) :
    (List.range count).foldl (fun erased i => erased &&
      (f.read (offset + i * chunk) chunk).all (· == erasedByte)) true =
      (f.read offset (count * chunk)).all (· == erasedByte) := by
  induction count with
  | zero => simp [Flash.read]
  | succ count ih =>
    rw [List.range_succ, List.foldl_append, ih, Nat.succ_mul, Flash.read_add, List.all_append,
      List.foldl_cons, List.foldl_nil]

/-- A scan without backend errors answers whether the range is erased. -/
theorem eval_scanErased (wrap : ε → err) (offset chunk count : ℕ) (f : Flash) :
    (scanErased wrap offset chunk count).eval f =
      (.ok ((f.read offset (count * chunk)).all (· == erasedByte)), f) := by
  unfold scanErased
  rw [eval_foldlM (fun _ _ => rfl), foldl_erased]

/-- A scan only reads. -/
theorem query_scanErased (wrap : ε → err) (offset chunk count : ℕ) :
    Query wrap (scanErased wrap offset chunk count).run :=
  .foldlM (fun _ _ => .bind (.readAction ..) fun _ => .pureAction ..) _ _

end Action

/-- The rule for a verified program over an erased range, without backend errors. -/
theorem wp_writeVerified_bind {φ : Faults} {G : Mutation → Prop} {wrap : ε → err} {mismatch : err}
    {offset : ℕ} {bytes : List Byte} {next : Unit → Action ε err β}
    {Q : Except err β → Flash → Prop} {C : Flash → Prop} {f : Flash}
    (hread : φ.readError = false) (hwrite : φ.writeError = false) (hG : ∀ m, G m)
    (hf : f.Erased offset bytes.length)
    (hC : φ.cut = true → ∀ g, f.Torn (f.program offset bytes) g → C g)
    (hok : wp φ G (next ()).run Q C (f.program offset bytes)) :
    wp φ G (Action.writeVerified wrap mismatch offset bytes >>= next).run Q C f := by
  have hcut : φ.cut = true → C (f.program offset bytes) := fun h => hC h _ (.finish f _)
  unfold Action.writeVerified
  simp only [bind_assoc]
  apply wp_write_bind (fun _ _ => hG _) hC
  · apply wp_read_bind hcut
    · apply wp_ensure_bind hcut
      · exact fun _ => hok
      · intro hne
        exact absurd (Flash.read_program_erased hf) hne
    · intro herror
      simp [hread] at herror
  · intro herror
    simp [hwrite] at herror

/-- The rule for a read-only part without backend errors. -/
theorem Query.wp_bind_ok {α : Type} {wrap : ε → err} {x : Action ε err α}
    {next : α → Action ε err β} (hx : Query wrap x.run) {φ : Faults} {G : Mutation → Prop}
    {Q : Except err β → Flash → Prop} {C : Flash → Prop} {f g : Flash} {a : α}
    (hread : φ.readError = false) (hC : φ.cut = true → C f) (heval : x.eval f = (.ok a, g))
    (hok : Nor.wp φ G (next a).run Q C f) : Nor.wp φ G (x >>= next).run Q C f := by
  apply hx.wp_bind hC heval
  · rintro a' ⟨⟩
    exact hok
  · rintro e ⟨⟩
  · intro herror
    simp [hread] at herror

end Nor
