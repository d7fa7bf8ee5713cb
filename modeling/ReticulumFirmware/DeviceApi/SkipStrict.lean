import ReticulumFirmware.Codec.CborBytes
import ReticulumFirmware.DeviceApi.DecodeItems

/-!
# Passing over what is not known

A decoder passes over the values of keys that it does not know. What it passes over is one
complete item of definite length, and the nesting of the input bounds the recursion.
-/

namespace DeviceApi

open Nor (Byte)
open Cbor
open Decode

variable {reader : Reader} {next : List Byte → Option (Token × List Byte)}
  {input rest : List Byte}

section Items

/-- To repeat a step in pairs is to repeat it twice as often. -/
theorem times_pair (step : Decode Unit) (count : ℕ) :
    times (fun _ => do step; step) count () = times (fun _ => step) (2 * count) () := by
  induction count with
  | zero => rfl
  | succ count ih =>
    change ((step >>= fun _ => step) >>= fun _ => times (fun _ => do step; step) count ()) =
      (step >>= fun _ => step >>= fun _ => times (fun _ => step) (2 * count) ())
    rw [bind_assoc, ih]

/-- Repetitions succeed when the first one does and then the others. -/
theorem times_eq_ok_of_cons {step : Decode Unit} {count : ℕ} {middle : List Byte}
    (hfirst : step input = .ok ((), middle))
    (hrest : times (fun _ => step) count () middle = .ok ((), rest)) :
    times (fun _ => step) (count + 1) () input = .ok ((), rest) :=
  bind_eq_ok.mpr ⟨(), middle, hfirst, hrest⟩

/-- An atom is skipped at every depth. -/
theorem skipWithin_atom (h : reader.Lawful next) {token : Token} (remaining : ℕ)
    (hnext : next input = some (token, rest)) (htoken : token.IsAtom) :
    skipWithin reader remaining input = .ok ((), rest) := by
  have hkind := h.datatype _ _ _ hnext
  have hskip : primitive reader.skip input = .ok ((), rest) := by
    refine primitive_eq_ok.mpr ((h.skip _ _ ?_).mpr ⟨token, htoken, hnext⟩)
    rw [hkind]
    exact htoken.imp (congrArg some) (congrArg some)
  -- the child is not looked at
  cases remaining <;>
  · rw [skipWithin, skipItem, bind_eq_ok]
    refine ⟨token.kind, input, peek_eq_ok.mpr ⟨hkind, rfl⟩, ?_⟩
    rcases htoken with hscalar | hnull
    · rw [hscalar]
      exact hskip
    · rw [hnull]
      exact hskip

/-- An array is skipped where its items are, one level deeper. -/
theorem skipWithin_array (h : reader.Lawful next) {length remaining : ℕ} {body : List Byte}
    (hnext : next input = some (.array length, body))
    (hbody : times (fun _ => skipWithin reader remaining) length () body = .ok ((), rest)) :
    skipWithin reader (remaining + 1) input = .ok ((), rest) := by
  have hkind := peek_eq_ok.mpr ⟨h.datatype _ _ _ hnext, rfl⟩
  have hlength := definite_eq_ok.mpr ((h.array _ _ _).mpr hnext)
  rw [skipWithin, skipItem, bind_eq_ok]
  exact ⟨.array, input, hkind, bind_eq_ok.mpr ⟨_, input, orFail_eq_ok.mpr ⟨rfl, rfl⟩,
    bind_eq_ok.mpr ⟨length, body, hlength, hbody⟩⟩⟩

/-- A map is skipped where its keys and values are, one level deeper. -/
theorem skipWithin_map (h : reader.Lawful next) {length remaining : ℕ} {body : List Byte}
    (hnext : next input = some (.map length, body))
    (hbody : times (fun _ => skipWithin reader remaining) (2 * length) () body = .ok ((), rest)) :
    skipWithin reader (remaining + 1) input = .ok ((), rest) := by
  have hkind := peek_eq_ok.mpr ⟨h.datatype _ _ _ hnext, rfl⟩
  have hlength := definite_eq_ok.mpr ((h.map _ _ _).mpr hnext)
  rw [← times_pair] at hbody
  rw [skipWithin, skipItem, bind_eq_ok]
  exact ⟨.map, input, hkind, bind_eq_ok.mpr ⟨_, input, orFail_eq_ok.mpr ⟨rfl, rfl⟩,
    bind_eq_ok.mpr ⟨length, body, hlength, hbody⟩⟩⟩

/-- A tag is skipped where its item is, one level deeper. -/
theorem skipWithin_tag (h : reader.Lawful next) {value remaining : ℕ} {body : List Byte}
    (hnext : next input = some (.tag value, body))
    (hbody : skipWithin reader remaining body = .ok ((), rest)) :
    skipWithin reader (remaining + 1) input = .ok ((), rest) := by
  have hkind := peek_eq_ok.mpr ⟨h.datatype _ _ _ hnext, rfl⟩
  have htag := primitive_eq_ok.mpr ((h.tag _ _ _).mpr hnext)
  rw [skipWithin, skipItem, bind_eq_ok]
  exact ⟨.tag, input, hkind, bind_eq_ok.mpr ⟨_, input, orFail_eq_ok.mpr ⟨rfl, rfl⟩,
    bind_eq_ok.mpr ⟨value, body, htag, hbody⟩⟩⟩

/-- Items that are not nested too deep are passed over, one after the other. -/
theorem skips_of_reads (h : reader.Lawful next) {items : List Item} {remaining : ℕ}
    (hreads : Reads next input items rest) (hdepth : Item.depths items ≤ remaining) :
    times (fun _ => skipWithin reader remaining) items.length () input = .ok ((), rest) := by
  induction hreads generalizing remaining with
  | nil => rfl
  | atom hnext htoken _ ih =>
    rw [Item.depths, max_le_iff] at hdepth
    exact times_eq_ok_of_cons (skipWithin_atom h remaining hnext htoken) (ih hdepth.2)
  | array hnext _ _ ihbody ih =>
    rw [Item.depths, max_le_iff, Item.depth] at hdepth
    obtain ⟨level, rfl⟩ : ∃ level, remaining = level + 1 := ⟨remaining - 1, by omega⟩
    have hbody := @ihbody level (by omega)
    exact times_eq_ok_of_cons (skipWithin_array h hnext hbody) (ih hdepth.2)
  | map hnext _ _ ihbody ih =>
    rw [Item.depths, max_le_iff, Item.depth, ← Item.depths_interleave] at hdepth
    obtain ⟨level, rfl⟩ : ∃ level, remaining = level + 1 := ⟨remaining - 1, by omega⟩
    have hbody := @ihbody level (by omega)
    rw [Item.length_interleave] at hbody
    exact times_eq_ok_of_cons (skipWithin_map h hnext hbody) (ih hdepth.2)
  | tag hnext _ _ ihbody ih =>
    rw [Item.depths, max_le_iff, Item.depth, ← Item.depths_singleton] at hdepth
    obtain ⟨level, rfl⟩ : ∃ level, remaining = level + 1 := ⟨remaining - 1, by omega⟩
    obtain ⟨_, middle, hfirst, hlast⟩ := bind_eq_ok.mp (@ihbody level (by omega))
    obtain ⟨-, rfl⟩ := pure_eq_ok.mp hlast
    exact times_eq_ok_of_cons (skipWithin_tag h hnext hfirst) (ih hdepth.2)

/-- A skip passes exactly the items that are no deeper than allowed. -/
theorem skipWithin_eq_ok (h : reader.Lawful next) {remaining : ℕ} :
    skipWithin reader remaining input = .ok ((), rest) ↔
      ∃ item : Item, item.depth ≤ remaining ∧ Reads next input [item] rest := by
  refine ⟨reads_skipWithin h, ?_⟩
  rintro ⟨item, hdepth, hreads⟩
  obtain ⟨_, middle, hfirst, hlast⟩ :=
    bind_eq_ok.mp (skips_of_reads h hreads (Item.depths_singleton item ▸ hdepth))
  obtain ⟨-, rfl⟩ := pure_eq_ok.mp hlast
  exact hfirst

end Items

section Frames

/-- A decoder that may run out of stack frames, and then has no result. -/
abbrev Stacked (α : Type) := StateT (List Byte) (ExceptT DecodeError Option) α

namespace Stacked

variable {α β : Type}

/-- A decoder that needs no frames. -/
def lift (decode : Decode α) : Stacked α := fun input => ExceptT.mk (some (decode input))

/-- A step, made a number of times. -/
def times (step : Stacked Unit) : ℕ → Stacked Unit
  | 0 => pure ()
  | count + 1 => do
    step
    times step count

/-- A lifted sequence is the sequence of the lifted parts. -/
theorem lift_bind (x : Decode α) (f : α → Decode β) :
    lift (x >>= f) = (lift x >>= fun a => lift (f a)) := by
  funext input
  change ExceptT.mk (some (x input >>= fun result => f result.1 result.2)) =
    (ExceptT.mk (some (x input)) >>= fun result => ExceptT.mk (some (f result.1 result.2)))
  cases x input <;> rfl

/-- Lifted repetitions are repetitions of the lifted step. -/
theorem lift_times (step : Decode Unit) (count : ℕ) :
    lift (Decode.times (fun _ => step) count ()) = times (lift step) count := by
  induction count with
  | zero => rfl
  | succ count ih =>
    change lift (step >>= fun _ => Decode.times (fun _ => step) count ()) = _
    rw [lift_bind, ih]
    rfl

end Stacked

/-- The depth inside an array, a map or a tag. -/
def enterNesting (depth : ℕ) : Decode ℕ :=
  let actual := depth + 1
  if maxCborNestingDepth < actual then fail (.nestingTooDeep actual maxCborNestingDepth)
  else pure actual

variable (reader)

/-- `skipStrict` call by call, each in one of the frames that are left. -/
def skipFrames : ℕ → ℕ → Stacked Unit
  | 0, _ => fun _ => ExceptT.mk none
  | frames + 1, depth => do
    let kind ← Stacked.lift (peek reader)
    match kind with
    | .indefinite => Stacked.lift (fail .indefiniteLength)
    | .array => do
      let childDepth ← Stacked.lift (enterNesting depth)
      let entries ← Stacked.lift (definite reader.array)
      Stacked.times (skipFrames frames childDepth) entries
    | .map => do
      let childDepth ← Stacked.lift (enterNesting depth)
      let entries ← Stacked.lift (definite reader.map)
      Stacked.times (do skipFrames frames childDepth; skipFrames frames childDepth) entries
    | .tag => do
      let childDepth ← Stacked.lift (enterNesting depth)
      let _ ← Stacked.lift (primitive reader.tag)
      skipFrames frames childDepth
    | .invalid => Stacked.lift (fail .malformed)
    | .null | .scalar => Stacked.lift (primitive reader.skip)

variable {reader}

/-- Below the nesting limit a skip passes one item with its children one level deeper. -/
theorem skipStrict_eq {depth : ℕ} (hdepth : depth < maxCborNestingDepth) :
    skipStrict reader depth = skipItem reader (some (skipStrict reader (depth + 1))) := by
  unfold skipStrict
  rw [show maxCborNestingDepth - depth = maxCborNestingDepth - (depth + 1) + 1 by omega]
  rfl

/-- Below the nesting limit one level is entered. -/
theorem enterNesting_of_lt {depth : ℕ} (hdepth : depth < maxCborNestingDepth) :
    enterNesting depth = pure (depth + 1) :=
  if_neg (by omega)

/-- A frame for each depth is enough. -/
theorem skipFrames_eq {frames depth : ℕ} (h : depth + frames = maxCborNestingDepth) :
    skipFrames reader (frames + 1) depth = Stacked.lift (skipStrict reader depth) := by
  induction frames generalizing depth with
  | zero =>
    obtain rfl : depth = maxCborNestingDepth := h
    have hlast : skipStrict reader maxCborNestingDepth = skipItem reader none := rfl
    rw [hlast, skipItem, Stacked.lift_bind, skipFrames]
    congr 1
    funext kind
    cases kind <;> rfl
  | succ frames ih =>
    have hlt : depth < maxCborNestingDepth := by omega
    have hchild := @ih (depth + 1) (by omega)
    rw [skipStrict_eq hlt, skipItem, Stacked.lift_bind, skipFrames]
    congr 1
    funext kind
    cases kind with
    | indefinite | invalid | null | scalar => rfl
    | array =>
      dsimp only
      rw [enterNesting_of_lt hlt, orFail, pure_bind, Stacked.lift_bind]
      simp only [Stacked.lift_times, ← hchild]
      rfl
    | map =>
      dsimp only
      rw [enterNesting_of_lt hlt, orFail, pure_bind, Stacked.lift_bind]
      simp only [Stacked.lift_times, Stacked.lift_bind, ← hchild]
      rfl
    | tag =>
      dsimp only
      rw [enterNesting_of_lt hlt, orFail, pure_bind, Stacked.lift_bind]
      simp only [← hchild]
      rfl

end Frames

section Strict

/-- The strict skip passes exactly the items within the nesting limit. -/
theorem skipStrict_eq_ok (h : reader.Lawful next) :
    skipStrict reader 0 input = .ok ((), rest) ↔
      ∃ item : Item, item.depth ≤ maxCborNestingDepth ∧ Reads next input [item] rest :=
  skipWithin_eq_ok h

/-- Where no item within the nesting limit starts, the strict skip fails. -/
theorem skipStrict_fails (h : reader.Lawful next)
    (hnone : ∀ (item : Item) (rest : List Byte), Reads next input [item] rest →
      maxCborNestingDepth < item.depth) :
    ∃ error, skipStrict reader 0 input = .error error := by
  cases hskip : skipStrict reader 0 input with
  | error error => exact ⟨error, rfl⟩
  | ok result =>
    obtain ⟨item, hdepth, hreads⟩ := (skipStrict_eq_ok h).mp hskip
    exact absurd hdepth (hnone item _ hreads).not_ge

/-- An indefinite length is refused as such at every depth. -/
theorem skipStrict_indefinite (h : reader.Lawful next)
    (hnext : next input = some (.indefinite, rest)) (depth : ℕ) :
    skipStrict reader depth input = .error .indefiniteLength := by
  have hkind := h.datatype _ _ _ hnext
  unfold skipStrict
  cases maxCborNestingDepth - depth <;>
  · rw [skipWithin, skipItem]
    change (peek reader input >>= _) = _
    rw [peek, hkind]
    rfl

/-- What does not start an item: nothing that is a token, or the end of an indefinite one. -/
def StartsNoItem (next : List Byte → Option (Token × List Byte)) (input : List Byte) : Prop :=
  next input = none ∨ ∃ rest, next input = some (.stop, rest)

/-- No item is read where none starts. -/
theorem StartsNoItem.not_reads (hstart : StartsNoItem next input) {item : Item}
    (hreads : Reads next input [item] rest) : False := by
  rcases hstart with hnone | ⟨rest', hstop⟩
  · cases hreads with
    | atom hnext | array hnext | map hnext | tag hnext => cases hnone.symm.trans hnext
  · cases hreads with
    | atom hnext htoken =>
      cases hstop.symm.trans hnext
      rcases htoken with h | h <;> cases h
    | array hnext | map hnext | tag hnext => cases hstop.symm.trans hnext

/-- Strict skipping passes over exactly one item of definite length that is nested at most eight
levels deep, rejects everything else, and never has more than eight calls inside the first. -/
theorem skipStrict_passes_item (h : reader.Lawful next) (input : List Byte) :
    (∀ rest, skipStrict reader 0 input = .ok ((), rest) ↔
      ∃ item : Item, item.depth ≤ maxCborNestingDepth ∧ Reads next input [item] rest) ∧
    ((∀ (item : Item) (rest : List Byte), Reads next input [item] rest →
      maxCborNestingDepth < item.depth) → ∃ error, skipStrict reader 0 input = .error error) ∧
    (∀ rest, next input = some (.indefinite, rest) →
      skipStrict reader 0 input = .error .indefiniteLength) ∧
    (StartsNoItem next input → ∃ error, skipStrict reader 0 input = .error error) ∧
    skipFrames reader (maxCborNestingDepth + 1) 0 input =
      ExceptT.mk (some (skipStrict reader 0 input)) := by
  refine ⟨fun rest => skipStrict_eq_ok h, skipStrict_fails h,
    fun rest hnext => skipStrict_indefinite h hnext 0, fun hstart => ?_, ?_⟩
  · exact skipStrict_fails h fun item rest hreads => (hstart.not_reads hreads).elim
  · exact congrFun (skipFrames_eq rfl) input

/-- A pair with a map is passed, and inputs that hold no item are not. -/
theorem skipStrict_passes_pair :
    (∃ item : Item, item.depth ≤ maxCborNestingDepth ∧
      Reads nextToken [0x82, 0x01, 0xa1, 0x02, 0xf6, 0x07] [item] [0x07]) ∧
    (∃ error, skipStrict byteReader 0 [0x82, 0x1c, 0x01] = .error error) ∧
    (∃ error, skipStrict byteReader 0 [0x58] = .error error) ∧
    skipStrict byteReader 0 [0x5f, 0x41, 0x00, 0xff] = .error .indefiniteLength :=
  ⟨((skipStrict_passes_item byteReader_lawful _).1 _).mp rfl, ⟨.malformed, rfl⟩,
    (skipStrict_passes_item byteReader_lawful _).2.2.2.1 (.inl rfl),
    (skipStrict_passes_item byteReader_lawful _).2.2.1 _ rfl⟩

end Strict

end DeviceApi
