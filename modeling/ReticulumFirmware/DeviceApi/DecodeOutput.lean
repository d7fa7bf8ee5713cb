import ReticulumFirmware.Codec.CborLengths
import ReticulumFirmware.DeviceApi.DecodeItems

/-!
# What the decoders take back

A decoder takes back the output of an encoder if it reads the value from the front of every input
that begins with the output.
-/

namespace DeviceApi

open Nor (Byte)
open Cbor

namespace Decode

variable {α β σ : Type} {output output' : List Byte}

/-- The decoder takes the output off the front of any input and returns the value. -/
def Takes (decode : Decode α) (output : List Byte) (value : α) : Prop :=
  ∀ tail, decode (output ++ tail) = .ok (value, tail)

/-- A value takes no bytes. -/
theorem Takes.pure (value : α) : Takes (pure value) [] value := fun _ => rfl

/-- A sequence takes the outputs of its parts one after another. -/
theorem Takes.bind {x : Decode α} {f : α → Decode β} {a : α} {b : β} (h : Takes x output a)
    (h' : Takes (f a) output' b) : Takes (x >>= f) (output ++ output') b := by
  intro tail
  rw [List.append_assoc]
  exact bind_eq_ok.mpr ⟨a, output' ++ tail, h _, h' tail⟩

/-- What the last decoder does without taking anything. -/
theorem Takes.bind_nil {x : Decode α} {f : α → Decode β} {a : α} {b : β} (h : Takes x output a)
    (h' : Takes (f a) [] b) : Takes (x >>= f) output b :=
  fun tail => bind_eq_ok.mpr ⟨a, tail, h tail, h' tail⟩

/-- A mapped decoder takes the same output. -/
theorem Takes.map {x : Decode α} {a : α} (h : Takes x output a) (f : α → β) :
    Takes (f <$> x) output (f a) :=
  fun tail => map_eq_ok.mpr ⟨a, h tail, rfl⟩

/-- A value that is there takes no bytes. -/
theorem takes_orFail {value : Option α} {error : DecodeError} {a : α} (h : value = some a) :
    Takes (orFail value error) [] a :=
  fun _ => orFail_eq_ok.mpr ⟨h, rfl⟩

/-- A primitive takes what its reader reads before any tail. -/
theorem takes_primitive {read : List Byte → Option (α × List Byte)} {a : α}
    (h : ∀ tail, read (output ++ tail) = some (a, tail)) : Takes (primitive read) output a :=
  fun tail => primitive_eq_ok.mpr (h tail)

/-- Repetitions in two groups are the groups one after another. -/
theorem times_add (step : σ → Decode σ) (m n : ℕ) (state : σ) :
    times step (m + n) state = times step m state >>= times step n := by
  induction m generalizing state with
  | zero => rw [Nat.zero_add, times, pure_bind]
  | succ m ih =>
    rw [Nat.succ_add, times, times, bind_assoc]
    exact bind_congr fun next => ih next

/-- One repetition takes what the step takes. -/
theorem Takes.step {step : σ → Decode σ} {state after : σ} (h : Takes (step state) output after) :
    Takes (times step 1 state) output after :=
  h.bind_nil (.pure after)

/-- Repetitions in two groups take their outputs one after another. -/
theorem Takes.add {step : σ → Decode σ} {m n : ℕ} {state middle after : σ}
    (h : Takes (times step m state) output middle)
    (h' : Takes (times step n middle) output' after) :
    Takes (times step (m + n) state) (output ++ output') after := by
  rw [times_add]
  exact h.bind h'

end Decode

open Decode

variable {reader : Reader} {writer : Writer} {next : List Byte → Option (Token × List Byte)}
  {output output' : List Byte}

section Helpers

/-- A written number of one byte is taken. -/
theorem takes_u8 (h : reader.Lawful next) (h' : writer.Lawful next) (value : BitVec 8) :
    Takes (primitive reader.u8) (writer.u8 value) value :=
  takes_primitive fun tail => (h.u8 _ _ _).mpr ((h'.u8 value).reads tail)

/-- A written number of two bytes is taken. -/
theorem takes_u16 (h : reader.Lawful next) (h' : writer.Lawful next) (value : BitVec 16) :
    Takes (primitive reader.u16) (writer.u16 value) value :=
  takes_primitive fun tail => (h.u16 _ _ _).mpr ((h'.u16 value).reads tail)

/-- A written number of eight bytes is taken. -/
theorem takes_u64 (h : reader.Lawful next) (h' : writer.Lawful next) (value : BitVec 64) :
    Takes (primitive reader.u64) (writer.u64 value) value :=
  takes_primitive fun tail => (h.u64 _ _ _).mpr ((h'.u64 value).reads tail)

/-- A written signed number is taken. -/
theorem takes_i16 (h : reader.Lawful next) (h' : writer.Lawful next) (value : BitVec 16) :
    Takes (primitive reader.i16) (writer.i16 value) value :=
  takes_primitive fun tail => (h.i16 _ _ _).mpr ((h'.i16 value).reads tail)

/-- A written truth value is taken. -/
theorem takes_bool (h : reader.Lawful next) (h' : writer.Lawful next) (value : Bool) :
    Takes (primitive reader.bool) (writer.bool value) value :=
  takes_primitive fun tail => (h.bool _ _ _).mpr ((h'.bool value).reads tail)

/-- A written byte string is taken. -/
theorem takes_bytes (h : reader.Lawful next) (h' : writer.Lawful next) {content : List Byte}
    (hcontent : content.length < 2 ^ 64) :
    Takes (primitive reader.bytes) (writer.bytes content) content :=
  takes_primitive fun tail => (h.bytes _ _ _).mpr ((h'.bytes content hcontent).reads tail)

/-- Written fixed bytes are taken. -/
theorem takes_fixedBytes (h : reader.Lawful next) (h' : writer.Lawful next) {n : ℕ}
    (hn : n < 2 ^ 64) (field : RequiredField) (bytes : Vector Byte n) :
    Takes (decodeFixedBytes reader n field) (encodeFixedBytes writer bytes) bytes := by
  intro tail
  rw [decodeFixedBytes_eq_ok, h.bytes]
  exact (h'.bytes _ (by rwa [Vector.length_toList])).reads tail

/-- The key of an entry, which the decoder reads as a wider number. -/
theorem takes_key (h : reader.Lawful next) (h' : writer.Lawful next) (key : BitVec 8) :
    Takes (primitive reader.u64) (writer.u8 key) (key.setWidth 64) := by
  refine takes_primitive fun tail => (h.u64 _ _ _).mpr ?_
  have hwide : (key.setWidth 64).toNat = key.toNat := by
    rw [BitVec.toNat_setWidth]
    exact Nat.mod_eq_of_lt (key.isLt.trans (by decide))
  rw [hwide]
  exact (h'.u8 key).reads tail

/-- The written head of a map within the bound is taken. -/
theorem takes_mapLen (h : reader.Lawful next) (h' : writer.Lawful next) {entries : ℕ}
    (hentries : entries ≤ maxMapEntries) :
    Takes (decodeMapLen reader) (writer.map entries) entries := by
  intro tail
  rw [decodeMapLen_eq_ok, h.map]
  exact ⟨(h'.map _ (hentries.trans_lt (by decide))).reads tail, hentries⟩

/-- Fixed bytes are written as their head and their content. -/
theorem length_fixed (h : writer.Lawful next) {n : ℕ} (hn : n < 2 ^ 64) (bytes : Vector Byte n) :
    (encodeFixedBytes writer bytes).length = headLength n + n := by
  rw [encodeFixedBytes, (h.bytes _ (by rwa [Vector.length_toList])).length, Token.width,
    Vector.length_toList]

/-- A field that was not present passes. -/
theorem takes_rejectDuplicate {present : Bool} (field : RequiredField) (h : present = false) :
    Takes (rejectDuplicate present field) [] () :=
  fun _ => rejectDuplicate_eq_ok.mpr ⟨h, rfl⟩

/-- A required field that is present passes. -/
theorem takes_require {α : Type} {value : Option α} {a : α} (field : RequiredField)
    (h : value = some a) : Takes (require value field) [] a :=
  takes_orFail h

end Helpers

section Skips

/-- A written atom is skipped. -/
theorem takes_skipItem_atom (h : reader.Lawful next) {token : Token}
    (hwrites : Writes next output token)
    (htoken : token.IsAtom) (child : Option (Decode Unit)) :
    Takes (skipItem reader child) output () := by
  intro tail
  have hnext := hwrites.reads tail
  have hkind := h.datatype _ _ _ hnext
  unfold skipItem
  refine bind_eq_ok.mpr ⟨token.kind, _, peek_eq_ok.mpr ⟨hkind, rfl⟩, ?_⟩
  have hskip : primitive reader.skip (output ++ tail) = .ok ((), tail) := by
    refine primitive_eq_ok.mpr ((h.skip _ _ ?_).mpr ⟨token, htoken, hnext⟩)
    rw [hkind]
    exact htoken.imp (congrArg some) (congrArg some)
  rcases htoken with hscalar | hnull
  · rw [hscalar]
    exact hskip
  · rw [hnull]
    exact hskip

/-- An item of one token is passed over at every depth. -/
theorem takes_skip_atom (h : reader.Lawful next) {token : Token}
    (hwrites : Writes next output token)
    (htoken : token.IsAtom) (remaining : ℕ) : Takes (skipWithin reader remaining) output () := by
  cases remaining with
  | zero => exact takes_skipItem_atom h hwrites htoken none
  | succ remaining => exact takes_skipItem_atom h hwrites htoken (some _)

/-- Written fixed bytes are skipped. -/
theorem takes_skip_fixedBytes (h : reader.Lawful next) (h' : writer.Lawful next) {n : ℕ}
    (hn : n < 2 ^ 64) (bytes : Vector Byte n) (remaining : ℕ) :
    Takes (skipWithin reader remaining) (encodeFixedBytes writer bytes) () :=
  takes_skip_atom h (h'.bytes _ (by rwa [Vector.length_toList])) (Or.inl rfl) remaining

/-- Pass over the key and the value of an entry. -/
def skipEntry (reader : Reader) (remaining : ℕ) (_ : Unit) : Decode Unit := do
  skipWithin reader remaining
  skipWithin reader remaining

/-- A map is passed over one level above its entries. -/
theorem takes_skip_map (h : reader.Lawful next) (h' : writer.Lawful next) {entries remaining : ℕ}
    (hlength : entries < 2 ^ 64)
    (hentries : Takes (times (skipEntry reader remaining) entries ()) output ()) :
    Takes (skipWithin reader (remaining + 1)) (writer.map entries ++ output) () := by
  intro tail
  rw [List.append_assoc]
  have hnext := (h'.map entries hlength).reads (output ++ tail)
  rw [skipWithin, skipItem]
  refine bind_eq_ok.mpr ⟨.map, _, peek_eq_ok.mpr ⟨h.datatype _ _ _ hnext, rfl⟩, ?_⟩
  refine bind_eq_ok.mpr ⟨_, _, orFail_eq_ok.mpr ⟨rfl, rfl⟩, ?_⟩
  refine bind_eq_ok.mpr ⟨entries, _, definite_eq_ok.mpr ((h.map _ _ _).mpr hnext), ?_⟩
  exact hentries tail

/-- Entries of a map, which a decoder of entries takes and which can be passed over. -/
structure Entries {σ : Type} (reader : Reader) (remaining : ℕ) (step : σ → Decode σ) (count : ℕ)
    (output : List Byte) (state after : σ) : Prop where
  takes : Takes (times step count state) output after
  skips : Takes (times (skipEntry reader remaining) count ()) output ()

namespace Entries

variable {σ α : Type} {remaining m n : ℕ} {step : σ → Decode σ} {state middle after : σ}

/-- One entry is taken as a key and a value, and skipped as two items. -/
theorem entry (h : reader.Lawful next) (h' : writer.Lawful next) {key : BitVec 8}
    {value : List Byte} (htakes : Takes (step state) (writer.u8 key ++ value) after)
    (hskips : Takes (skipWithin reader remaining) value ()) :
    Entries reader remaining step 1 (writer.u8 key ++ value) state after where
  takes := htakes.step
  skips :=
    have hentry : Takes (skipEntry reader remaining ()) (writer.u8 key ++ value) () :=
      (takes_skip_atom h (h'.u8 key) (Or.inl rfl) remaining).bind hskips
    hentry.step

/-- Entries in two groups are taken one group after another. -/
theorem add (hfirst : Entries reader remaining step m output state middle)
    (hsecond : Entries reader remaining step n output' middle after) :
    Entries reader remaining step (m + n) (output ++ output') state after :=
  ⟨hfirst.takes.add hsecond.takes, hfirst.skips.add hsecond.skips⟩

/-- The entry of a field: what the decoder of entries does when it has read its key. -/
theorem field (h : reader.Lawful next) (h' : writer.Lawful next) (key : BitVec 8)
    {value : List Byte} {branch : BitVec 64 → Decode σ} {seen : Bool} {name : RequiredField}
    {decode : Decode α} {a : α} {set : α → σ} (htakes : Takes decode value a)
    (hskips : Takes (skipWithin reader remaining) value ())
    (hstep : step state = primitive reader.u64 >>= branch)
    (hbranch : branch (key.setWidth 64) = do
      rejectDuplicate seen name
      let inner ← decode
      pure (set inner))
    (hseen : seen = false) (hafter : set a = after) :
    Entries reader remaining step 1 (writer.u8 key ++ value) state after := by
  refine entry h h' ?_ hskips
  rw [hstep]
  refine (takes_key h h' key).bind ?_
  rw [hbranch, ← hafter]
  exact (takes_rejectDuplicate name hseen).bind (htakes.bind_nil (.pure _))

/-- An entry for a value that may be absent. -/
theorem present {encode : α → List Byte} (value : Option α) (after : Option α → σ)
    (hnone : after none = state) (hsome : ∀ inner,
      Entries reader remaining step 1 (encode inner) state (after (some inner))) :
    Entries reader remaining step value.isSome.toNat (value.elim [] encode) state
      (after value) := by
  cases value with
  | none =>
    rw [hnone]
    exact ⟨.pure state, .pure ()⟩
  | some inner => exact hsome inner

/-- The decoder of a map takes its length and its entries. -/
theorem takes_map {β : Type} {finish : σ → Decode β} {result : β} (h : reader.Lawful next)
    (h' : writer.Lawful next) (hentries : Entries reader remaining step n output state after)
    (hcount : n ≤ maxMapEntries) (hfinish : Takes (finish after) [] result) :
    Takes (do
      let entries ← decodeMapLen reader
      let fields ← times step entries state
      finish fields) (writer.map n ++ output) result :=
  (takes_mapLen h h' hcount).bind (hentries.takes.bind_nil hfinish)

/-- A written map is skipped where its entries are. -/
theorem skips_map (h : reader.Lawful next) (h' : writer.Lawful next)
    (hentries : Entries reader remaining step n output state after)
    (hcount : n ≤ maxMapEntries) :
    Takes (skipWithin reader (remaining + 1)) (writer.map n ++ output) () :=
  takes_skip_map h h' (hcount.trans_lt (by decide)) hentries.skips

end Entries

end Skips

end DeviceApi
