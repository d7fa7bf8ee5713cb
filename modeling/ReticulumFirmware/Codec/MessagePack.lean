import ReticulumFirmware.Nor.Bytes
import Mathlib.Algebra.BigOperators.Group.List.Basic
import Mathlib.Tactic.IntervalCases

/-!
# MessagePack

The values of MessagePack, the byte strings that encode them, and the shortest of these. The
grammar is a relation on its own: it names no decoder, so that a decoder can be compared with it.
-/

namespace MessagePack

open Nor

/-- A decoded value. The bytes of a string are kept as they are. -/
inductive Value where
  | nil
  | bool (value : Bool)
  | int (value : ℤ)
  | float32 (bits : BitVec 32)
  | float64 (bits : BitVec 64)
  | str (text : List Byte)
  | bin (bytes : List Byte)
  | ext (type : Byte) (bytes : List Byte)
  | array (items : List Value)
  | map (entries : List (Value × Value))

namespace Value

variable {α : Type*}

mutual

/-- Recursion over a value, its items and its entries. -/
def fold (scalar : Value → α) (array : List α → α) (map : List (α × α) → α) : Value → α
  | .array items => array (foldItems scalar array map items)
  | .map entries => map (foldEntries scalar array map entries)
  | value => scalar value

/-- The results for the items of an array. -/
def foldItems (scalar : Value → α) (array : List α → α) (map : List (α × α) → α) :
    List Value → List α
  | [] => []
  | item :: items => fold scalar array map item :: foldItems scalar array map items

/-- The results for the entries of a map. -/
def foldEntries (scalar : Value → α) (array : List α → α) (map : List (α × α) → α) :
    List (Value × Value) → List (α × α)
  | [] => []
  | entry :: entries =>
    foldEntry scalar array map entry :: foldEntries scalar array map entries

/-- The results for the key and the value of an entry. -/
def foldEntry (scalar : Value → α) (array : List α → α) (map : List (α × α) → α) :
    Value × Value → α × α
  | (key, value) => (fold scalar array map key, fold scalar array map value)

end

variable {scalar : Value → α} {array : List α → α} {map : List (α × α) → α}

/-- The items of an array are folded one by one. -/
theorem foldItems_eq (items : List Value) :
    foldItems scalar array map items = items.map (fold scalar array map) := by
  induction items with
  | nil => rfl
  | cons item items ih => rw [foldItems, ih, List.map_cons]

/-- The entries of a map are folded one by one, key and value. -/
theorem foldEntries_eq (entries : List (Value × Value)) :
    foldEntries scalar array map entries =
      entries.map (Prod.map (fold scalar array map) (fold scalar array map)) := by
  induction entries with
  | nil => rfl
  | cons entry entries ih =>
    obtain ⟨key, value⟩ := entry
    rw [foldEntries, ih, List.map_cons, foldEntry, Prod.map_apply]

/-- An array is folded after its items. -/
@[simp] theorem fold_array (items : List Value) :
    fold scalar array map (.array items) = array (items.map (fold scalar array map)) := by
  rw [fold, foldItems_eq]

/-- A map is folded after its entries. -/
@[simp] theorem fold_map (entries : List (Value × Value)) :
    fold scalar array map (.map entries) =
      map (entries.map (Prod.map (fold scalar array map) (fold scalar array map))) := by
  rw [fold, foldEntries_eq]

end Value

/-- What the first bytes of a value announce: a whole scalar, or the size of what follows. -/
inductive Head where
  | nil
  | bool (value : Bool)
  | int (value : ℤ)
  | float32 (bits : BitVec 32)
  | float64 (bits : BitVec 64)
  | str (length : ℕ)
  | bin (length : ℕ)
  | ext (length : ℕ)
  | array (count : ℕ)
  | map (count : ℕ)
  deriving DecidableEq

/-- The head of a value. -/
def Value.head : Value → Head
  | .nil => .nil
  | .bool value => .bool value
  | .int value => .int value
  | .float32 bits => .float32 bits
  | .float64 bits => .float64 bits
  | .str text => .str text.length
  | .bin bytes => .bin bytes.length
  | .ext _ bytes => .ext bytes.length
  | .array items => .array items.length
  | .map entries => .map entries.length

/-- A marker of a family, followed by a big-endian argument of `2 ^ k` bytes. -/
def tagged (marker k n : ℕ) : List Byte := BitVec.ofNat 8 (marker + k) :: beBytes (2 ^ k) n

/-- The number of arguments of `2 ^ k` bytes. -/
abbrev range (k : ℕ) : ℕ := 256 ^ 2 ^ k

/-- The byte strings that announce a head. -/
inductive Head.Form : Head → List Byte → Prop where
  | nil : Form .nil [0xc0]
  | bool (value : Bool) : Form (.bool value) [if value then 0xc3 else 0xc2]
  | fixint {word : Byte} (h : -32 ≤ word.toInt) : Form (.int word.toInt) [word]
  | uint {k n : ℕ} (hk : k ≤ 3) (hn : n < range k) : Form (.int n) (tagged 0xcc k n)
  | sint {k n : ℕ} (hk : k ≤ 3) (hn : n < range k) :
      Form (.int (Int.bmod n (range k))) (tagged 0xd0 k n)
  | float32 (bits : BitVec 32) : Form (.float32 bits) (0xca :: beBytes 4 bits.toNat)
  | float64 (bits : BitVec 64) : Form (.float64 bits) (0xcb :: beBytes 8 bits.toNat)
  | fixstr {n : ℕ} (hn : n < 32) : Form (.str n) [BitVec.ofNat 8 (0xa0 + n)]
  | str {k n : ℕ} (hk : k ≤ 2) (hn : n < range k) : Form (.str n) (tagged 0xd9 k n)
  | bin {k n : ℕ} (hk : k ≤ 2) (hn : n < range k) : Form (.bin n) (tagged 0xc4 k n)
  | fixext {k : ℕ} (hk : k ≤ 4) : Form (.ext (2 ^ k)) [BitVec.ofNat 8 (0xd4 + k)]
  | ext {k n : ℕ} (hk : k ≤ 2) (hn : n < range k) : Form (.ext n) (tagged 0xc7 k n)
  | fixarray {n : ℕ} (hn : n < 16) : Form (.array n) [BitVec.ofNat 8 (0x90 + n)]
  | array {k n : ℕ} (hlow : 1 ≤ k) (hk : k ≤ 2) (hn : n < range k) :
      Form (.array n) (tagged 0xdb k n)
  | fixmap {n : ℕ} (hn : n < 16) : Form (.map n) [BitVec.ofNat 8 (0x80 + n)]
  | map {k n : ℕ} (hlow : 1 ≤ k) (hk : k ≤ 2) (hn : n < range k) : Form (.map n) (tagged 0xdd k n)

/-- The width exponent of the smallest argument that holds a number. -/
def exponent (n : ℕ) : ℕ :=
  if n < range 0 then 0 else if n < range 1 then 1 else if n < range 2 then 2 else 3

/-- The width exponent of the smallest two's-complement argument that holds a negative number. -/
def signedExponent (value : ℤ) : ℕ :=
  if -2 ^ 7 ≤ value then 0 else if -2 ^ 15 ≤ value then 1 else if -2 ^ 31 ≤ value then 2 else 3

/-- The shortest bytes of an integer. A number that is not negative is written unsigned. -/
def shortestInt (value : ℤ) : List Byte :=
  if -32 ≤ value ∧ value < 128 then [BitVec.ofInt 8 value]
  else if 0 ≤ value then tagged 0xcc (exponent value.toNat) value.toNat
  else tagged 0xd0 (signedExponent value) (value + range (signedExponent value)).toNat

/-- The shortest bytes of an extension head. -/
def shortestExt (n : ℕ) : List Byte :=
  if n ∈ [1, 2, 4, 8, 16] then [BitVec.ofNat 8 (0xd4 + n.log2)] else tagged 0xc7 (exponent n) n

/-- The shortest bytes of a head. A decoder has one type of floating-point numbers, so that a
binary32 is written back as the binary64 it was widened to. -/
def Head.shortest (widen : BitVec 32 → BitVec 64) : Head → List Byte
  | .nil => [0xc0]
  | .bool value => [if value then 0xc3 else 0xc2]
  | .int value => shortestInt value
  | .float32 bits => 0xcb :: beBytes 8 (widen bits).toNat
  | .float64 bits => 0xcb :: beBytes 8 bits.toNat
  | .str n => if n < 32 then [BitVec.ofNat 8 (0xa0 + n)] else tagged 0xd9 (exponent n) n
  | .bin n => tagged 0xc4 (exponent n) n
  | .ext n => shortestExt n
  | .array n => if n < 16 then [BitVec.ofNat 8 (0x90 + n)] else tagged 0xdb (max 1 (exponent n)) n
  | .map n => if n < 16 then [BitVec.ofNat 8 (0x80 + n)] else tagged 0xdd (max 1 (exponent n)) n

/-- The bytes are UTF-8. -/
def IsUtf8 (bytes : List Byte) : Prop :=
  ByteArray.IsValidUTF8 ⟨(bytes.map UInt8.ofBitVec).toArray⟩

/-- The extension type of timestamps, which is `-1`. -/
abbrev timestampType : Byte := 0xff

/-- A key of a dictionary. Truth values are the numbers zero and one. -/
inductive Key where
  | nil
  | number (value : ℤ)
  | str (text : List Byte)
  | bin (bytes : List Byte)
  | ext (type : Byte) (bytes : List Byte)
  deriving DecidableEq

/-- The key that a value is, if it can be one. -/
def Value.key : Value → Option Key
  | .nil => some .nil
  | .bool value => some (.number value.toNat)
  | .int value => some (.number value)
  | .str text => some (.str text)
  | .bin bytes => some (.bin bytes)
  | .ext type bytes => some (.ext type bytes)
  | .float32 _ | .float64 _ | .array _ | .map _ => none

/-- Every entry has a key, and no two entries have the same. -/
def KeysDistinct (entries : List (Value × Value)) : Prop :=
  ∃ keys : List Key, entries.map (fun entry => entry.1.key) = keys.map some ∧ keys.Nodup

/-- The key of an entry in the middle is a key, and is not one of those before it. -/
theorem KeysDistinct.middle {done rest : List (Value × Value)} {entry : Value × Value}
    (h : KeysDistinct (done ++ entry :: rest)) :
    entry.1.key ≠ none ∧ ∀ other ∈ done, other.1.key ≠ entry.1.key := by
  obtain ⟨keys, hkeys, hnodup⟩ := h
  rw [List.map_append, List.map_cons] at hkeys
  obtain ⟨before, tail, rfl, hbefore, htail⟩ := List.map_eq_append_iff.mp hkeys.symm
  obtain ⟨key, after, rfl, hkey, -⟩ := List.map_eq_cons_iff.mp htail
  refine ⟨by rw [← hkey]; exact Option.some_ne_none key, fun other hother heq => ?_⟩
  have hmem : some key ∈ before.map some := by
    rw [hbefore, hkey, ← heq]
    exact List.mem_map_of_mem hother
  obtain ⟨same, hsame, hsome⟩ := List.mem_map.mp hmem
  exact (List.nodup_append.mp hnodup).2.2 same hsame key List.mem_cons_self (Option.some.inj hsome)

/-- A further entry keeps the keys distinct if it has a key that none of them has. -/
theorem KeysDistinct.snoc {done : List (Value × Value)} {entry : Value × Value}
    (h : KeysDistinct done) (hsome : entry.1.key ≠ none)
    (hfresh : ∀ other ∈ done, other.1.key ≠ entry.1.key) : KeysDistinct (done ++ [entry]) := by
  obtain ⟨keys, hkeys, hnodup⟩ := h
  obtain ⟨key, hkey⟩ := Option.ne_none_iff_exists'.mp hsome
  refine ⟨keys ++ [key], by simp [hkeys, hkey], ?_⟩
  rw [List.nodup_append]
  refine ⟨hnodup, by simp, fun same hsame other hother heq => ?_⟩
  cases List.mem_singleton.mp hother
  have hmem : some same ∈ done.map fun entry => entry.1.key := by
    rw [hkeys]
    exact List.mem_map_of_mem hsame
  obtain ⟨prior, hprior, hpriorKey⟩ := List.mem_map.mp hmem
  exact hfresh prior hprior (by rw [hpriorKey, hkey, heq])

/-- The encodings of a list, one element after the other. The last argument says whether all of
them are shortest. -/
inductive Sequence {α : Type*} (encodes : α → List Byte → Bool → Prop) :
    List α → List Byte → Bool → Prop where
  | nil : Sequence encodes [] [] true
  | cons {x : α} {xs : List α} {raw rest : List Byte} {shortest all : Bool}
      (head : encodes x raw shortest) (tail : Sequence encodes xs rest all) :
      Sequence encodes (x :: xs) (raw ++ rest) (shortest && all)

/-- Encodings one after another encode their values one after another. -/
theorem Sequence.append {α : Type*} {encodes : α → List Byte → Bool → Prop} {xs ys : List α}
    {raw rest : List Byte} {all tail : Bool} (hxs : Sequence encodes xs raw all)
    (hys : Sequence encodes ys rest tail) :
    Sequence encodes (xs ++ ys) (raw ++ rest) (all && tail) := by
  induction hxs with
  | nil => simpa using hys
  | cons head _ ih =>
    rw [List.cons_append, List.append_assoc, Bool.and_assoc]
    exact .cons head ih

/-- The encoding of one value encodes the sequence of it. -/
theorem Sequence.singleton {α : Type*} {encodes : α → List Byte → Bool → Prop} {x : α}
    {raw : List Byte} {shortest : Bool} (h : encodes x raw shortest) :
    Sequence encodes [x] raw shortest := by
  simpa using Sequence.cons h .nil

/-- Shortest encodings of all values encode the sequence of them. -/
theorem Sequence.of_forall {α β : Type*} {encodes : α → List Byte → Bool → Prop} {f : β → α}
    {g : β → List Byte} {xs : List β} (h : ∀ x ∈ xs, encodes (f x) (g x) true) :
    Sequence encodes (xs.map f) (xs.flatMap g) true := by
  induction xs with
  | nil => exact .nil
  | cons x xs ih =>
    exact .cons (h x List.mem_cons_self) (ih fun y hy => h y (List.mem_cons_of_mem _ hy))

/-- Every element has a shortest encoding of its image, if it has an encoding. -/
theorem Sequence.map {α β : Type*} {encodes : α → List Byte → Bool → Prop}
    {target : β → List Byte → Bool → Prop} {f : α → β} {g : α → List Byte} {xs : List α}
    {raw : List Byte} {all : Bool} (h : Sequence encodes xs raw all)
    (hstep : ∀ {x raw shortest}, encodes x raw shortest → target (f x) (g x) true) :
    Sequence target (xs.map f) (xs.map g).flatten true := by
  induction h with
  | nil => exact .nil
  | cons head _ ih => exact .cons (hstep head) ih

/-- A shortest encoding is the concatenation of the shortest encodings of the elements. -/
theorem Sequence.eq_flatten {α : Type*} {encodes : α → List Byte → Bool → Prop}
    {g : α → List Byte} {xs : List α} {raw : List Byte} {all : Bool}
    (h : Sequence encodes xs raw all) (hall : all = true)
    (hstep : ∀ {x raw}, encodes x raw true → raw = g x) : raw = (xs.map g).flatten := by
  induction h with
  | nil => rfl
  | cons head _ ih =>
    obtain ⟨rfl, rfl⟩ := Bool.and_eq_true_iff.mp hall
    rw [hstep head, ih rfl, List.map_cons, List.flatten_cons]

/-- The encodings of an entry: those of its key, followed by those of its value. -/
inductive Entry (encodes : Value → List Byte → Bool → Prop) :
    Value × Value → List Byte → Bool → Prop where
  | mk {key value : Value} {rawKey rawValue : List Byte} {shortestKey shortestValue : Bool}
      (hkey : encodes key rawKey shortestKey) (hvalue : encodes value rawValue shortestValue) :
      Entry encodes (key, value) (rawKey ++ rawValue) (shortestKey && shortestValue)

/-- What follows the head of a value, given the encodings of the values inside it. -/
inductive Body (encodes : Value → List Byte → Bool → Prop) : Value → List Byte → Bool → Prop where
  | nil : Body encodes .nil [] true
  | bool (value : Bool) : Body encodes (.bool value) [] true
  | int (value : ℤ) : Body encodes (.int value) [] true
  | float32 (bits : BitVec 32) : Body encodes (.float32 bits) [] true
  | float64 (bits : BitVec 64) : Body encodes (.float64 bits) [] true
  | str {text : List Byte} (h : IsUtf8 text) : Body encodes (.str text) text true
  | bin (bytes : List Byte) : Body encodes (.bin bytes) bytes true
  | ext {type : Byte} (bytes : List Byte) (h : type ≠ timestampType) :
      Body encodes (.ext type bytes) (type :: bytes) true
  | array {items : List Value} {raw : List Byte} {all : Bool} (h : Sequence encodes items raw all) :
      Body encodes (.array items) raw all
  | map {entries : List (Value × Value)} {raw : List Byte} {all : Bool}
      (h : Sequence (Entry encodes) entries raw all) (hkeys : KeysDistinct entries) :
      Body encodes (.map entries) raw all

/-- The bytes encode the value, whose nesting depth is at most `depth`. The last argument says
whether every length, count and number in them takes its shortest form. -/
def Encodes (widen : BitVec 32 → BitVec 64) : ℕ → Value → List Byte → Bool → Prop
  | 0, _, _, _ => False
  | depth + 1, value, raw, shortest =>
    ∃ head body all, value.head.Form head ∧ Body (Encodes widen depth) value body all ∧
      raw = head ++ body ∧ shortest = (decide (head = value.head.shortest widen) && all)

section Levels

variable {encodes other : Value → List Byte → Bool → Prop}

/-- A sequence stays encoded where its values do. -/
theorem Sequence.mono {α : Type*} {encodes other : α → List Byte → Bool → Prop} {xs : List α}
    {raw : List Byte} {all : Bool} (h : Sequence encodes xs raw all)
    (hmono : ∀ {x raw shortest}, encodes x raw shortest → other x raw shortest) :
    Sequence other xs raw all := by
  induction h with
  | nil => exact .nil
  | cons head _ ih => exact .cons (hmono head) ih

/-- An entry stays encoded where its key and its value do. -/
theorem Entry.mono {entry : Value × Value} {raw : List Byte} {shortest : Bool}
    (h : Entry encodes entry raw shortest)
    (hmono : ∀ {x raw shortest}, encodes x raw shortest → other x raw shortest) :
    Entry other entry raw shortest := by
  cases h with
  | mk hkey hvalue => exact .mk (hmono hkey) (hmono hvalue)

/-- What is in a container stays encoded where its values do. -/
theorem Body.mono {value : Value} {raw : List Byte} {all : Bool} (h : Body encodes value raw all)
    (hmono : ∀ {x raw shortest}, encodes x raw shortest → other x raw shortest) :
    Body other value raw all := by
  cases h with
  | nil => exact .nil
  | bool value => exact .bool value
  | int value => exact .int value
  | float32 bits => exact .float32 bits
  | float64 bits => exact .float64 bits
  | str h => exact .str h
  | bin => exact .bin _
  | ext bytes h => exact .ext bytes h
  | array h => exact .array (h.mono hmono)
  | map h hkeys => exact .map (h.mono fun hentry => hentry.mono hmono) hkeys

/-- More levels encode no less. -/
theorem Encodes.mono {widen : BitVec 32 → BitVec 64} {depth deeper : ℕ} {value : Value}
    {raw : List Byte} {shortest : Bool} (h : Encodes widen depth value raw shortest)
    (hle : depth ≤ deeper) : Encodes widen deeper value raw shortest := by
  induction depth generalizing deeper value raw shortest with
  | zero => cases h
  | succ depth ih =>
    cases deeper with
    | zero => cases hle
    | succ deeper =>
      obtain ⟨head, body, all, hform, hbody, hraw, hshortest⟩ := h
      have hlevels : depth ≤ deeper := Nat.le_of_succ_le_succ hle
      exact ⟨head, body, all, hform, hbody.mono fun hinner => ih hinner hlevels, hraw, hshortest⟩

end Levels

/-- The shortest encoding of a value. -/
def Value.encode (widen : BitVec 32 → BitVec 64) : Value → List Byte :=
  Value.fold
    (fun value => value.head.shortest widen ++
      match value with
      | .str text => text
      | .bin bytes => bytes
      | .ext type bytes => type :: bytes
      | _ => [])
    (fun items => (Head.array items.length).shortest widen ++ items.flatten)
    (fun entries => (Head.map entries.length).shortest widen ++
      (entries.map fun entry => entry.1 ++ entry.2).flatten)

/-- The value after its binary32 numbers were widened. -/
def Value.widened (widen : BitVec 32 → BitVec 64) : Value → Value :=
  Value.fold
    (fun value => match value with
      | .float32 bits => .float64 (widen bits)
      | value => value)
    .array .map

section Shortest

variable {widen : BitVec 32 → BitVec 64}

/-- No length takes more than eight bytes. -/
theorem exponent_le (n : ℕ) : exponent n ≤ 3 := by
  unfold exponent
  split_ifs <;> omega

/-- No number takes more than eight bytes. -/
theorem signedExponent_le (value : ℤ) : signedExponent value ≤ 3 := by
  unfold signedExponent
  split_ifs <;> omega

/-- The smallest argument holds the number, and is no wider than another that does. -/
theorem exponent_spec {k n : ℕ} (hk : k ≤ 3) (hn : n < range k) :
    n < range (exponent n) ∧ exponent n ≤ k := by
  unfold exponent
  split_ifs with h0 h1 h2 <;> interval_cases k <;> norm_num at * <;> omega

/-- The smallest two's-complement argument holds the number. -/
theorem signedExponent_spec {k : ℕ} {value : ℤ} (hk : k ≤ 3) (hlow : -(range k : ℤ) ≤ 2 * value)
    (hneg : value < 0) :
    -(range (signedExponent value) : ℤ) ≤ 2 * value ∧ signedExponent value ≤ k := by
  unfold signedExponent
  split_ifs with h0 h1 h2 <;> interval_cases k <;> norm_num at * <;> omega

/-- A wider field holds more. -/
theorem range_mono {k k' : ℕ} (h : k ≤ k') : range k ≤ range k' :=
  Nat.pow_le_pow_right (by decide) (Nat.pow_le_pow_right (by decide) h)

/-- A two's-complement word is at least half of its range below zero. -/
theorem range_le_two_mul_bmod {k n : ℕ} (hn : n < range k) :
    -(range k : ℤ) ≤ 2 * Int.bmod n (range k) ∧ Int.bmod n (range k) < range k := by
  rw [Int.bmod_def, Int.emod_eq_of_lt (Int.natCast_nonneg n) (by exact_mod_cast hn)]
  split_ifs <;> omega

/-- The bounds of an integer that has a form. -/
theorem Head.Form.int_bounds {value : ℤ} {raw : List Byte} (h : (Head.int value).Form raw) :
    -(range 3 : ℤ) ≤ 2 * value ∧ value < range 3 := by
  generalize hhead : Head.int value = head at h
  cases h with
  | @fixint word hlow =>
    cases hhead
    have hupper := word.toInt_lt
    norm_num
    omega
  | @uint k n hk hn =>
    cases hhead
    have hle : range k ≤ range 3 := range_mono hk
    omega
  | @sint k n hk hn =>
    cases hhead
    have hbounds := range_le_two_mul_bmod hn
    have hle : range k ≤ range 3 := range_mono hk
    omega
  | _ => cases hhead

/-- The shortest form of a number that fits eight bytes is one of its forms. -/
theorem form_shortestInt {value : ℤ} (hlow : -(range 3 : ℤ) ≤ 2 * value)
    (hhigh : value < range 3) : (Head.int value).Form (shortestInt value) := by
  unfold shortestInt
  split_ifs with hsmall hpos
  · have hword : (BitVec.ofInt 8 value).toInt = value := by
      rw [BitVec.toInt_ofInt]
      exact Int.bmod_eq_of_le (by omega) (by omega)
    have hform := @Head.Form.fixint (BitVec.ofInt 8 value) (by omega)
    rwa [hword] at hform
  · obtain ⟨n, rfl⟩ := Int.eq_ofNat_of_zero_le hpos
    exact .uint (exponent_le n) (exponent_spec (le_refl 3) (by omega)).1
  · obtain ⟨hfits, -⟩ := signedExponent_spec (le_refl 3) hlow (by omega)
    have hrange : 0 < range (signedExponent value) := by positivity
    have hword : Int.bmod ((value + range (signedExponent value)).toNat : ℤ)
        (range (signedExponent value)) = value := by
      rw [Int.toNat_of_nonneg (by omega), Int.add_bmod_right]
      exact Int.bmod_eq_of_le (by omega) (by omega)
    have hform := Head.Form.sint (signedExponent_le value)
      (n := (value + range (signedExponent value)).toNat) (by omega)
    rwa [hword] at hform

/-- The head after a binary32 number was widened. -/
def Head.widened (widen : BitVec 32 → BitVec 64) : Head → Head
  | .float32 bits => .float64 (widen bits)
  | head => head

/-- A head that has a form has its shortest bytes as a form, up to the widening of numbers. -/
theorem form_shortest {head : Head} {raw : List Byte} (h : head.Form raw) :
    (head.widened widen).Form (head.shortest widen) := by
  cases head with
  | nil => exact .nil
  | bool value => exact .bool value
  | int value => exact form_shortestInt h.int_bounds.1 h.int_bounds.2
  | float32 bits => exact .float64 _
  | float64 bits => exact .float64 _
  | str n =>
    by_cases hn : n < 32
    · rw [Head.shortest, if_pos hn]
      exact .fixstr hn
    · rw [Head.shortest, if_neg hn]
      cases h with
      | fixstr hsmall => exact absurd hsmall hn
      | str hk hfits =>
        obtain ⟨hrange, hle⟩ := exponent_spec (by omega) hfits
        exact .str (hle.trans hk) hrange
  | bin n =>
    cases h with
    | bin hk hfits =>
      obtain ⟨hrange, hle⟩ := exponent_spec (by omega) hfits
      exact .bin (hle.trans hk) hrange
  | ext n =>
    by_cases hn : n ∈ [1, 2, 4, 8, 16]
    · rw [Head.shortest, shortestExt, if_pos hn]
      obtain ⟨k, hk, rfl⟩ : ∃ k ≤ 4, n = 2 ^ k := by
        simp only [List.mem_cons, List.not_mem_nil, or_false] at hn
        rcases hn with rfl | rfl | rfl | rfl | rfl
        exacts [⟨0, by omega, rfl⟩, ⟨1, by omega, rfl⟩, ⟨2, by omega, rfl⟩, ⟨3, by omega, rfl⟩,
          ⟨4, by omega, rfl⟩]
      rw [Nat.log2_two_pow]
      exact .fixext hk
    · rw [Head.shortest, shortestExt, if_neg hn]
      generalize hhead : Head.ext n = extension at h
      cases h with
      | @fixext k hk =>
        cases hhead
        interval_cases k <;> simp at hn
      | ext hk hfits =>
        cases hhead
        obtain ⟨hrange, hle⟩ := exponent_spec (by omega) hfits
        exact .ext (hle.trans hk) hrange
      | _ => cases hhead
  | array n =>
    by_cases hn : n < 16
    · rw [Head.shortest, if_pos hn]
      exact .fixarray hn
    · rw [Head.shortest, if_neg hn]
      cases h with
      | fixarray hsmall => exact absurd hsmall hn
      | @array k _ hlow hk hfits =>
        obtain ⟨hrange, hle⟩ := exponent_spec (by omega) hfits
        exact .array (by omega) (by omega) (hrange.trans_le (range_mono (by omega)))
  | map n =>
    by_cases hn : n < 16
    · rw [Head.shortest, if_pos hn]
      exact .fixmap hn
    · rw [Head.shortest, if_neg hn]
      cases h with
      | fixmap hsmall => exact absurd hsmall hn
      | @map k _ hlow hk hfits =>
        obtain ⟨hrange, hle⟩ := exponent_spec (by omega) hfits
        exact .map (by omega) (by omega) (hrange.trans_le (range_mono (by omega)))

/-- A widened head has the same shortest form. -/
theorem shortest_widened (head : Head) :
    (head.widened widen).shortest widen = head.shortest widen := by
  cases head <;> rfl

namespace Value

/-- An array is widened item by item. -/
@[simp] theorem widened_array (items : List Value) :
    (Value.array items).widened widen = .array (items.map (widened widen)) := fold_array items

/-- A map is widened entry by entry. -/
@[simp] theorem widened_map (entries : List (Value × Value)) :
    (Value.map entries).widened widen =
      .map (entries.map (Prod.map (widened widen) (widened widen))) := fold_map entries

/-- An array is encoded as its head and its items. -/
@[simp] theorem encode_array (items : List Value) :
    (Value.array items).encode widen =
      (Head.array items.length).shortest widen ++ (items.map (encode widen)).flatten := by
  rw [encode, fold_array, List.length_map]

/-- A map is encoded as its head and its entries. -/
@[simp] theorem encode_map (entries : List (Value × Value)) :
    (Value.map entries).encode widen = (Head.map entries.length).shortest widen ++
      (entries.map fun entry => entry.1.encode widen ++ entry.2.encode widen).flatten := by
  rw [encode, fold_map, List.length_map, List.map_map]
  rfl

/-- A widened value has the widened head. -/
theorem head_widened (value : Value) : (value.widened widen).head = value.head.widened widen := by
  cases value with
  | array items => rw [widened_array, head, List.length_map]; rfl
  | map entries => rw [widened_map, head, List.length_map]; rfl
  | _ => rfl

/-- Widening changes no key. -/
theorem key_widened (value : Value) : (value.widened widen).key = value.key := by
  cases value with
  | array items => rw [widened_array]; rfl
  | map entries => rw [widened_map]; rfl
  | _ => rfl

end Value

/-- Distinct keys stay distinct when the entries are widened. -/
theorem KeysDistinct.widened {entries : List (Value × Value)} (h : KeysDistinct entries) :
    KeysDistinct (entries.map (Prod.map (Value.widened widen) (Value.widened widen))) := by
  obtain ⟨keys, hkeys, hnodup⟩ := h
  refine ⟨keys, ?_, hnodup⟩
  rw [List.map_map, ← hkeys]
  exact List.map_congr_left fun entry _ => Value.key_widened entry.1

/-- Encoding a decoded value again gives a shortest encoding of it, up to the widening of
numbers. -/
theorem encodes_encode {depth : ℕ} {value : Value} {raw : List Byte} {shortest : Bool}
    (h : Encodes widen depth value raw shortest) :
    Encodes widen depth (value.widened widen) (value.encode widen) true := by
  induction depth generalizing value raw shortest with
  | zero => cases h
  | succ depth ih =>
    obtain ⟨head, body, all, hform, hbody, rfl, rfl⟩ := h
    suffices hsuff : ∃ rest, value.encode widen = value.head.shortest widen ++ rest ∧
        Body (Encodes widen depth) (value.widened widen) rest true by
      obtain ⟨rest, hencode, hrest⟩ := hsuff
      refine ⟨_, rest, true, ?_, hrest, hencode, ?_⟩
      · rw [Value.head_widened]
        exact form_shortest hform
      · rw [Value.head_widened, shortest_widened, decide_eq_true rfl, Bool.and_true]
    cases hbody with
    | nil => exact ⟨[], rfl, .nil⟩
    | bool value => exact ⟨[], rfl, .bool value⟩
    | int value => exact ⟨[], rfl, .int value⟩
    | float32 bits => exact ⟨[], rfl, .float64 _⟩
    | float64 bits => exact ⟨[], rfl, .float64 bits⟩
    | str h => exact ⟨_, rfl, .str h⟩
    | bin => exact ⟨_, rfl, .bin _⟩
    | ext payload h => exact ⟨_, rfl, .ext payload h⟩
    | array hitems =>
      rw [Value.widened_array, Value.encode_array]
      exact ⟨_, rfl, .array (hitems.map ih)⟩
    | map hentries hkeys =>
      rw [Value.widened_map, Value.encode_map]
      refine ⟨_, rfl, .map (hentries.map fun hentry => ?_) hkeys.widened⟩
      cases hentry with
      | mk hkey hvalue => exact .mk (ih hkey) (ih hvalue)

/-- An encoding in which every head is shortest is the encoding that writing the value again
gives. -/
theorem eq_encode_of_shortest {depth : ℕ} {value : Value} {raw : List Byte}
    (h : Encodes widen depth value raw true) : raw = value.encode widen := by
  induction depth generalizing value raw with
  | zero => cases h
  | succ depth ih =>
    obtain ⟨head, body, all, hform, hbody, rfl, hshortest⟩ := h
    obtain ⟨hhead, rfl⟩ := Bool.and_eq_true_iff.mp hshortest.symm
    rw [of_decide_eq_true hhead]
    cases hbody with
    | array hitems =>
      rw [Value.encode_array, hitems.eq_flatten rfl ih]
      rfl
    | map hentries hkeys =>
      rw [Value.encode_map, hentries.eq_flatten rfl ?_]
      · rfl
      · intro entry raw hentry
        generalize hall : true = all at hentry
        cases hentry with
        | mk hkey hvalue =>
          obtain ⟨rfl, rfl⟩ := Bool.and_eq_true_iff.mp hall.symm
          rw [ih hkey, ih hvalue]
    | _ => rfl

end Shortest

end MessagePack
