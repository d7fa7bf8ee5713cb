import ReticulumFirmware.Lxmf.MsgpackHeads

/-!
# Map keys

The class of an encoded key is the class of the value it encodes, and two classes are equal under
Python semantics exactly if the keys of the two values are the same.
-/

namespace Lxmf

open Nor MessagePack

/-- The class of a value, if it can be a key. -/
def classOf : Value → Option KeyClass
  | .nil => some .nil
  | .bool value => some (.boolean value)
  | .int value => some (.integer value)
  | .str text => some (.string text)
  | .bin bytes => some (.binary bytes)
  | .ext type bytes => some (.extension type bytes)
  | .float32 _ | .float64 _ | .array _ | .map _ => none

/-- The key that a class stands for. -/
def KeyClass.key : KeyClass → Key
  | .nil => .nil
  | .boolean value => .number value.toNat
  | .integer value => .number value
  | .string bytes => .str bytes
  | .binary bytes => .bin bytes
  | .extension type bytes => .ext type bytes

/-- The key of a value is that of its class. -/
theorem key_eq_map (value : Value) : value.key = (classOf value).map KeyClass.key := by
  cases value <;> rfl

/-- Classes are equal in Python exactly where their keys are. -/
theorem KeyClass.pythonEq_iff (left right : KeyClass) :
    left.pythonEq right = true ↔ left.key = right.key := by
  cases left <;> cases right <;> simp [KeyClass.pythonEq, KeyClass.key]
  case boolean.boolean left right => cases left <;> cases right <;> decide
  case integer.boolean left right => exact eq_comm

/-- A tagged number is read as a key. -/
theorem keyNumber_tagged {marker k n : ℕ} (hn : n < range k) (body : List Byte) :
    keyNumber (tagged marker k n ++ body) (2 ^ k) = some n := by
  have hfits : 1 + 2 ^ k ≤ (tagged marker k n ++ body).length := by
    rw [List.length_append, length_tagged]
    omega
  have hslice : slice (tagged marker k n ++ body) 1 (2 ^ k) = beBytes (2 ^ k) n := by
    have htake := @List.take_left _ (beBytes (2 ^ k) n) body
    rw [length_beBytes] at htake
    exact htake
  rw [keyNumber, if_pos hfits, hslice, beNat_beBytes_of_lt hn]

/-- What is behind a head is found at its length. -/
theorem getFrom_append (head body : List Byte) :
    getFrom (head ++ body) head.length = some body := by
  rw [getFrom, if_pos (by rw [List.length_append]; omega), List.drop_left]

/-- What is behind a tagged number is found at its length. -/
theorem getFrom_tagged {marker k n : ℕ} (body : List Byte) :
    getFrom (tagged marker k n ++ body) (2 ^ k + 1) = some body := by
  rw [← length_tagged marker k n]
  exact getFrom_append _ body

/-- An extension behind a head is a key, unless it is a time. -/
theorem extensionKey_append {head : List Byte} {type : Byte} (bytes : List Byte)
    (h : type ≠ timestampType) :
    extensionKey (head ++ type :: bytes) head.length = some (.extension type bytes) := by
  have hget : (head ++ type :: bytes)[head.length]? = some type := by simp
  have hfrom := getFrom_append (head ++ [type]) bytes
  rw [List.append_assoc, List.singleton_append, List.length_append, List.length_singleton] at hfrom
  rw [extensionKey, hget, Option.bind_eq_bind, Option.bind_some, if_neg h, hfrom]
  rfl

/-- An extension behind a tagged number is a key, unless it is a time. -/
theorem extensionKey_tagged {marker k n : ℕ} {type : Byte} (bytes : List Byte)
    (h : type ≠ timestampType) :
    extensionKey (tagged marker k n ++ type :: bytes) (2 ^ k + 1) =
      some (.extension type bytes) := by
  rw [← length_tagged marker k n]
  exact extensionKey_append bytes h

/-- A number of one byte has the class of the number. -/
theorem keyClass_fixint {word : Byte} (h : -32 ≤ word.toInt) :
    keyClass [word] = some (.integer word.toInt) := by
  by_cases hlow : word.toNat ≤ 0x7f
  · have hnat : word.toInt = word.toNat := by
      rw [BitVec.toInt_eq_toNat_cond, if_pos (by omega)]
    rw [hnat]
    exact if_pos hlow
  · have hhigh : 0xe0 ≤ word.toNat := by
      rw [BitVec.toInt_eq_toNat_cond] at h
      split_ifs at h <;> omega
    exact (if_neg hlow).trans (if_pos hhigh)

/-- An unsigned form has the class of the number. -/
theorem keyClass_uint {k n : ℕ} (hk : k ≤ 3) (hn : n < range k) :
    keyClass (tagged 0xcc k n) = some (.integer n) := by
  have h : keyNumber (tagged 0xcc k n) (2 ^ k) = some n := by simpa using keyNumber_tagged hn []
  interval_cases k <;> exact congrArg (Option.map fun value : ℕ => KeyClass.integer value) h

/-- A signed form has the class of the number. -/
theorem keyClass_sint {k n : ℕ} (hk : k ≤ 3) (hn : n < range k) :
    keyClass (tagged 0xd0 k n) = some (.integer (Int.bmod n (range k))) := by
  have h : keyNumber (tagged 0xd0 k n) (2 ^ k) = some n := by simpa using keyNumber_tagged hn []
  interval_cases k
  · exact congrArg (Option.map fun value : ℕ => KeyClass.integer (asSigned 1 value)) h
  · exact congrArg (Option.map fun value : ℕ => KeyClass.integer (asSigned 2 value)) h
  · exact congrArg (Option.map fun value : ℕ => KeyClass.integer (asSigned 4 value)) h
  · exact congrArg (Option.map fun value : ℕ => KeyClass.integer (asSigned 8 value)) h

/-- A string has the class of its text. -/
theorem keyClass_str {n : ℕ} {head text : List Byte} (h : (Head.str n).Form head) :
    keyClass (head ++ text) = some (.string text) := by
  cases h with
  | fixstr hn =>
    have hrange : (BitVec.ofNat 8 (0xa0 + n)).toNat = 0xa0 + n := by
      rw [BitVec.toNat_ofNat]
      omega
    refine (if_neg ?_).trans ((if_neg ?_).trans ((if_pos ?_).trans ?_))
    · rw [hrange]
      omega
    · rw [hrange]
      omega
    · rw [hrange]
      omega
    · exact congrArg (Option.map KeyClass.string) (getFrom_append [_] text)
  | @str k n hk hn =>
    have h : getFrom (tagged 0xd9 k n ++ text) (2 ^ k + 1) = some text := getFrom_tagged text
    interval_cases k <;> exact congrArg (Option.map KeyClass.string) h

/-- A byte string has the class of its bytes. -/
theorem keyClass_bin {n : ℕ} {head bytes : List Byte} (h : (Head.bin n).Form head) :
    keyClass (head ++ bytes) = some (.binary bytes) := by
  cases h with
  | @bin k n hk hn =>
    have h : getFrom (tagged 0xc4 k n ++ bytes) (2 ^ k + 1) = some bytes := getFrom_tagged bytes
    interval_cases k <;> exact congrArg (Option.map KeyClass.binary) h

/-- An extension has the class of its type and its bytes. -/
theorem keyClass_ext {n : ℕ} {head bytes : List Byte} {type : Byte} (h : (Head.ext n).Form head)
    (htype : type ≠ timestampType) :
    keyClass (head ++ type :: bytes) = some (.extension type bytes) := by
  generalize hhead : Head.ext n = extension at h
  cases h with
  | @fixext k hk =>
    have h : extensionKey ([BitVec.ofNat 8 (0xd4 + k)] ++ type :: bytes) 1 = _ :=
      extensionKey_append bytes htype
    interval_cases k <;> exact h
  | @ext k n hk hn =>
    have h : extensionKey (tagged 0xc7 k n ++ type :: bytes) (2 ^ k + 1) = _ :=
      extensionKey_tagged bytes htype
    interval_cases k <;> exact h
  | _ => cases hhead

/-- Containers are no keys. -/
theorem keyClass_array {n : ℕ} {head body : List Byte} (h : (Head.array n).Form head) :
    keyClass (head ++ body) = none := by
  cases h with
  | fixarray hn => interval_cases n <;> rfl
  | @array k n hlow hk hn => interval_cases k <;> rfl

/-- A map is no key. -/
theorem keyClass_map {n : ℕ} {head body : List Byte} (h : (Head.map n).Form head) :
    keyClass (head ++ body) = none := by
  cases h with
  | fixmap hn => interval_cases n <;> rfl
  | @map k n hlow hk hn => interval_cases k <;> rfl

/-- The class of an encoded key is the class of the value. -/
theorem keyClass_append {encodes : Value → List Byte → Bool → Prop} {value : Value}
    {head body : List Byte} {all : Bool} (hform : value.head.Form head)
    (hbody : Body encodes value body all) : keyClass (head ++ body) = classOf value := by
  cases hbody with
  | nil =>
    cases hform
    rfl
  | bool value =>
    cases hform
    cases value <;> rfl
  | int value =>
    rw [List.append_nil, classOf]
    change (Head.int value).Form head at hform
    generalize hhead : Head.int value = integer at hform
    cases hform with
    | fixint h =>
      cases hhead
      exact keyClass_fixint h
    | uint hk hn =>
      cases hhead
      exact keyClass_uint hk hn
    | sint hk hn =>
      cases hhead
      exact keyClass_sint hk hn
    | _ => cases hhead
  | float32 bits =>
    cases hform
    rfl
  | float64 bits =>
    cases hform
    rfl
  | str h => exact keyClass_str hform
  | bin bytes => exact keyClass_bin hform
  | ext bytes h => exact keyClass_ext hform h
  | array h => exact keyClass_array hform
  | map h hkeys => exact keyClass_map hform

/-- The comparison of two encoded keys is the comparison of the keys they encode. -/
theorem sameKey_iff {prior current : List Byte} {left right : Value}
    (hprior : keyClass prior = classOf left) (hcurrent : keyClass current = classOf right)
    (hright : right.key ≠ none) : sameKey prior current = true ↔ left.key = right.key := by
  rw [key_eq_map] at hright
  rw [sameKey, hprior, hcurrent, key_eq_map, key_eq_map]
  cases hclass : classOf right with
  | none =>
    rw [hclass] at hright
    exact absurd rfl hright
  | some right =>
    cases classOf left with
    | none => simp
    | some left =>
      rw [KeyClass.pythonEq_iff]
      exact (Option.some_inj).symm

end Lxmf
