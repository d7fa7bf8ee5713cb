import ReticulumFirmware.Lxmf.MsgpackGrammar

/-!
# The parts of an encoded value

The functions that take a validated value apart, and what they return at an encoding. No two
values have the same encoding, so that what they return is about the value and not about the bytes.
The parts of a container cost no more than the container, so that scanning them again stays within
limits that the container passed.
-/

namespace Lxmf

open Nor MessagePack Codec

/-- The number of entries of a map, and the length of its head. -/
def mapHeader (raw : List Byte) : Option (ℕ × ℕ) := do
  let marker ← raw.head?
  if 0x80 ≤ marker.toNat ∧ marker.toNat ≤ 0x8f then some (marker.toNat % 0x10, 1)
  else match marker.toNat with
    | 0xde => (keyNumber raw 2).map fun count => (count, 3)
    | 0xdf => (keyNumber raw 4).map fun count => (count, 5)
    | _ => none

/-- The number of items of an array, and the length of its head. -/
def arrayHeader (raw : List Byte) : Option (ℕ × ℕ) := do
  let marker ← raw.head?
  if 0x90 ≤ marker.toNat ∧ marker.toNat ≤ 0x9f then some (marker.toNat % 0x10, 1)
  else match marker.toNat with
    | 0xdc => (keyNumber raw 2).map fun count => (count, 3)
    | 0xdd => (keyNumber raw 4).map fun count => (count, 5)
    | _ => none

/-- The bytes of a binary value. -/
def binaryPayload (raw : List Byte) : Option (List Byte) := do
  let marker ← raw.head?
  match marker.toNat with
    | 0xc4 => getFrom raw 2
    | 0xc5 => getFrom raw 3
    | 0xc6 => getFrom raw 5
    | _ => none

/-- The number of an integer value. -/
def decodeInteger (raw : List Byte) : Option ℤ := do
  let marker ← raw.head?
  if marker.toNat ≤ 0x7f then some marker.toNat
  else if 0xe0 ≤ marker.toNat then some marker.toInt
  else match marker.toNat with
    | 0xcc => (keyNumber raw 1).map fun value => (value : ℤ)
    | 0xcd => (keyNumber raw 2).map fun value => (value : ℤ)
    | 0xce => (keyNumber raw 4).map fun value => (value : ℤ)
    | 0xcf => (keyNumber raw 8).map fun value => (value : ℤ)
    | 0xd0 => (keyNumber raw 1).map fun value => asSigned 1 value
    | 0xd1 => (keyNumber raw 2).map fun value => asSigned 2 value
    | 0xd2 => (keyNumber raw 4).map fun value => asSigned 4 value
    | 0xd3 => (keyNumber raw 8).map fun value => asSigned 8 value
    | _ => none

section Headers

/-- The header of a map is its number of entries and the length of its head. -/
theorem mapHeader_append {n : ℕ} {head : List Byte} (h : (Head.map n).Form head)
    (body : List Byte) : mapHeader (head ++ body) = some (n, head.length) := by
  cases h with
  | fixmap hn => interval_cases n <;> rfl
  | @map k n hlow hk hn =>
    have hnumber := @keyNumber_tagged 0xdd _ _ hn body
    rw [length_tagged]
    interval_cases k
    · exact congrArg (Option.map fun count => (count, 3)) hnumber
    · exact congrArg (Option.map fun count => (count, 5)) hnumber

/-- The header of an array is read from any of its heads. -/
theorem arrayHeader_append {n : ℕ} {head : List Byte} (h : (Head.array n).Form head)
    (body : List Byte) : arrayHeader (head ++ body) = some (n, head.length) := by
  cases h with
  | fixarray hn => interval_cases n <;> rfl
  | @array k n hlow hk hn =>
    have hnumber := @keyNumber_tagged 0xdb _ _ hn body
    rw [length_tagged]
    interval_cases k
    · exact congrArg (Option.map fun count => (count, 3)) hnumber
    · exact congrArg (Option.map fun count => (count, 5)) hnumber

end Headers

section Readers

/-- The number that a value is. -/
def numberOf : Value → Option ℤ
  | .int value => some value
  | _ => none

/-- The bytes that a value is. -/
def binaryOf : Value → Option (List Byte)
  | .bin bytes => some bytes
  | _ => none

/-- The number of a key. -/
def KeyClass.number : KeyClass → Option ℤ
  | .integer value => some value
  | _ => none

/-- The bytes of a key. -/
def KeyClass.bytes : KeyClass → Option (List Byte)
  | .binary bytes => some bytes
  | _ => none

/-- The key of an extension is neither a number nor binary. -/
theorem extensionKey_cases {raw : List Byte} {typeOffset : ℕ} {key : KeyClass}
    (h : extensionKey raw typeOffset = some key) : key.number = none ∧ key.bytes = none := by
  obtain ⟨type, -, h⟩ := Option.bind_eq_some_iff.mp h
  split_ifs at h
  obtain ⟨bytes, -, rfl⟩ := Option.map_eq_some_iff.mp h
  exact ⟨rfl, rfl⟩

/-- An integer is read as a key is. -/
theorem decodeInteger_eq (raw : List Byte) :
    decodeInteger raw = (keyClass raw).bind KeyClass.number := by
  cases raw with
  | nil => rfl
  | cons marker rest =>
    simp only [decodeInteger, keyClass, List.head?_cons, Option.bind_eq_bind, Option.bind_some]
    split_ifs with hlow hhigh hstring
    · rfl
    · rfl
    · split
      case h_9 => cases getFrom (marker :: rest) 1 <;> rfl
      all_goals omega
    · split
      case h_9 =>
        -- The markers of the other keys, none of which is a number.
        split
        all_goals first
          | contradiction
          | rfl
          | cases getFrom (marker :: rest) _ <;> rfl
          | exact (Option.bind_eq_none_iff.mpr fun _ h => (extensionKey_cases h).1).symm
      all_goals
        rename_i hmarker
        rw [hmarker]
        cases keyNumber (marker :: rest) _ <;> rfl

/-- Binary is read as a key is. -/
theorem binaryPayload_eq (raw : List Byte) :
    binaryPayload raw = (keyClass raw).bind KeyClass.bytes := by
  cases raw with
  | nil => rfl
  | cons marker rest =>
    simp only [binaryPayload, keyClass, List.head?_cons, Option.bind_eq_bind, Option.bind_some]
    split
    case h_4 =>
      split_ifs with hlow hhigh hstring
      · rfl
      · rfl
      · cases getFrom (marker :: rest) 1 <;> rfl
      · split
        all_goals first
          | contradiction
          | rfl
          | cases getFrom (marker :: rest) _ <;> rfl
          | cases keyNumber (marker :: rest) _ <;> rfl
          | exact (Option.bind_eq_none_iff.mpr fun _ h => (extensionKey_cases h).2).symm
    all_goals
      rename_i hmarker
      rw [if_neg (by omega), if_neg (by omega), if_neg (by omega), hmarker]
      cases getFrom (marker :: rest) _ <;> rfl

/-- The class of a value tells its number. -/
theorem number_classOf (value : Value) :
    (classOf value).bind KeyClass.number = numberOf value := by
  cases value <;> rfl

/-- The class of a value tells its bytes. -/
theorem bytes_classOf (value : Value) : (classOf value).bind KeyClass.bytes = binaryOf value := by
  cases value <;> rfl

variable {widen : BitVec 32 → BitVec 64} {depth : ℕ} {value : Value} {raw : List Byte}
  {shortest : Bool}

/-- A number is decoded from every encoding of the value. -/
theorem decodeInteger_of_encodes (h : Encodes widen depth value raw shortest) :
    decodeInteger raw = numberOf value := by
  rw [decodeInteger_eq, keyClass_of_encodes h, number_classOf]

/-- A payload is decoded from every encoding of the value. -/
theorem binaryPayload_of_encodes (h : Encodes widen depth value raw shortest) :
    binaryPayload raw = binaryOf value := by
  rw [binaryPayload_eq, keyClass_of_encodes h, bytes_classOf]

/-- An encoding is a head and what is in the value, one level deeper. -/
theorem encodes_parts (h : Encodes widen depth value raw shortest) :
    ∃ levels head body all, depth = levels + 1 ∧ value.head.Form head ∧
      Body (Encodes widen levels) value body all ∧ raw = head ++ body := by
  cases depth with
  | zero => cases h
  | succ levels =>
    obtain ⟨head, body, all, hform, hbody, hraw, -⟩ := h
    exact ⟨levels, head, body, all, rfl, hform, hbody, hraw⟩

/-- No encoding is empty. -/
theorem ne_nil_of_encodes (h : Encodes widen depth value raw shortest) : raw ≠ [] := by
  have hpos := (costOf_within h).1
  rintro rfl
  cases hpos

end Readers

section Unique

variable {widen : BitVec 32 → BitVec 64}

/-- Numbers of one width are told apart by their bytes. -/
theorem beBytes_inj {width m n : ℕ} (hm : m < 256 ^ width) (hn : n < 256 ^ width)
    (h : beBytes width m = beBytes width n) : m = n := by
  rw [← beNat_beBytes_of_lt hm, h, beNat_beBytes_of_lt hn]

/-- A value that can be a key is determined by its class. -/
theorem eq_of_classOf {left right : Value} (h : classOf left = classOf right)
    (hsome : classOf left ≠ none) : left = right := by
  cases left <;> cases right <;> simp_all [classOf]

/-- Two encodings at the start of the same bytes have the same length, and encode values of the
same kind. -/
theorem encodes_prefix {depth : ℕ} {left right : Value} {raw other rest tail : List Byte}
    {shortest otherShortest : Bool} (hleft : Encodes widen depth left raw shortest)
    (hright : Encodes widen depth right other otherShortest) (h : raw ++ rest = other ++ tail) :
    raw = other ∧ rest = tail ∧ kindOf left.head = kindOf right.head := by
  obtain ⟨haffordsLeft, haffordsRight⟩ := affords_roomFor_add (costOf left) (costOf right)
  have hrawAt : Occurs (raw ++ rest) 0 raw := List.prefix_append raw rest
  have hotherAt : Occurs (raw ++ rest) 0 other := by
    rw [h]
    exact List.prefix_append other tail
  have hexact := @scansExactly_scanValueMode (roomFor (costOf left + costOf right)) (raw ++ rest)
    widen depth 1
  have hresult := ((@hexact _ _ _ hleft 0 hrawAt true .new).ok haffordsLeft).symm.trans
    ((@hexact _ _ _ hright 0 hotherAt true .new).ok haffordsRight)
  have hscanned := congrArg Prod.fst (Except.ok.inj hresult)
  have hlength : 0 + raw.length = 0 + other.length := congrArg Scanned.end_ hscanned
  obtain ⟨hraw, hrest⟩ := List.append_inj h (by omega)
  exact ⟨hraw, hrest, congrArg Scanned.kind hscanned⟩

/-- No encoding of an element starts an encoding of another one. -/
def PrefixUnique {α : Type*} (encodes : α → List Byte → Bool → Prop) : Prop :=
  ∀ ⦃x y raw other rest tail shortest otherShortest⦄, encodes x raw shortest →
    encodes y other otherShortest → raw ++ rest = other ++ tail → x = y ∧ rest = tail

/-- A sequence is determined by its front where its values are. -/
theorem PrefixUnique.sequence {α : Type*} {encodes : α → List Byte → Bool → Prop}
    (hunique : PrefixUnique encodes)
    {xs ys : List α} {raw other rest tail : List Byte} {all otherAll : Bool}
    (hxs : Sequence encodes xs raw all) (hys : Sequence encodes ys other otherAll)
    (hlength : xs.length = ys.length) (h : raw ++ rest = other ++ tail) :
    xs = ys ∧ rest = tail := by
  induction hxs generalizing ys other otherAll with
  | nil =>
    cases hys with
    | nil => exact ⟨rfl, h⟩
    | cons => cases hlength
  | cons head _ ih =>
    cases hys with
    | nil => cases hlength
    | cons otherHead otherTail =>
      rw [List.append_assoc, List.append_assoc] at h
      obtain ⟨rfl, hafter⟩ := hunique head otherHead h
      obtain ⟨rfl, hrest⟩ := ih otherTail (Nat.succ.inj hlength) hafter
      exact ⟨rfl, hrest⟩

/-- An entry is determined by its front where its key and its value are. -/
theorem PrefixUnique.entry {encodes : Value → List Byte → Bool → Prop}
    (hunique : PrefixUnique encodes) : PrefixUnique (Entry encodes) := by
  intro x y raw other rest tail shortest otherShortest hx hy h
  cases hx with
  | mk hkey hvalue =>
    cases hy with
    | mk hotherKey hotherValue =>
      rw [List.append_assoc, List.append_assoc] at h
      obtain ⟨rfl, hafter⟩ := hunique hkey hotherKey h
      obtain ⟨rfl, hrest⟩ := hunique hvalue hotherValue hafter
      exact ⟨rfl, hrest⟩

/-- A value is determined by the front of its encoding. -/
theorem prefixUnique_encodes (depth : ℕ) : PrefixUnique (Encodes widen depth) := by
  induction depth with
  | zero =>
    intro left right raw other rest tail shortest otherShortest hleft
    cases hleft
  | succ depth ih =>
    intro left right raw other rest tail shortest otherShortest hleft hright h
    obtain ⟨rfl, hrest, hkind⟩ := encodes_prefix hleft hright h
    refine ⟨?_, hrest⟩
    have hclass : classOf left = classOf right :=
      (keyClass_of_encodes hleft).symm.trans (keyClass_of_encodes hright)
    obtain ⟨head, body, all, hform, hbody, rfl, -⟩ := hleft
    obtain ⟨otherHead, otherBody, otherAll, hotherForm, hotherBody, hraw, -⟩ := hright
    cases hbody with
    | nil | bool | int | str | bin | ext => exact eq_of_classOf hclass nofun
    | float32 bits =>
      cases hotherBody with
      | float32 other =>
        cases hform
        cases hotherForm
        simp only [List.append_nil, List.cons.injEq, true_and] at hraw
        rw [BitVec.eq_of_toNat_eq (beBytes_inj bits.isLt other.isLt hraw)]
      | _ => cases hkind
    | float64 bits =>
      cases hotherBody with
      | float64 other =>
        cases hform
        cases hotherForm
        simp only [List.append_nil, List.cons.injEq, true_and] at hraw
        rw [BitVec.eq_of_toNat_eq (beBytes_inj bits.isLt other.isLt hraw)]
      | _ => cases hkind
    | array hitems =>
      cases hotherBody with
      | array hothers =>
        have hheader := arrayHeader_append hform body
        rw [hraw, arrayHeader_append hotherForm otherBody, Option.some.injEq, Prod.mk.injEq]
          at hheader
        obtain ⟨-, hbodies⟩ := List.append_inj hraw hheader.2.symm
        rw [(ih.sequence hitems hothers hheader.1.symm (congrArg (· ++ []) hbodies)).1]
      | _ => cases hkind
    | map hentries hkeys =>
      cases hotherBody with
      | map hothers hotherKeys =>
        have hheader := mapHeader_append hform body
        rw [hraw, mapHeader_append hotherForm otherBody, Option.some.injEq, Prod.mk.injEq]
          at hheader
        obtain ⟨-, hbodies⟩ := List.append_inj hraw hheader.2.symm
        rw [(ih.entry.sequence hentries hothers hheader.1.symm (congrArg (· ++ []) hbodies)).1]
      | _ => cases hkind

/-- An encoding encodes one value. -/
theorem encodes_injective {depth : ℕ} {left right : Value} {raw : List Byte}
    {shortest otherShortest : Bool} (hleft : Encodes widen depth left raw shortest)
    (hright : Encodes widen depth right raw otherShortest) : left = right :=
  (prefixUnique_encodes depth hleft hright (congrArg (· ++ []) rfl)).1

end Unique

end Lxmf
