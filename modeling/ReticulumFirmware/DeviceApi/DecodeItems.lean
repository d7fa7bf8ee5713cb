import ReticulumFirmware.DeviceApi.Decode

/-!
# What the decoders read

Every helper that succeeds has read items: the value that it returns is what the tokens spell.
-/

namespace DeviceApi

open Nor (Byte)
open Cbor
open Decode

variable {reader : Reader} {next : List Byte → Option (Token × List Byte)}
  {α σ γ : Type} {input rest : List Byte}

section Helpers

/-- A length is decoded exactly where it is definite. -/
theorem definite_eq_ok {read : List Byte → Option (Option ℕ × List Byte)} {length : ℕ} :
    definite read input = .ok (length, rest) ↔ read input = some (some length, rest) := by
  unfold definite
  rw [bind_eq_ok]
  constructor
  · rintro ⟨length?, middle, hread, hsome⟩
    obtain ⟨rfl, rfl⟩ := orFail_eq_ok.mp hsome
    exact primitive_eq_ok.mp hread
  · exact fun h => ⟨some length, rest, primitive_eq_ok.mpr h, orFail_eq_ok.mpr ⟨rfl, rfl⟩⟩

/-- The head of a map is decoded exactly where it is definite and within the bound. -/
theorem decodeMapLen_eq_ok {entries : ℕ} : decodeMapLen reader input = .ok (entries, rest) ↔
    reader.map input = some (some entries, rest) ∧ entries ≤ maxMapEntries := by
  unfold decodeMapLen
  rw [bind_eq_ok]
  constructor
  · rintro ⟨count, middle, hcount, h⟩
    split_ifs at h with hmany
    · exact absurd h fail_ne_ok
    · obtain ⟨rfl, rfl⟩ := pure_eq_ok.mp h
      exact ⟨definite_eq_ok.mp hcount, not_lt.mp hmany⟩
  · rintro ⟨hread, hfits⟩
    refine ⟨entries, rest, definite_eq_ok.mpr hread, ?_⟩
    rw [if_neg (not_lt.mpr hfits)]
    exact pure_eq_ok.mpr ⟨rfl, rfl⟩

/-- The head of an array is decoded exactly where it tells the expected length. -/
theorem decodeExactArrayLen_eq_ok {expected length : ℕ} {field : RequiredField} :
    decodeExactArrayLen reader expected field input = .ok (length, rest) ↔
      reader.array input = some (some expected, rest) ∧ length = expected := by
  unfold decodeExactArrayLen
  rw [bind_eq_ok]
  constructor
  · rintro ⟨actual, middle, hactual, h⟩
    split_ifs at h with hne
    · exact absurd h fail_ne_ok
    · obtain ⟨rfl, rfl⟩ := pure_eq_ok.mp h
      rw [not_not.mp hne] at hactual
      exact ⟨definite_eq_ok.mp hactual, rfl⟩
  · rintro ⟨hread, rfl⟩
    refine ⟨length, rest, definite_eq_ok.mpr hread, ?_⟩
    rw [if_neg (not_not.mpr rfl)]
    exact pure_eq_ok.mpr ⟨rfl, rfl⟩

/-- Fixed bytes are decoded exactly where a byte string of their length is read. -/
theorem decodeFixedBytes_eq_ok {n : ℕ} {field : RequiredField} {bytes : Vector Byte n} :
    decodeFixedBytes reader n field input = .ok (bytes, rest) ↔
      reader.bytes input = some (bytes.toList, rest) := by
  unfold decodeFixedBytes
  rw [bind_eq_ok]
  constructor
  · rintro ⟨content, middle, hcontent, h⟩
    split_ifs at h with hlength
    · obtain ⟨rfl, rfl⟩ := pure_eq_ok.mp h
      exact primitive_eq_ok.mp hcontent
    · exact absurd h fail_ne_ok
  · intro h
    refine ⟨bytes.toList, rest, primitive_eq_ok.mpr h, ?_⟩
    rw [dif_pos bytes.length_toList]
    exact pure_eq_ok.mpr ⟨rfl, rfl⟩

/-- A field passes exactly where it was not present. -/
theorem rejectDuplicate_eq_ok {present : Bool} {field : RequiredField} {result : Unit} :
    rejectDuplicate present field input = .ok (result, rest) ↔ present = false ∧ input = rest := by
  unfold rejectDuplicate
  cases present with
  | true => simp [fail]
  | false => simp [pure_eq_ok]

/-- A required field passes exactly where it is present. -/
theorem require_eq_ok {value : Option α} {field : RequiredField} {a : α} :
    require value field input = .ok (a, rest) ↔ value = some a ∧ input = rest :=
  orFail_eq_ok

end Helpers

section Items

/-- The token of an atom is read as that item. -/
theorem reads_atom {token : Token} (hnext : next input = some (token, rest))
    (htoken : token.IsAtom) : Reads next input [.atom token] rest :=
  .atom hnext htoken .nil

/-- The head of an array and its items are read as the array. -/
theorem reads_array {inner : List Item} {body : List Byte}
    (hnext : next input = some (.array inner.length, body)) (hbody : Reads next body inner rest) :
    Reads next input [.array inner] rest :=
  .array hnext hbody .nil

/-- The head of a map and its entries are read as the map. -/
theorem reads_map {entries : List (Item × Item)} {body : List Byte}
    (hnext : next input = some (.map entries.length, body))
    (hbody : Reads next body (Item.interleave entries) rest) :
    Reads next input [.map entries] rest :=
  .map hnext hbody .nil

/-- Fixed bytes are decoded from the byte string that holds them. -/
theorem reads_fixedBytes (h : reader.Lawful next) {n : ℕ} {field : RequiredField}
    {bytes : Vector Byte n} (hdecode : decodeFixedBytes reader n field input = .ok (bytes, rest)) :
    Reads next input [.bytes bytes.toList] rest :=
  reads_atom ((h.bytes _ _ _).mp (decodeFixedBytes_eq_ok.mp hdecode)) (Or.inl rfl)

/-- A number of one byte is decoded from the item that holds it. -/
theorem reads_u8 (h : reader.Lawful next) {value : BitVec 8}
    (hdecode : primitive reader.u8 input = .ok (value, rest)) :
    Reads next input [.uint value.toNat] rest :=
  reads_atom ((h.u8 _ _ _).mp (primitive_eq_ok.mp hdecode)) (Or.inl rfl)

/-- A number of two bytes is decoded from the item that holds it. -/
theorem reads_u16 (h : reader.Lawful next) {value : BitVec 16}
    (hdecode : primitive reader.u16 input = .ok (value, rest)) :
    Reads next input [.uint value.toNat] rest :=
  reads_atom ((h.u16 _ _ _).mp (primitive_eq_ok.mp hdecode)) (Or.inl rfl)

/-- A number of eight bytes is decoded from the item that holds it. -/
theorem reads_u64 (h : reader.Lawful next) {value : BitVec 64}
    (hdecode : primitive reader.u64 input = .ok (value, rest)) :
    Reads next input [.uint value.toNat] rest :=
  reads_atom ((h.u64 _ _ _).mp (primitive_eq_ok.mp hdecode)) (Or.inl rfl)

/-- A signed number is decoded from the item that holds it. -/
theorem reads_i16 (h : reader.Lawful next) {value : BitVec 16}
    (hdecode : primitive reader.i16 input = .ok (value, rest)) :
    Reads next input [.int value.toInt] rest :=
  reads_atom ((h.i16 _ _ _).mp (primitive_eq_ok.mp hdecode)) (Token.isAtom_int _)

/-- A truth value is decoded from the item that holds it. -/
theorem reads_bool (h : reader.Lawful next) {value : Bool}
    (hdecode : primitive reader.bool input = .ok (value, rest)) :
    Reads next input [.bool value] rest :=
  reads_atom ((h.bool _ _ _).mp (primitive_eq_ok.mp hdecode)) (Or.inl rfl)

/-- Whether an item is what an optional value is read from: null exactly if it is absent. -/
def OptionalItem (shape : α → Item → Prop) : Option α → Item → Prop
  | none, item => item = .null
  | some value, item => item ≠ .null ∧ shape value item

/-- A value that may be null is decoded from the null or from the item that shows it. -/
theorem reads_nullable (h : reader.Lawful next) {decode : Decode α} (shape : α → Item → Prop)
    (hdecode : ∀ input value rest, decode input = .ok (value, rest) →
      ∃ item, Reads next input [item] rest ∧ shape value item)
    {value : Option α} (hvalue : nullable reader decode input = .ok (value, rest)) :
    ∃ item, Reads next input [item] rest ∧ OptionalItem shape value item := by
  unfold nullable at hvalue
  obtain ⟨kind, middle, hkind, hvalue⟩ := bind_eq_ok.mp hvalue
  obtain ⟨hdatatype, rfl⟩ := peek_eq_ok.mp hkind
  split_ifs at hvalue with hnull
  · obtain ⟨_, hread, rfl⟩ := map_eq_ok.mp hvalue
    have hnext := (h.null _ _).mp (primitive_eq_ok.mp hread)
    exact ⟨.null, reads_atom hnext (Or.inr rfl), rfl⟩
  · obtain ⟨inner, hread, rfl⟩ := map_eq_ok.mp hvalue
    obtain ⟨item, hitem, hshape⟩ := hdecode _ _ _ hread
    refine ⟨item, hitem, ?_, hshape⟩
    rintro rfl
    -- the type that was seen before is that of the token
    cases hitem with
    | atom hnext _ _ =>
      rw [h.datatype _ _ _ hnext, Option.some.injEq] at hdatatype
      exact hnull hdatatype.symm

/-- What the steps of a loop read one after the other. -/
theorem reads_times {step : σ → Decode σ} (spell : γ → List Item) (P : List γ → σ → Prop)
    (hstep : ∀ read state input state' rest, P read state →
      step state input = .ok (state', rest) →
      ∃ chunk, Reads next input (spell chunk) rest ∧ P (read ++ [chunk]) state')
    {count : ℕ} (read : List γ) {state state' : σ} (hstate : P read state)
    (h : times step count state input = .ok (state', rest)) :
    ∃ chunks : List γ, chunks.length = count ∧ Reads next input (chunks.flatMap spell) rest ∧
      P (read ++ chunks) state' := by
  induction count generalizing read state input with
  | zero =>
    obtain ⟨rfl, rfl⟩ := pure_eq_ok.mp h
    exact ⟨[], rfl, .nil, by rwa [List.append_nil]⟩
  | succ count ih =>
    obtain ⟨state₁, middle, hfirst, hrest⟩ := bind_eq_ok.mp h
    obtain ⟨chunk, hchunk, hnext⟩ := hstep _ _ _ _ _ hstate hfirst
    obtain ⟨chunks, hlength, hchunks, hlast⟩ := ih _ hnext hrest
    rw [List.append_assoc, List.singleton_append] at hlast
    exact ⟨chunk :: chunks, by rw [List.length_cons, hlength], hchunk.append hchunks, hlast⟩

/-- Passing over an item reads it, and has gone one level deeper than inside it. -/
theorem reads_skipItem (h : reader.Lawful next) {child : Option (Decode Unit)} {bound : ℕ}
    (hchild : ∀ skip, child = some skip → 0 < bound ∧ ∀ input rest, skip input = .ok ((), rest) →
      ∃ item, item.depth < bound ∧ Reads next input [item] rest)
    (hskip : skipItem reader child input = .ok ((), rest)) :
    ∃ item, item.depth ≤ bound ∧ Reads next input [item] rest := by
  unfold skipItem at hskip
  obtain ⟨kind, middle, hkind, hskip⟩ := bind_eq_ok.mp hskip
  obtain ⟨hdatatype, rfl⟩ := peek_eq_ok.mp hkind
  cases kind with
  | indefinite => exact absurd hskip fail_ne_ok
  | invalid => exact absurd hskip fail_ne_ok
  | null =>
    obtain ⟨token, htoken, hnext⟩ :=
      (h.skip _ _ (Or.inr hdatatype)).mp (primitive_eq_ok.mp hskip)
    exact ⟨.atom token, Nat.zero_le bound, reads_atom hnext htoken⟩
  | scalar =>
    obtain ⟨token, htoken, hnext⟩ :=
      (h.skip _ _ (Or.inl hdatatype)).mp (primitive_eq_ok.mp hskip)
    exact ⟨.atom token, Nat.zero_le bound, reads_atom hnext htoken⟩
  | array =>
    obtain ⟨skip, middle, henter, hskip⟩ := bind_eq_ok.mp hskip
    obtain ⟨hsome, rfl⟩ := orFail_eq_ok.mp henter
    obtain ⟨entries, body, hentries, hskip⟩ := bind_eq_ok.mp hskip
    obtain ⟨hpos, hchild⟩ := hchild skip hsome
    obtain ⟨items, hlength, hitems, hdepths⟩ := reads_times (fun item => [item])
      (fun read _ => Item.depths read < bound)
      (fun _ _ _ _ _ hread hstep => by
        obtain ⟨item, hdepth, hitem⟩ := hchild _ _ hstep
        rw [← Item.depths_singleton] at hdepth
        exact ⟨item, hitem, Item.depths_append _ _ ▸ max_lt hread hdepth⟩)
      [] hpos hskip
    rw [List.flatMap_singleton'] at hitems
    rw [definite_eq_ok, h.array, ← hlength] at hentries
    exact ⟨.array items, Nat.succ_le_of_lt hdepths, reads_array hentries hitems⟩
  | map =>
    obtain ⟨skip, middle, henter, hskip⟩ := bind_eq_ok.mp hskip
    obtain ⟨hsome, rfl⟩ := orFail_eq_ok.mp henter
    obtain ⟨entries, body, hentries, hskip⟩ := bind_eq_ok.mp hskip
    obtain ⟨hpos, hchild⟩ := hchild skip hsome
    obtain ⟨items, hlength, hitems, hdepths⟩ := reads_times
      (fun entry : Item × Item => [entry.1, entry.2])
      (fun read _ => Item.entryDepths read < bound)
      (fun _ _ _ _ _ hread hstep => by
        obtain ⟨_, middle, hkey, hvalue⟩ := bind_eq_ok.mp hstep
        obtain ⟨key, hkeyDepth, hkey⟩ := hchild _ _ hkey
        obtain ⟨value, hvalueDepth, hvalue⟩ := hchild _ _ hvalue
        have hentry : Item.entryDepths [(key, value)] < bound := by
          rw [Item.entryDepths_singleton]
          exact max_lt hkeyDepth hvalueDepth
        exact ⟨(key, value), hkey.append hvalue,
          Item.entryDepths_append _ _ ▸ max_lt hread hentry⟩) [] hpos hskip
    rw [definite_eq_ok, h.map, ← hlength] at hentries
    exact ⟨.map items, Nat.succ_le_of_lt hdepths, reads_map hentries hitems⟩
  | tag =>
    obtain ⟨skip, middle, henter, hskip⟩ := bind_eq_ok.mp hskip
    obtain ⟨hsome, rfl⟩ := orFail_eq_ok.mp henter
    obtain ⟨value, body, htag, hskip⟩ := bind_eq_ok.mp hskip
    obtain ⟨item, hdepth, hitem⟩ := (hchild skip hsome).2 _ _ hskip
    exact ⟨.tag value item, Nat.succ_le_of_lt hdepth,
      .tag ((h.tag _ _ _).mp (primitive_eq_ok.mp htag)) hitem .nil⟩

/-- A skip passes exactly one item, no deeper than allowed. -/
theorem reads_skipWithin (h : reader.Lawful next) {remaining : ℕ} {input rest : List Byte}
    (hskip : skipWithin reader remaining input = .ok ((), rest)) :
    ∃ item, item.depth ≤ remaining ∧ Reads next input [item] rest := by
  induction remaining generalizing input rest with
  | zero =>
    refine reads_skipItem h (fun skip hnone => ?_) hskip
    cases hnone
  | succ remaining ih =>
    refine reads_skipItem h (fun skip hsome => ⟨Nat.succ_pos remaining, ?_⟩) hskip
    intro input rest hchild
    cases hsome
    obtain ⟨item, hdepth, hitem⟩ := ih hchild
    exact ⟨item, Nat.lt_succ_of_le hdepth, hitem⟩

end Items

end DeviceApi
