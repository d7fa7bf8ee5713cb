import ReticulumFirmware.Collections.Fold
import ReticulumFirmware.Nor.Bytes

/-!
# DNS queries of the public fallback

`dns_wire` of the firmware: which host names may be sent to a public resolver, and the encoding
of one A query. A host name is given by the bytes of its text. The names that a query carries are
read back by the grammar of a DNS message.
-/

namespace Dns

open Nor

section Model

/-- The full stop between two labels. -/
def dot : Byte := 0x2e#8

/-- A host name without one trailing full stop. -/
def stripDot (hostname : List Byte) : List Byte :=
  if hostname.getLast? = some dot then hostname.dropLast else hostname

/-- A letter in lower case. -/
def toAsciiLowercase (byte : Byte) : Byte :=
  if 0x41 ≤ byte.toNat ∧ byte.toNat ≤ 0x5a then byte + 0x20#8 else byte

/-- Whether two texts differ in the case of letters only. -/
def eqIgnoreAsciiCase (xs ys : List Byte) : Bool :=
  xs.map toAsciiLowercase == ys.map toAsciiLowercase

/-- Whether a host name ends with the labels of a suffix. -/
def hostnameHasSuffix (hostname suffix : List Byte) : Bool :=
  if hostname.length < suffix.length then false
  else
    let start := hostname.length - suffix.length
    (start == 0 || hostname[start - 1]? == some dot) &&
      eqIgnoreAsciiCase (hostname.drop start) suffix

/-- Suffixes of names that stay with the resolvers of the local network. -/
def privateSuffixes : List (List Byte) :=
  [ascii "local", ascii "localhost", ascii "home.arpa", ascii "internal", ascii "lan",
    ascii "localdomain"]

/-- Whether a public resolver may be asked for the name. -/
def allowsPublicFallback (hostname : List Byte) : Bool :=
  (stripDot hostname).contains dot &&
    !privateSuffixes.any (hostnameHasSuffix (stripDot hostname))

/-- Why a query is not encoded. -/
inductive DnsQueryEncodeError where
  | invalidHostname
  | bufferTooSmall
  deriving DecidableEq

/-- The labels of a host name. -/
def labels (hostname : List Byte) : List (List Byte) := (stripDot hostname).splitOn dot

/-- The bytes of the header. -/
def dnsHeaderBytes : ℕ := 12

/-- The bytes of the type and the class of a question. -/
def dnsQuestionSuffixBytes : ℕ := 4

/-- Count the bytes of one label more. -/
def requireLabel (usizeValues required : ℕ) (label : List Byte) : Except DnsQueryEncodeError ℕ :=
  if label = [] ∨ 63 < label.length then .error .invalidHostname
  else if required + (1 + label.length) < usizeValues then .ok (required + (1 + label.length))
  else .error .bufferTooSmall

/-- The bytes of the whole query. -/
def requiredBytes (usizeValues : ℕ) (hostname : List Byte) : Except DnsQueryEncodeError ℕ :=
  if stripDot hostname = [] then .error .invalidHostname
  else (labels hostname).foldlM (requireLabel usizeValues)
    (dnsHeaderBytes + dnsQuestionSuffixBytes + 1)

/-- `output[cursor..cursor + bytes.len()].copy_from_slice(bytes)`. -/
def copyInto (output : List Byte) (cursor : ℕ) (bytes : List Byte) : List Byte :=
  output.take cursor ++ bytes ++ output.drop (cursor + bytes.length)

/-- Write bytes at a cursor and move it behind them. -/
def advance (state : List Byte × ℕ) (bytes : List Byte) : List Byte × ℕ :=
  (copyInto state.1 state.2 bytes, state.2 + bytes.length)

/-- Write the length of a label and the label. -/
def writeLabel (state : List Byte × ℕ) (label : List Byte) : List Byte × ℕ :=
  advance (advance state [BitVec.ofNat 8 label.length]) label

/-- The header of a query over a cleared buffer. -/
def writeHeader (transactionId : BitVec 16) (required : ℕ) (output : List Byte) : List Byte :=
  copyInto (copyInto (copyInto (List.replicate required 0 ++ output.drop required) 0
    (beBytes 2 transactionId.toNat)) 2 (beBytes 2 0x0100)) 4 (beBytes 2 1)

/-- Write the header, the labels and the end of the question. -/
def writeQuery (hostname : List Byte) (transactionId : BitVec 16) (required : ℕ)
    (output : List Byte) : List Byte × ℕ :=
  advance (advance (advance
    ((labels hostname).foldl writeLabel (writeHeader transactionId required output, dnsHeaderBytes))
    [0]) (beBytes 2 1)) (beBytes 2 1)

/-- Encode one query into a buffer: the length of the query and the buffer afterwards. -/
def encodeAQuery (usizeValues : ℕ) (hostname : List Byte) (transactionId : BitVec 16)
    (output : List Byte) : Except DnsQueryEncodeError ℕ × List Byte :=
  match requiredBytes usizeValues hostname with
  | .error error => (.error error, output)
  | .ok required =>
    if output.length < required then (.error .bufferTooSmall, output)
    else
      let written := writeQuery hostname transactionId required output
      (.ok written.2, written.1)

end Model

section Grammar

/-- The labels of a name: 1 to 63 bytes each, behind its length, up to a zero. -/
def parseLabels : List Byte → Option (List (List Byte) × List Byte)
  | [] => none
  | length :: rest =>
    if length = 0 then some ([], rest)
    else if 63 < length.toNat ∨ rest.length < length.toNat then none
    else (parseLabels (rest.drop length.toNat)).map fun (labels, tail) =>
      (rest.take length.toNat :: labels, tail)
  termination_by bytes => bytes.length
  decreasing_by
    rw [List.length_drop, List.length_cons]
    omega

/-- A name of a message: its labels, and not more than 255 octets with their lengths and the
zero. -/
def parseName (bytes : List Byte) : Option (List (List Byte) × List Byte) :=
  (parseLabels bytes).filter fun parsed => bytes.length - parsed.2.length ≤ 255

/-- A message with one question. -/
structure DnsQuery where
  transactionId : ℕ
  flags : ℕ
  questions : ℕ
  answers : ℕ
  authorities : ℕ
  additionals : ℕ
  name : List (List Byte)
  queryType : ℕ
  queryClass : ℕ
  deriving DecidableEq

/-- Read a message that consists of its header and one question. -/
def parseQuery (message : List Byte) : Option DnsQuery :=
  if message.length < 12 then none
  else match parseName (message.drop 12) with
    | none => none
    | some (name, tail) =>
      if tail.length = 4 then
        some ⟨beNat (slice message 0 2), beNat (slice message 2 2), beNat (slice message 4 2),
          beNat (slice message 6 2), beNat (slice message 8 2), beNat (slice message 10 2), name,
          beNat (slice tail 0 2), beNat (slice tail 2 2)⟩
      else none

/-- A standard query for the IPv4 addresses of a name, with recursion desired. -/
def aQuery (transactionId : BitVec 16) (name : List (List Byte)) : DnsQuery :=
  ⟨transactionId.toNat, 0x0100, 1, 0, 0, 0, name, 1, 1⟩

/-- The private suffixes label by label. -/
def privateNames : List (List (List Byte)) :=
  [[ascii "local"], [ascii "localhost"], [ascii "home", ascii "arpa"], [ascii "internal"],
    [ascii "lan"], [ascii "localdomain"]]

/-- They are the suffixes that the policy tests. -/
theorem privateNames_eq : privateNames = privateSuffixes.map fun suffix => suffix.splitOn dot := by
  decide

/-- Two names are the same but for the case of their letters. -/
def SameName (name name' : List (List Byte)) : Prop :=
  name.map (List.map toAsciiLowercase) = name'.map (List.map toAsciiLowercase)

end Grammar

section Encoding

variable {usizeValues : ℕ} {hostname output : List Byte} {transactionId : BitVec 16}

/-- A label that a name can carry. -/
def ValidLabel (label : List Byte) : Prop := 1 ≤ label.length ∧ label.length ≤ 63

/-- Labels behind their lengths. -/
def nameBytes (name : List (List Byte)) : List Byte :=
  name.flatMap fun label => BitVec.ofNat 8 label.length :: label

/-- A name is written label by label. -/
theorem nameBytes_cons (label : List Byte) (name : List (List Byte)) :
    nameBytes (label :: name) = BitVec.ofNat 8 label.length :: label ++ nameBytes name :=
  List.flatMap_cons

/-- A label that passes is valid and takes its length and one byte. -/
theorem requireLabel_ok {required result : ℕ} {label : List Byte}
    (h : requireLabel usizeValues required label = .ok result) :
    ValidLabel label ∧ result = required + (1 + label.length) := by
  unfold requireLabel at h
  split_ifs at h with hlabel husize
  push Not at hlabel
  exact ⟨⟨List.length_pos_of_ne_nil hlabel.1, hlabel.2⟩, (Except.ok.inj h).symm⟩

/-- The count of the bytes accepts valid labels only. -/
theorem foldlM_requireLabel {name : List (List Byte)} {required result : ℕ}
    (h : name.foldlM (requireLabel usizeValues) required = .ok result) :
    (∀ label ∈ name, ValidLabel label) ∧ result = required + (nameBytes name).length := by
  induction name generalizing required with
  | nil =>
    cases h
    exact ⟨List.forall_mem_nil _, rfl⟩
  | cons label name ih =>
    rw [List.foldlM_cons] at h
    obtain ⟨next, hnext, hrest⟩ := Except.bind_eq_ok.mp h
    obtain ⟨hlabel, rfl⟩ := requireLabel_ok hnext
    obtain ⟨hname, hresult⟩ := ih hrest
    refine ⟨List.forall_mem_cons.mpr ⟨hlabel, hname⟩, ?_⟩
    rw [hresult, nameBytes_cons, List.length_append, List.length_cons]
    omega

/-- Where the length is known, every label is valid and the query has that length. -/
theorem requiredBytes_ok {required : ℕ} (h : requiredBytes usizeValues hostname = .ok required) :
    (∀ label ∈ labels hostname, ValidLabel label) ∧
      required = 17 + (nameBytes (labels hostname)).length := by
  unfold requiredBytes at h
  split_ifs at h
  exact foldlM_requireLabel h

/-- Copying behind a prefix replaces what follows it. -/
theorem copyInto_append (before after bytes : List Byte) {cursor : ℕ}
    (hcursor : cursor = before.length) :
    copyInto (before ++ after) cursor bytes = before ++ bytes ++ after.drop bytes.length := by
  rw [hcursor, copyInto, List.take_left, List.drop_append, List.drop_eq_nil_of_le (by omega),
    List.nil_append, Nat.add_sub_cancel_left]

/-- Bytes are written behind what is written. -/
theorem advance_append (before after bytes : List Byte) :
    advance (before ++ after, before.length) bytes =
      ((before ++ bytes) ++ after.drop bytes.length, (before ++ bytes).length) := by
  rw [advance, copyInto_append before after bytes rfl, List.length_append]

/-- Labels are written one behind another. -/
theorem foldl_writeLabel (before after : List Byte) (name : List (List Byte)) :
    name.foldl writeLabel (before ++ after, before.length) =
      ((before ++ nameBytes name) ++ after.drop (nameBytes name).length,
        (before ++ nameBytes name).length) := by
  induction name generalizing before after with
  | nil => simp [nameBytes]
  | cons label name ih =>
    rw [List.foldl_cons, writeLabel, advance_append, advance_append, ih, nameBytes_cons]
    simp [List.append_assoc, List.drop_drop, Nat.add_comm, Nat.add_left_comm, Nat.add_assoc]

/-- The header of a query. -/
def headerBytes (transactionId : BitVec 16) : List Byte :=
  beBytes 2 transactionId.toNat ++ beBytes 2 0x0100 ++ beBytes 2 1 ++ List.replicate 6 0

/-- The header has twelve bytes. -/
theorem length_headerBytes : (headerBytes transactionId).length = 12 := by
  simp [headerBytes]

/-- The header is written over a cleared front. -/
theorem writeHeader_eq {rest : ℕ} :
    writeHeader transactionId (12 + rest) output =
      headerBytes transactionId ++ (List.replicate rest 0 ++ output.drop (12 + rest)) := by
  have hzeros : List.replicate (12 + rest) (0 : Byte) =
      List.replicate 12 0 ++ List.replicate rest 0 := List.replicate_add ..
  rw [writeHeader, hzeros, List.append_assoc]
  generalize List.replicate rest 0 ++ output.drop (12 + rest) = after
  have hfirst : copyInto (List.replicate 12 0 ++ after) 0 (beBytes 2 transactionId.toNat) =
      beBytes 2 transactionId.toNat ++ (List.replicate 12 0 ++ after).drop 2 :=
    copyInto_append [] _ _ rfl
  rw [hfirst, copyInto_append _ _ _ (by simp), copyInto_append _ _ _ (by simp)]
  simp [headerBytes, List.replicate]

/-- The bytes of a whole query. -/
def queryBytes (transactionId : BitVec 16) (name : List (List Byte)) : List Byte :=
  headerBytes transactionId ++ nameBytes name ++ [0] ++ beBytes 2 1 ++ beBytes 2 1

/-- A query has 17 bytes and its name. -/
theorem length_queryBytes (name : List (List Byte)) :
    (queryBytes transactionId name).length = 17 + (nameBytes name).length := by
  simp [queryBytes, length_headerBytes]
  omega

/-- A query is written to the front of the buffer. -/
theorem writeQuery_eq {required : ℕ}
    (hrequired : required = 17 + (nameBytes (labels hostname)).length) :
    writeQuery hostname transactionId required output =
      (queryBytes transactionId (labels hostname) ++ output.drop required, required) := by
  obtain ⟨rest, rfl⟩ : ∃ rest, required = 12 + rest := ⟨required - 12, by omega⟩
  have hrest : rest = (nameBytes (labels hostname)).length + 5 := by omega
  rw [writeQuery, writeHeader_eq, dnsHeaderBytes, ← length_headerBytes, foldl_writeLabel,
    advance_append, advance_append, advance_append]
  simp [queryBytes, length_headerBytes, List.drop_drop, hrest, List.drop_append, List.append_assoc]

end Encoding

section Reading

variable {transactionId : BitVec 16}

/-- The length of a valid label fits into a byte. -/
theorem toNat_length {label : List Byte} (h : ValidLabel label) :
    (BitVec.ofNat 8 label.length).toNat = label.length := by
  rw [BitVec.toNat_ofNat, Nat.mod_eq_of_lt (by have := h.2; omega)]

/-- Written labels are read back, and nothing behind them is consumed. -/
theorem parseLabels_nameBytes {name : List (List Byte)} (h : ∀ label ∈ name, ValidLabel label)
    (tail : List Byte) : parseLabels (nameBytes name ++ 0 :: tail) = some (name, tail) := by
  induction name with
  | nil =>
    rw [nameBytes, List.flatMap_nil, List.nil_append, parseLabels]
    simp
  | cons label name ih =>
    obtain ⟨hlabel, hname⟩ := List.forall_mem_cons.mp h
    have hlength := toNat_length hlabel
    have hnonzero : BitVec.ofNat 8 label.length ≠ (0 : Byte) := by
      intro hzero
      rw [hzero] at hlength
      have := hlabel.1
      simp at hlength
      omega
    rw [nameBytes_cons, List.append_assoc, List.cons_append, parseLabels, if_neg hnonzero, hlength,
      if_neg (by rw [List.length_append]; have := hlabel.2; omega), List.drop_left, ih hname,
      List.take_left]
    rfl

/-- A written name is read back if it has at most 255 octets. -/
theorem parseName_nameBytes {name : List (List Byte)} (h : ∀ label ∈ name, ValidLabel label)
    (tail : List Byte) : parseName (nameBytes name ++ 0 :: tail) =
      if (nameBytes name).length + 1 ≤ 255 then some (name, tail) else none := by
  have hoctets : (nameBytes name ++ 0 :: tail).length - tail.length =
      (nameBytes name).length + 1 := by
    rw [List.length_append, List.length_cons]
    omega
  rw [parseName, parseLabels_nameBytes h, Option.filter_some]
  simp only [hoctets, decide_eq_true_eq]

/-- The question of a query follows its header. -/
theorem drop_queryBytes (name : List (List Byte)) : (queryBytes transactionId name).drop 12 =
    nameBytes name ++ 0 :: (beBytes 2 1 ++ beBytes 2 1) := by
  rw [queryBytes, List.append_assoc, List.append_assoc, List.append_assoc, List.drop_append,
    List.drop_eq_nil_of_le (by rw [length_headerBytes]), length_headerBytes]
  simp

/-- The bytes of a query are read back as the query if its name is not too long. -/
theorem parseQuery_queryBytes {name : List (List Byte)} (h : ∀ label ∈ name, ValidLabel label) :
    parseQuery (queryBytes transactionId name) =
      if (nameBytes name).length + 1 ≤ 255 then some (aQuery transactionId name) else none := by
  have hid : beNat (beBytes 2 transactionId.toNat) = transactionId.toNat :=
    beNat_beBytes_of_lt (transactionId.isLt.trans_le (by decide))
  have hheader : ∀ offset, offset + 2 ≤ 12 → slice (queryBytes transactionId name) offset 2 =
      slice (headerBytes transactionId) offset 2 := by
    intro offset hoffset
    rw [queryBytes, List.append_assoc, List.append_assoc, List.append_assoc, slice, slice,
      List.drop_append_of_le_length (by rw [length_headerBytes]; omega),
      List.take_append_of_le_length (by rw [List.length_drop, length_headerBytes]; omega)]
  rw [parseQuery, if_neg (by rw [length_queryBytes]; omega), drop_queryBytes,
    parseName_nameBytes h, hheader 0 (by omega), hheader 2 (by omega), hheader 4 (by omega),
    hheader 6 (by omega),
    hheader 8 (by omega), hheader 10 (by omega)]
  have hfirst : slice (headerBytes transactionId) 0 2 = beBytes 2 transactionId.toNat := by
    rw [headerBytes, List.append_assoc, List.append_assoc]
    exact List.take_left' (length_beBytes ..)
  rw [hfirst, hid]
  have hrest : (headerBytes transactionId).drop 2 =
      beBytes 2 0x0100 ++ (beBytes 2 1 ++ List.replicate 6 0) := by
    rw [headerBytes, List.append_assoc, List.append_assoc]
    exact List.drop_left' (length_beBytes ..)
  have hslice : ∀ offset, slice (headerBytes transactionId) (2 + offset) 2 =
      slice (beBytes 2 0x0100 ++ (beBytes 2 1 ++ List.replicate 6 0)) offset 2 := by
    intro offset
    rw [slice, ← List.drop_drop, hrest, slice]
  rw [hslice 0, hslice 2, hslice 4, hslice 6, hslice 8]
  split_ifs
  · rfl
  · rfl

end Reading

section Privacy

variable {usizeValues : ℕ} {hostname output output' : List Byte} {transactionId : BitVec 16} {n : ℕ}

/-- Groups of pieces are joined by the separator between them. -/
theorem intercalate_append {α : Type} (separator : List α) {before after : List (List α)}
    (hbefore : before ≠ []) (hafter : after ≠ []) :
    separator.intercalate (before ++ after) =
      separator.intercalate before ++ separator ++ separator.intercalate after := by
  induction before with
  | nil => exact absurd rfl hbefore
  | cons first before ih =>
    cases before with
    | nil =>
      rw [List.singleton_append, List.intercalate_cons_of_ne_nil hafter,
        List.intercalate_singleton]
    | cons second before =>
      rw [List.cons_append, List.intercalate_cons_of_ne_nil (by simp),
        ih (List.cons_ne_nil _ _), List.intercalate_cons_cons]
      simp [List.append_assoc]

/-- A map of joined pieces joins the mapped pieces. -/
theorem map_intercalate {α β : Type} (f : α → β) (separator : List α) (pieces : List (List α)) :
    (separator.intercalate pieces).map f =
      (separator.map f).intercalate (pieces.map (List.map f)) := by
  induction pieces with
  | nil => rfl
  | cons piece pieces ih =>
    cases pieces with
    | nil => simp
    | cons second pieces =>
      rw [List.intercalate_cons_cons, List.map_append, List.map_append, ih, List.map_cons,
        List.map_cons, List.map_cons, List.intercalate_cons_cons]

/-- Names that differ in case only have texts that differ in case only. -/
theorem SameName.eqIgnoreAsciiCase {name name' : List (List Byte)} (h : SameName name name') :
    eqIgnoreAsciiCase ([dot].intercalate name) ([dot].intercalate name') = true := by
  rw [Dns.eqIgnoreAsciiCase, map_intercalate, map_intercalate, h]
  exact beq_self_eq_true _

/-- A name that ends in the labels of a suffix has the suffix. -/
theorem hostnameHasSuffix_of_labels {before after name : List (List Byte)} {suffix : List Byte}
    (hafter : after ≠ []) (hsame : SameName after name)
    (hsuffix : [dot].intercalate name = suffix) :
    hostnameHasSuffix ([dot].intercalate (before ++ after)) suffix = true := by
  have hcase := hsame.eqIgnoreAsciiCase
  rw [hsuffix] at hcase
  have hlength : ([dot].intercalate after).length = suffix.length := by
    have hmap := congrArg List.length (eq_of_beq hcase)
    rwa [List.length_map, List.length_map] at hmap
  cases before with
  | nil =>
    rw [List.nil_append, hostnameHasSuffix, hlength, if_neg (by omega), Nat.sub_self]
    exact hcase
  | cons first before =>
    rw [intercalate_append _ (List.cons_ne_nil _ _) hafter, hostnameHasSuffix,
      if_neg (by simp only [List.length_append]; omega)]
    generalize [dot].intercalate (first :: before) = head
    have hstart : (head ++ [dot] ++ [dot].intercalate after).length - suffix.length =
        head.length + 1 := by
      simp only [List.length_append, List.length_singleton]
      omega
    have hdot : (head ++ [dot] ++ [dot].intercalate after)[head.length]? = some dot := by
      rw [List.append_assoc, List.getElem?_append_right (le_refl _), Nat.sub_self]
      rfl
    have hdrop : (head ++ [dot] ++ [dot].intercalate after).drop (head.length + 1) =
        [dot].intercalate after := List.drop_left' (by simp)
    rw [hstart]
    dsimp only
    rw [Nat.add_sub_cancel, hdot, hdrop, hcase]
    simp

/-- The labels joined by dots are the name without its final dot. -/
theorem intercalate_labels (hostname : List Byte) :
    [dot].intercalate (labels hostname) = stripDot hostname := List.intercalate_splitOn dot

/-- Every label costs its length and one octet more. -/
theorem length_nameBytes {name : List (List Byte)} (h : name ≠ []) :
    (nameBytes name).length = ([dot].intercalate name).length + 1 := by
  induction name with
  | nil => exact absurd rfl h
  | cons first name ih =>
    cases name with
    | nil => simp [nameBytes]
    | cons second name =>
      rw [nameBytes_cons, List.length_append, ih (List.cons_ne_nil _ _),
        List.intercalate_cons_cons]
      simp only [List.length_append, List.length_cons, List.length_nil]
      omega

/-- The name of a query takes two octets more than the text of the host name. -/
theorem length_nameBytes_labels (hostname : List Byte) :
    (nameBytes (labels hostname)).length = (stripDot hostname).length + 1 := by
  have hsplit : labels hostname ≠ [] := List.splitOn_ne_nil dot _
  rw [length_nameBytes hsplit, intercalate_labels]

/-- A name with a full stop has two labels at least. -/
theorem two_le_length_labels (h : (stripDot hostname).contains dot = true) :
    2 ≤ (labels hostname).length := by
  obtain ⟨before, after, hsplit⟩ := List.append_of_mem (List.contains_iff_mem.mp h)
  rw [labels, hsplit, List.splitOn_append_cons_self, List.length_append]
  have hbefore := List.length_pos_of_ne_nil (List.splitOn_ne_nil dot before)
  have hafter := List.length_pos_of_ne_nil (List.splitOn_ne_nil dot after)
  omega

/-- No public name ends in the labels of a private suffix. -/
theorem not_private_of_allowed (h : allowsPublicFallback hostname = true) :
    ∀ name ∈ privateNames, ∀ k, ¬ SameName ((labels hostname).drop k) name := by
  intro name hname k hsame
  rw [allowsPublicFallback, Bool.and_eq_true, Bool.not_eq_true'] at h
  have hnonempty : (labels hostname).drop k ≠ [] := by
    intro hnil
    rw [hnil, SameName, List.map_nil] at hsame
    have : name = [] := List.map_eq_nil_iff.mp hsame.symm
    rw [this] at hname
    exact absurd hname (by decide)
  have hsuffix : [dot].intercalate name ∈ privateSuffixes := by
    have hall : ∀ name ∈ privateNames, [dot].intercalate name ∈ privateSuffixes := by decide
    exact hall name hname
  have hhas := @hostnameHasSuffix_of_labels ((labels hostname).take k) _ _ _ hnonempty hsame rfl
  rw [List.take_append_drop, intercalate_labels] at hhas
  exact absurd (List.any_eq_true.mpr ⟨_, hsuffix, hhas⟩) (by rw [h.2]; decide)

/-- What the encoder writes is the query for the labels, in front of an unchanged rest. -/
theorem encodeAQuery_ok
    (hencode : encodeAQuery usizeValues hostname transactionId output = (.ok n, output')) :
    (∀ label ∈ labels hostname, ValidLabel label) ∧ n ≤ output'.length ∧
      output'.length = output.length ∧ output'.drop n = output.drop n ∧
      output'.take n = queryBytes transactionId (labels hostname) := by
  unfold encodeAQuery at hencode
  cases hrequired : requiredBytes usizeValues hostname with
  | error error =>
    rw [hrequired] at hencode
    cases hencode
  | ok required =>
    rw [hrequired] at hencode
    obtain ⟨hvalid, hlength⟩ := requiredBytes_ok hrequired
    dsimp only at hencode
    split_ifs at hencode with hfits
    · cases hencode
    · rw [writeQuery_eq hlength] at hencode
      obtain ⟨hn, rfl⟩ := Prod.mk.inj hencode
      obtain rfl : required = n := Except.ok.inj hn
      have hquery : (queryBytes transactionId (labels hostname)).length = required :=
        (length_queryBytes _).trans hlength.symm
      refine ⟨hvalid, ?_, ?_, List.drop_left' hquery, List.take_left' hquery⟩
      · rw [List.length_append]
        omega
      · rw [List.length_append, List.length_drop]
        omega

/-- The query for a host name is well-formed if the name has at most 253 bytes. -/
theorem parseQuery_labels (hvalid : ∀ label ∈ labels hostname, ValidLabel label) :
    parseQuery (queryBytes transactionId (labels hostname)) =
      if (stripDot hostname).length ≤ 253 then some (aQuery transactionId (labels hostname))
      else none := by
  rw [parseQuery_queryBytes hvalid, length_nameBytes_labels]
  split_ifs with hoctets hlength hlength
  · rfl
  · omega
  · omega
  · rfl

/-- A query that the encoder writes for a public name fits its buffer, and its one question names
exactly the labels of the name. It is a well-formed standard query exactly if the name has at most
253 bytes. None of the private names is a suffix of the labels. -/
theorem private_names_stay (hpublic : allowsPublicFallback hostname = true)
    (hencode : encodeAQuery usizeValues hostname transactionId output = (.ok n, output')) :
    (n ≤ output'.length ∧ output'.length = output.length ∧ output'.drop n = output.drop n) ∧
      (output'.take n).take 12 = headerBytes transactionId ∧
      parseLabels ((output'.take n).drop 12) =
        some (labels hostname, beBytes 2 1 ++ beBytes 2 1) ∧
      parseQuery (output'.take n) =
        (if (stripDot hostname).length ≤ 253 then some (aQuery transactionId (labels hostname))
          else none) ∧
      2 ≤ (labels hostname).length ∧
      (∀ label ∈ labels hostname, 1 ≤ label.length ∧ label.length ≤ 63) ∧
      ∀ name ∈ privateNames, ∀ k, ¬ SameName ((labels hostname).drop k) name := by
  obtain ⟨hvalid, hinside, hlength, hrest, hwritten⟩ := encodeAQuery_ok hencode
  have htwo : 2 ≤ (labels hostname).length := by
    rw [allowsPublicFallback, Bool.and_eq_true] at hpublic
    exact two_le_length_labels hpublic.1
  refine ⟨⟨hinside, hlength, hrest⟩, ?_, ?_, ?_, htwo, hvalid, not_private_of_allowed hpublic⟩
  · rw [hwritten, queryBytes, List.append_assoc, List.append_assoc, List.append_assoc]
    exact List.take_left' length_headerBytes
  · rw [hwritten, drop_queryBytes, parseLabels_nameBytes hvalid]
  · rw [hwritten, parseQuery_labels hvalid]

/-- The query for a short public name. -/
theorem private_names_stay_rmap_world :
    parseQuery ((encodeAQuery (2 ^ 32) (ascii "rmap.world") 0x1234#16 (List.replicate 96 0)).2.take
        28) = some (aQuery 0x1234#16 (labels (ascii "rmap.world"))) :=
  (@private_names_stay (2 ^ 32) (ascii "rmap.world") (List.replicate 96 0)
    (encodeAQuery (2 ^ 32) (ascii "rmap.world") 0x1234#16 (List.replicate 96 0)).2 0x1234#16 28
    (by decide) (by decide)).2.2.2.1.trans (if_pos (by decide))

/-- Five labels of 63 bytes. -/
def longHostname : List Byte := [dot].intercalate (List.replicate 5 (List.replicate 63 0x61))

/-- A public name of 319 bytes is encoded, and the message is not a well-formed query. -/
theorem long_name_not_well_formed :
    allowsPublicFallback longHostname = true ∧
      (encodeAQuery (2 ^ 32) longHostname 0x1234#16 (List.replicate 512 0)).1 = .ok 337 ∧
      parseQuery ((encodeAQuery (2 ^ 32) longHostname 0x1234#16 (List.replicate 512 0)).2.take
        337) = none := by
  have hencoded : (encodeAQuery (2 ^ 32) longHostname 0x1234#16 (List.replicate 512 0)).1 =
      .ok 337 := by decide +kernel
  have hlong : ¬(stripDot longHostname).length ≤ 253 := by decide +kernel
  have hresult : encodeAQuery (2 ^ 32) longHostname 0x1234#16 (List.replicate 512 0) =
      (.ok 337, (encodeAQuery (2 ^ 32) longHostname 0x1234#16 (List.replicate 512 0)).2) := by
    rw [← hencoded]
  obtain ⟨hvalid, -, -, -, hwritten⟩ := encodeAQuery_ok hresult
  refine ⟨by decide +kernel, hencoded, ?_⟩
  rw [hwritten, parseQuery_labels hvalid, if_neg hlong]

end Privacy

end Dns
