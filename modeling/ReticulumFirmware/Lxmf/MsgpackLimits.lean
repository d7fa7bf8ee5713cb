import ReticulumFirmware.Codec.Metered
import ReticulumFirmware.Lxmf.WireGrammar

/-!
# Limits of the scanner

Under higher limits a scan accepts no less, and returns the same. The scanner with its visits
counted: it returns what the scanner does, and visits no more values than its steps allow, also
where it fails. A call that the step limit turns away does not visit its value.
-/

namespace Lxmf

open Nor MessagePack Codec

/-- No limit is higher. -/
structure WireLimits.Le (limits wider : WireLimits) : Prop where
  wireBytes : limits.maxWireBytes ≤ wider.maxWireBytes
  valueBytes : limits.maxValueBytes ≤ wider.maxValueBytes
  containerItems : limits.maxContainerItems ≤ wider.maxContainerItems
  totalValues : limits.maxTotalValues ≤ wider.maxTotalValues
  scanSteps : limits.maxScanSteps ≤ wider.maxScanSteps
  nestingDepth : limits.maxNestingDepth ≤ wider.maxNestingDepth

section Raise

variable {limits wider : WireLimits} {raw : List Byte}

/-- Wider limits allow as many levels. -/
theorem WireLimits.Le.levels (h : limits.Le wider) :
    effectiveMaximum limits ≤ effectiveMaximum wider :=
  min_le_min_right _ h.nestingDepth

/-- Wider limits afford what the narrower ones do. -/
theorem WireLimits.Le.affords (h : limits.Le wider) {scanner : Scanner} {a : Cost}
    (haffords : scanner.Affords limits a) : scanner.Affords wider a := by
  obtain ⟨hvalues, hvisits, hitems, hbytes⟩ := haffords
  exact ⟨hvalues.imp_right fun hle => hle.trans h.totalValues,
    hvisits.imp_right fun hle => hle.trans h.scanSteps, hitems.trans h.containerItems,
    hbytes.trans h.valueBytes⟩

/-- A value that is accepted is accepted under higher limits. -/
theorem WireLimits.Le.validate (h : limits.Le wider) {value : MessagePackValue}
    (hvalid : validateMessagepackValue limits raw = .ok value) :
    validateMessagepackValue wider raw = .ok value := by
  obtain ⟨decoded, shortest, hencodes, ⟨hlength, haffords⟩, rfl⟩ :=
    (@validate_ok_iff _ _ (fun _ => 0) _).mp hvalid
  exact validate_ok_iff.mpr ⟨decoded, shortest, hencodes.mono h.levels,
    ⟨hlength.trans h.wireBytes, h.affords haffords⟩, rfl⟩

/-- Items that are scanned are scanned under higher limits, at the same places. -/
theorem WireLimits.Le.scanPayloadItems (h : limits.Le wider) {count cursor : ℕ}
    {scanner : Scanner} {result : List (List Byte × Canonicality) × ℕ}
    (hscan : scanPayloadItems limits raw count cursor scanner = .ok result) :
    Lxmf.scanPayloadItems wider raw count cursor scanner = .ok result := by
  obtain ⟨items, hcount, hencoded, hraw, haffords, hresult⟩ :=
    (@scanPayloadItems_ok_iff _ _ (fun _ => 0) _ _ _ _).mp hscan
  have hlevels : effectiveMaximum limits - 1 ≤ effectiveMaximum wider - 1 :=
    Nat.sub_le_sub_right h.levels 1
  exact scanPayloadItems_ok_iff.mpr ⟨items, hcount,
    fun item hitem => (hencoded item hitem).mono hlevels, hraw, h.affords haffords, hresult⟩

/-- A payload that is accepted is accepted under higher limits. -/
theorem WireLimits.Le.parsePayload (h : limits.Le wider) {view : PayloadView}
    (hparse : parsePayload limits raw = .ok view) : Lxmf.parsePayload wider raw = .ok view := by
  obtain ⟨head, items, hcount, ⟨hform, hraw, hencoded, haffords⟩, hitems⟩ :=
    (@parsePayload_ok_iff _ _ (fun _ => 0) _).mp hparse
  have hlevels : effectiveMaximum limits - 1 ≤ effectiveMaximum wider - 1 :=
    Nat.sub_le_sub_right h.levels 1
  exact parsePayload_ok_iff.mpr ⟨head, items, hcount, ⟨hform, hraw,
    fun item hitem => (hencoded item hitem).mono hlevels, h.affords haffords⟩, hitems⟩

end Raise

section Metered

variable (limits : WireLimits) (bytes : List Byte)

/-- The scan of one value inside a container, with its visits. -/
abbrev MeteredChild := ℕ → Bool → Scanner → Metered WireError (Scanned × Scanner)

variable (child : MeteredChild)

/-- `scanItems` with its visits. -/
def meteredItems (countValues : Bool) : ℕ → ℕ → Canonicality → Scanner →
    Metered WireError (ℕ × Canonicality × Scanner)
  | 0, cursor, canonicality, scanner => pure (cursor, canonicality, scanner)
  | count + 1, cursor, canonicality, scanner => do
    let (item, scanner) ← child cursor countValues scanner
    meteredItems countValues count item.end_ (canonicality.merge item.canonicality) scanner

/-- `scanArray` with its visits. -/
def meteredArray (markerOffset cursor count : ℕ) (markerCanonical countValues : Bool)
    (scanner : Scanner) : Metered WireError (Scanned × Scanner) := do
  .free (checkContainer limits markerOffset count)
  let (end_, canonicality, scanner) ←
    meteredItems child countValues count cursor (.ofBool markerCanonical) scanner
  return (⟨end_, .array, canonicality⟩, scanner)

/-- `hasPriorEqualKey` with its visits. -/
def meteredPriorKey (current : List Byte) : ℕ → ℕ → Scanner → Metered WireError (Bool × Scanner)
  | 0, _, scanner => pure (false, scanner)
  | priorCount + 1, priorStart, scanner => do
    let (prior, scanner) ← child priorStart false scanner
    if sameKey (slice bytes priorStart (prior.end_ - priorStart)) current then pure (true, scanner)
    else
      let (value, scanner) ← child prior.end_ false scanner
      meteredPriorKey current priorCount value.end_ scanner

/-- `checkKey` with its visits. -/
def meteredKey (entriesOffset entryIndex keyStart keyEnd : ℕ) (scanner : Scanner) :
    Metered WireError Scanner :=
  let current := slice bytes keyStart (keyEnd - keyStart)
  if keyClass current = none then .free (throw (.unsupportedMapKey keyStart))
  else do
    let (duplicate, scanner) ← meteredPriorKey bytes child current entryIndex entriesOffset scanner
    if duplicate then .free (throw (.duplicateMapKey keyStart)) else pure scanner

/-- `scanEntries` with its visits. -/
def meteredEntries (countValues : Bool) (entriesOffset : ℕ) :
    ℕ → ℕ → ℕ → Canonicality → Scanner → Metered WireError (ℕ × Canonicality × Scanner)
  | 0, _, cursor, canonicality, scanner => pure (cursor, canonicality, scanner)
  | count + 1, entryIndex, cursor, canonicality, scanner => do
    let (key, scanner) ← child cursor countValues scanner
    let scanner ← meteredKey bytes child entriesOffset entryIndex cursor key.end_ scanner
    let (value, scanner) ← child key.end_ countValues scanner
    meteredEntries countValues entriesOffset count (entryIndex + 1) value.end_
      ((canonicality.merge key.canonicality).merge value.canonicality) scanner

/-- `scanMap` with its visits. -/
def meteredMap (markerOffset cursor count : ℕ) (markerCanonical countValues : Bool)
    (scanner : Scanner) : Metered WireError (Scanned × Scanner) := do
  .free (checkContainer limits markerOffset count)
  let (end_, canonicality, scanner) ←
    meteredEntries bytes child countValues cursor count 0 cursor (.ofBool markerCanonical) scanner
  return (⟨end_, .map, canonicality⟩, scanner)

/-- `scanForm` with its visits. Only containers visit further values. -/
def meteredForm (offset : ℕ) (countValue : Bool) (scanner : Scanner) :
    MarkerForm → Metered WireError (Scanned × Scanner)
  | .array argument canonical => do
    let (count, cursor) ← .free (readArgument bytes offset argument)
    meteredArray limits child offset cursor count (canonical count) countValue scanner
  | .map argument canonical => do
    let (count, cursor) ← .free (readArgument bytes offset argument)
    meteredMap limits bytes child offset cursor count (canonical count) countValue scanner
  | form => .free (scanForm limits bytes (fun offset count scanner =>
      (child offset count scanner).result) offset countValue scanner form)

/-- `scanValueMode` with its visits. -/
def meteredValueMode : ℕ → ℕ → ℕ → Bool → Scanner → Metered WireError (Scanned × Scanner)
  | 0, offset, depth, _, scanner => do
    let _ ← .visit (bumpScanStep limits offset scanner)
    .free (throw (.limitExceeded .nestingDepth depth (effectiveMaximum limits) offset))
  | levels + 1, offset, depth, countValue, scanner => do
    let scanner ← .visit (bumpScanStep limits offset scanner)
    let scanner ← .free (noteValue limits offset countValue scanner)
    let marker ← .free (byteAt bytes offset offset)
    meteredForm limits bytes (fun offset => meteredValueMode levels offset (depth + 1)) offset
      countValue scanner (markerForm marker)

/-- `scanValue` with its visits. -/
def meteredValue (offset depth : ℕ) (scanner : Scanner) : Metered WireError (Scanned × Scanner) :=
  meteredValueMode limits bytes (effectiveMaximum limits + 1 - depth) offset depth true scanner

/-- `validateMessagepackValue` with its visits. -/
def meteredValidate : Metered WireError MessagePackValue := do
  .free (checkLimit .wireBytes bytes.length limits.maxWireBytes 0)
  let (scanned, _) ← meteredValue limits bytes 0 1 .new
  .free <| if scanned.end_ ≠ bytes.length then
    throw (.trailingBytes scanned.end_ (bytes.length - scanned.end_))
  else pure ⟨bytes, scanned.kind, scanned.canonicality⟩

/-- `scanPayloadItems` with its visits. -/
def meteredPayloadItems : ℕ → ℕ → Scanner →
    Metered WireError (List (List Byte × Canonicality) × ℕ)
  | 0, cursor, _ => .free (.ok ([], cursor))
  | count + 1, cursor, scanner => do
    let (scanned, scanner) ← meteredValue limits bytes cursor 2 scanner
    let (items, end_) ← meteredPayloadItems count scanned.end_ scanner
    return ((slice bytes cursor (scanned.end_ - cursor), scanned.canonicality) :: items, end_)

/-- `parsePayload` with its visits, the one of the payload itself among them. -/
def meteredPayload : Metered WireError PayloadView := do
  let (count, headLen) ← .free (payloadHeader bytes)
  if count ≠ 4 ∧ count ≠ 5 then .free (.error (.invalidPayloadArray (markerOf bytes) (some count)))
  else
    let scanner ← .visit (bumpScanStep limits 0 .new)
    let scanner ← .free (do
      checkDepth limits 0 1
      let scanner ← bumpValue limits 0 scanner
      checkContainer limits 0 count
      return scanner)
    let (items, cursor) ← meteredPayloadItems limits bytes count headLen scanner
    .free <| if cursor ≠ bytes.length then .error (.trailingBytes cursor (bytes.length - cursor))
    else parseItems bytes items

end Metered

section Result

variable {limits : WireLimits} {bytes : List Byte} {child : MeteredChild}

/-- The scans of a metered child without their visits. -/
def MeteredChild.results (child : MeteredChild) : ScanChild :=
  fun offset countValue scanner => (child offset countValue scanner).result

/-- The metered scan of items has the result of the scan. -/
theorem result_meteredItems (countValues : Bool) (count cursor : ℕ) (canonicality : Canonicality)
    (scanner : Scanner) :
    (meteredItems child countValues count cursor canonicality scanner).result =
      scanItems child.results countValues count cursor canonicality scanner := by
  induction count generalizing cursor canonicality scanner with
  | zero => rfl
  | succ count ih =>
    rw [meteredItems, Metered.result_bind, scanItems]
    exact congrArg _ (funext fun r => ih _ _ _)

/-- The metered search for an equal key has the result of the search. -/
theorem result_meteredPriorKey (current : List Byte) (priorCount priorStart : ℕ)
    (scanner : Scanner) :
    (meteredPriorKey bytes child current priorCount priorStart scanner).result =
      hasPriorEqualKey bytes child.results current priorCount priorStart scanner := by
  induction priorCount generalizing priorStart scanner with
  | zero => rfl
  | succ priorCount ih =>
    rw [meteredPriorKey, Metered.result_bind, hasPriorEqualKey]
    refine congrArg _ (funext fun r => ?_)
    dsimp only
    split_ifs
    · rfl
    · rw [Metered.result_bind]
      exact congrArg _ (funext fun r => ih _ _)

/-- The metered check of a key has the result of the check. -/
theorem result_meteredKey (entriesOffset entryIndex keyStart keyEnd : ℕ) (scanner : Scanner) :
    (meteredKey bytes child entriesOffset entryIndex keyStart keyEnd scanner).result =
      checkKey bytes child.results entriesOffset entryIndex keyStart keyEnd scanner := by
  unfold meteredKey checkKey
  dsimp only
  split_ifs
  · rfl
  · rw [Metered.result_bind, result_meteredPriorKey]
    refine congrArg _ (funext fun r => ?_)
    split_ifs <;> rfl

/-- The metered scan of entries has the result of the scan. -/
theorem result_meteredEntries (countValues : Bool) (entriesOffset count entryIndex cursor : ℕ)
    (canonicality : Canonicality) (scanner : Scanner) :
    (meteredEntries bytes child countValues entriesOffset count entryIndex cursor canonicality
        scanner).result =
      scanEntries bytes child.results countValues entriesOffset count entryIndex cursor canonicality
        scanner := by
  induction count generalizing entryIndex cursor canonicality scanner with
  | zero => rfl
  | succ count ih =>
    rw [meteredEntries, Metered.result_bind, scanEntries]
    refine congrArg _ (funext fun r => ?_)
    dsimp only
    rw [Metered.result_bind, result_meteredKey]
    refine congrArg _ (funext fun r => ?_)
    rw [Metered.result_bind]
    exact congrArg _ (funext fun r => ih _ _ _ _)

/-- The metered scan of a form has the result of the scan. -/
theorem result_meteredForm (offset : ℕ) (countValue : Bool) (scanner : Scanner)
    (form : MarkerForm) :
    (meteredForm limits bytes child offset countValue scanner form).result =
      scanForm limits bytes child.results offset countValue scanner form := by
  cases form with
  | array argument canonical =>
    rw [meteredForm, Metered.result_bind, scanForm]
    refine congrArg _ (funext fun r => ?_)
    dsimp only
    rw [meteredArray, scanArray, Metered.result_bind]
    refine congrArg _ (funext fun _ => ?_)
    rw [Metered.result_bind, result_meteredItems]
    rfl
  | map argument canonical =>
    rw [meteredForm, Metered.result_bind, scanForm]
    refine congrArg _ (funext fun r => ?_)
    dsimp only
    rw [meteredMap, scanMap, Metered.result_bind]
    refine congrArg _ (funext fun _ => ?_)
    rw [Metered.result_bind, result_meteredEntries]
    rfl
  | _ => rfl

/-- Without its visits, the metered scan is the scan. -/
theorem result_meteredValueMode (levels offset depth : ℕ) (countValue : Bool)
    (scanner : Scanner) :
    (meteredValueMode limits bytes levels offset depth countValue scanner).result =
      scanValueMode limits bytes levels offset depth countValue scanner := by
  induction levels generalizing offset depth countValue scanner with
  | zero =>
    rw [meteredValueMode, Metered.result_bind, scanValueMode]
    rfl
  | succ levels ih =>
    have hchild : MeteredChild.results (fun offset => meteredValueMode limits bytes levels offset
        (depth + 1)) = fun offset => scanValueMode limits bytes levels offset (depth + 1) := by
      funext offset countValue scanner
      exact ih offset (depth + 1) countValue scanner
    rw [meteredValueMode, Metered.result_bind, scanValueMode]
    refine congrArg _ (funext fun stepped => ?_)
    rw [Metered.result_bind]
    refine congrArg _ (funext fun noted => ?_)
    rw [Metered.result_bind]
    refine congrArg _ (funext fun marker => ?_)
    rw [result_meteredForm, hchild]

/-- The metered validation has the result of the validation. -/
theorem result_meteredValidate :
    (meteredValidate limits bytes).result = validateMessagepackValue limits bytes := by
  rw [meteredValidate, Metered.result_bind, validateMessagepackValue]
  refine congrArg _ (funext fun _ => ?_)
  rw [Metered.result_bind, meteredValue, result_meteredValueMode]
  rfl

/-- The metered scan of payload items has the result of the scan. -/
theorem result_meteredPayloadItems (count cursor : ℕ) (scanner : Scanner) :
    (meteredPayloadItems limits bytes count cursor scanner).result =
      scanPayloadItems limits bytes count cursor scanner := by
  induction count generalizing cursor scanner with
  | zero => rfl
  | succ count ih =>
    rw [meteredPayloadItems, Metered.result_bind, scanPayloadItems, meteredValue,
      result_meteredValueMode]
    refine congrArg _ (funext fun r => ?_)
    dsimp only
    rw [Metered.result_bind, ih]
    rfl

/-- The metered parser of a payload has the result of the parser. -/
theorem result_meteredPayload :
    (meteredPayload limits bytes).result = parsePayload limits bytes := by
  rw [meteredPayload, Metered.result_bind, parsePayload]
  refine congrArg _ (funext fun header => ?_)
  dsimp only
  split_ifs
  · rfl
  · rw [Metered.result_bind, noteContainer, bind_assoc]
    refine congrArg _ (funext fun stepped => ?_)
    rw [Metered.result_bind]
    refine congrArg _ (funext fun noted => ?_)
    rw [Metered.result_bind, result_meteredPayloadItems]
    rfl

end Result

section Visits

variable {limits : WireLimits} {bytes : List Byte} {child : MeteredChild} {budget : ℕ}

/-- The visits of a child are its steps. -/
def ChildSpends (budget : ℕ) (child : MeteredChild) : Prop :=
  ∀ offset countValue scanner, Metered.Spends budget scanner.scanSteps
    (child offset countValue scanner) fun r => r.2.scanSteps

/-- A scan step is counted below the limit only. -/
theorem bumpScanStep_inv {offset : ℕ} {scanner next : Scanner}
    (h : bumpScanStep limits offset scanner = .ok next) :
    scanner.scanSteps < limits.maxScanSteps ∧ next.scanSteps = scanner.scanSteps + 1 := by
  obtain ⟨hroom, rfl⟩ := (guarded_bumpScanStep limits).of_ok h
  obtain ⟨-, hvisits, -⟩ := hroom
  refine ⟨?_, rfl⟩
  change 1 = 0 ∨ scanner.scanSteps + 1 ≤ limits.maxScanSteps at hvisits
  omega

/-- A counted value is no scan step. -/
theorem bumpValue_inv {offset : ℕ} {scanner next : Scanner}
    (h : bumpValue limits offset scanner = .ok next) : next.scanSteps = scanner.scanSteps := by
  obtain ⟨-, -, hnext⟩ := bind_ok.mp h
  cases hnext
  rfl

/-- A noted value is no scan step. -/
theorem noteValue_inv {offset : ℕ} {countValue : Bool} {scanner next : Scanner}
    (h : noteValue limits offset countValue scanner = .ok next) :
    next.scanSteps = scanner.scanSteps := by
  unfold noteValue at h
  split_ifs at h
  · exact bumpValue_inv h
  · cases h
    rfl

/-- Items visit as many values as scan steps are counted. -/
theorem spends_meteredItems (hchild : ChildSpends budget child) (countValues : Bool)
    (count cursor : ℕ) (canonicality : Canonicality) (scanner : Scanner) :
    Metered.Spends budget scanner.scanSteps
      (meteredItems child countValues count cursor canonicality scanner)
      fun r => r.2.2.scanSteps := by
  induction count generalizing cursor canonicality scanner with
  | zero =>
    refine Metered.spends_free fun r hr => ?_
    cases hr
    rfl
  | succ count ih => exact (hchild _ _ _).bind fun r _ => ih _ _ r.2

/-- The search for an equal key visits as many values as scan steps are counted. -/
theorem spends_meteredPriorKey (hchild : ChildSpends budget child) (current : List Byte)
    (priorCount priorStart : ℕ) (scanner : Scanner) :
    Metered.Spends budget scanner.scanSteps
      (meteredPriorKey bytes child current priorCount priorStart scanner)
      fun r => r.2.scanSteps := by
  induction priorCount generalizing priorStart scanner with
  | zero =>
    refine Metered.spends_free fun r hr => ?_
    cases hr
    rfl
  | succ priorCount ih =>
    refine (hchild _ _ _).bind fun prior _ => ?_
    dsimp only
    split_ifs
    · refine Metered.spends_free fun r hr => ?_
      cases hr
      rfl
    · exact (hchild _ _ _).bind fun value _ => ih _ value.2

/-- The check of a key visits as many values as scan steps are counted. -/
theorem spends_meteredKey (hchild : ChildSpends budget child)
    (entriesOffset entryIndex keyStart keyEnd : ℕ) (scanner : Scanner) :
    Metered.Spends budget scanner.scanSteps
      (meteredKey bytes child entriesOffset entryIndex keyStart keyEnd scanner)
      Scanner.scanSteps := by
  unfold meteredKey
  dsimp only
  split_ifs
  · exact Metered.spends_free nofun
  · refine (spends_meteredPriorKey hchild _ _ _ _).bind fun r _ => ?_
    split_ifs
    · exact Metered.spends_free nofun
    · refine Metered.spends_free fun next hnext => ?_
      cases hnext
      rfl

/-- Entries visit as many values as scan steps are counted. -/
theorem spends_meteredEntries (hchild : ChildSpends budget child) (countValues : Bool)
    (entriesOffset count entryIndex cursor : ℕ) (canonicality : Canonicality)
    (scanner : Scanner) :
    Metered.Spends budget scanner.scanSteps
      (meteredEntries bytes child countValues entriesOffset count entryIndex cursor canonicality
        scanner) fun r => r.2.2.scanSteps := by
  induction count generalizing entryIndex cursor canonicality scanner with
  | zero =>
    refine Metered.spends_free fun r hr => ?_
    cases hr
    rfl
  | succ count ih =>
    refine (hchild _ _ _).bind fun key _ => ?_
    refine (spends_meteredKey hchild _ _ _ _ _).bind fun checked _ => ?_
    exact (hchild _ _ _).bind fun value _ => ih _ _ _ value.2

/-- A form visits as many values as scan steps are counted. -/
theorem spends_meteredForm (hchild : ChildSpends budget child) (offset : ℕ) (countValue : Bool)
    (scanner : Scanner) (form : MarkerForm) :
    Metered.Spends budget scanner.scanSteps
      (meteredForm limits bytes child offset countValue scanner form) fun r => r.2.scanSteps := by
  have hfree : ∀ {α : Type} (x : Except WireError α),
      Metered.Spends budget scanner.scanSteps (.free x) fun _ => scanner.scanSteps := fun x =>
    Metered.spends_free fun _ _ => rfl
  have hleaf : ∀ {r}, scanForm limits bytes child.results offset countValue scanner form = .ok r →
      (∀ argument canonical, form ≠ .array argument canonical) →
      (∀ argument canonical, form ≠ .map argument canonical) → r.2 = scanner := by
    intro r hr harray hmap
    cases form with
    | array argument canonical => exact absurd rfl (harray argument canonical)
    | map argument canonical => exact absurd rfl (hmap argument canonical)
    | reserved => cases hr
    | scalar length kind canonical =>
      obtain ⟨scanned, -, hscanned⟩ := bind_ok.mp hr
      cases hscanned
      rfl
    | _ =>
      obtain ⟨read, -, hscan⟩ := bind_ok.mp hr
      obtain ⟨scanned, -, hscanned⟩ := bind_ok.mp hscan
      cases hscanned
      rfl
  cases form with
  | array argument canonical =>
    refine (hfree _).bind fun read _ => (hfree _).bind fun _ _ => ?_
    refine (spends_meteredItems hchild _ _ _ _ _).bind fun r _ => Metered.spends_free ?_
    intro result hresult
    cases hresult
    rfl
  | map argument canonical =>
    refine (hfree _).bind fun read _ => (hfree _).bind fun _ _ => ?_
    refine (spends_meteredEntries hchild _ _ _ _ _ _ _).bind fun r _ => Metered.spends_free ?_
    intro result hresult
    cases hresult
    rfl
  | _ =>
    refine Metered.spends_free fun r hr => ?_
    rw [hleaf hr nofun nofun]

/-- A scan of a value spends one step for each value that it visits. -/
theorem spends_meteredValueMode (levels offset depth : ℕ) (countValue : Bool)
    (scanner : Scanner) :
    Metered.Spends limits.maxScanSteps scanner.scanSteps
      (meteredValueMode limits bytes levels offset depth countValue scanner)
      fun r => r.2.scanSteps := by
  induction levels generalizing offset depth countValue scanner with
  | zero =>
    have hstep : Metered.Spends limits.maxScanSteps scanner.scanSteps
        (.visit (bumpScanStep limits offset scanner)) Scanner.scanSteps :=
      Metered.spends_visit fun next hnext => bumpScanStep_inv hnext
    exact hstep.bind fun _ _ => Metered.spends_free nofun
  | succ levels ih =>
    refine (Metered.spends_visit fun next hnext => bumpScanStep_inv hnext).bind fun stepped _ => ?_
    refine (Metered.spends_free fun noted hnoted => noteValue_inv hnoted).bind fun noted _ => ?_
    refine (Metered.spends_free fun _ _ => rfl).bind fun marker _ => ?_
    exact spends_meteredForm (fun offset countValue scanner => ih _ _ _ _) _ _ _ _

/-- A value visits as many values as scan steps are counted, within the limit. -/
theorem spends_meteredValue (offset depth : ℕ) (scanner : Scanner) :
    Metered.Spends limits.maxScanSteps scanner.scanSteps
      (meteredValue limits bytes offset depth scanner) fun r => r.2.scanSteps :=
  spends_meteredValueMode _ _ _ _ _

/-- The number of values that a validation visits. -/
theorem visits_meteredValidate :
    (meteredValidate limits bytes).visits ≤ limits.maxScanSteps := by
  have hwithin : Metered.Within limits.maxScanSteps 0 (meteredValidate limits bytes) := by
    have hchecked : Metered.Spends limits.maxScanSteps 0
        (.free (checkLimit .wireBytes bytes.length limits.maxWireBytes 0)) fun _ => 0 :=
      Metered.spends_free fun _ _ => rfl
    refine hchecked.within_bind fun _ _ => ?_
    exact (spends_meteredValue 0 1 .new).within_bind fun _ _ => Metered.within_free _
  have hvisits := hwithin (Nat.zero_le _)
  omega

/-- Payload items visit no more values than the limit of scan steps. -/
theorem within_meteredPayloadItems (count cursor : ℕ) (scanner : Scanner) :
    Metered.Within limits.maxScanSteps scanner.scanSteps
      (meteredPayloadItems limits bytes count cursor scanner) := by
  induction count generalizing cursor scanner with
  | zero => exact Metered.within_free _
  | succ count ih =>
    refine (spends_meteredValue cursor 2 scanner).within_bind fun scanned _ => ?_
    exact (ih scanned.1.end_ scanned.2).bind_free _

/-- The number of values that the parser of a payload visits. -/
theorem visits_meteredPayload : (meteredPayload limits bytes).visits ≤ limits.maxScanSteps := by
  have hwithin : Metered.Within limits.maxScanSteps 0 (meteredPayload limits bytes) := by
    have hheader : Metered.Spends limits.maxScanSteps 0 (.free (payloadHeader bytes)) fun _ => 0 :=
      Metered.spends_free fun _ _ => rfl
    refine hheader.within_bind fun header _ => ?_
    dsimp only
    split_ifs
    · exact Metered.within_free _
    · have hstep : Metered.Spends limits.maxScanSteps 0
          (.visit (bumpScanStep limits 0 .new)) Scanner.scanSteps :=
        Metered.spends_visit fun next hnext => bumpScanStep_inv hnext
      refine hstep.within_bind fun stepped _ => ?_
      have hnoted : Metered.Spends limits.maxScanSteps stepped.scanSteps (.free (do
          checkDepth limits 0 1
          let scanner ← bumpValue limits 0 stepped
          checkContainer limits 0 header.1
          return scanner)) Scanner.scanSteps := by
        refine Metered.spends_free fun noted hnoted => ?_
        obtain ⟨-, -, hdepth⟩ := bind_ok.mp hnoted
        obtain ⟨bumped, hbumped, hcontainer⟩ := bind_ok.mp hdepth
        obtain ⟨-, -, hnext⟩ := bind_ok.mp hcontainer
        cases hnext
        exact bumpValue_inv hbumped
      refine hnoted.within_bind fun noted _ => ?_
      exact (within_meteredPayloadItems _ _ _).bind_free _
  have hvisits := hwithin (Nat.zero_le _)
  omega

end Visits

/-- Higher limits change no result that is not a limit's, and the steps bound the visits under any
limits. -/
theorem raise_limits {limits wider : WireLimits} (h : limits.Le wider) (raw : List Byte) :
    (∀ value, validateMessagepackValue limits raw = .ok value →
      validateMessagepackValue wider raw = .ok value) ∧
    (∀ view, parsePayload limits raw = .ok view → parsePayload wider raw = .ok view) ∧
    (∀ count cursor scanner items, scanPayloadItems limits raw count cursor scanner = .ok items →
      scanPayloadItems wider raw count cursor scanner = .ok items) ∧
    (∀ error, validateMessagepackValue wider raw = .error error → ¬Exceeds error →
      ∃ other, validateMessagepackValue limits raw = .error other) ∧
    (∀ error, parsePayload wider raw = .error error → ¬Exceeds error →
      ∃ other, parsePayload limits raw = .error other) ∧
    (meteredValidate limits raw).result = validateMessagepackValue limits raw ∧
    (meteredValidate limits raw).visits ≤ limits.maxScanSteps ∧
    (meteredPayload limits raw).result = parsePayload limits raw ∧
    (meteredPayload limits raw).visits ≤ limits.maxScanSteps := by
  refine ⟨fun _ => h.validate, fun _ => h.parsePayload, fun _ _ _ _ => h.scanPayloadItems,
    fun error herror _ => ?_, fun error herror _ => ?_, result_meteredValidate,
      visits_meteredValidate,
    result_meteredPayload, visits_meteredPayload⟩
  · cases hvalid : validateMessagepackValue limits raw with
    | error other => exact ⟨other, rfl⟩
    | ok value =>
      rw [h.validate hvalid] at herror
      cases herror
  · cases hparse : parsePayload limits raw with
    | error other => exact ⟨other, rfl⟩
    | ok view =>
      rw [h.parsePayload hparse] at herror
      cases herror

/-- A map of the keys 1 and 2, which its scan reads again for their order. -/
def twoKeys : List Byte := [0x82, 1, 0xc0, 2, 0xc0]

/-- A payload without title and content whose fields are that map. -/
def twoFields : List Byte := [0x94, 0xcb, 0, 0, 0, 0, 0, 0, 0, 0, 0xc4, 0, 0xc4, 0] ++ twoKeys

/-- The map of two keys, and a payload with it that takes all its steps, are accepted under higher
limits as well. -/
theorem raise_limits_twoKeys :
    (⟨19, 8, 4, 11, 11, 3⟩ : WireLimits).Le ⟨20, 8, 5, 12, 40, 3⟩ ∧
    (meteredValidate ⟨19, 8, 4, 11, 11, 3⟩ twoKeys).visits = 7 ∧
    (∃ value, value.raw = twoKeys ∧
      validateMessagepackValue ⟨19, 8, 4, 11, 11, 3⟩ twoKeys = .ok value ∧
      validateMessagepackValue ⟨20, 8, 5, 12, 40, 3⟩ twoKeys = .ok value) ∧
    (meteredPayload ⟨19, 8, 4, 11, 11, 3⟩ twoFields).visits = 11 ∧
    ∃ view, view.fields.raw = twoKeys ∧
      parsePayload ⟨19, 8, 4, 11, 11, 3⟩ twoFields = .ok view ∧
      parsePayload ⟨20, 8, 5, 12, 40, 3⟩ twoFields = .ok view := by
  have hle : (⟨19, 8, 4, 11, 11, 3⟩ : WireLimits).Le ⟨20, 8, 5, 12, 40, 3⟩ := by
    constructor <;> decide
  have hvalue := (raise_limits hle twoKeys).1 _ rfl
  have hview := (raise_limits hle twoFields).2.1 _ rfl
  exact ⟨hle, rfl, ⟨_, rfl, rfl, hvalue⟩, rfl, _, rfl, rfl, hview⟩

end Lxmf
