import MyOriShop.Core
import MyOriShop.Lib.Decimals

/-!
# Money: `to_cents` and `format_cents` are exact

`Core.toCents` keeps only the number of `to_cents`. Here it is the source's statements one by one,
each with what it may raise.

* `readDecimal` is `Decimal(text)`, the infinities and the NaNs included.
* `toCentsTry` is the body of the `try`, and `toCentsExcept` is `to_cents`.
* `HasCents value n`: after `strip` and the comma, `value` is a finite decimal, and `n` of at most
  28 digits is the integer nearest to its hundredfold, ties away from zero.

Results:
* `toCentsExcept_toOption`: the model of `Core` is this one without the exception's name.
* `toCentsTry_finite`: the number that the body of the `try` returns.
* `hasCents_formatCents`: what `format_cents` prints.
* `toCents_exact`: `to_cents` takes back what `format_cents` prints, returns the nearest integer
  wherever there is one that fits, and raises `ValueError` everywhere else.
-/

namespace MyOriShop

open Lib.Text Lib.IsoDate Lib.Decimals

/-! ## `to_cents` statement by statement -/

/-- `Decimal("inf")`, `Decimal("nan")` and the like, in letters of either case. -/
def parseSpecial (cs : List Char) : Option Number :=
  let (neg, r) := takeSign (cs.filter (· ≠ '_'))
  let word := r.map Char.toLower
  if word = "inf".toList ∨ word = "infinity".toList then some (.infinite neg)
  else if word.take 3 = "nan".toList ∧ (takeDecimals (word.drop 3)).2 = [] then some (.nan false)
  else if word.take 4 = "snan".toList ∧ (takeDecimals (word.drop 4)).2 = [] then some (.nan true)
  else none

/-- `Decimal(text)`. -/
def readDecimal (text : List Char) : Except Signal Number :=
  match parseDecimal text with
  | some (neg, coefficient, exponent) =>
    if decimalInRange coefficient exponent then .ok (.finite ⟨neg, coefficient, exponent⟩)
    else .error .invalidOperation
  | none => (parseSpecial text).elim (.error .invalidOperation) .ok

/-- `str(value).strip().replace(",", ".")`. -/
def amountText (value : String) : List Char :=
  (stripChars value.toList).map fun c => if c = ',' then '.' else c

/-- The body of the `try`. -/
def toCentsTry (text : List Char) : Except Signal Int := do
  let amount ← readDecimal text
  if !amount.isFinite then throw .invalidOperation
  let cents ← amount.quantize decimalPrecision (-2)
  let scaled ← cents.scale decimalPrecision ⟨false, 10 ^ 2, 0⟩
  scaled.toInt

/-- `to_cents`. -/
def toCentsExcept (value : String) : Except Signal Int :=
  match toCentsTry (amountText value) with
  | .error .invalidOperation | .error .valueError => .error .valueError
  | r => r

/-- `value` is a finite decimal whose cents are `n`, and they fit the decimal context. -/
def HasCents (value : String) (n : Int) : Prop :=
  ∃ d, readDecimal (amountText value) = .ok (.finite d) ∧ Nearest (100 * d.value) n ∧
    |n| < 10 ^ decimalPrecision

/-! ## What the body of the `try` returns -/

/-- A hundredfold is what is quantized to cents. -/
theorem hundred_value (d : Decimal) : 100 * d.value = d.sign * d.scaled (-2) := by
  rw [← d.value_scaled, mul_comm]
  norm_num

/-- The steps after a finite number is read. -/
theorem toCentsTry_steps {text : List Char} {d : Decimal}
    (hread : readDecimal text = .ok (.finite d)) :
    toCentsTry text =
      ((Number.finite d).quantize decimalPrecision (-2) >>= fun cents =>
        cents.scale decimalPrecision ⟨false, 10 ^ 2, 0⟩ >>= Number.toInt) := by
  unfold toCentsTry
  rw [hread]
  rfl

/-- The number that the body of the `try` returns. -/
theorem toCentsTry_finite {text : List Char} {d : Decimal} {n : Nat}
    (hread : readDecimal text = .ok (.finite d)) (hn : Nearest (d.scaled (-2)) n) :
    toCentsTry text =
      if n < 10 ^ decimalPrecision then .ok (d.signed n) else .error .invalidOperation := by
  have hquantize : (Number.finite d).quantize decimalPrecision (-2) =
      if n < 10 ^ decimalPrecision then .ok (.finite ⟨d.neg, n, -2⟩)
      else .error .invalidOperation := by
    simp only [Number.quantize, Decimal.quantize_of_nearest hn]
    split_ifs <;> rfl
  rw [toCentsTry_steps hread, hquantize]
  split_ifs with hfit
  · have hint : (Decimal.mul decimalPrecision ⟨d.neg, n, -2⟩ ⟨false, 10 ^ 2, 0⟩).toInt =
        d.signed n :=
      Decimal.toInt_mul_pow (by decide) 2 hfit rfl
    exact congrArg Except.ok hint
  · rfl

/-- Nothing but `InvalidOperation` is raised in the body of the `try`. -/
theorem toCentsTry_error {text : List Char} {s : Signal} (h : toCentsTry text = .error s) :
    s = .invalidOperation := by
  cases hread : readDecimal text with
  | error s' =>
    simp only [toCentsTry, hread] at h
    cases h
    unfold readDecimal at hread
    split at hread
    · split_ifs at hread
      exact (Except.error.inj hread).symm
    · cases hspecial : parseSpecial text with
      | none => simpa [hspecial] using hread.symm
      | some x => simp [hspecial] at hread
  | ok x =>
    cases x with
    | finite d =>
      obtain ⟨n, hn⟩ := exists_nearest (d.scaled_nonneg (-2))
      rw [toCentsTry_finite hread hn] at h
      split_ifs at h
      exact (Except.error.inj h).symm
    | infinite neg =>
      simp only [toCentsTry, hread] at h
      exact (Except.error.inj h).symm
    | nan signaling =>
      simp only [toCentsTry, hread] at h
      exact (Except.error.inj h).symm

/-- The body of the `try` succeeds on a number whose cents fit, and on no other text. -/
theorem toCentsTry_ok_iff {value : String} {n : Int} :
    toCentsTry (amountText value) = .ok n ↔ HasCents value n := by
  constructor
  · intro h
    cases hread : readDecimal (amountText value) with
    | error s => simp [toCentsTry, hread, Bind.bind, Except.bind] at h
    | ok x =>
      cases x with
      | finite d =>
        obtain ⟨m, hm⟩ := exists_nearest (d.scaled_nonneg (-2))
        rw [toCentsTry_finite hread hm] at h
        split_ifs at h with hfit
        cases h
        refine ⟨d, hread, ?_, ?_⟩
        · rwa [hundred_value, Decimal.nearest_signed]
        · rw [d.abs_signed]
          exact_mod_cast hfit
      | infinite neg => simp [toCentsTry, hread, Number.isFinite, Bind.bind, Except.bind] at h
      | nan signaling => simp [toCentsTry, hread, Number.isFinite, Bind.bind, Except.bind] at h
  · rintro ⟨d, hread, hn, hfit⟩
    obtain ⟨m, hm⟩ := exists_nearest (d.scaled_nonneg (-2))
    have hsigned : d.signed m = n := by
      rw [← Decimal.nearest_signed, ← hundred_value] at hm
      exact hm.unique hn
    rw [toCentsTry_finite hread hm, if_pos, hsigned]
    rw [← hsigned, d.abs_signed] at hfit
    exact_mod_cast hfit

/-- `to_cents` succeeds on a number whose cents fit, and raises `ValueError` everywhere else. -/
theorem toCentsExcept_ok {value : String} {n : Int} (h : HasCents value n) :
    toCentsExcept value = .ok n := by
  simp [toCentsExcept, toCentsTry_ok_iff.mpr h]

theorem toCentsExcept_error {value : String} (h : ¬∃ n, HasCents value n) :
    toCentsExcept value = .error .valueError := by
  cases hbody : toCentsTry (amountText value) with
  | ok n => exact absurd ⟨n, toCentsTry_ok_iff.mp hbody⟩ h
  | error s =>
    obtain rfl := toCentsTry_error hbody
    simp [toCentsExcept, hbody]

/-! ## The model of `Core` -/

/-- The rounding of `Core` is the nearest integer, if it fits. -/
theorem quantizeCents_of_nearest {d : Decimal} {n : Nat} (h : Nearest (d.scaled (-2)) n) :
    quantizeCents d.coefficient d.exponent =
      if n < 10 ^ decimalPrecision then some n else none := by
  have hexp : d.exponent - -2 = d.exponent + 2 := by ring
  unfold quantizeCents
  by_cases hzero : d.coefficient = 0
  · have : n = 0 := by
      have h0 : d.scaled (-2) = ((0 : ℤ) : ℚ) := by simp [Decimal.scaled, hzero]
      exact_mod_cast h.unique (h0 ▸ nearest_cast 0)
    simp [hzero, this]
  rw [if_neg hzero]
  split
  case h_1 k hk =>
    change (if digits d.coefficient + k ≤ decimalPrecision then _ else none) = _
    have hk' : d.exponent - -2 = (k : ℤ) := hexp.trans hk
    have hn := Decimal.nearest_ofNat h hk'
    by_cases hfit : digits d.coefficient + k ≤ decimalPrecision
    · rw [if_pos hfit, hn, if_pos (mul_pow_lt hfit)]
    · rw [if_neg hfit, if_neg (Decimal.nearest_large h hzero (by omega))]
  case h_2 k hk =>
    change (if digits d.coefficient < k + 1 then some 0 else _) = _
    have hn := Decimal.nearest_negSucc h (hexp.trans hk)
    by_cases hsmall : digits d.coefficient < k + 1
    · simp [hsmall, hn, halfUp_eq_zero hsmall]
    · rw [if_neg hsmall, hn]
      rfl

/-- A finite number is read from the grammar of `Core`. -/
theorem readDecimal_finite {text : List Char} {d : Decimal} :
    readDecimal text = .ok (.finite d) ↔
      parseDecimal text = some (d.neg, d.coefficient, d.exponent) ∧
        decimalInRange d.coefficient d.exponent := by
  unfold readDecimal
  cases hparse : parseDecimal text with
  | none =>
    have hspecial : parseSpecial text ≠ some (.finite d) := by
      unfold parseSpecial
      intro h
      simp only at h
      split_ifs at h <;> cases h
    cases hs : parseSpecial text with
    | none => simp
    | some x => simpa [hs] using hspecial
  | some p =>
    obtain ⟨neg, coefficient, exponent⟩ := p
    by_cases hrange : decimalInRange coefficient exponent
    · simp only [if_pos hrange, Except.ok.injEq, Number.finite.injEq, Option.some.injEq,
        Prod.mk.injEq]
      constructor
      · rintro rfl
        exact ⟨⟨rfl, rfl, rfl⟩, hrange⟩
      · rintro ⟨⟨rfl, rfl, rfl⟩, -⟩
        rfl
    · simp only [if_neg hrange, reduceCtorEq, Option.some.injEq, Prod.mk.injEq, false_iff, not_and]
      rintro ⟨rfl, rfl, rfl⟩
      exact hrange

/-- The steps of `Core.toCents`. -/
theorem toCents_steps (value : String) :
    toCents value = (parseDecimal (amountText value)).bind fun p =>
      (guard (decimalInRange p.2.1 p.2.2) : Option Unit).bind fun _ =>
        (quantizeCents p.2.1 p.2.2).bind fun cents =>
          some (if p.1 then -(cents : Int) else cents) := rfl

/-- The number that `Core.toCents` makes of a finite decimal. -/
theorem toCents_finite {value : String} {d : Decimal} {n : Nat}
    (hread : readDecimal (amountText value) = .ok (.finite d)) (hn : Nearest (d.scaled (-2)) n) :
    toCents value = if n < 10 ^ decimalPrecision then some (d.signed n) else none := by
  obtain ⟨hparse, hrange⟩ := readDecimal_finite.mp hread
  rw [toCents_steps, hparse, Option.bind_some, guard, if_pos hrange, quantizeCents_of_nearest hn]
  by_cases hfit : n < 10 ^ decimalPrecision
  · rw [if_pos hfit, if_pos hfit]
    rfl
  · rw [if_neg hfit, if_neg hfit]
    rfl

theorem toCents_not_finite {value : String}
    (hread : ∀ d, readDecimal (amountText value) ≠ .ok (.finite d)) : toCents value = none := by
  rw [toCents_steps]
  cases hparse : parseDecimal (amountText value) with
  | none => rfl
  | some p =>
    have hrange : ¬decimalInRange p.2.1 p.2.2 := fun hrange =>
      hread ⟨p.1, p.2.1, p.2.2⟩ (readDecimal_finite.mpr ⟨hparse, hrange⟩)
    rw [Option.bind_some, guard, if_neg hrange]
    rfl

/-- `Core.toCents` is `to_cents` without the exception's name. -/
theorem toCentsExcept_toOption (value : String) : (toCentsExcept value).toOption = toCents value := by
  by_cases h : ∃ d, readDecimal (amountText value) = .ok (.finite d)
  · obtain ⟨d, hread⟩ := h
    obtain ⟨n, hn⟩ := exists_nearest (d.scaled_nonneg (-2))
    rw [toCents_finite hread hn, toCentsExcept, toCentsTry_finite hread hn]
    split_ifs <;> rfl
  · have hfinite := not_exists.mp h
    have hnone : ¬∃ n, HasCents value n := fun ⟨_, d, hread, _⟩ => h ⟨d, hread⟩
    rw [toCents_not_finite hfinite, toCentsExcept_error hnone]
    rfl

/-! ## What `format_cents` prints -/

/-- White space is nowhere in the text, so there is none to strip. -/
theorem stripChars_eq_self {cs : List Char} (h : ∀ c ∈ cs, isSpace c = false) :
    stripChars cs = cs := by
  have hfront : cs.dropWhile isSpace = cs := by
    cases cs with
    | nil => rfl
    | cons c cs => exact List.dropWhile_cons_of_neg (by simp [h c])
  have hback : cs.reverse.dropWhile isSpace = cs.reverse := by
    cases hrev : cs.reverse with
    | nil => rfl
    | cons c r =>
      have hc : c ∈ cs := by
        rw [← List.mem_reverse, hrev]
        exact List.mem_cons_self
      exact List.dropWhile_cons_of_neg (by simp [h c hc])
  rw [stripChars, hfront, hback, List.reverse_reverse]

/-- What an ASCII digit is to the parsers. -/
theorem decimalDigit_of_isDigit {c : Char} (h : c.isDigit) :
    decimalDigit c = some (c.toNat - '0'.toNat) := by
  have hc : 48 ≤ c.toNat ∧ c.toNat ≤ 57 := Char.isDigit_iff_toNat.mp h
  have hfind : (digitZeros.find? fun z => z ≤ c.toNat && c.toNat < z + 10) = some 48 := by
    rw [digitZeros, List.find?_cons_of_pos]
    simp
    omega
  rw [decimalDigit, hfind]
  rfl

theorem isSpace_of_isDigit {c : Char} (h : c.isDigit) : isSpace c = false := by
  have hc : 48 ≤ c.toNat ∧ c.toNat ≤ 57 := Char.isDigit_iff_toNat.mp h
  simp [isSpace]
  omega

/-- A run of ASCII digits is read up to what follows it. -/
theorem takeDecimals_digits {cs : List Char} (h : ∀ c ∈ cs, c.isDigit) (rest : List Char) :
    takeDecimals (cs ++ rest) =
      (cs.map (fun c => c.toNat - '0'.toNat) ++ (takeDecimals rest).1, (takeDecimals rest).2) := by
  induction cs with
  | nil => rfl
  | cons c cs ih =>
    rw [List.cons_append, takeDecimals, decimalDigit_of_isDigit (h c List.mem_cons_self),
      ih fun d hd => h d (List.mem_cons_of_mem c hd)]
    rfl

theorem natOfDecimals_digits (cs : List Char) :
    natOfDecimals (cs.map fun c => c.toNat - '0'.toNat) = Nat.ofDigitChars 10 cs 0 := by
  rw [natOfDecimals, List.foldl_map]
  rfl

/-- The digits that `format_cents` prints. -/
def centsDigits (n : Nat) : List Char × List Char := (Nat.toDigits 10 (n / 100), pad2 (n % 100))

theorem isDigit_digitChar : ∀ n, n < 10 → (Nat.digitChar n).isDigit := by decide

theorem isDigit_centsDigits (n : Nat) :
    (∀ c ∈ (centsDigits n).1, c.isDigit) ∧ ∀ c ∈ (centsDigits n).2, c.isDigit := by
  constructor
  · exact fun c hc => Nat.isDigit_of_mem_toDigits (by omega) le_rfl hc
  · intro c hc
    rcases List.mem_pair.mp hc with rfl | rfl <;>
      exact isDigit_digitChar _ (Nat.mod_lt _ (by omega))

theorem ofDigitChars_centsDigits (n : Nat) :
    Nat.ofDigitChars 10 ((centsDigits n).1 ++ (centsDigits n).2) 0 = n := by
  rw [Nat.ofDigitChars_append, centsDigits, Nat.ofDigitChars_ten_toDigits]
  simp only [pad2]
  rw [Nat.ofDigitChars_cons_digitChar_of_lt_ten (Nat.mod_lt _ (by omega)),
    Nat.ofDigitChars_cons_digitChar_of_lt_ten (Nat.mod_lt _ (by omega)), Nat.ofDigitChars_nil]
  omega

/-- What `Decimal` is given of a printed amount. -/
theorem amountText_formatCents (c : Int) :
    amountText (formatCents c) =
      (if c < 0 then ['-'] else []) ++
        ((centsDigits c.natAbs).1 ++ '.' :: (centsDigits c.natAbs).2) := by
  obtain ⟨hwhole, hfrac⟩ := isDigit_centsDigits c.natAbs
  have hprinted : (formatCents c).toList =
      (if c < 0 then ['-'] else []) ++
        ((centsDigits c.natAbs).1 ++ ',' :: (centsDigits c.natAbs).2) := by
    rw [formatCents, String.toList_append, String.toList_ofList]
    split_ifs <;> rfl
  have hspace : ∀ x ∈ (formatCents c).toList, isSpace x = false := by
    rw [hprinted]
    intro x hx
    rcases List.mem_append.mp hx with hx | hx
    · split_ifs at hx
      · obtain rfl := List.mem_singleton.mp hx
        rfl
      · cases hx
    rcases List.mem_append.mp hx with hx | hx
    · exact isSpace_of_isDigit (hwhole x hx)
    rcases List.mem_cons.mp hx with rfl | hx
    · rfl
    · exact isSpace_of_isDigit (hfrac x hx)
  have hkeep : ∀ cs : List Char, (∀ x ∈ cs, x.isDigit) →
      cs.map (fun x => if x = ',' then '.' else x) = cs := by
    intro cs hcs
    refine (List.map_congr_left fun x hx => if_neg ?_).trans (List.map_id cs)
    rintro rfl
    exact absurd (hcs _ hx) (by decide)
  rw [amountText, stripChars_eq_self hspace, hprinted, List.map_append, List.map_append,
    List.map_cons, hkeep _ hwhole, hkeep _ hfrac, if_pos rfl]
  by_cases hneg : c < 0
  · rw [if_pos hneg]
    rfl
  · rw [if_neg hneg]
    rfl

/-- The sign of a printed amount. -/
theorem takeSign_printed {neg : Prop} [Decidable neg] {digits rest : List Char}
    (hdigits : ∀ c ∈ digits, c.isDigit) (hne : digits ≠ []) :
    takeSign ((if neg then ['-'] else []) ++ (digits ++ rest)) = (decide neg, digits ++ rest) := by
  by_cases hneg : neg
  · simp only [hneg, if_true, decide_true]
    rfl
  · cases digits with
    | nil => exact absurd rfl hne
    | cons c digits =>
      have hc : c.isDigit := hdigits c List.mem_cons_self
      simp only [hneg, if_false, decide_false, List.nil_append, List.cons_append, takeSign]
      split
      case h_1 heq =>
        obtain ⟨rfl, -⟩ := List.cons.inj heq
        exact absurd hc (by decide)
      case h_2 heq =>
        obtain ⟨rfl, -⟩ := List.cons.inj heq
        exact absurd hc (by decide)
      case h_3 => rfl

/-- A printed amount is read with two places. -/
theorem parseDecimal_formatCents (c : Int) :
    parseDecimal (amountText (formatCents c)) = some (decide (c < 0), c.natAbs, -2) := by
  obtain ⟨hwhole, hfrac⟩ := isDigit_centsDigits c.natAbs
  have hne : (centsDigits c.natAbs).1 ≠ [] := Nat.toDigits_ne_nil
  have hvalue := ofDigitChars_centsDigits c.natAbs
  rw [amountText_formatCents]
  set whole := (centsDigits c.natAbs).1
  have hlen : (centsDigits c.natAbs).2.length = 2 := rfl
  set frac := (centsDigits c.natAbs).2
  have hplain : ((if c < 0 then ['-'] else []) ++ (whole ++ '.' :: frac)).filter (· ≠ '_') =
      (if c < 0 then ['-'] else []) ++ (whole ++ '.' :: frac) := by
    refine List.filter_eq_self.mpr fun x hx => decide_eq_true ?_
    rintro rfl
    rcases List.mem_append.mp hx with hx | hx
    · split_ifs at hx <;> simp at hx
    rcases List.mem_append.mp hx with hx | hx
    · exact absurd (hwhole _ hx) (by decide)
    rcases List.mem_cons.mp hx with hx | hx
    · exact absurd hx (by decide)
    · exact absurd (hfrac _ hx) (by decide)
  have hpoint : takeDecimals ('.' :: frac) = ([], '.' :: frac) := by
    rw [takeDecimals, show decimalDigit '.' = none by decide]
  have htake := takeDecimals_digits hwhole ('.' :: frac)
  have htakeFrac := takeDecimals_digits hfrac []
  rw [hpoint, List.append_nil] at htake
  rw [List.append_nil, takeDecimals, List.append_nil] at htakeFrac
  have hcoefficient : natOfDecimals (whole.map (fun x => x.toNat - '0'.toNat) ++
      frac.map fun x => x.toNat - '0'.toNat) = c.natAbs := by
    rw [← List.map_append, natOfDecimals_digits, hvalue]
  simp only [parseDecimal, hplain, takeSign_printed hwhole hne, htake, htakeFrac, hcoefficient,
    List.map_eq_nil_iff, hne, false_and, if_false, takeExponent, List.length_map, hlen]
  rfl

/-- What `format_cents` prints has the cents that were printed. -/
theorem hasCents_formatCents {c : Int} (h : |c| < 10 ^ decimalPrecision) :
    HasCents (formatCents c) c := by
  have hfit : c.natAbs < 10 ^ decimalPrecision := by
    rw [Int.abs_eq_natAbs] at h
    exact_mod_cast h
  have hdigits : digits c.natAbs ≤ 28 := (digits_le (by omega)).mpr hfit
  have hrange : decimalInRange c.natAbs (-2) := by
    unfold digits at hdigits
    constructor <;> omega
  refine ⟨⟨decide (c < 0), c.natAbs, -2⟩,
    readDecimal_finite.mpr ⟨parseDecimal_formatCents c, hrange⟩, ?_, h⟩
  set d : Decimal := ⟨decide (c < 0), c.natAbs, -2⟩ with hd
  have hscaled : d.scaled (-2) = ((c.natAbs : ℤ) : ℚ) := by
    simp [Decimal.scaled, hd]
  have hsigned : d.signed c.natAbs = c := by
    simp only [Decimal.signed, hd, decide_eq_true_eq]
    split_ifs <;> omega
  have hnear : Nearest (100 * d.value) (d.signed c.natAbs) := by
    rw [hundred_value, Decimal.nearest_signed, hscaled]
    exact nearest_cast _
  rwa [hsigned] at hnear

/-- `to_cents` takes back what `format_cents` prints, returns the integer nearest to the hundredfold
wherever it has at most 28 digits, and raises `ValueError`, and nothing else, on all other texts. -/
theorem toCents_exact :
    (∀ c : Int, |c| < 10 ^ 28 → toCentsExcept (formatCents c) = .ok c) ∧
    (∀ value d n, readDecimal (amountText value) = .ok (.finite d) → Nearest (100 * d.value) n →
      |n| < 10 ^ 28 → toCentsExcept value = .ok n) ∧
    ∀ value, (¬∃ d n, readDecimal (amountText value) = .ok (.finite d) ∧
      Nearest (100 * d.value) n ∧ |n| < 10 ^ 28) → toCentsExcept value = .error .valueError := by
  refine ⟨fun c hc => toCentsExcept_ok (hasCents_formatCents hc),
    fun value d n hread hn hfit => toCentsExcept_ok ⟨d, hread, hn, hfit⟩, fun value h => ?_⟩
  exact toCentsExcept_error fun ⟨n, d, hn⟩ => h ⟨d, n, hn⟩

theorem toCents_exact_tie :
    toCentsExcept (formatCents (-1250)) = .ok (-1250) ∧ toCentsExcept "-12,505" = .ok (-1251) ∧
      toCentsExcept "inf" = .error .valueError := by
  refine ⟨toCents_exact.1 (-1250) (by decide), ?_, toCents_exact.2.2 "inf" ?_⟩
  · have hread : readDecimal (amountText "-12,505") = .ok (.finite ⟨true, 12505, -3⟩) := rfl
    refine toCents_exact.2.1 _ _ _ hread ?_ (by decide)
    -- -1250.5 is a tie
    have hvalue : (100 : ℚ) * Decimal.value ⟨true, 12505, -3⟩ = -1250 - 1 / 2 := by
      norm_num [Decimal.value, Decimal.sign]
    rw [hvalue]
    constructor <;> norm_num [abs_of_neg]
  · have hread : readDecimal (amountText "inf") = .ok (.infinite false) := rfl
    rintro ⟨d, n, hd, -⟩
    rw [hread] at hd
    cases hd

end MyOriShop
