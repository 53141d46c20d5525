import Mathlib.Algebra.Order.Field.Power
import Mathlib.Algebra.Order.Field.Rat
import Mathlib.Algebra.Order.Ring.Abs
import Mathlib.Data.Rat.Cast.Order
import Mathlib.Tactic.FieldSimp
import Mathlib.Tactic.Linarith
import Mathlib.Tactic.Positivity
import Mathlib.Tactic.Ring

/-!
# Decimals: floating decimal numbers and their rounding

A decimal number is a sign, a coefficient and a power of ten. An operation keeps the digits of a
context's precision.

* `quantize` brings a number to an exponent, rounding half up. It does not give up digits in front:
  a result that has more than the precision is an error.
* `mul` multiplies, and `fix` rounds half to even to the precision, whatever exponent that takes.
* `Nearest` is the integer nearest to a rational, a tie going away from zero.
* `Number` adds what is not finite, and `Signal` what an operation may raise.

Results:
* `Nearest.unique`, `exists_nearest`: there is one such integer.
* `quantize_of_nearest`: the quantized coefficient is the nearest integer, if it fits.
* `toInt_mul_pow`: scaling a quantized number to an integer loses nothing.
-/

namespace MyOriShop.Lib.Decimals

/-! ## Rounding -/

/-- `n` is the integer nearest to `x`, ties away from zero. -/
def Nearest (x : ℚ) (n : ℤ) : Prop := |x - n| ≤ 1 / 2 ∧ (|x - n| = 1 / 2 → |x| < |(n : ℚ)|)

/-- The quotient rounded half up. -/
def halfUp (a b : Nat) : Nat := (2 * a + b) / (2 * b)

/-- The quotient rounded half to even. -/
def halfEven (a b : Nat) : Nat :=
  let q := a / b
  if 2 * (a % b) < b then q else if b < 2 * (a % b) then q + 1 else q + q % 2

variable {x : ℚ} {m n : ℤ} {a b : Nat}

theorem Nearest.neg (h : Nearest x n) : Nearest (-x) (-n) := by
  have habs : |-x - ((-n : ℤ) : ℚ)| = |x - n| := by
    rw [← abs_neg]
    push_cast
    ring_nf
  refine ⟨habs ▸ h.1, fun htie => ?_⟩
  have := h.2 (habs ▸ htie)
  simpa using this

theorem nearest_neg : Nearest (-x) (-n) ↔ Nearest x n :=
  ⟨fun h => by simpa using h.neg, Nearest.neg⟩

theorem nearest_cast (n : ℤ) : Nearest n n := by
  constructor <;> norm_num

/-- Of two nearest integers the smaller one is not at a tie below. -/
theorem Nearest.not_below (hm : Nearest x m) (hn : Nearest x n) : ¬m < n := by
  intro hlt
  have hstep : (m : ℚ) + 1 ≤ n := by exact_mod_cast hlt
  obtain ⟨hm₁, hm₂⟩ := abs_le.mp hm.1
  obtain ⟨hn₁, hn₂⟩ := abs_le.mp hn.1
  -- `x` lies in the middle of the two, and the one nearer to zero is not allowed
  have hx : x = m + 1 / 2 := by linarith
  have hnm : (n : ℚ) = m + 1 := by linarith
  have hleft := hm.2 (by rw [hx]; norm_num)
  have hright := hn.2 (by rw [hx, hnm]; norm_num)
  rcases le_or_gt 0 m with h0 | h0
  · have h0' : (0 : ℚ) ≤ m := by exact_mod_cast h0
    rw [abs_of_nonneg (by linarith), abs_of_nonneg h0'] at hleft
    linarith
  · have h0' : (n : ℚ) ≤ 0 := by
      have : m + 1 ≤ 0 := h0
      rw [hnm]
      exact_mod_cast this
    rw [abs_of_nonpos (by linarith), abs_of_nonpos h0'] at hright
    linarith

theorem Nearest.unique (hm : Nearest x m) (hn : Nearest x n) : m = n :=
  le_antisymm (not_lt.mp (hn.not_below hm)) (not_lt.mp (hm.not_below hn))

theorem nearest_halfUp (a : Nat) (hb : 0 < b) : Nearest ((a : ℚ) / b) (halfUp a b : ℕ) := by
  have hb' : (0 : ℚ) < b := by exact_mod_cast hb
  have hdiv := Nat.div_add_mod (2 * a + b) (2 * b)
  have hmod := Nat.mod_lt (2 * a + b) (show 0 < 2 * b by omega)
  set q := halfUp a b with hq
  rw [show (2 * a + b) / (2 * b) = q from rfl] at hdiv
  set r := (2 * a + b) % (2 * b) with hr
  -- `2 a = 2 b q + r - b` with `0 ≤ r < 2 b`
  have hdivQ : (2 * b * q + r : ℚ) = 2 * a + b := by exact_mod_cast hdiv
  have hrQ : (r : ℚ) < 2 * b := by exact_mod_cast hmod
  have hr0 : (0 : ℚ) ≤ r := by positivity
  have hx : (a : ℚ) / b - q = (r - b) / (2 * b) := by
    field_simp
    linarith
  have hbound : |(a : ℚ) / b - q| ≤ 1 / 2 := by
    rw [hx, abs_le]
    constructor
    · rw [le_div_iff₀ (by positivity)]
      linarith
    · rw [div_le_iff₀ (by positivity)]
      linarith
  refine ⟨by simpa using hbound, fun htie => ?_⟩
  have htie' : |(a : ℚ) / b - q| = 1 / 2 := by simpa using htie
  -- the upper tie is out of reach, so the quotient stands below
  have hlow : (a : ℚ) / b - q = -(1 / 2) := by
    rcases abs_eq (by norm_num : (0 : ℚ) ≤ 1 / 2) |>.mp htie' with h | h
    · exfalso
      rw [hx, div_eq_iff (by positivity)] at h
      linarith
    · exact h
  have h0 : (0 : ℚ) ≤ (a : ℚ) / b := by positivity
  rw [abs_of_nonneg h0]
  have hq0 : (0 : ℚ) ≤ ((q : ℤ) : ℚ) := by positivity
  rw [abs_of_nonneg hq0]
  push_cast
  linarith

theorem exists_nearest (hx : 0 ≤ x) : ∃ n : Nat, Nearest x (n : ℤ) := by
  refine ⟨halfUp x.num.toNat x.den, ?_⟩
  have h := nearest_halfUp x.num.toNat x.pos
  have hnum : ((x.num.toNat : ℕ) : ℚ) = x.num := by
    have : ((x.num.toNat : ℕ) : ℤ) = x.num := Int.toNat_of_nonneg (Rat.num_nonneg.mpr hx)
    exact_mod_cast this
  rwa [hnum, Rat.num_div_den] at h

/-- What lies above a whole number rounds to no less. -/
theorem Nearest.le (h : Nearest x n) (hx : (m : ℚ) ≤ x) : m ≤ n := by
  have hlow := (abs_le.mp h.1).2
  have : (m : ℚ) < n + 1 := by linarith
  exact Int.lt_add_one_iff.mp (by exact_mod_cast this)

theorem halfEven_mul (a : Nat) (hb : 0 < b) : halfEven (a * b) b = a := by
  simp [halfEven, Nat.mul_div_cancel _ hb, hb]

/-! ## Digits -/

/-- The number of decimal digits, one for zero. -/
def digits (n : Nat) : Nat := (Nat.toDigits 10 n).length

theorem lt_pow_digits (n : Nat) : n < 10 ^ digits n :=
  (Nat.length_toDigits_le_iff (by omega) Nat.length_toDigits_pos).mp le_rfl

theorem digits_le {n k : Nat} (hk : 0 < k) : digits n ≤ k ↔ n < 10 ^ k :=
  Nat.length_toDigits_le_iff (by omega) hk

theorem pow_le_of_digits {n k : Nat} (hn : n ≠ 0) (hk : k < digits n) : 10 ^ k ≤ n := by
  by_contra hlt
  rcases k.eq_zero_or_pos with rfl | hpos
  · simp at hlt
    omega
  · have := (digits_le hpos).mpr (not_le.mp hlt)
    omega

theorem mul_pow_lt {c k p : Nat} (h : digits c + k ≤ p) : c * 10 ^ k < 10 ^ p := by
  calc c * 10 ^ k < 10 ^ digits c * 10 ^ k :=
        Nat.mul_lt_mul_of_pos_right (lt_pow_digits c) (by positivity)
    _ = 10 ^ (digits c + k) := (Nat.pow_add ..).symm
    _ ≤ 10 ^ p := Nat.pow_le_pow_right (by omega) h

/-- A number of fewer digits than places are dropped is below a tenth of the last one. -/
theorem halfUp_eq_zero {c k : Nat} (h : digits c < k + 1) : halfUp c (10 ^ (k + 1)) = 0 := by
  have : 10 * c < 10 ^ (k + 1) := by
    calc 10 * c < 10 * 10 ^ digits c := Nat.mul_lt_mul_of_pos_left (lt_pow_digits _) (by omega)
      _ = 10 ^ (digits c + 1) := by rw [Nat.pow_succ, Nat.mul_comm]
      _ ≤ 10 ^ (k + 1) := Nat.pow_le_pow_right (by omega) (by omega)
  exact Nat.div_eq_of_lt (by omega)

/-! ## Decimal numbers -/

/-- A finite decimal number. -/
structure Decimal where
  neg : Bool
  coefficient : Nat
  exponent : Int
  deriving DecidableEq

namespace Decimal

/-- The sign as a factor. -/
def sign (d : Decimal) : ℚ := if d.neg then -1 else 1

/-- The rational that a number stands for. -/
def value (d : Decimal) : ℚ := d.sign * (d.coefficient * 10 ^ d.exponent)

/-- An integer with the sign. -/
def signed (d : Decimal) (n : Nat) : Int := if d.neg then -(n : Int) else n

/-- `quantize` with `ROUND_HALF_UP`; `none` for a result beyond the precision. -/
def quantize (precision : Nat) (d : Decimal) (exponent : Int) : Option Decimal :=
  if d.coefficient = 0 then some ⟨d.neg, 0, exponent⟩
  else if precision < digits d.coefficient + (d.exponent - exponent) then none
  else match d.exponent - exponent with
    | .ofNat k => some ⟨d.neg, d.coefficient * 10 ^ k, exponent⟩
    | .negSucc k =>
      -- a number below a tenth of the last place needs no division by a large power
      if digits d.coefficient < k + 1 then some ⟨d.neg, 0, exponent⟩
      else
        let c := halfUp d.coefficient (10 ^ (k + 1))
        if c < 10 ^ precision then some ⟨d.neg, c, exponent⟩ else none

/-- Rounding half to even to the precision. -/
def fix (precision : Nat) (d : Decimal) : Decimal :=
  let k := digits d.coefficient - precision
  let c := halfEven d.coefficient (10 ^ k)
  if c < 10 ^ precision then ⟨d.neg, c, d.exponent + k⟩ else ⟨d.neg, c / 10, d.exponent + k + 1⟩

/-- The product, rounded to the precision. -/
def mul (precision : Nat) (d e : Decimal) : Decimal :=
  fix precision ⟨d.neg ^^ e.neg, d.coefficient * e.coefficient, d.exponent + e.exponent⟩

/-- `int(d)`: the fraction is cut off. -/
def toInt (d : Decimal) : Int :=
  d.signed <| match d.exponent with
    | .ofNat k => d.coefficient * 10 ^ k
    | .negSucc k => d.coefficient / 10 ^ (k + 1)

variable {d : Decimal} {precision n : Nat} {e : Int}

/-- The digits of the magnitude in units of a place. -/
def scaled (d : Decimal) (e : Int) : ℚ := d.coefficient * 10 ^ (d.exponent - e)

theorem scaled_nonneg (d : Decimal) (e : Int) : 0 ≤ d.scaled e := by
  unfold scaled
  positivity

theorem value_scaled (d : Decimal) (e : Int) : d.value * 10 ^ (-e) = d.sign * d.scaled e := by
  rw [value, scaled, sub_eq_add_neg, zpow_add₀ (by norm_num)]
  ring

/-- The nearest integer to a number has the number's sign. -/
theorem nearest_signed : Nearest (d.sign * d.scaled e) (d.signed n) ↔ Nearest (d.scaled e) n := by
  unfold sign signed
  split
  · rw [neg_one_mul, nearest_neg]
  · rw [one_mul]

theorem abs_signed (d : Decimal) (n : Nat) : |d.signed n| = n := by
  unfold signed
  split <;> simp

/-- Above the place there is nothing to round. -/
theorem nearest_ofNat {k : Nat} (h : Nearest (d.scaled e) n) (hk : d.exponent - e = (k : ℤ)) :
    n = d.coefficient * 10 ^ k := by
  have hscaled : d.scaled e = ((d.coefficient * 10 ^ k : ℕ) : ℤ) := by
    rw [scaled, hk, zpow_natCast]
    push_cast
    ring
  exact_mod_cast h.unique (hscaled ▸ nearest_cast _)

/-- Below the place the coefficient is divided. -/
theorem nearest_negSucc {k : Nat} (h : Nearest (d.scaled e) n)
    (hk : d.exponent - e = Int.negSucc k) : n = halfUp d.coefficient (10 ^ (k + 1)) := by
  have hk' : d.exponent - e = -((k + 1 : ℕ) : ℤ) := by rw [hk]; rfl
  have hscaled : d.scaled e = (d.coefficient : ℚ) / ((10 ^ (k + 1) : ℕ) : ℚ) := by
    rw [scaled, hk', zpow_neg, zpow_natCast, div_eq_mul_inv]
    push_cast
    rfl
  have hnear := nearest_halfUp d.coefficient (show 0 < 10 ^ (k + 1) by positivity)
  exact_mod_cast h.unique (hscaled ▸ hnear)

/-- A magnitude with a digit beyond the precision does not fit. -/
theorem nearest_large (h : Nearest (d.scaled e) n) (hzero : d.coefficient ≠ 0)
    (hbig : precision < digits d.coefficient + (d.exponent - e)) : ¬n < 10 ^ precision := by
  have hdigits : 0 < digits d.coefficient := Nat.length_toDigits_pos
  have hlow : (10 : ℚ) ^ ((digits d.coefficient - 1 : ℕ) : ℤ) ≤ d.coefficient := by
    rw [zpow_natCast]
    exact_mod_cast pow_le_of_digits hzero (Nat.sub_one_lt hdigits.ne')
  have hle : ((10 ^ precision : ℕ) : ℤ) ≤ n := by
    refine h.le ?_
    calc (((10 ^ precision : ℕ) : ℤ) : ℚ) = 10 ^ (precision : ℤ) := by push_cast; simp
      _ ≤ 10 ^ (((digits d.coefficient - 1 : ℕ) : ℤ) + (d.exponent - e)) :=
        zpow_le_zpow_right₀ (by norm_num) (by omega)
      _ = 10 ^ ((digits d.coefficient - 1 : ℕ) : ℤ) * 10 ^ (d.exponent - e) :=
        zpow_add₀ (by norm_num) _ _
      _ ≤ d.scaled e := by
        unfold scaled
        gcongr
  have : 10 ^ precision ≤ n := by exact_mod_cast hle
  omega

theorem quantize_of_nearest (h : Nearest (d.scaled e) n) :
    d.quantize precision e = if n < 10 ^ precision then some ⟨d.neg, n, e⟩ else none := by
  unfold quantize
  by_cases hzero : d.coefficient = 0
  · have : n = 0 := by
      have h0 : d.scaled e = ((0 : ℤ) : ℚ) := by simp [scaled, hzero]
      exact_mod_cast h.unique (h0 ▸ nearest_cast 0)
    simp [hzero, this]
  rw [if_neg hzero]
  by_cases hbig : precision < digits d.coefficient + (d.exponent - e)
  · rw [if_pos hbig, if_neg (nearest_large h hzero hbig)]
  rw [if_neg hbig]
  split
  case h_1 k hk =>
    have hk' : d.exponent - e = (k : ℤ) := hk
    rw [nearest_ofNat h hk', if_pos (mul_pow_lt (by omega))]
  case h_2 k hk =>
    rw [nearest_negSucc h hk]
    by_cases hsmall : digits d.coefficient < k + 1
    · simp [hsmall, halfUp_eq_zero hsmall]
    · rw [if_neg hsmall]

/-- A number of a few places, scaled by as many tens, is its coefficient. -/
theorem toInt_mul_pow (hp : 0 < precision) (m : Nat) (hn : d.coefficient < 10 ^ precision)
    (he : d.exponent = -(m : ℤ)) :
    (mul precision d ⟨false, 10 ^ m, 0⟩).toInt = d.signed d.coefficient := by
  set total := d.coefficient * 10 ^ m with htotal
  set k := digits total - precision with hk
  have hkm : k ≤ m := by
    have : digits total ≤ precision + m := by
      rw [digits_le (by omega), htotal, Nat.pow_add]
      exact Nat.mul_lt_mul_of_pos_right hn (by positivity)
    omega
  -- the digits that rounding drops are zeros
  have hround : halfEven total (10 ^ k) = d.coefficient * 10 ^ (m - k) := by
    rw [show total = d.coefficient * 10 ^ (m - k) * 10 ^ k by
      rw [Nat.mul_assoc, ← Nat.pow_add, Nat.sub_add_cancel hkm]]
    exact halfEven_mul _ (by positivity)
  have hfit : d.coefficient * 10 ^ (m - k) < 10 ^ precision := by
    by_cases hk0 : k = 0
    · have hshort : digits total ≤ precision := by omega
      rw [hk0, Nat.sub_zero]
      exact (digits_le hp).mp hshort
    · have hlt := lt_pow_digits total
      rw [show digits total = precision + k by omega, Nat.pow_add, htotal,
        show 10 ^ m = 10 ^ (m - k) * 10 ^ k by rw [← Nat.pow_add, Nat.sub_add_cancel hkm],
        ← Nat.mul_assoc] at hlt
      exact Nat.lt_of_mul_lt_mul_right hlt
  have hmul : mul precision d ⟨false, 10 ^ m, 0⟩ =
      ⟨d.neg, d.coefficient * 10 ^ (m - k), d.exponent + 0 + k⟩ := by
    simp only [mul, fix, Bool.xor_false]
    rw [← htotal, ← hk, hround, if_pos hfit]
  have hwhole : (match d.exponent + 0 + (k : ℤ) with
      | .ofNat j => d.coefficient * 10 ^ (m - k) * 10 ^ j
      | .negSucc j => d.coefficient * 10 ^ (m - k) / 10 ^ (j + 1)) = d.coefficient := by
    split
    case h_1 j hj =>
      have hj' : d.exponent + 0 + (k : ℤ) = (j : ℤ) := hj
      rw [show m - k = 0 by omega, show j = 0 by omega]
      simp
    case h_2 j hj =>
      have hj' : d.exponent + 0 + (k : ℤ) = -((j + 1 : ℕ) : ℤ) := by rw [hj]; rfl
      rw [show m - k = j + 1 by omega, Nat.mul_div_cancel _ (by positivity)]
  rw [hmul, toInt]
  exact congrArg d.signed hwhole

end Decimal

/-! ## Numbers that are not finite -/

/-- What an operation raises. -/
inductive Signal where
  | invalidOperation | valueError | overflowError
  deriving DecidableEq

/-- A number, an infinity or a NaN. -/
inductive Number where
  | finite (d : Decimal)
  | infinite (neg : Bool)
  | nan (signaling : Bool)
  deriving DecidableEq

namespace Number

/-- `is_finite`. -/
def isFinite : Number → Bool
  | finite _ => true
  | _ => false

/-- `quantize` to a finite exponent. -/
def quantize (precision : Nat) (x : Number) (exponent : Int) : Except Signal Number :=
  match x with
  | finite d =>
    match d.quantize precision exponent with
    | some r => .ok (finite r)
    | none => .error .invalidOperation
  | infinite _ | nan true => .error .invalidOperation
  | nan false => .ok (nan false)

/-- The product with a finite number that is not zero. -/
def scale (precision : Nat) (x : Number) (factor : Decimal) : Except Signal Number :=
  match x with
  | finite d => .ok (finite (d.mul precision factor))
  | infinite neg => .ok (infinite (neg ^^ factor.neg))
  | nan true => .error .invalidOperation
  | nan false => .ok (nan false)

/-- `int(x)`. -/
def toInt : Number → Except Signal Int
  | finite d => .ok d.toInt
  | infinite _ => .error .overflowError
  | nan _ => .error .valueError

end Number

end MyOriShop.Lib.Decimals
