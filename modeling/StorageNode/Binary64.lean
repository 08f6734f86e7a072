/-
# Finite binary64 numbers

The finite values of IEEE 754's double format, each an integer multiple of the smallest
subnormal `2 ^ -1074`, and the two conversions of a language that reads and prints them.

* `Binary64` : sign, mantissa and exponent, in the one form that is normalised;
* `Binary64.nearest` : rounding a fraction to the nearest number, ties to even;
* `nearest_exact`, `nearest_eq_of_ratio` : a number is rounded to itself, however the
  fraction is written;
* `Binary64.shortest` : the shortest decimal that is rounded to the number, and of two
  such the one closer to it;
* `ofDecimal_shortest` : it is read back.
-/
import Mathlib

/-- `±mantissa * 2 ^ exponent` times the smallest subnormal. -/
structure Binary64 where
  neg : Bool
  mantissa : ℕ
  exponent : ℕ
  mantissa_lt : mantissa < 2 ^ 53
  normal : exponent = 0 ∨ 2 ^ 52 ≤ mantissa
  exponent_le : exponent ≤ 2045
  deriving DecidableEq

/-- The quotient rounded to the nearest integer, ties to even. -/
def roundHalfEven (num den : ℕ) : ℕ :=
  if 2 * (num % den) < den then num / den
  else if den < 2 * (num % den) then num / den + 1
  else num / den + num / den % 2

theorem le_roundHalfEven (num den : ℕ) : num / den ≤ roundHalfEven num den := by
  unfold roundHalfEven
  split_ifs <;> omega

theorem roundHalfEven_mul {den : ℕ} (hden : 0 < den) (m : ℕ) : roundHalfEven (m * den) den = m := by
  rw [roundHalfEven, Nat.mul_mod_left, if_pos (by omega), Nat.mul_div_cancel m hden]

/-- Numerator and denominator may have a common factor. -/
theorem roundHalfEven_mul_right {k : ℕ} (hk : 0 < k) (num den : ℕ) :
    roundHalfEven (num * k) (den * k) = roundHalfEven num den := by
  have hlt : 2 * (num % den * k) < den * k ↔ 2 * (num % den) < den := by
    rw [← mul_assoc]
    exact Nat.mul_lt_mul_right hk
  have hgt : den * k < 2 * (num % den * k) ↔ den < 2 * (num % den) := by
    rw [← mul_assoc]
    exact Nat.mul_lt_mul_right hk
  simp only [roundHalfEven, Nat.mul_mod_mul_right, Nat.mul_div_mul_right _ _ hk, hlt, hgt]

namespace Binary64

/-- The number without its sign, in units of the smallest subnormal. -/
def magnitude (x : Binary64) : ℕ := x.mantissa * 2 ^ x.exponent

/-- The number in units of the smallest subnormal. -/
def units (x : Binary64) : ℤ := if x.neg then -(x.magnitude : ℤ) else x.magnitude

/-! ## Rounding -/

/-- The exponent under which the quotient has a mantissa of 53 bits. -/
def scale (num den : ℕ) : ℕ := Nat.log2 (num / den) - 52

theorem le_mantissa {num den : ℕ} (h : scale num den ≠ 0) :
    2 ^ 52 ≤ roundHalfEven num (den * 2 ^ scale num den) := by
  refine le_trans ?_ (le_roundHalfEven _ _)
  rw [← Nat.div_div_eq_div_mul, Nat.le_div_iff_mul_le (by positivity), ← pow_add]
  have hne : num / den ≠ 0 := by
    intro hzero
    rw [scale, hzero] at h
    exact h rfl
  have hlog : 52 + scale num den = Nat.log2 (num / den) := by
    unfold scale at h ⊢
    omega
  rw [hlog]
  exact Nat.log2_self_le hne

/-- The number nearest to `num / den` units, `none` when that is out of range. -/
def nearest (neg : Bool) (num den : ℕ) : Option Binary64 :=
  let e := scale num den
  let m := roundHalfEven num (den * 2 ^ e)
  if he : e ≤ 2045 ∧ m < 2 ^ 53 then
    some { neg := neg, mantissa := m, exponent := e, mantissa_lt := he.2
           normal := or_iff_not_imp_left.mpr le_mantissa, exponent_le := he.1 }
  -- the mantissa has been rounded up to the next power of two
  else if he : e + 1 ≤ 2045 then
    some { neg := neg, mantissa := 2 ^ 52, exponent := e + 1, mantissa_lt := by decide
           normal := Or.inr le_rfl, exponent_le := he }
  else none

/-- **Only the quotient counts.** -/
theorem nearest_eq_of_ratio {neg : Bool} {a b c d : ℕ} (hb : 0 < b) (hd : 0 < d)
    (h : a * d = c * b) : nearest neg a b = nearest neg c d := by
  have hmul : ∀ {k : ℕ} (_ : 0 < k) (num den : ℕ),
      nearest neg (num * k) (den * k) = nearest neg num den := by
    intro k hk num den
    have hscale : scale (num * k) (den * k) = scale num den := by
      rw [scale, Nat.mul_div_mul_right _ _ hk, ← scale]
    have hmantissa : roundHalfEven (num * k) (den * k * 2 ^ scale num den) =
        roundHalfEven num (den * 2 ^ scale num den) := by
      rw [mul_right_comm, roundHalfEven_mul_right hk]
    simp only [nearest, hscale, hmantissa]
  rw [← hmul hd a b, h, mul_comm b d, hmul hb c d]

/-- **A number is rounded to itself.** -/
theorem nearest_exact (x : Binary64) {den : ℕ} (hden : 0 < den) :
    nearest x.neg (x.magnitude * den) den = some x := by
  have hscale : scale (x.magnitude * den) den = x.exponent := by
    rw [scale, Nat.mul_div_cancel _ hden, magnitude]
    rcases Nat.eq_zero_or_pos x.mantissa with hzero | hpos
    · rcases x.normal with he | hm
      · rw [hzero, he]
        rfl
      · omega
    · have hshift : Nat.log2 (x.mantissa * 2 ^ x.exponent) = Nat.log2 x.mantissa + x.exponent := by
        refine (Nat.log2_eq_iff (by positivity)).mpr ⟨?_, ?_⟩
        · rw [pow_add]
          exact Nat.mul_le_mul_right _ (Nat.log2_self_le hpos.ne')
        · rw [add_right_comm, pow_add]
          exact (Nat.mul_lt_mul_right (by positivity)).mpr Nat.lt_log2_self
      rw [hshift]
      have hlt : Nat.log2 x.mantissa < 53 := (Nat.log2_lt hpos.ne').mpr x.mantissa_lt
      rcases x.normal with he | hm
      · omega
      · have hle : 52 ≤ Nat.log2 x.mantissa := (Nat.le_log2 hpos.ne').mpr hm
        omega
  have hmantissa : roundHalfEven (x.magnitude * den) (den * 2 ^ x.exponent) = x.mantissa := by
    rw [magnitude, mul_assoc, mul_comm (2 ^ x.exponent)]
    exact roundHalfEven_mul (by positivity) x.mantissa
  simp only [nearest, hscale, hmantissa, dif_pos (And.intro x.exponent_le x.mantissa_lt)]

/-! ## Decimals -/

/-- The binary, and so the decimal, places of the smallest subnormal. -/
@[irreducible] def places : ℕ := 1074

/-- The number nearest to `n * 10 ^ -places`. -/
def ofDecimal (neg : Bool) (n : ℕ) : Option Binary64 := nearest neg (n * 2 ^ places) (10 ^ places)

/-- The number as a decimal, with all its digits. -/
def decimal (x : Binary64) : ℕ := x.magnitude * 5 ^ places

theorem ofDecimal_decimal (x : Binary64) : ofDecimal x.neg x.decimal = some x := by
  have hratio : x.decimal * 2 ^ places = x.magnitude * 10 ^ places := by
    rw [decimal, mul_assoc, ← mul_pow, show 5 * 2 = 10 from rfl]
  rw [ofDecimal, hratio]
  exact nearest_exact x (by positivity)

/-- The decimals of at most `n` digits next to the number, the closer one first. -/
def neighbours (x : Binary64) (n : ℕ) : List ℕ :=
  let d := 10 ^ ((Nat.digits 10 x.decimal).length - n)
  let below := x.decimal / d * d
  if 2 * (x.decimal % d) ≤ d then [below, below + d] else [below + d, below]

/-- **The shortest decimal** that is rounded to the number; 17 digits are always enough. -/
def shortest (x : Binary64) : ℕ :=
  (((List.range 17).flatMap fun n => x.neighbours (n + 1)).find?
    fun n => ofDecimal x.neg n = some x).getD x.decimal

theorem ofDecimal_shortest (x : Binary64) : ofDecimal x.neg x.shortest = some x := by
  unfold shortest
  cases h : ((List.range 17).flatMap fun n => x.neighbours (n + 1)).find?
      fun n => ofDecimal x.neg n = some x with
  | none => exact ofDecimal_decimal x
  | some n => simpa using List.find?_some h

end Binary64
