import Mathlib.Algebra.Order.Field.Power
import Mathlib.Data.Rat.Cast.Order
import Mathlib.Order.Monotone.Basic
import Mathlib.Tactic.Linarith
import Mathlib.Tactic.Positivity
import Mathlib.Tactic.Ring
import DirectivePack.Float.Format

/-!
Bit patterns and the numbers that they stand for, as exact rationals.

Without its sign bit a pattern is a magnitude.  Magnitudes are counted through all exponents without
a gap, so the next magnitude is the next number.

* `steps_add`: a significand above the start of a binade, with the carry into the next one.
* `number_strictMono`: greater magnitudes are greater numbers.
* `exists_number_eq`: the numbers with few significant bits are numbers of magnitudes.
* `decode_withSign`, `number?_eq_some_iff`: patterns as signed magnitudes, finite below infinity.
-/

namespace DirectivePack

/-- A magnitude with a sign. -/
def signed (negative : Bool) (r : ℚ) : ℚ :=
  if negative then -r else r

@[simp] theorem signed_false (r : ℚ) : signed false r = r := rfl

@[simp] theorem signed_true (r : ℚ) : signed true r = -r := rfl

@[simp] theorem signed_signed (negative : Bool) (r : ℚ) :
    signed negative (signed negative r) = r := by
  cases negative <;> simp

@[simp] theorem abs_signed (negative : Bool) (r : ℚ) : |signed negative r| = |r| := by
  cases negative <;> simp

theorem signed_sub_signed (negative : Bool) (r s : ℚ) :
    signed negative r - signed negative s = signed negative (r - s) := by
  cases negative with
  | false => rfl
  | true =>
    rw [signed_true, signed_true, signed_true]
    ring

/-- Numbers on different sides of zero are as far apart as zero is from both together. -/
theorem abs_signed_sub_signed_of_ne {negative other : Bool} (different : negative ≠ other) {r s : ℚ}
    (r_nonneg : 0 ≤ r) (s_nonneg : 0 ≤ s) :
    |signed negative r - signed other s| = r + s := by
  cases negative with
  | false =>
    obtain rfl : other = true := by simpa using different.symm
    rw [signed_false, signed_true, sub_neg_eq_add, abs_of_nonneg (by linarith)]
  | true =>
    obtain rfl : other = false := by simpa using different.symm
    rw [signed_false, signed_true, abs_of_nonpos (by linarith)]
    ring

namespace FloatDatum

/-- The number that a finite datum stands for. -/
def number? : FloatDatum → Option ℚ
  | .finite negative significand exponent => some (signed negative (significand * 2 ^ exponent))
  | .infinite _ | .nan .. => none

/-- The sign, which zeros have too. -/
def negative : FloatDatum → Bool
  | .finite negative .. | .infinite negative | .nan negative _ => negative

end FloatDatum

namespace FloatFormat

variable (format : FloatFormat)

/-! ### Magnitudes -/

/-- How many of the smallest steps a magnitude is above zero.  The magnitudes from infinity on are
counted as if exponents went on. -/
def steps (magnitude : Nat) : Nat :=
  let binade := magnitude / 2 ^ format.fractionBits - 1
  (magnitude - binade * 2 ^ format.fractionBits) * 2 ^ binade

/-- The number that a magnitude stands for. -/
def number (magnitude : Nat) : ℚ :=
  format.steps magnitude * 2 ^ format.minExponent

/-- A significand above the start of a binade.  The greatest one is the start of the next binade. -/
theorem steps_add {binade significand : Nat}
    (normal : binade = 0 ∨ 2 ^ format.fractionBits ≤ significand)
    (small : significand ≤ 2 * 2 ^ format.fractionBits) :
    format.steps (binade * 2 ^ format.fractionBits + significand) = significand * 2 ^ binade := by
  have positive : 0 < 2 ^ format.fractionBits := by positivity
  unfold steps
  generalize 2 ^ format.fractionBits = size at normal small positive ⊢
  have field : (binade * size + significand) / size = binade + significand / size := by
    rw [Nat.add_comm, Nat.add_mul_div_right _ _ positive, Nat.add_comm]
  rw [field]
  rcases Nat.lt_or_ge significand size with below | above
  · obtain rfl : binade = 0 := normal.resolve_right (by omega)
    simp [Nat.div_eq_of_lt below]
  · rcases Nat.lt_or_ge significand (2 * size) with below | top
    · have one : significand / size = 1 := Nat.div_eq_of_lt_le (by omega) (by omega)
      simp [one]
    · obtain rfl : significand = 2 * size := by omega
      have next : binade * size + 2 * size - (binade + 1) * size = size := by
        rw [Nat.add_mul, Nat.one_mul]
        omega
      rw [Nat.mul_div_cancel _ positive, show binade + 2 - 1 = binade + 1 from rfl]
      dsimp only
      rw [next, pow_succ]
      ring

/-- Every magnitude is a significand above the start of its binade. -/
theorem exists_binade (magnitude : Nat) :
    ∃ binade significand, magnitude = binade * 2 ^ format.fractionBits + significand ∧
      (binade = 0 ∨ 2 ^ format.fractionBits ≤ significand) ∧
      significand < 2 * 2 ^ format.fractionBits := by
  have positive : 0 < 2 ^ format.fractionBits := by positivity
  generalize 2 ^ format.fractionBits = size at positive ⊢
  have division := Nat.div_add_mod' magnitude size
  have remainder := Nat.mod_lt magnitude positive
  rcases Nat.eq_zero_or_pos (magnitude / size) with subnormal | normal
  · refine ⟨0, magnitude, by omega, .inl rfl, ?_⟩
    rw [subnormal] at division
    omega
  · obtain ⟨binade, field⟩ := Nat.exists_eq_add_of_le' normal
    rw [field, Nat.add_mul, Nat.one_mul] at division
    exact ⟨binade, size + magnitude % size, by omega, .inr (by omega), by omega⟩

theorem steps_strictMono : StrictMono format.steps := by
  apply strictMono_nat_of_lt_succ
  intro magnitude
  obtain ⟨binade, significand, rfl, normal, small⟩ := format.exists_binade magnitude
  rw [Nat.add_assoc, format.steps_add normal small.le,
    format.steps_add (normal.imp_right (by omega)) small]
  exact Nat.mul_lt_mul_of_pos_right (Nat.lt_succ_self _) (by positivity)

theorem number_strictMono : StrictMono format.number := by
  intro m n less
  have more_steps : (format.steps m : ℚ) < format.steps n :=
    Nat.cast_lt.mpr (format.steps_strictMono less)
  exact mul_lt_mul_of_pos_right more_steps (by positivity)

theorem number_nonneg (magnitude : Nat) : 0 ≤ format.number magnitude := by
  unfold number
  positivity

@[simp] theorem number_zero : format.number 0 = 0 := by
  simp [number, steps]

/-- The number of a significand above the start of a binade. -/
theorem number_add {binade significand : Nat}
    (normal : binade = 0 ∨ 2 ^ format.fractionBits ≤ significand)
    (small : significand ≤ 2 * 2 ^ format.fractionBits) :
    format.number (binade * 2 ^ format.fractionBits + significand) =
      significand * 2 ^ (format.minExponent + binade) := by
  rw [number, format.steps_add normal small, zpow_add₀ two_ne_zero, zpow_natCast]
  push_cast
  ring

/-- A number of a lower binade is below the start of this one. -/
theorem number_lt_start {binade lower significand : Nat} (is_lower : lower < binade)
    (small : significand < 2 * 2 ^ format.fractionBits) :
    format.number (lower * 2 ^ format.fractionBits + significand) <
      (2 ^ format.fractionBits : Nat) * 2 ^ (format.minExponent + binade) := by
  have before : lower * 2 ^ format.fractionBits + significand <
      binade * 2 ^ format.fractionBits + 2 ^ format.fractionBits := by
    have := Nat.mul_le_mul_right (2 ^ format.fractionBits) is_lower
    rw [Nat.succ_mul] at this
    omega
  have below := format.number_strictMono before
  rwa [format.number_add (.inr le_rfl) (by omega)] at below

/-- A number of a higher binade is a whole significand of this one. -/
theorem number_add_shift {binade shift significand : Nat}
    (normal : binade + shift = 0 ∨ 2 ^ format.fractionBits ≤ significand)
    (small : significand ≤ 2 * 2 ^ format.fractionBits) :
    format.number ((binade + shift) * 2 ^ format.fractionBits + significand) =
      (significand * 2 ^ shift : Nat) * 2 ^ (format.minExponent + binade) := by
  rw [format.number_add normal small, Nat.cast_add, ← add_assoc,
    zpow_add₀ two_ne_zero _ (shift : ℤ), zpow_natCast]
  push_cast
  ring

/-- A number with no more significant bits than a significand has, and no smaller than the smallest
steps, is the number of a magnitude. -/
theorem exists_number_eq {significand : Nat} {exponent : Int}
    (small : significand ≤ 2 * 2 ^ format.fractionBits) (least : format.minExponent ≤ exponent) :
    ∃ magnitude, format.number magnitude = significand * 2 ^ exponent := by
  obtain ⟨binade, rfl⟩ := Int.le.dest least
  -- a significand that does not fill its bits is shifted until it does or the binade is the first
  induction binade generalizing significand with
  | zero => exact ⟨_, format.number_add (.inl rfl) small⟩
  | succ binade ih =>
    by_cases normal : 2 ^ format.fractionBits ≤ significand
    · exact ⟨_, format.number_add (.inr normal) small⟩
    · obtain ⟨magnitude, shifted⟩ := @ih (2 * significand) (by omega) (by omega)
      refine ⟨magnitude, ?_⟩
      rw [shifted, Nat.cast_succ, ← add_assoc, zpow_add_one₀ two_ne_zero]
      push_cast
      ring

/-! ### Patterns -/

theorem infinity_eq :
    format.infinity = (2 ^ format.exponentBits - 1) * 2 ^ format.fractionBits :=
  rfl

theorem signBit_eq : format.signBit = 2 ^ format.exponentBits * 2 ^ format.fractionBits := by
  rw [signBit, Nat.pow_eq, Nat.pow_add, Nat.mul_comm]

theorem infinity_lt_signBit : format.infinity < format.signBit := by
  have exponents : 0 < 2 ^ format.exponentBits := by positivity
  rw [infinity_eq, signBit_eq]
  exact Nat.mul_lt_mul_of_pos_right (by omega) (by positivity)

theorem withSign_lt {magnitude : Nat} (negative : Bool) (small : magnitude < format.signBit) :
    format.withSign negative magnitude < 2 * format.signBit := by
  cases negative <;> simp [withSign] <;> omega

theorem withSign_mod_signBit {magnitude : Nat} (negative : Bool)
    (small : magnitude < format.signBit) :
    format.withSign negative magnitude % format.signBit = magnitude := by
  cases negative with
  | false => exact Nat.mod_eq_of_lt small
  | true => rw [withSign, if_pos rfl, Nat.add_mod_left, Nat.mod_eq_of_lt small]

/-- Every pattern is a magnitude with a sign. -/
theorem exists_withSign {pattern : Nat} (small : pattern < 2 * format.signBit) :
    ∃ negative magnitude, magnitude < format.signBit ∧
      pattern = format.withSign negative magnitude := by
  rcases Nat.lt_or_ge pattern format.signBit with positive | negative
  · exact ⟨false, pattern, positive, rfl⟩
  · refine ⟨true, pattern - format.signBit, by omega, ?_⟩
    rw [withSign, if_pos rfl]
    omega

theorem withSign_div_signBit {magnitude : Nat} (negative : Bool)
    (small : magnitude < format.signBit) :
    decide (format.withSign negative magnitude / format.signBit % 2 = 1) = negative := by
  have positive : 0 < format.signBit := by omega
  cases negative with
  | false => simp [withSign, Nat.div_eq_of_lt small]
  | true =>
    rw [withSign, if_pos rfl, Nat.add_div_left _ positive, Nat.div_eq_of_lt small]
    rfl

theorem withSign_mod_size (negative : Bool) (magnitude : Nat) :
    format.withSign negative magnitude % 2 ^ format.fractionBits =
      magnitude % 2 ^ format.fractionBits := by
  cases negative with
  | false => rfl
  | true => rw [withSign, if_pos rfl, signBit_eq, Nat.mul_add_mod_self_right]

theorem withSign_div_size {magnitude : Nat} (negative : Bool) (small : magnitude < format.signBit) :
    format.withSign negative magnitude / 2 ^ format.fractionBits % 2 ^ format.exponentBits =
      magnitude / 2 ^ format.fractionBits := by
  have positive : 0 < 2 ^ format.fractionBits := by positivity
  have in_field : magnitude / 2 ^ format.fractionBits < 2 ^ format.exponentBits := by
    rwa [Nat.div_lt_iff_lt_mul positive, ← signBit_eq]
  cases negative with
  | false => exact Nat.mod_eq_of_lt in_field
  | true =>
    rw [withSign, if_pos rfl, signBit_eq, Nat.add_comm, Nat.add_mul_div_right _ _ positive,
      Nat.add_mod_right, Nat.mod_eq_of_lt in_field]

/-- What a magnitude with a sign stands for, by its exponent field and its fraction. -/
theorem decode_withSign {magnitude : Nat} (negative : Bool) (small : magnitude < format.signBit) :
    format.decode (format.withSign negative magnitude) =
      let size := 2 ^ format.fractionBits
      let binade := magnitude / size - 1
      if magnitude / size = 2 ^ format.exponentBits - 1 then
        if magnitude % size = 0 then .infinite negative else .nan negative (magnitude % size)
      else .finite negative (magnitude - binade * size) (format.minExponent + binade) := by
  have division := Nat.div_add_mod' magnitude (2 ^ format.fractionBits)
  simp only [decode, Nat.pow_eq, withSign_div_signBit format negative small,
    withSign_div_size format negative small, withSign_mod_size]
  generalize 2 ^ format.fractionBits = size at division ⊢
  split
  · rfl
  · split
    · rename_i subnormal
      rw [subnormal] at division
      simp only [subnormal, FloatDatum.finite.injEq, true_and]
      omega
    · rename_i normal
      obtain ⟨binade, is_field⟩ := Nat.exists_eq_succ_of_ne_zero normal
      rw [is_field, Nat.succ_eq_add_one, Nat.add_mul, Nat.one_mul] at division
      simp only [is_field, Nat.succ_eq_add_one, Nat.add_sub_cancel, FloatDatum.finite.injEq,
        true_and]
      omega

theorem negative_decode_withSign {magnitude : Nat} (negative : Bool)
    (small : magnitude < format.signBit) :
    (format.decode (format.withSign negative magnitude)).negative = negative := by
  rw [decode_withSign format negative small]
  dsimp only
  split
  · split <;> rfl
  · rfl

theorem decode_infinity (negative : Bool) :
    format.decode (format.withSign negative format.infinity) = .infinite negative := by
  have positive : 0 < 2 ^ format.fractionBits := by positivity
  rw [decode_withSign format negative format.infinity_lt_signBit, infinity_eq]
  simp [Nat.mul_div_cancel _ positive]

/-- The magnitudes below infinity are finite. -/
theorem decode_of_lt_infinity {magnitude : Nat} (negative : Bool)
    (small : magnitude < format.infinity) :
    ∃ significand exponent,
      format.decode (format.withSign negative magnitude) = .finite negative significand exponent ∧
      format.number magnitude = significand * 2 ^ exponent ∧
      significand ≤ 2 * 2 ^ format.fractionBits ∧ format.minExponent ≤ exponent := by
  have positive : 0 < 2 ^ format.fractionBits := by positivity
  have division := Nat.div_add_mod' magnitude (2 ^ format.fractionBits)
  have remainder := Nat.mod_lt magnitude positive
  have field : magnitude / 2 ^ format.fractionBits < 2 ^ format.exponentBits - 1 := by
    rwa [Nat.div_lt_iff_lt_mul positive, ← infinity_eq]
  rw [decode_withSign format negative (small.trans format.infinity_lt_signBit)]
  refine ⟨_, _, if_neg field.ne, ?_, ?_, by omega⟩
  · rw [number, steps, zpow_add₀ two_ne_zero, zpow_natCast]
    push_cast
    ring
  · rw [Nat.sub_mul, Nat.one_mul]
    omega

/-- The magnitudes above infinity are NaNs. -/
theorem decode_of_infinity_lt {magnitude : Nat} (negative : Bool)
    (great : format.infinity < magnitude) (small : magnitude < format.signBit) :
    ∃ payload, format.decode (format.withSign negative magnitude) = .nan negative payload := by
  have positive : 0 < 2 ^ format.fractionBits := by positivity
  have division := Nat.div_add_mod' magnitude (2 ^ format.fractionBits)
  rw [infinity_eq] at great
  rw [signBit_eq] at small
  have below : magnitude / 2 ^ format.fractionBits < 2 ^ format.exponentBits := by
    rwa [Nat.div_lt_iff_lt_mul positive]
  have above : 2 ^ format.exponentBits - 1 ≤ magnitude / 2 ^ format.fractionBits := by
    rw [Nat.le_div_iff_mul_le positive]
    exact great.le
  have field : magnitude / 2 ^ format.fractionBits = 2 ^ format.exponentBits - 1 := by omega
  have fraction : magnitude % 2 ^ format.fractionBits ≠ 0 := by
    rw [field] at division
    omega
  rw [← signBit_eq] at small
  rw [decode_withSign format negative small]
  exact ⟨_, (if_pos field).trans (if_neg fraction)⟩

theorem number?_withSign {magnitude : Nat} (negative : Bool) (small : magnitude < format.infinity) :
    (format.decode (format.withSign negative magnitude)).number? =
      some (signed negative (format.number magnitude)) := by
  obtain ⟨significand, exponent, decoded, number, -⟩ := format.decode_of_lt_infinity negative small
  rw [decoded, number, FloatDatum.number?]

/-- The patterns that stand for numbers are the magnitudes below infinity, with either sign. -/
theorem number?_eq_some_iff {pattern : Nat} (small : pattern < 2 * format.signBit) {r : ℚ} :
    (format.decode pattern).number? = some r ↔
      ∃ negative magnitude, magnitude < format.infinity ∧
        pattern = format.withSign negative magnitude ∧
        r = signed negative (format.number magnitude) := by
  constructor
  · intro number
    obtain ⟨negative, magnitude, bound, rfl⟩ := format.exists_withSign small
    rcases Nat.lt_trichotomy magnitude format.infinity with finite | rfl | great
    · rw [number?_withSign format negative finite, Option.some.injEq] at number
      exact ⟨negative, magnitude, finite, rfl, number.symm⟩
    · rw [decode_infinity] at number
      cases number
    · obtain ⟨payload, decoded⟩ := format.decode_of_infinity_lt negative great bound
      rw [decoded] at number
      cases number
  · rintro ⟨negative, magnitude, finite, rfl, rfl⟩
    exact format.number?_withSign negative finite

/-- The infinite patterns are one for each sign. -/
theorem decode_eq_infinite_iff {pattern : Nat} (small : pattern < 2 * format.signBit)
    {negative : Bool} :
    format.decode pattern = .infinite negative ↔
      pattern = format.withSign negative format.infinity := by
  constructor
  · intro infinite
    obtain ⟨sign, magnitude, bound, rfl⟩ := format.exists_withSign small
    rcases Nat.lt_trichotomy magnitude format.infinity with finite | rfl | great
    · obtain ⟨significand, exponent, decoded, -⟩ := format.decode_of_lt_infinity sign finite
      cases decoded.symm.trans infinite
    · cases (format.decode_infinity sign).symm.trans infinite
      rfl
    · obtain ⟨payload, decoded⟩ := format.decode_of_infinity_lt sign great bound
      cases decoded.symm.trans infinite
  · rintro rfl
    exact format.decode_infinity negative

end FloatFormat

end DirectivePack
