import DirectivePack.Proofs.Float.Magnitudes

/-!
Rounding to the nearest number of a format, ties to even.

A quotient is brought to the binade that it falls into and rounded to a whole significand there.
Magnitudes are counted through all binades, so the result is nearest among all of them; what would
be infinity or above is infinity.

* `nearestWhole_divNearestEven`: rounding to a whole number.
* `floorLog2_spec`: the binade of a quotient.
* `exists_round_eq`: a quotient is rounded to the nearest magnitude.
* `NearestTo.lt_infinity_iff`: it stays finite below half a step above the greatest number.
* `isNearest_withSign`, `IsNearest.unique`: with its sign, this magnitude is the one pattern that is
  nearest.
-/

namespace DirectivePack

/-! ### Whole numbers -/

/-- Less than half a step away, or halfway and even. -/
def NearestWhole (n : Nat) (x : ℚ) : Prop :=
  |(n : ℚ) - x| < 1 / 2 ∨ |(n : ℚ) - x| = 1 / 2 ∧ n % 2 = 0

theorem nearestWhole_divNearestEven (num : Nat) {den : Nat} (positive : 0 < den) :
    NearestWhole (divNearestEven num den) (num / den) := by
  have den_pos : (0 : ℚ) < den := Nat.cast_pos.mpr positive
  have remainder : ((num % den : Nat) : ℚ) < den := Nat.cast_lt.mpr (Nat.mod_lt num positive)
  have quotient : (num : ℚ) / den = (num / den : Nat) + (num % den : Nat) / den := by
    rw [div_eq_iff den_pos.ne', add_mul, div_mul_cancel₀ _ den_pos.ne']
    exact_mod_cast (Nat.div_add_mod' num den).symm
  rw [quotient]
  unfold NearestWhole divNearestEven
  generalize num / den = whole
  generalize num % den = rest at remainder ⊢
  have part_nonneg : 0 ≤ (rest : ℚ) / den := by positivity
  have part_lt : (rest : ℚ) / den < 1 := (div_lt_one den_pos).mpr remainder
  have lower (part : ℚ) (nonneg : 0 ≤ part) : |(whole : ℚ) - (whole + part)| = part := by
    rw [sub_add_cancel_left, abs_neg, abs_of_nonneg nonneg]
  have upper (part : ℚ) (small : part < 1) :
      |((whole + 1 : Nat) : ℚ) - (whole + part)| = 1 - part := by
    rw [Nat.cast_succ, add_sub_add_left_eq_sub, abs_of_pos (by linarith)]
  dsimp only
  split
  · rename_i less
    have half : (rest : ℚ) / den < 1 / 2 := by
      have : (2 * rest : ℚ) < den := by exact_mod_cast less
      rw [div_lt_iff₀ den_pos]
      linarith
    rw [lower _ part_nonneg]
    exact .inl half
  · split
    · rename_i more
      have half : 1 / 2 < (rest : ℚ) / den := by
        have : (den : ℚ) < 2 * rest := by exact_mod_cast more
        rw [lt_div_iff₀ den_pos]
        linarith
      rw [upper _ part_lt]
      exact .inl (by linarith)
    · rename_i not_less not_more
      have half : (rest : ℚ) / den = 1 / 2 := by
        have : (den : ℚ) = 2 * rest := by exact_mod_cast (show den = 2 * rest by omega)
        rw [div_eq_iff den_pos.ne']
        linarith
      split
      · rename_i even
        rw [lower _ part_nonneg]
        exact .inr ⟨half, even⟩
      · rw [upper _ part_lt, half]
        exact .inr ⟨by norm_num, by omega⟩

namespace NearestWhole

variable {n : Nat} {x : ℚ} (nearest : NearestWhole n x)

include nearest

theorem abs_sub_le_half : |(n : ℚ) - x| ≤ 1 / 2 :=
  nearest.elim le_of_lt (·.1.le)

theorem le_bound {bound : Nat} (lt : x < bound) : n ≤ bound := by
  have not_above := (abs_le.mp nearest.abs_sub_le_half).2
  have : (n : ℚ) < (bound + 1 : Nat) := by
    push_cast
    linarith
  exact Nat.lt_succ_iff.mp (Nat.cast_lt.mp this)

theorem bound_le {bound : Nat} (ge : bound ≤ x) : bound ≤ n := by
  have not_below := (abs_le.mp nearest.abs_sub_le_half).1
  have : (bound : ℚ) < (n + 1 : Nat) := by
    push_cast
    linarith
  exact Nat.lt_succ_iff.mp (Nat.cast_lt.mp this)

/-- No other whole number is as near, or this one is even and none is nearer. -/
theorem lt_or_tie {other : Nat} (different : other ≠ n) :
    |(n : ℚ) - x| < |(other : ℚ) - x| ∨ |(n : ℚ) - x| = |(other : ℚ) - x| ∧ n % 2 = 0 := by
  have apart : (1 : ℚ) ≤ |(other : ℚ) - n| := by
    have whole : (1 : ℤ) ≤ |(other : ℤ) - n| :=
      Int.one_le_abs (sub_ne_zero.mpr (by exact_mod_cast different))
    exact_mod_cast whole
  have triangle := abs_sub_le (other : ℚ) x n
  rw [abs_sub_comm x] at triangle
  have far : 1 / 2 ≤ |(other : ℚ) - x| := by
    have near := nearest.abs_sub_le_half
    linarith
  rcases nearest with nearer | ⟨halfway, even⟩
  · exact .inl (nearer.trans_le far)
  · rcases far.lt_or_eq with farther | tie
    · exact .inl (halfway ▸ farther)
    · exact .inr ⟨halfway.trans tie, even⟩

theorem abs_sub_le (other : Nat) : |(n : ℚ) - x| ≤ |(other : ℚ) - x| := by
  by_cases same : other = n
  · rw [same]
  · exact (nearest.lt_or_tie same).elim le_of_lt (·.1.le)

end NearestWhole

/-! ### Binades -/

theorem unscale_snd_pos {den : Nat} (num : Nat) (positive : 0 < den) (exponent : Int) :
    0 < (unscale num den exponent).2 :=
  Nat.mul_pos positive (Nat.pow_pos (by decide))

theorem unscale_div (num den : Nat) (exponent : Int) :
    ((unscale num den exponent).1 : ℚ) / (unscale num den exponent).2 =
      num / den / 2 ^ exponent := by
  obtain ⟨n, rfl | rfl⟩ := exponent.eq_nat_or_neg
  · simp [unscale, div_div]
  · simp [unscale, div_eq_mul_inv, mul_right_comm]

theorem unscale_reached_iff (num : Nat) {den : Nat} (positive : 0 < den) (exponent : Int) :
    (unscale num den exponent).2 ≤ (unscale num den exponent).1 ↔
      (2 : ℚ) ^ exponent ≤ num / den := by
  have scaled_pos : (0 : ℚ) < (unscale num den exponent).2 :=
    Nat.cast_pos.mpr (unscale_snd_pos num positive exponent)
  rw [← Nat.cast_le (α := ℚ), ← one_le_div scaled_pos, unscale_div, one_le_div (by positivity)]

theorem log2_bounds {n : Nat} (positive : 0 < n) :
    (2 : ℚ) ^ (n.log2 : Int) ≤ n ∧ (n : ℚ) < 2 ^ ((n.log2 : Int) + 1) := by
  constructor
  · rw [zpow_natCast]
    exact_mod_cast Nat.log2_self_le positive.ne'
  · rw [← Nat.cast_succ, zpow_natCast]
    exact_mod_cast Nat.lt_log2_self

/-- The exponent is that of the greatest power of two that is not above the quotient. -/
theorem floorLog2_spec {num den : Nat} (num_pos : 0 < num) (den_pos : 0 < den) :
    (2 : ℚ) ^ floorLog2 num den ≤ num / den ∧ (num : ℚ) / den < 2 ^ (floorLog2 num den + 1) := by
  have rat_pos : (0 : ℚ) < den := Nat.cast_pos.mpr den_pos
  obtain ⟨num_least, num_lt⟩ := log2_bounds num_pos
  obtain ⟨den_least, den_lt⟩ := log2_bounds den_pos
  have estimate_lt : (num : ℚ) / den < 2 ^ ((num.log2 : Int) - den.log2 + 1) := by
    rw [div_lt_iff₀ rat_pos]
    calc (num : ℚ) < 2 ^ ((num.log2 : Int) + 1) := num_lt
      _ = 2 ^ ((num.log2 : Int) - den.log2 + 1) * 2 ^ (den.log2 : Int) := by
        rw [← zpow_add₀ two_ne_zero]
        congr 1
        omega
      _ ≤ 2 ^ ((num.log2 : Int) - den.log2 + 1) * den := by gcongr
  have lt_estimate : (2 : ℚ) ^ ((num.log2 : Int) - den.log2 - 1) < num / den := by
    rw [lt_div_iff₀ rat_pos]
    calc (2 : ℚ) ^ ((num.log2 : Int) - den.log2 - 1) * den
        < 2 ^ ((num.log2 : Int) - den.log2 - 1) * 2 ^ ((den.log2 : Int) + 1) := by gcongr
      _ = 2 ^ (num.log2 : Int) := by
        rw [← zpow_add₀ two_ne_zero]
        congr 1
        omega
      _ ≤ num := num_least
  unfold floorLog2
  generalize (num.log2 : Int) - den.log2 = estimate at estimate_lt lt_estimate ⊢
  -- the estimate is the exponent or one above it
  dsimp only
  split
  · rename_i reached
    exact ⟨(unscale_reached_iff num den_pos estimate).mp reached, estimate_lt⟩
  · rename_i not_reached
    have less := lt_of_not_ge (mt (unscale_reached_iff num den_pos estimate).mpr not_reached)
    exact ⟨lt_estimate.le, by rwa [sub_add_cancel]⟩

namespace FloatFormat

variable (format : FloatFormat)

/-! ### The nearest magnitude -/

/-- No other magnitude is as near, or this one is even and none is nearer.  Infinity is counted among
the magnitudes, as the number behind the greatest one. -/
def NearestTo (q : ℚ) (magnitude : Nat) : Prop :=
  ∀ other, other ≠ magnitude →
    |format.number magnitude - q| < |format.number other - q| ∨
      |format.number magnitude - q| = |format.number other - q| ∧ magnitude % 2 = 0

theorem size_mod_two (fractional : 0 < format.fractionBits) : 2 ^ format.fractionBits % 2 = 0 := by
  rw [← Nat.succ_pred_eq_of_pos fractional, pow_succ]
  exact Nat.mul_mod_left ..

theorem nearestTo_zero : format.NearestTo 0 0 := by
  intro other different
  have positive := format.number_strictMono (Nat.pos_of_ne_zero different)
  rw [number_zero] at positive ⊢
  rw [sub_zero, sub_zero, abs_zero, abs_of_pos positive]
  exact .inl positive

/-- In a binade that the number reaches, the nearest whole significand is the nearest magnitude. -/
theorem nearestTo_add (fractional : 0 < format.fractionBits) {q : ℚ} (binade significand : Nat)
    (reached : binade = 0 ∨
      (2 ^ format.fractionBits : Nat) ≤ q / 2 ^ (format.minExponent + binade))
    (inside : q / 2 ^ (format.minExponent + binade) < (2 * 2 ^ format.fractionBits : Nat))
    (nearest : NearestWhole significand (q / 2 ^ (format.minExponent + binade))) :
    format.NearestTo q (binade * 2 ^ format.fractionBits + significand) := by
  have scale_pos : (0 : ℚ) < 2 ^ (format.minExponent + binade) := by positivity
  have small : significand ≤ 2 * 2 ^ format.fractionBits := nearest.le_bound inside
  have normal : binade = 0 ∨ 2 ^ format.fractionBits ≤ significand :=
    reached.imp_right nearest.bound_le
  obtain ⟨scaled, is_scaled⟩ : ∃ scaled, q / 2 ^ (format.minExponent + binade) = scaled := ⟨_, rfl⟩
  rw [is_scaled] at reached nearest
  rw [div_eq_iff scale_pos.ne'] at is_scaled
  have distance (x : ℚ) : |x * 2 ^ (format.minExponent + binade) - q| =
      |x - scaled| * 2 ^ (format.minExponent + binade) := by
    rw [is_scaled, ← sub_mul, abs_mul, abs_of_pos scale_pos]
  intro other different
  obtain ⟨other_binade, other_significand, rfl, other_normal, other_small⟩ :=
    format.exists_binade other
  rcases Nat.lt_or_ge other_binade binade with lower | higher
  · -- the start of this binade is between the number and those of lower binades
    have full := reached.resolve_left (by omega)
    have below := format.number_lt_start lower other_small
    have start_not_nearer := nearest.abs_sub_le (2 ^ format.fractionBits)
    have start_le :
        ((2 ^ format.fractionBits : Nat) : ℚ) * 2 ^ (format.minExponent + binade) ≤ q := by
      rw [is_scaled]
      gcongr
    refine .inl ?_
    calc |format.number (binade * 2 ^ format.fractionBits + significand) - q|
        = |(significand : ℚ) - scaled| * 2 ^ (format.minExponent + binade) := by
          rw [format.number_add normal small, distance]
      _ ≤ |((2 ^ format.fractionBits : Nat) : ℚ) - scaled| * 2 ^ (format.minExponent + binade) := by
          gcongr
      _ = q - (2 ^ format.fractionBits : Nat) * 2 ^ (format.minExponent + binade) := by
          rw [← distance, abs_of_nonpos (sub_nonpos.mpr start_le), neg_sub]
      _ < q - format.number (other_binade * 2 ^ format.fractionBits + other_significand) := by
          linarith
      _ = |format.number (other_binade * 2 ^ format.fractionBits + other_significand) - q| := by
          rw [abs_of_neg (by linarith), neg_sub]
  · obtain ⟨shift, rfl⟩ := Nat.exists_eq_add_of_le higher
    have whole := format.number_add_shift other_normal other_small.le
    have other_whole : other_significand * 2 ^ shift ≠ significand := by
      intro same
      rw [same, ← format.number_add normal small] at whole
      exact different (format.number_strictMono.injective whole)
    rw [format.number_add normal small, whole, distance, distance]
    rcases nearest.lt_or_tie other_whole with nearer | ⟨tie, even⟩
    · exact .inl (mul_lt_mul_of_pos_right nearer scale_pos)
    · refine .inr ⟨by rw [tie], ?_⟩
      rw [Nat.add_mod, Nat.mul_mod, format.size_mod_two fractional, even]
      simp

/-- A quotient is rounded to the nearest magnitude, or to infinity if that is beyond. -/
theorem exists_round_eq (fractional : 0 < format.fractionBits) (num : Nat) {den : Nat}
    (den_pos : 0 < den) :
    ∃ magnitude, format.NearestTo (num / den) magnitude ∧
      format.round num den = min magnitude format.infinity := by
  rcases Nat.eq_zero_or_pos num with rfl | num_pos
  · refine ⟨0, ?_, ?_⟩
    · rw [Nat.cast_zero, zero_div]
      exact format.nearestTo_zero
    · simp [round]
  · obtain ⟨least, less⟩ := floorLog2_spec num_pos den_pos
    obtain ⟨binade, is_exponent⟩ := Int.le.dest
      (le_max_right (floorLog2 num den - format.fractionBits) format.minExponent)
    refine ⟨_, format.nearestTo_add fractional binade
      (divNearestEven (unscale num den (format.minExponent + binade)).1
        (unscale num den (format.minExponent + binade)).2) ?_ ?_ ?_, ?_⟩
    · rcases Nat.eq_zero_or_pos binade with first | later
      · exact .inl first
      · have exponent : format.minExponent + binade + format.fractionBits = floorLog2 num den := by
          omega
        right
        rwa [le_div_iff₀ (by positivity), Nat.cast_pow, Nat.cast_ofNat, ← zpow_natCast, mul_comm,
          ← zpow_add₀ two_ne_zero, exponent]
    · have exponent : floorLog2 num den + 1 ≤
          format.minExponent + binade + format.fractionBits + 1 := by
        omega
      rw [div_lt_iff₀ (by positivity)]
      calc (num : ℚ) / den < 2 ^ (floorLog2 num den + 1) := less
        _ ≤ 2 ^ (format.minExponent + binade + format.fractionBits + 1) :=
          zpow_le_zpow_right₀ one_le_two exponent
        _ = (2 * 2 ^ format.fractionBits : Nat) * 2 ^ (format.minExponent + binade) := by
          rw [zpow_add_one₀ two_ne_zero, zpow_add₀ two_ne_zero, zpow_natCast]
          push_cast
          ring
    · rw [← unscale_div]
      exact nearestWhole_divNearestEven _ (unscale_snd_pos num den_pos _)
    · rw [round, if_neg num_pos.ne']
      simp only [← is_exponent, Nat.pow_eq]
      simp

namespace NearestTo

variable {format : FloatFormat} {q : ℚ} {magnitude : Nat}

theorem abs_sub_le (nearest : format.NearestTo q magnitude) (other : Nat) :
    |format.number magnitude - q| ≤ |format.number other - q| := by
  by_cases same : other = magnitude
  · rw [same]
  · exact (nearest other same).elim le_of_lt (·.1.le)

/-- A number is not rounded past a magnitude that it does not exceed. -/
theorem le_of_le (nearest : format.NearestTo q magnitude) {bound : Nat}
    (le : q ≤ format.number bound) : magnitude ≤ bound := by
  by_contra beyond
  have less := format.number_strictMono (Nat.lt_of_not_le beyond)
  have not_farther := nearest.abs_sub_le bound
  rw [abs_of_nonneg (by linarith), abs_of_nonneg (by linarith)] at not_farther
  linarith

/-- The number of a magnitude is rounded to this magnitude. -/
theorem eq_of_number (nearest : format.NearestTo q magnitude) {exact_one : Nat}
    (is_number : q = format.number exact_one) : magnitude = exact_one := by
  have not_farther := nearest.abs_sub_le exact_one
  rw [is_number, sub_self, abs_zero, abs_nonpos_iff, sub_eq_zero] at not_farther
  exact format.number_strictMono.injective not_farther

/-- Halfway between the greatest number and infinity is the first one that is rounded to infinity,
since infinity is even. -/
theorem lt_infinity_iff (nearest : format.NearestTo q magnitude) (greatest : Nat)
    (is_greatest : format.infinity = greatest + 1) (odd : greatest % 2 = 1) :
    magnitude < format.infinity ↔
      q < (format.number greatest + format.number format.infinity) / 2 := by
  have next := format.number_strictMono (Nat.lt_succ_self greatest)
  rw [Nat.succ_eq_add_one, ← is_greatest] at next
  constructor
  · intro finite
    by_contra beyond
    have le_greatest := format.number_strictMono.monotone (show magnitude ≤ greatest by omega)
    have not_farther := nearest format.infinity finite.ne'
    rw [abs_of_neg (by linarith)] at not_farther
    have infinity_near : |format.number format.infinity - q| ≤ q - format.number greatest :=
      abs_le.mpr ⟨by linarith, by linarith⟩
    rcases not_farther with nearer | ⟨tie, even⟩
    · linarith
    · have same : format.number magnitude = format.number greatest := by linarith
      have := format.number_strictMono.injective same
      omega
  · intro below
    by_contra overflow
    have ge_infinity := format.number_strictMono.monotone (Nat.le_of_not_lt overflow)
    have not_farther := nearest.abs_sub_le greatest
    rw [abs_of_pos (by linarith)] at not_farther
    rcases abs_cases (format.number greatest - q) with ⟨distance, -⟩ | ⟨distance, -⟩
    · linarith
    · linarith

end NearestTo

/-! ### The nearest pattern -/

/-- The pattern stands for a number, and no other pattern of the format stands for one as near to
`q`, unless this one is even and none is nearer.  The two zeros are one number. -/
def IsNearest (q : ℚ) (pattern : Nat) : Prop :=
  ∃ r, (format.decode pattern).number? = some r ∧
    ∀ other s, other < 2 * format.signBit → (format.decode other).number? = some s →
      |r - q| < |s - q| ∨ |r - q| = |s - q| ∧ (s = r ∨ pattern % 2 = 0)

theorem withSign_mod_two (fractional : 0 < format.fractionBits) (negative : Bool)
    (magnitude : Nat) : format.withSign negative magnitude % 2 = magnitude % 2 := by
  have even_signBit : format.signBit % 2 = 0 := by
    rw [signBit_eq, Nat.mul_mod, format.size_mod_two fractional]
    simp
  cases negative with
  | false => rfl
  | true =>
    rw [withSign, if_pos rfl]
    omega

/-- The nearest magnitude, with the sign of the number, is nearest among all patterns. -/
theorem isNearest_withSign (fractional : 0 < format.fractionBits) {q : ℚ} (negative : Bool)
    {magnitude : Nat} (nonneg : 0 ≤ q) (nearest : format.NearestTo q magnitude)
    (finite : magnitude < format.infinity) :
    format.IsNearest (signed negative q) (format.withSign negative magnitude) := by
  refine ⟨_, format.number?_withSign negative finite, ?_⟩
  intro other s small is_number
  obtain ⟨other_negative, other_magnitude, -, rfl, rfl⟩ :=
    (format.number?_eq_some_iff small).mp is_number
  rw [withSign_mod_two format fractional, signed_sub_signed, abs_signed]
  by_cases same_sign : other_negative = negative
  · rw [same_sign, signed_sub_signed, abs_signed]
    by_cases same : other_magnitude = magnitude
    · rw [same]
      exact .inr ⟨rfl, .inl rfl⟩
    · exact (nearest other_magnitude same).imp_right (.imp_right .inr)
  · -- on the other side of zero nothing is nearer than zero is
    have other_nonneg := format.number_nonneg other_magnitude
    rw [abs_signed_sub_signed_of_ne same_sign other_nonneg nonneg]
    by_cases zero : magnitude = 0
    · rw [zero, number_zero, zero_sub, abs_neg, abs_of_nonneg nonneg]
      rcases other_nonneg.lt_or_eq with positive | also_zero
      · exact .inl (by linarith)
      · exact .inr ⟨by linarith, .inr rfl⟩
    · have zero_near := nearest 0 (Ne.symm zero)
      rw [number_zero, zero_sub, abs_neg, abs_of_nonneg nonneg] at zero_near
      rcases zero_near with nearer | ⟨tie, even⟩
      · exact .inl (by linarith)
      · rcases other_nonneg.lt_or_eq with positive | also_zero
        · exact .inl (by linarith)
        · exact .inr ⟨by linarith, .inr even⟩

/-- What is as near to two numbers is nearer to those between them. -/
theorem abs_number_succ_sub_lt {q : ℚ} {m n : Nat} (less : m + 1 < n)
    (tie : |format.number m - q| = |format.number n - q|) :
    |format.number (m + 1) - q| < |format.number m - q| := by
  have lower := format.number_strictMono (Nat.lt_succ_self m)
  have upper := format.number_strictMono less
  rw [Nat.succ_eq_add_one] at lower
  have middle : format.number m - q = -(format.number n - q) := by
    refine (abs_eq_abs.mp tie).resolve_left ?_
    intro same
    linarith
  rw [abs_of_neg (a := format.number m - q) (by linarith), abs_lt]
  exact ⟨by linarith, by linarith⟩

namespace IsNearest

variable {format}

/-- A number that a pattern stands for is the one nearest to it. -/
theorem number?_eq {q : ℚ} {pattern other : Nat} (nearest : format.IsNearest q pattern)
    (small : other < 2 * format.signBit) (is_number : (format.decode other).number? = some q) :
    (format.decode pattern).number? = some q := by
  obtain ⟨r, is_r, r_nearest⟩ := nearest
  have not_farther : |r - q| ≤ |q - q| :=
    (r_nearest other q small is_number).elim le_of_lt (·.1.le)
  rw [sub_self, abs_zero, abs_nonpos_iff, sub_eq_zero] at not_farther
  rw [is_r, not_farther]

/-- A nearest pattern is nearest among the magnitudes below infinity with its sign. -/
theorem lt_or_tie (fractional : 0 < format.fractionBits) {q : ℚ} {negative : Bool} {m n : Nat}
    (nearest : format.IsNearest q (format.withSign negative m))
    (finite : m < format.infinity) (other_finite : n < format.infinity) :
    |format.number m - signed negative q| < |format.number n - signed negative q| ∨
      |format.number m - signed negative q| = |format.number n - signed negative q| ∧
        (n = m ∨ m % 2 = 0) := by
  have distance (k : Nat) : |signed negative (format.number k) - q| =
      |format.number k - signed negative q| := by
    rw [← signed_signed negative q, signed_sub_signed, abs_signed, signed_signed]
  obtain ⟨r, is_number, r_nearest⟩ := nearest
  rw [format.number?_withSign negative finite, Option.some.injEq] at is_number
  have against := r_nearest _ _
    (format.withSign_lt negative (other_finite.trans format.infinity_lt_signBit))
    (format.number?_withSign negative other_finite)
  rw [← is_number, distance, distance, withSign_mod_two format fractional] at against
  refine against.imp_right (.imp_right (.imp_left fun same => ?_))
  have same := congrArg (signed negative) same
  rw [signed_signed, signed_signed] at same
  exact format.number_strictMono.injective same

theorem magnitude_le (fractional : 0 < format.fractionBits) {q : ℚ} {negative : Bool} {m n : Nat}
    (nearest : format.IsNearest q (format.withSign negative m))
    (other_nearest : format.IsNearest q (format.withSign negative n))
    (finite : m < format.infinity) (other_finite : n < format.infinity) : n ≤ m := by
  by_contra greater
  have other_against := other_nearest.lt_or_tie fractional other_finite finite
  rcases nearest.lt_or_tie fractional finite other_finite with nearer | ⟨tie, even⟩
  · rcases other_against with nearer' | ⟨tie', -⟩
    · linarith
    · linarith
  · rcases other_against with nearer' | ⟨-, even'⟩
    · linarith
    · -- two even magnitudes leave room for an odd one, which would be nearer
      have between := format.abs_number_succ_sub_lt (by omega : m + 1 < n) tie
      have not_nearer := nearest.lt_or_tie fractional finite (by omega : m + 1 < format.infinity)
      rcases not_nearer with nearer | ⟨same, -⟩
      · linarith
      · linarith

/-- At most one pattern of either sign is nearest to a number. -/
theorem unique (fractional : 0 < format.fractionBits) {q : ℚ} {pattern other : Nat}
    (nearest : format.IsNearest q pattern) (other_nearest : format.IsNearest q other)
    (small : pattern < 2 * format.signBit) (other_small : other < 2 * format.signBit)
    (same_sign : (format.decode pattern).negative = (format.decode other).negative) :
    pattern = other := by
  obtain ⟨r, is_number, -⟩ := id nearest
  obtain ⟨s, is_other_number, -⟩ := id other_nearest
  obtain ⟨negative, m, finite, rfl, -⟩ := (format.number?_eq_some_iff small).mp is_number
  obtain ⟨other_negative, n, other_finite, rfl, -⟩ :=
    (format.number?_eq_some_iff other_small).mp is_other_number
  have below := format.infinity_lt_signBit
  rw [format.negative_decode_withSign _ (finite.trans below),
    format.negative_decode_withSign _ (other_finite.trans below)] at same_sign
  subst same_sign
  exact congrArg (format.withSign negative) (Nat.le_antisymm
    (other_nearest.magnitude_le fractional nearest other_finite finite)
    (nearest.magnitude_le fractional other_nearest finite other_finite))

end IsNearest

end FloatFormat

end DirectivePack
