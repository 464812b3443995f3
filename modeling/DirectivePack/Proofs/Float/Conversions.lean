import DirectivePack.Float.Decimal
import DirectivePack.Proofs.Float.Rounding

/-!
Doubles as singles, singles as doubles, and integers as doubles.

* `exists_ofDatum_finite`: a finite number of one format is rounded to the nearest of another one.
* `narrow?_eq_none_iff`, `narrow?_eq_some_iff`: a double is narrowed to the one nearest single with
  its sign, unless it is beyond the range.
* `number?_widen`, `narrow?_widen`: a single is widened to its own number, and narrowed again to
  itself.
* `isNearest_ofInt`, `number?_ofInt`: an integer becomes the nearest double, which is the integer
  itself if it has few significant bits.
-/

namespace DirectivePack

namespace FloatFormat

variable (format : FloatFormat)

/-- A finite number becomes the nearest magnitude of the format with its sign, or infinity if that
is beyond. -/
theorem exists_ofDatum_finite (fractional : 0 < format.fractionBits) (source : FloatFormat)
    (negative : Bool) (significand : Nat) (exponent : Int) :
    ∃ magnitude, format.NearestTo (significand * 2 ^ exponent) magnitude ∧
      format.ofDatum source (.finite negative significand exponent) =
        format.withSign negative (min magnitude format.infinity) := by
  obtain ⟨magnitude, nearest, rounded⟩ := format.exists_round_eq fractional
    (unscale significand 1 (-exponent)).1 (unscale_snd_pos significand Nat.one_pos (-exponent))
  rw [unscale_div, Nat.cast_one, div_one, zpow_neg, div_inv_eq_mul] at nearest
  exact ⟨magnitude, nearest, congrArg (format.withSign negative) rounded⟩

theorem round_le_infinity (num den : Nat) : format.round num den ≤ format.infinity := by
  rw [round]
  split
  · exact Nat.zero_le _
  · exact Nat.min_le_right ..

theorem binary32_fractional : 0 < binary32.fractionBits := by decide

theorem binary64_fractional : 0 < binary64.fractionBits := by decide

theorem number_infinity_binary32 : binary32.number binary32.infinity = 2 ^ 128 := by
  have number := @number_add binary32 254 (2 ^ 23) (.inr (by decide))
    (by decide)
  have least : binary32.minExponent = -149 := rfl
  rw [least] at number
  exact number.trans (by norm_num)

theorem number_infinity_binary64 : binary64.number binary64.infinity = 2 ^ (1024 : Int) := by
  have number := @number_add binary64 2046 (2 ^ 52) (.inr (by decide))
    (by decide)
  have least : binary64.minExponent = -1074 := rfl
  rw [least, Nat.cast_pow, Nat.cast_ofNat, ← zpow_natCast, ← zpow_add₀ two_ne_zero] at number
  exact number

/-- The first number that is rounded to infinity is halfway between the greatest single and infinity,
half a step below `2 ^ 128`. -/
theorem lt_infinity_binary32_iff {q : ℚ} {magnitude : Nat}
    (nearest : binary32.NearestTo q magnitude) :
    magnitude < binary32.infinity ↔ q < 2 ^ 128 - 2 ^ 103 := by
  have number := @number_add binary32 253 (2 ^ 24 - 1) (.inr (by decide))
    (by decide)
  have least : binary32.minExponent = -149 := rfl
  rw [least] at number
  have greatest : binary32.number (binary32.infinity - 1) = 2 ^ 128 - 2 ^ 104 :=
    number.trans (by norm_num)
  rw [nearest.lt_infinity_iff (binary32.infinity - 1) rfl (by decide), greatest,
    number_infinity_binary32]
  norm_num

end FloatFormat

/-! ### Doubles -/

namespace Binary64

/-- The number that a double stands for, unless it is infinite or a NaN. -/
def number? (x : Binary64) : Option ℚ :=
  x.datum.number?

theorem bits_ofPattern {pattern : Nat} (small : pattern < 2 * FloatFormat.binary64.signBit) :
    (ofPattern pattern).bits.toNat = pattern := by
  rw [ofPattern, UInt64.toNat_ofNat']
  exact Nat.mod_eq_of_lt small

theorem datum_ofPattern {pattern : Nat} (small : pattern < 2 * FloatFormat.binary64.signBit) :
    (ofPattern pattern).datum = FloatFormat.binary64.decode pattern := by
  rw [datum, bits_ofPattern small]

theorem number?_ofPattern_withSign (negative : Bool) {magnitude : Nat}
    (finite : magnitude < FloatFormat.binary64.infinity) :
    (ofPattern (FloatFormat.binary64.withSign negative magnitude)).number? =
      some (signed negative (FloatFormat.binary64.number magnitude)) := by
  have small := finite.trans FloatFormat.binary64.infinity_lt_signBit
  rw [number?, datum_ofPattern (FloatFormat.withSign_lt _ _ small)]
  exact FloatFormat.binary64.number?_withSign _ finite

/-- A double that is no NaN is infinite or a number. -/
theorem datum_cases {x : Binary64} (not_nan : x.isNaN = false) :
    (∃ negative, x.datum = .infinite negative) ∨
      ∃ negative significand exponent, x.datum = .finite negative significand exponent := by
  rw [isNaN] at not_nan
  cases datum : x.datum with
  | nan negative payload =>
    rw [datum] at not_nan
    cases not_nan
  | infinite negative => exact .inl ⟨negative, rfl⟩
  | finite negative significand exponent => exact .inr ⟨negative, significand, exponent, rfl⟩

/-! ### Singles of doubles -/

/-- What is written is what the range check has looked at. -/
theorem narrow_eq_of_narrow? {x : Binary64} {pattern : Nat} (narrowed : x.narrow? = some pattern) :
    x.narrow = pattern := by
  rw [narrow?] at narrowed
  split at narrowed
  · cases narrowed
  · exact Option.some.inj narrowed

/-- A double that is a number becomes the nearest single with its sign, unless that is infinite. -/
theorem exists_narrow?_eq {x : Binary64} {negative : Bool} {significand : Nat} {exponent : Int}
    (finite : x.datum = .finite negative significand exponent) :
    ∃ magnitude, FloatFormat.binary32.NearestTo (significand * 2 ^ exponent) magnitude ∧
      x.narrow? = if magnitude < FloatFormat.binary32.infinity then
        some (FloatFormat.binary32.withSign negative magnitude) else none := by
  obtain ⟨magnitude, nearest, converted⟩ := FloatFormat.binary32.exists_ofDatum_finite
    FloatFormat.binary32_fractional .binary64 negative significand exponent
  refine ⟨magnitude, nearest, ?_⟩
  have is_finite : x.isFinite = true := by rw [isFinite, finite]
  rw [narrow?, narrow, finite, converted, is_finite, Bool.true_and]
  have below_signBit := FloatFormat.binary32.infinity_lt_signBit
  by_cases below : magnitude < FloatFormat.binary32.infinity
  · rw [min_eq_left below.le, FloatFormat.withSign_mod_signBit _ _ (below.trans below_signBit),
      if_neg (by simpa using below.ne), if_pos below]
  · rw [min_eq_right (Nat.le_of_not_lt below), FloatFormat.withSign_mod_signBit _ _ below_signBit,
      if_pos (by simp), if_neg below]

theorem narrow?_of_infinite {x : Binary64} {negative : Bool}
    (infinite : x.datum = .infinite negative) :
    x.narrow? =
      some (FloatFormat.binary32.withSign negative FloatFormat.binary32.infinity) := by
  have not_finite : x.isFinite = false := by rw [isFinite, infinite]
  simp [narrow?, narrow, infinite, not_finite, FloatFormat.ofDatum]

theorem narrow?_eq_some_iff_of_infinite {x : Binary64} {negative : Bool}
    (infinite : x.datum = .infinite negative) {pattern : Nat} :
    x.narrow? = some pattern ↔ pattern < 2 * FloatFormat.binary32.signBit ∧
      FloatFormat.binary32.decode pattern = .infinite negative := by
  have small := FloatFormat.binary32.withSign_lt negative FloatFormat.binary32.infinity_lt_signBit
  rw [narrow?_of_infinite infinite, Option.some.injEq]
  constructor
  · rintro rfl
    exact ⟨small, FloatFormat.binary32.decode_infinity negative⟩
  · rintro ⟨pattern_small, decoded⟩
    exact ((FloatFormat.binary32.decode_eq_infinite_iff pattern_small).mp decoded).symm

theorem exists_finite_of_number? {x : Binary64} {q : ℚ} (is_number : x.number? = some q) :
    ∃ negative significand exponent, x.datum = .finite negative significand exponent ∧
      q = signed negative (significand * 2 ^ exponent) := by
  rw [number?] at is_number
  cases datum : x.datum with
  | nan negative payload | infinite negative =>
    rw [datum] at is_number
    cases is_number
  | finite negative significand exponent =>
    rw [datum, FloatDatum.number?, Option.some.injEq] at is_number
    exact ⟨negative, significand, exponent, rfl, is_number.symm⟩

theorem abs_significand (negative : Bool) (significand : Nat) (exponent : Int) :
    |signed negative (significand * 2 ^ exponent : ℚ)| = significand * 2 ^ exponent := by
  rw [abs_signed, abs_of_nonneg (by positivity)]

/-- The doubles beyond the range of singles are the numbers from halfway between the greatest single
and infinity on. -/
theorem narrow?_eq_none_iff {x : Binary64} (not_nan : x.isNaN = false) :
    x.narrow? = none ↔ ∃ q, x.number? = some q ∧ 2 ^ 128 - 2 ^ 103 ≤ |q| := by
  rcases datum_cases not_nan with ⟨negative, infinite⟩ | ⟨negative, significand, exponent, finite⟩
  · rw [narrow?_of_infinite infinite, number?, infinite]
    simp [FloatDatum.number?]
  · obtain ⟨magnitude, nearest, narrowed⟩ := exists_narrow?_eq finite
    have is_number : x.number? = some (signed negative (significand * 2 ^ exponent)) := by
      rw [number?, finite, FloatDatum.number?]
    rw [narrowed, is_number]
    constructor
    · intro none_found
      refine ⟨_, rfl, ?_⟩
      rw [abs_significand, ← not_lt, ← FloatFormat.lt_infinity_binary32_iff nearest]
      intro below
      rw [if_pos below] at none_found
      cases none_found
    · rintro ⟨q, is_q, beyond⟩
      rw [Option.some.injEq] at is_q
      rw [← is_q, abs_significand, ← not_lt,
        ← FloatFormat.lt_infinity_binary32_iff nearest] at beyond
      exact if_neg beyond

/-- Any other number becomes the one nearest single with its sign. -/
theorem narrow?_eq_some_iff {x : Binary64} {q : ℚ} (is_number : x.number? = some q)
    (inside : |q| < 2 ^ 128 - 2 ^ 103) {pattern : Nat} :
    x.narrow? = some pattern ↔ pattern < 2 * FloatFormat.binary32.signBit ∧
      (FloatFormat.binary32.decode pattern).negative = x.datum.negative ∧
      FloatFormat.binary32.IsNearest q pattern := by
  obtain ⟨negative, significand, exponent, finite, rfl⟩ := exists_finite_of_number? is_number
  obtain ⟨magnitude, nearest, narrowed⟩ := exists_narrow?_eq finite
  rw [abs_significand, ← FloatFormat.lt_infinity_binary32_iff nearest] at inside
  have small := inside.trans FloatFormat.binary32.infinity_lt_signBit
  have is_nearest := FloatFormat.binary32.isNearest_withSign FloatFormat.binary32_fractional
    negative (by positivity) nearest inside
  have same_sign := FloatFormat.binary32.negative_decode_withSign negative small
  rw [narrowed, if_pos inside, Option.some.injEq, finite]
  constructor
  · rintro rfl
    exact ⟨FloatFormat.binary32.withSign_lt negative small, same_sign, is_nearest⟩
  · rintro ⟨pattern_small, pattern_sign, pattern_nearest⟩
    exact is_nearest.unique FloatFormat.binary32_fractional pattern_nearest
      (FloatFormat.binary32.withSign_lt negative small) pattern_small
      (same_sign.trans pattern_sign.symm)

/-! ### Doubles of singles -/

/-- A double holds every number with no more significant bits than its own, and no smaller than its
smallest steps, up to the range of singles. -/
theorem exists_magnitude {significand : Nat} {exponent : Int}
    (small : significand ≤ 2 * 2 ^ FloatFormat.binary64.fractionBits)
    (least : FloatFormat.binary64.minExponent ≤ exponent)
    (bound : (significand * 2 ^ exponent : ℚ) ≤ 2 ^ 128) :
    ∃ magnitude < FloatFormat.binary64.infinity,
      FloatFormat.binary64.number magnitude = significand * 2 ^ exponent := by
  obtain ⟨magnitude, is_number⟩ := FloatFormat.binary64.exists_number_eq small least
  refine ⟨magnitude, ?_, is_number⟩
  rw [← FloatFormat.binary64.number_strictMono.lt_iff_lt, is_number,
    FloatFormat.number_infinity_binary64]
  have wider : (2 : ℚ) ^ (128 : Int) < 2 ^ (1024 : Int) :=
    zpow_lt_zpow_right₀ one_lt_two (by decide)
  exact bound.trans_lt wider

/-- A single that is a number becomes the double with this number and sign. -/
theorem exists_datum_widen (negative : Bool) {magnitude : Nat}
    (finite : magnitude < FloatFormat.binary32.infinity) :
    ∃ significand exponent,
      (widen (FloatFormat.binary32.withSign negative magnitude)).datum =
        .finite negative significand exponent ∧
      FloatFormat.binary32.number magnitude = significand * 2 ^ exponent := by
  obtain ⟨significand, exponent, decoded, is_number, small, least⟩ :=
    FloatFormat.binary32.decode_of_lt_infinity negative finite
  have bound := (FloatFormat.binary32.number_strictMono finite).le
  rw [FloatFormat.number_infinity_binary32, is_number] at bound
  obtain ⟨wide, wide_finite, same_number⟩ := exists_magnitude (small.trans (by decide))
    (le_trans (by decide) least) bound
  obtain ⟨rounded, nearest, converted⟩ := FloatFormat.binary64.exists_ofDatum_finite
    FloatFormat.binary64_fractional .binary32 negative significand exponent
  obtain rfl := nearest.eq_of_number same_number.symm
  rw [min_eq_left wide_finite.le] at converted
  have wide_small := wide_finite.trans FloatFormat.binary64.infinity_lt_signBit
  rw [widen, decoded, converted, datum_ofPattern (FloatFormat.withSign_lt _ negative wide_small),
    is_number, ← same_number]
  obtain ⟨wide_significand, wide_exponent, wide_decoded, wide_number, -⟩ :=
    FloatFormat.binary64.decode_of_lt_infinity negative wide_finite
  exact ⟨_, _, wide_decoded, wide_number⟩

theorem number?_widen {pattern : Nat} (small : pattern < 2 * FloatFormat.binary32.signBit) {r : ℚ}
    (is_number : (FloatFormat.binary32.decode pattern).number? = some r) :
    (widen pattern).number? = some r := by
  obtain ⟨negative, magnitude, finite, rfl, rfl⟩ :=
    (FloatFormat.binary32.number?_eq_some_iff small).mp is_number
  obtain ⟨significand, exponent, decoded, same_number⟩ := exists_datum_widen negative finite
  rw [number?, decoded, FloatDatum.number?, same_number]

/-- A single is widened to a double that is narrowed to it again. -/
theorem narrow?_widen {pattern : Nat} (small : pattern < 2 * FloatFormat.binary32.signBit)
    (not_nan : ∀ negative payload, FloatFormat.binary32.decode pattern ≠ .nan negative payload) :
    (widen pattern).narrow? = some pattern := by
  obtain ⟨negative, magnitude, bound, rfl⟩ := FloatFormat.binary32.exists_withSign small
  rcases Nat.lt_trichotomy magnitude FloatFormat.binary32.infinity with finite | rfl | beyond
  · obtain ⟨significand, exponent, decoded, same_number⟩ :=
      exists_datum_widen negative finite
    obtain ⟨narrowed, nearest, is_narrowed⟩ := exists_narrow?_eq decoded
    obtain rfl := nearest.eq_of_number same_number.symm
    rw [is_narrowed, if_pos finite]
  · apply narrow?_of_infinite
    have infinity_small := FloatFormat.binary64.infinity_lt_signBit
    rw [widen, FloatFormat.decode_infinity, FloatFormat.ofDatum,
      datum_ofPattern (FloatFormat.withSign_lt _ negative infinity_small),
      FloatFormat.decode_infinity]
  · obtain ⟨payload, is_nan⟩ := FloatFormat.binary32.decode_of_infinity_lt negative beyond bound
    exact absurd is_nan (not_nan negative payload)

/-! ### Doubles of integers -/

/-- The magnitude of an integer of at most 128 bits becomes the nearest one, which is not above the
power of two that bounds them. -/
theorem exists_datum_ofInt {n : Int} (bound : n.natAbs ≤ 2 ^ 127) :
    ∃ magnitude < FloatFormat.binary64.infinity,
      FloatFormat.binary64.NearestTo (n.natAbs : ℚ) magnitude ∧
      FloatFormat.binary64.number magnitude ≤ 2 ^ 127 ∧
      ofInt n = ofPattern (FloatFormat.binary64.withSign (n < 0) magnitude) := by
  obtain ⟨greatest, greatest_finite, greatest_number⟩ :=
    @exists_magnitude 1 127 (by decide) (by decide) (by norm_num)
  rw [Nat.cast_one, one_mul] at greatest_number
  obtain ⟨magnitude, nearest, rounded⟩ := FloatFormat.binary64.exists_round_eq
    FloatFormat.binary64_fractional n.natAbs Nat.one_pos
  rw [Nat.cast_one, div_one] at nearest
  have not_above : magnitude ≤ greatest := by
    apply nearest.le_of_le
    rw [greatest_number]
    exact_mod_cast bound
  have number_le := FloatFormat.binary64.number_strictMono.monotone not_above
  rw [greatest_number] at number_le
  have finite := not_above.trans_lt greatest_finite
  rw [min_eq_left finite.le] at rounded
  refine ⟨magnitude, finite, nearest, by exact_mod_cast number_le, ?_⟩
  rw [ofInt, rounded]

theorem signed_natAbs (n : Int) : signed (n < 0) (n.natAbs : ℚ) = n := by
  rw [Nat.cast_natAbs]
  by_cases negative : n < 0
  · rw [decide_eq_true negative, signed_true, abs_of_neg negative, Int.cast_neg, neg_neg]
  · rw [decide_eq_false negative, signed_false, abs_of_nonneg (not_lt.mp negative)]

/-- An integer becomes the nearest double, with its sign. -/
theorem isNearest_ofInt {n : Int} (bound : n.natAbs ≤ 2 ^ 127) :
    FloatFormat.binary64.IsNearest n (ofInt n).bits.toNat ∧
      (ofInt n).datum.negative = decide (n < 0) := by
  obtain ⟨magnitude, finite, nearest, -, is_ofInt⟩ := exists_datum_ofInt bound
  have small := finite.trans FloatFormat.binary64.infinity_lt_signBit
  have pattern_small := FloatFormat.binary64.withSign_lt (n < 0) small
  rw [is_ofInt, bits_ofPattern pattern_small, datum_ofPattern pattern_small,
    FloatFormat.negative_decode_withSign _ _ small, ← signed_natAbs n]
  exact ⟨FloatFormat.binary64.isNearest_withSign FloatFormat.binary64_fractional _
    (by positivity) nearest finite, rfl⟩

/-- The double of an integer is a number not above the power of two that bounds the integer. -/
theorem exists_number?_ofInt {n : Int} (bound : n.natAbs ≤ 2 ^ 127) :
    ∃ q, (ofInt n).number? = some q ∧ |q| ≤ 2 ^ 127 := by
  obtain ⟨magnitude, finite, -, number_le, is_ofInt⟩ := exists_datum_ofInt bound
  refine ⟨signed (n < 0) (FloatFormat.binary64.number magnitude), ?_, ?_⟩
  · rw [is_ofInt, number?_ofPattern_withSign _ finite]
  · rwa [abs_signed, abs_of_nonneg (FloatFormat.binary64.number_nonneg magnitude)]

theorem isNaN_of_number? {x : Binary64} {q : ℚ} (is_number : x.number? = some q) :
    x.isNaN = false := by
  obtain ⟨negative, significand, exponent, finite, -⟩ := exists_finite_of_number? is_number
  rw [isNaN, finite]

/-- No integer of at most 128 bits is beyond the range of singles. -/
theorem narrow?_ofInt {n : Int} (bound : n.natAbs ≤ 2 ^ 127) :
    (ofInt n).narrow? = some (ofInt n).narrow ∧
      (ofInt n).narrow < 2 * FloatFormat.binary32.signBit := by
  obtain ⟨q, is_number, q_le⟩ := exists_number?_ofInt bound
  have inside : |q| < 2 ^ 128 - 2 ^ 103 := q_le.trans_lt (by norm_num)
  cases narrowed : (ofInt n).narrow? with
  | none =>
    obtain ⟨r, is_r, far⟩ := (narrow?_eq_none_iff (isNaN_of_number? is_number)).mp narrowed
    obtain rfl : q = r := Option.some.inj (is_number.symm.trans is_r)
    exact absurd far (not_le.mpr inside)
  | some pattern =>
    rw [narrow_eq_of_narrow? narrowed]
    exact ⟨rfl, ((narrow?_eq_some_iff is_number inside).mp narrowed).1⟩

/-! ### Integers with few significant bits -/

/-- An integer that is a multiple of a power of two is one with a power that is whole. -/
theorem exists_whole_multiple {n m k : Int} (multiple : (n : ℚ) = m * 2 ^ k) :
    ∃ (significand : Nat) (exponent : Int), significand ≤ m.natAbs ∧ 0 ≤ exponent ∧
      (n.natAbs : ℚ) = significand * 2 ^ exponent := by
  have magnitudes : (n.natAbs : ℚ) = m.natAbs * 2 ^ k := by
    rw [Nat.cast_natAbs, Nat.cast_natAbs, Int.cast_abs, Int.cast_abs, multiple, abs_mul,
      abs_of_pos (a := (2 : ℚ) ^ k) (by positivity)]
  rcases le_or_gt 0 k with whole | fraction
  · exact ⟨_, k, le_rfl, whole, magnitudes⟩
  · refine ⟨n.natAbs, 0, ?_, le_rfl, by simp⟩
    have shrinks : (2 : ℚ) ^ k ≤ 1 := zpow_le_one_of_nonpos₀ one_le_two fraction.le
    have : (n.natAbs : ℚ) ≤ m.natAbs := by
      rw [magnitudes]
      exact mul_le_of_le_one_right (by positivity) shrinks
    exact_mod_cast this

/-- A format holds the integers of at most 128 bits with no more significant bits than its own. -/
theorem exists_number_natAbs (format : FloatFormat) {n m k : Int} (multiple : (n : ℚ) = m * 2 ^ k)
    (few : m.natAbs ≤ 2 * 2 ^ format.fractionBits) (least : format.minExponent ≤ 0) :
    ∃ magnitude, format.number magnitude = (n.natAbs : ℚ) := by
  obtain ⟨significand, exponent, significand_le, whole, is_product⟩ :=
    exists_whole_multiple multiple
  rw [is_product]
  exact format.exists_number_eq (significand_le.trans few) (least.trans whole)

theorem number?_ofInt {n m k : Int} (bound : n.natAbs ≤ 2 ^ 127) (multiple : (n : ℚ) = m * 2 ^ k)
    (few : m.natAbs ≤ 2 ^ 53) : (ofInt n).number? = some (n : ℚ) := by
  obtain ⟨magnitude, finite, nearest, -, is_ofInt⟩ := exists_datum_ofInt bound
  obtain ⟨exact_one, is_number⟩ := exists_number_natAbs .binary64 multiple few (by decide)
  obtain rfl := nearest.eq_of_number is_number.symm
  rw [is_ofInt, number?_ofPattern_withSign _ finite, is_number, signed_natAbs]

/-- An integer with no more significant bits than a single is read from the single that it
becomes. -/
theorem number?_widen_narrow_ofInt {n m k : Int} (bound : n.natAbs ≤ 2 ^ 127)
    (multiple : (n : ℚ) = m * 2 ^ k) (few : m.natAbs ≤ 2 ^ 24) :
    (widen (ofInt n).narrow).number? = some (n : ℚ) := by
  have is_number := number?_ofInt bound multiple (few.trans (by decide))
  have rat_bound : |(n : ℚ)| ≤ 2 ^ 127 := by
    rw [← Int.cast_abs, ← Nat.cast_natAbs]
    exact_mod_cast bound
  have inside : |(n : ℚ)| < 2 ^ 128 - 2 ^ 103 := rat_bound.trans_lt (by norm_num)
  obtain ⟨narrowed, -⟩ := narrow?_ofInt bound
  obtain ⟨small, -, nearest⟩ := (narrow?_eq_some_iff is_number inside).mp narrowed
  obtain ⟨exact_one, one_is_number⟩ := exists_number_natAbs .binary32 multiple few (by decide)
  have finite : exact_one < FloatFormat.binary32.infinity := by
    rw [← FloatFormat.binary32.number_strictMono.lt_iff_lt, one_is_number,
      FloatFormat.number_infinity_binary32, Nat.cast_natAbs, Int.cast_abs]
    exact rat_bound.trans_lt (by norm_num)
  apply number?_widen small
  apply nearest.number?_eq (FloatFormat.binary32.withSign_lt (n < 0)
    (finite.trans FloatFormat.binary32.infinity_lt_signBit))
  rw [FloatFormat.binary32.number?_withSign _ finite, one_is_number, signed_natAbs]

/-! ### Doubles of decimals -/

theorem isNaN_ofPattern_withSign (negative : Bool) {magnitude : Nat}
    (bound : magnitude ≤ FloatFormat.binary64.infinity) :
    (ofPattern (FloatFormat.binary64.withSign negative magnitude)).isNaN = false := by
  have small := Nat.lt_of_le_of_lt bound FloatFormat.binary64.infinity_lt_signBit
  rw [isNaN, datum_ofPattern (FloatFormat.withSign_lt _ negative small)]
  rcases Nat.lt_or_eq_of_le bound with finite | rfl
  · obtain ⟨significand, exponent, decoded, -⟩ :=
      FloatFormat.binary64.decode_of_lt_infinity negative finite
    rw [decoded]
  · rw [FloatFormat.decode_infinity]

/-- A decimal number is never read as a NaN. -/
theorem isNaN_ofDecimal (negative : Bool) (digits : Nat) (exponent : Int) :
    (ofDecimal negative digits exponent).isNaN = false := by
  rw [ofDecimal]
  apply isNaN_ofPattern_withSign
  split
  · exact Nat.zero_le _
  · split
    · exact Nat.le_refl _
    · exact FloatFormat.binary64.round_le_infinity _ _

end Binary64

end DirectivePack
