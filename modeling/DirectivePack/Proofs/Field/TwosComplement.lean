import DirectivePack.Proofs.Field.Word

/-!
Two's complement, byte by byte and through words of 64 bits.

* `getElem?_putInteger`: each byte of a field is a base-256 digit of the integer's pattern.
* `putInteger_eq_word`, `getInteger_eq_word`: a field is the low bytes of a word, and reading it with
  a sign is shifting it to the high end of a word and back.
* `getInteger_putInteger_eq_wrapped`: whatever integer was written, the one that is read has its
  pattern and is in the range of the field.
* `putInteger_eq_iff`: two integers have one field iff they have one pattern.
-/

namespace DirectivePack.Field

/-- The exponent of the base-256 digit in byte `i` of a field. -/
def exponent (order : ByteOrder) (width i : Nat) : Nat :=
  match order.resolve with
  | .big => width - 1 - i
  | _ => i

/-- The integer that has the pattern of `n` and is in the range of a field. -/
def wrapped (signed : Bool) (width : Nat) (n : Int) : Int :=
  if signed then n.bmod (Nat.pow 2 (8 * width)) else n % (Nat.pow 2 (8 * width) : Int)

theorem two_pow_pos (k : Nat) : 0 < Nat.pow 2 k :=
  Nat.pow_pos (by decide)

/-! ### Digits -/

theorem getElem?_digits {width i : Nat} (inside : i < width) (n : Nat) :
    (digits width n)[i]? = some (UInt8.ofNat (n / Nat.pow 256 i % 256)) := by
  induction width generalizing i n with
  | zero => exact absurd inside (Nat.not_lt_zero i)
  | succ width ih =>
    rw [digits]
    cases i with
    | zero => simp
    | succ i =>
      have power : Nat.pow 256 (i + 1) = Nat.pow 256 i * 256 := rfl
      rw [List.getElem?_cons_succ, ih (Nat.lt_of_succ_lt_succ inside), Nat.div_div_eq_div_mul,
        power, Nat.mul_comm 256]

/-- Digits beyond those that are written do not count. -/
theorem digits_mod (width n : Nat) : digits width (n % Nat.pow 256 width) = digits width n := by
  have again := digits_value (digits width n)
  rwa [digits_length, value_digits] at again

theorem getElem?_arrange {α : Type} (order : ByteOrder) {xs : List α} {i : Nat}
    (inside : i < xs.length) : (order.arrange xs)[i]? = xs[exponent order xs.length i]? := by
  cases order with
  | native | little => rfl
  | big => exact List.getElem?_reverse inside

theorem exponent_lt (order : ByteOrder) {width i : Nat} (inside : i < width) :
    exponent order width i < width := by
  cases order with
  | native | little => exact inside
  | big =>
    change width - 1 - i < width
    omega

/-- **The bytes of a field** are the base-256 digits of the pattern. -/
theorem getElem?_putInteger {width i : Nat} (order : ByteOrder) (n : Int) (inside : i < width) :
    ∃ b, (putInteger width order n)[i]? = some b ∧
      (b.toNat : Int) = n % (Nat.pow 2 (8 * width) : Int) /
        (Nat.pow 256 (exponent order width i) : Int) % 256 := by
  have size := two_pow_pos (8 * width)
  obtain ⟨pattern, is_pattern⟩ : ∃ pattern : Nat, n % (Nat.pow 2 (8 * width) : Int) = pattern :=
    Int.eq_ofNat_of_zero_le (Int.emod_nonneg n (by omega))
  refine ⟨UInt8.ofNat (pattern / Nat.pow 256 (exponent order width i) % 256), ?_, ?_⟩
  · rw [putInteger, is_pattern, Int.toNat_natCast,
      getElem?_arrange order (by rwa [digits_length]), digits_length]
    exact getElem?_digits (exponent_lt order inside) pattern
  · have byte : pattern / Nat.pow 256 (exponent order width i) % 256 < 256 :=
      Nat.mod_lt _ (by decide)
    rw [is_pattern, UInt8.toNat_ofNat', Nat.mod_eq_of_lt byte]
    rfl

/-- The two orders are each other's reverse. -/
theorem putInteger_big (width : Nat) (n : Int) :
    putInteger width .big n = (putInteger width .little n).reverse :=
  rfl

/-! ### Words -/

/-- A field holds the low bytes of the word of the integer. -/
theorem putInteger_eq_word {width : Nat} (narrow : width ≤ 8) (order : ByteOrder) (n : Int) :
    putInteger width order n = order.arrange (digits width (BitVec.ofInt 64 n).toNat) := by
  have size := two_pow_pos (8 * width)
  -- the word is congruent to the integer modulo the number of patterns
  have divides : (Nat.pow 2 (8 * width) : Int) ∣ (Nat.pow 2 64 : Int) :=
    Int.natCast_dvd_natCast.mpr (Nat.pow_dvd_pow 2 (by omega))
  have word : ((BitVec.ofInt 64 n).toNat : Int) = n % (Nat.pow 2 64 : Int) := by
    rw [BitVec.toNat_ofInt]
    exact Int.toNat_of_nonneg (Int.emod_nonneg n (by decide))
  have low : (n % (Nat.pow 2 (8 * width) : Int)).toNat =
      (BitVec.ofInt 64 n).toNat % Nat.pow 256 width := by
    apply Int.natCast_inj.mp
    rw [Int.toNat_of_nonneg (Int.emod_nonneg n (by omega)), Int.natCast_emod, word, pow_256_eq,
      Int.emod_emod_of_dvd n divides]
  rw [putInteger, low, digits_mod]

/-- Scaling the integer and the modulus scales the remainder around zero. -/
theorem bmod_mul_ediv {pattern size scale : Nat} (scaled : 0 < scale) (bound : pattern < 2 * size) :
    ((pattern * scale : Nat) : Int).bmod (2 * size * scale) / scale =
      if size ≤ pattern then (pattern : Int) - (2 * size : Nat) else pattern := by
  have below : pattern * scale < 2 * size * scale := Nat.mul_lt_mul_of_pos_right bound scaled
  have half : (((2 * size * scale : Nat) : Int) + 1) / 2 = (size * scale : Nat) := by
    rw [Nat.mul_assoc]
    omega
  have remainder : ((pattern * scale : Nat) : Int) % ((2 * size * scale : Nat) : Int) =
      (pattern * scale : Nat) :=
    Int.emod_eq_of_lt (by omega) (by omega)
  have nonzero : (scale : Int) ≠ 0 := by omega
  rw [Int.bmod_def, remainder, half]
  by_cases high : size ≤ pattern
  · have above : size * scale ≤ pattern * scale := Nat.mul_le_mul_right scale high
    have difference : ((pattern * scale : Nat) : Int) - ((2 * size * scale : Nat) : Int) =
        ((pattern : Int) - (2 * size : Nat)) * scale := by
      push_cast
      exact (Int.sub_mul ..).symm
    rw [if_neg (by omega), if_pos high, difference, Int.mul_ediv_cancel _ nonzero]
  · have under : pattern * scale < size * scale :=
      Nat.mul_lt_mul_of_pos_right (Nat.lt_of_not_le high) scaled
    rw [if_pos (by omega), if_neg high, Int.natCast_mul, Int.mul_ediv_cancel _ nonzero]

/-- A field is read with a sign by shifting it to the high end of a word and arithmetically back. -/
theorem getInteger_eq_word (order : ByteOrder) {field : Bytes} (positive : 0 < field.length)
    (narrow : field.length ≤ 8) :
    getInteger true order field =
      ((BitVec.ofNat 64 (value (order.arrange field)) <<< (64 - 8 * field.length)).sshiftRight
        (64 - 8 * field.length)).toInt := by
  have bound := value_arrange_lt order field
  have half := pow_eq_two_mul_half positive
  have whole : Nat.pow 2 (8 * field.length) * 2 ^ (64 - 8 * field.length) = 2 ^ 64 := by
    have exponents : 8 * field.length + (64 - 8 * field.length) = 64 := by omega
    change 2 ^ (8 * field.length) * 2 ^ (64 - 8 * field.length) = 2 ^ 64
    rw [← Nat.pow_add, exponents]
  have small : value (order.arrange field) < 2 ^ 64 := by
    rw [← whole]
    exact Nat.lt_of_lt_of_le bound (Nat.le_mul_of_pos_right _ (two_pow_pos _))
  have scaled := two_pow_pos (64 - 8 * field.length)
  rw [BitVec.toInt_sshiftRight, BitVec.toInt_shiftLeft, BitVec.toNat_ofNat,
    Nat.mod_eq_of_lt small, Nat.shiftLeft_eq, Int.shiftRight_eq_div_pow, ← whole]
  unfold getInteger
  rw [half] at bound ⊢
  generalize value (order.arrange field) = pattern at bound ⊢
  have cut := bmod_mul_ediv scaled bound
  simp only [Bool.true_and, decide_eq_true_eq]
  exact cut.symm

/-! ### Ranges -/

theorem wrapped_emod (signed : Bool) (width : Nat) (n : Int) :
    wrapped signed width n % (Nat.pow 2 (8 * width) : Int) =
      n % (Nat.pow 2 (8 * width) : Int) := by
  cases signed with
  | false => exact Int.emod_emod_of_dvd n (Int.dvd_refl _)
  | true => exact Int.bmod_emod

theorem wrapped_inRange (signed : Bool) {width : Nat} (positive : 0 < width) (n : Int) :
    InRange signed width (wrapped signed width n) := by
  have size := two_pow_pos (8 * width)
  have half := pow_eq_two_mul_half positive
  unfold InRange wrapped
  cases signed with
  | false =>
    have least := Int.emod_nonneg n (b := (Nat.pow 2 (8 * width) : Int)) (by omega)
    have bound := Int.emod_lt_of_pos n (b := (Nat.pow 2 (8 * width) : Int)) (by omega)
    exact ⟨least, bound⟩
  | true =>
    have least := Int.le_bmod (x := n) size
    have bound := Int.bmod_lt (x := n) size
    simp only [if_true]
    omega

/-- The integers of the range are the ones that stay as they are. -/
theorem wrapped_eq_self_iff (signed : Bool) {width : Nat} (positive : 0 < width) (n : Int) :
    wrapped signed width n = n ↔ InRange signed width n := by
  constructor
  · intro same
    rw [← same]
    exact wrapped_inRange signed positive n
  · intro inRange
    exact (wrapped_inRange signed positive n).eq_of_emod_eq positive inRange
      (wrapped_emod signed width n)

/-- **Writing, then reading.** Whatever integer was written, the one that is read has its pattern and
is in the range of the field. -/
theorem getInteger_putInteger_eq_wrapped (signed : Bool) {width : Nat} (positive : 0 < width)
    (order : ByteOrder) (n : Int) :
    getInteger signed order (putInteger width order n) = wrapped signed width n := by
  have length := length_putInteger width order n
  have some_byte : 0 < (putInteger width order n).length := by omega
  obtain ⟨inRange, pattern⟩ := getInteger_spec signed order some_byte
  rw [length] at inRange pattern
  rw [value_putInteger] at pattern
  apply inRange.eq_of_emod_eq positive (wrapped_inRange signed positive n)
  rw [pattern, wrapped_emod]

/-- **One field.** Two integers have one field iff they have one pattern. -/
theorem putInteger_eq_iff (width : Nat) (order : ByteOrder) (m n : Int) :
    putInteger width order m = putInteger width order n ↔
      m % (Nat.pow 2 (8 * width) : Int) = n % (Nat.pow 2 (8 * width) : Int) := by
  constructor
  · intro same
    rw [← value_putInteger width order m, same, value_putInteger]
  · intro same
    rw [putInteger, same, putInteger]

theorem fits_iff (width : Nat) (n : Int) :
    fits width n = true ↔
      -(Nat.pow 2 (8 * width - 1) : Int) ≤ n ∧ n ≤ (Nat.pow 2 (8 * width) : Int) - 1 := by
  unfold fits integerRange
  simp only [Bool.and_eq_true, decide_eq_true_eq]

end DirectivePack.Field
