import DirectivePack.Field.Floating

/-!
Fields of a fixed width hold integers in two's complement, and doubles by their patterns.

* `getInteger_putInteger`: an integer in the range of its sign is read back from its field.
* `putInteger_getInteger`: a field is written again by the integer that it is read as, whichever
  sign it is read with.
* `getFloat_putFloat`, `putFloat_getFloat`: the same of doubles in fields of eight bytes.
-/

namespace DirectivePack.Field

/-- The range of a field of `width` bytes that is read with or without a sign. -/
def InRange (signed : Bool) (width : Nat) (n : Int) : Prop :=
  if signed then -(Nat.pow 2 (8 * width - 1) : Int) ≤ n ∧ n < (Nat.pow 2 (8 * width - 1) : Int)
  else 0 ≤ n ∧ n < (Nat.pow 2 (8 * width) : Int)

/-! ### The numbers of patterns -/

theorem pow_256_eq (width : Nat) : Nat.pow 256 width = Nat.pow 2 (8 * width) :=
  (Nat.pow_mul 2 8 width).symm

/-- The patterns with the sign bit are as many as those without. -/
theorem pow_eq_two_mul_half {width : Nat} (positive : 0 < width) :
    Nat.pow 2 (8 * width) = 2 * Nat.pow 2 (8 * width - 1) := by
  have bits : 8 * width = (8 * width - 1) + 1 := by omega
  calc Nat.pow 2 (8 * width) = Nat.pow 2 ((8 * width - 1) + 1) := by rw [← bits]
    _ = Nat.pow 2 (8 * width - 1) * 2 := rfl
    _ = 2 * Nat.pow 2 (8 * width - 1) := Nat.mul_comm ..

theorem value_arrange_lt (order : ByteOrder) (field : Bytes) :
    value (order.arrange field) < Nat.pow 2 (8 * field.length) := by
  have bound := value_lt (order.arrange field)
  rwa [ByteOrder.length_arrange, pow_256_eq] at bound

/-! ### Integers -/

@[simp] theorem length_putInteger (width : Nat) (order : ByteOrder) (n : Int) :
    (putInteger width order n).length = width := by
  simp [putInteger]

/-- The pattern of a field that was written. -/
theorem value_putInteger (width : Nat) (order : ByteOrder) (n : Int) :
    (value (order.arrange (putInteger width order n)) : Int) =
      n % (Nat.pow 2 (8 * width) : Int) := by
  have positive : (0 : Int) < (Nat.pow 2 (8 * width) : Int) :=
    Int.natCast_pos.mpr (Nat.pow_pos (by decide))
  have least : 0 ≤ n % (Nat.pow 2 (8 * width) : Int) := Int.emod_nonneg n (by omega)
  have bound : (n % (Nat.pow 2 (8 * width) : Int)).toNat < Nat.pow 2 (8 * width) := by
    have := Int.emod_lt_of_pos n positive
    omega
  rw [putInteger, ByteOrder.arrange_arrange, value_digits, pow_256_eq, Nat.mod_eq_of_lt bound]
  exact Int.toNat_of_nonneg least

/-- An integer that is read is one of its range, and has the pattern of the field. -/
theorem getInteger_spec (signed : Bool) (order : ByteOrder) {field : Bytes}
    (positive : 0 < field.length) :
    InRange signed field.length (getInteger signed order field) ∧
      getInteger signed order field % (Nat.pow 2 (8 * field.length) : Int) =
        value (order.arrange field) := by
  have bound := value_arrange_lt order field
  have half := pow_eq_two_mul_half positive
  unfold InRange getInteger
  generalize value (order.arrange field) = pattern at bound ⊢
  generalize Nat.pow 2 (8 * field.length) = size at bound half ⊢
  generalize Nat.pow 2 (8 * field.length - 1) = middle at half ⊢
  have wrapped : ((pattern : Int) - size) % size = pattern := by
    rw [Int.sub_emod_right]
    exact Int.emod_eq_of_lt (by omega) (by omega)
  have unwrapped : (pattern : Int) % size = pattern := Int.emod_eq_of_lt (by omega) (by omega)
  cases signed with
  | false =>
    refine ⟨?_, ?_⟩
    · simp
      omega
    · simpa using unwrapped
  | true =>
    by_cases negative : middle ≤ pattern
    · refine ⟨?_, ?_⟩
      · simp [negative]
        omega
      · simpa [negative] using wrapped
    · refine ⟨?_, ?_⟩
      · simp [negative]
        omega
      · simpa [negative] using unwrapped

/-- Within a range no two integers have one pattern. -/
theorem InRange.eq_of_emod_eq {signed : Bool} {width : Nat} {m n : Int} (positive : 0 < width)
    (left : InRange signed width m) (right : InRange signed width n)
    (same : m % (Nat.pow 2 (8 * width) : Int) = n % (Nat.pow 2 (8 * width) : Int)) : m = n := by
  have half := pow_eq_two_mul_half positive
  have divides : (Nat.pow 2 (8 * width) : Int) ∣ m - n :=
    Int.dvd_of_emod_eq_zero (Int.emod_eq_emod_iff_emod_sub_eq_zero.mp same)
  unfold InRange at left right
  generalize Nat.pow 2 (8 * width) = size at left right half divides
  generalize Nat.pow 2 (8 * width - 1) = middle at left right half
  -- two integers of one range are less than the number of patterns apart
  have near : (m - n).natAbs < (size : Int).natAbs := by
    cases signed <;> simp at left right <;> omega
  have apart : m - n = 0 := Int.eq_zero_of_dvd_of_natAbs_lt_natAbs divides near
  omega

/-- An integer in the range of its sign is read back from its field. -/
theorem getInteger_putInteger {signed : Bool} {width : Nat} {n : Int} (order : ByteOrder)
    (positive : 0 < width) (inRange : InRange signed width n) :
    getInteger signed order (putInteger width order n) = n := by
  have length := length_putInteger width order n
  have some_byte : 0 < (putInteger width order n).length := by omega
  obtain ⟨read_inRange, read_pattern⟩ := getInteger_spec signed order some_byte
  rw [length] at read_inRange read_pattern
  rw [value_putInteger] at read_pattern
  exact read_inRange.eq_of_emod_eq positive inRange read_pattern

/-- A field is written again by the integer that it is read as. -/
theorem putInteger_getInteger (signed : Bool) (order : ByteOrder) {field : Bytes}
    (positive : 0 < field.length) :
    putInteger field.length order (getInteger signed order field) = field := by
  have digits_of_pattern := digits_value (order.arrange field)
  rw [ByteOrder.length_arrange] at digits_of_pattern
  rw [putInteger, (getInteger_spec signed order positive).2, Int.toNat_natCast, digits_of_pattern,
    ByteOrder.arrange_arrange]

/-- The range of either sign is accepted. -/
theorem InRange.fits {signed : Bool} {width : Nat} {n : Int} (inRange : InRange signed width n)
    (positive : 0 < width) : fits width n = true := by
  have half := pow_eq_two_mul_half positive
  have some_pattern : 0 < Nat.pow 2 (8 * width - 1) := Nat.pow_pos (by decide)
  unfold InRange at inRange
  unfold Field.fits integerRange
  generalize Nat.pow 2 (8 * width) = size at half inRange ⊢
  generalize Nat.pow 2 (8 * width - 1) = middle at half inRange some_pattern ⊢
  cases signed <;> simp at inRange ⊢ <;> omega

/-! ### Doubles -/

/-- A field of four or eight bytes has its width. -/
theorem length_putFloat_of_width {width : Nat} (wide : width = 4 ∨ width = 8) (order : ByteOrder)
    (x : Binary64) : (putFloat width order x).length = width := by
  rcases wide with rfl | rfl
  · simp [putFloat]
  · simp [putFloat]

@[simp] theorem length_putFloat (order : ByteOrder) (x : Binary64) :
    (putFloat 8 order x).length = 8 :=
  length_putFloat_of_width (.inr rfl) order x

theorem getFloat_putFloat (order : ByteOrder) (x : Binary64) :
    getFloat order (putFloat 8 order x) = x := by
  have pattern : x.bits.toNat % Nat.pow 256 8 = x.bits.toNat :=
    Nat.mod_eq_of_lt x.bits.toNat_lt
  simp [getFloat, putFloat, value_digits, Binary64.ofPattern, pattern]

theorem putFloat_getFloat (order : ByteOrder) {field : Bytes} (length : field.length = 8) :
    putFloat 8 order (getFloat order field) = field := by
  have pattern : value (order.arrange field) < Nat.pow 2 64 := by
    have bound := value_arrange_lt order field
    rwa [length] at bound
  have read : (getFloat order field).bits.toNat = value (order.arrange field) := by
    have wide : field.length ≠ 4 := by omega
    simp only [getFloat, if_neg wide, Binary64.ofPattern, UInt64.toNat_ofNat']
    exact Nat.mod_eq_of_lt pattern
  have digits_of_pattern := digits_value (order.arrange field)
  rw [ByteOrder.length_arrange, length] at digits_of_pattern
  rw [putFloat, if_neg (by decide), read, digits_of_pattern, ByteOrder.arrange_arrange]

end DirectivePack.Field
