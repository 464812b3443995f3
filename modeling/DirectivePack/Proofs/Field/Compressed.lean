import DirectivePack.Field.Ber

/-!
Compressed integers are read back, and written again as they were read.

* `berMarked_digit`: one more digit behind the marked bytes of a number.
* `getBer_putBer_append`: a number below `2 ^ 128` is read back from its compressed form, whatever
  comes behind it.
* `putBer_of_getBer`: a number that is read is written as it was, unless the bytes started with a
  digit zero that says nothing.
-/

namespace DirectivePack.Field

/-- The byte `0x80`, a digit zero with more digits behind it. -/
def idleDigit : UInt8 := 0x80

/-! ### Marked bytes -/

theorem berMarked_zero (tail : Bytes) : berMarked 0 tail = tail := by
  rw [berMarked, if_pos rfl]

/-- A digit behind a number is the last of its marked bytes, unless number and digit are zero. -/
theorem berMarked_digit {n digit : Nat} (some_digit : n ≠ 0 ∨ digit ≠ 0) (small : digit < 128)
    (tail : Bytes) :
    berMarked (128 * n + digit) tail = berMarked n (UInt8.ofNat (128 + digit) :: tail) := by
  have quotient : (128 * n + digit) / 128 = n := by omega
  have remainder : (128 * n + digit) % 128 = digit := by omega
  rw [berMarked, if_neg (by omega), quotient, remainder]

theorem berMarked_append (n : Nat) (tail rest : Bytes) :
    berMarked n tail ++ rest = berMarked n (tail ++ rest) := by
  fun_induction berMarked n tail with
  | case1 tail => rw [berMarked_zero]
  | case2 n tail nonzero ih =>
    rw [ih, List.cons_append]
    conv => rhs; rw [berMarked, if_neg nonzero]

theorem putBer_append (n : Nat) (rest : Bytes) :
    putBer n ++ rest = berMarked (n / 128) (UInt8.ofNat (n % 128) :: rest) := by
  rw [putBer, berMarked_append, List.singleton_append]

/-! ### Reading what was written -/

/-- A marked digit is read in front of others. -/
theorem getBerFrom_marked {sofar digit : Nat} (room : sofar < Nat.pow 2 121) (small : digit < 128)
    (tail : Bytes) :
    getBerFrom sofar (UInt8.ofNat (128 + digit) :: tail) =
      getBerFrom (128 * sofar + digit) tail := by
  have byte : (UInt8.ofNat (128 + digit)).toNat = 128 + digit := by
    rw [UInt8.toNat_ofNat', Nat.mod_eq_of_lt (by omega)]
  have value : (128 + digit) % 128 = digit := by omega
  rw [getBerFrom, if_neg (by omega), byte, if_neg (by omega), value]

/-- An unmarked digit is the last one. -/
theorem getBerFrom_unmarked {sofar digit : Nat} (room : sofar < Nat.pow 2 121)
    (small : digit < 128) (tail : Bytes) :
    getBerFrom sofar (UInt8.ofNat digit :: tail) = (.ok (128 * sofar + digit), tail) := by
  have byte : (UInt8.ofNat digit).toNat = digit := by
    rw [UInt8.toNat_ofNat', Nat.mod_eq_of_lt (by omega)]
  rw [getBerFrom, if_neg (by omega), byte, if_pos small, Nat.mod_eq_of_lt small]

/-- Behind the marked bytes of a number, reading goes on with that number. -/
theorem getBerFrom_berMarked {n : Nat} (tail : Bytes) (bound : n < Nat.pow 2 128) :
    getBerFrom 0 (berMarked n tail) = getBerFrom n tail := by
  fun_induction berMarked n tail with
  | case1 tail => rfl
  | case2 n tail nonzero ih =>
    have room : n / 128 < Nat.pow 2 121 := Nat.div_lt_of_lt_mul bound
    have digits : 128 * (n / 128) + n % 128 = n := Nat.div_add_mod n 128
    rw [ih (by omega), getBerFrom_marked room (by omega), digits]

/-- A number below `2 ^ 128` is read back from its compressed form, whatever comes behind it. -/
theorem getBer_putBer_append {n : Nat} (bound : n < Nat.pow 2 128) (rest : Bytes) :
    getBer (putBer n ++ rest) = (.ok n, rest) := by
  have room : n / 128 < Nat.pow 2 121 := Nat.div_lt_of_lt_mul bound
  have digits : 128 * (n / 128) + n % 128 = n := Nat.div_add_mod n 128
  rw [putBer_append, getBer, getBerFrom_berMarked _ (by omega),
    getBerFrom_unmarked room (by omega), digits]

/-! ### Writing what was read -/

/-- What is read behind a number, put behind the marked bytes of that number, is the compressed form
of the result. -/
theorem berMarked_of_getBerFrom {sofar n : Nat} {bs rest : Bytes}
    (read : getBerFrom sofar bs = (.ok n, rest)) (busy : sofar ≠ 0 ∨ bs.head? ≠ some idleDigit) :
    berMarked sofar bs = putBer n ++ rest := by
  induction bs generalizing sofar with
  | nil => simp [getBerFrom] at read
  | cons b bs ih =>
    have is_byte : b.toNat < 256 := b.toNat_lt
    by_cases room : Nat.pow 2 121 ≤ sofar
    · simp [getBerFrom, room] at read
    · rw [getBerFrom, if_neg room] at read
      by_cases unmarked : b.toNat < 128
      · rw [if_pos unmarked] at read
        simp only [Prod.mk.injEq, Except.ok.injEq] at read
        obtain ⟨rfl, rfl⟩ := read
        have quotient : (128 * sofar + b.toNat % 128) / 128 = sofar := by omega
        have remainder : (128 * sofar + b.toNat % 128) % 128 = b.toNat := by omega
        rw [putBer_append, quotient, remainder, UInt8.ofNat_toNat]
      · rw [if_neg unmarked] at read
        -- the first digit of a number is not zero, so the number does not stay zero
        have some_digit : sofar ≠ 0 ∨ b.toNat % 128 ≠ 0 := by
          rcases busy with nonzero | busy
          · exact .inl nonzero
          · refine .inr fun zero => busy ?_
            have same : b.toNat = idleDigit.toNat := by
              have : idleDigit.toNat = 128 := rfl
              omega
            rw [List.head?_cons, UInt8.toNat_inj.mp same]
        have byte : UInt8.ofNat (128 + b.toNat % 128) = b := by
          have : 128 + b.toNat % 128 = b.toNat := by omega
          rw [this, UInt8.ofNat_toNat]
        have behind := ih read (.inl (by omega))
        rwa [berMarked_digit some_digit (by omega), byte] at behind

/-- **A compressed integer is written as it was read**, unless the bytes started with a digit zero
that says nothing. -/
theorem putBer_of_getBer {n : Nat} {bs rest : Bytes} (read : getBer bs = (.ok n, rest))
    (busy : bs.head? ≠ some idleDigit) : bs = putBer n ++ rest := by
  have written := berMarked_of_getBerFrom read (.inr busy)
  rwa [berMarked_zero] at written

end DirectivePack.Field
