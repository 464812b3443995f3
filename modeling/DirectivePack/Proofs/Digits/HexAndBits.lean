import DirectivePack.Proofs.Digits.Positions

/-!
Hexadecimal digits and bits.

A nibble is four bits, so that a text of hexadecimal digits says the same as the text of their bits.
This is said of any two radices where a fixed number of digits of the one stands for a digit of the
other.

* `Radix.Refines.ofBytes_eq`: the fine digits of bytes spell their coarse ones.
* `Radix.Refines.pack?_spelled`: a text and its spelling are packed to the same bytes.
* `value?_eq_some_iff_getElem?_characters`: digits are worth their place among the characters.
* `pack?_swapNibbles`: packing with the other nibble first swaps the nibbles of each byte.
* `map_digitChar_digitsOf`: what digits are read back as, with zeros where some are missing.
-/

namespace DirectivePack

namespace Radix

/-! ### Spelling digits -/

/-- The numbers of `j + k` digits are numbers of `j` digits in front of numbers of `k` digits. -/
theorem decompose_add (radix : Radix) (j k n : Nat) :
    radix.decompose (j + k) n =
      radix.decompose j (n / Nat.pow radix.base k) ++ radix.decompose k n := by
  induction k generalizing n with
  | zero => simp [decompose]
  | succ k ih =>
    have power : Nat.pow radix.base (k + 1) = Nat.pow radix.base k * radix.base := rfl
    rw [← Nat.add_assoc, decompose, decompose, ih, Nat.div_div_eq_div_mul, power,
      Nat.mul_comm radix.base, List.append_assoc]

/-- Digits beyond those that are asked for do not count. -/
theorem decompose_mod (radix : Radix) (k n : Nat) :
    radix.decompose k (n % Nat.pow radix.base k) = radix.decompose k n := by
  induction k generalizing n with
  | zero => rfl
  | succ k ih =>
    have power : Nat.pow radix.base (k + 1) = Nat.pow radix.base k * radix.base := rfl
    have low : n % (Nat.pow radix.base k * radix.base) % radix.base = n % radix.base :=
      Nat.mod_mod_of_dvd n (Nat.dvd_mul_left ..)
    have high : n % (Nat.pow radix.base k * radix.base) / radix.base =
        n / radix.base % Nat.pow radix.base k := by
      rw [Nat.mul_comm, Nat.mod_mul_right_div_self]
    rw [decompose, power, low, high, ih, decompose]

/-- `k` digits of the fine radix stand for one of the coarse radix. -/
structure Refines (fine coarse : Radix) (k : Nat) : Prop where
  base_eq : coarse.base = Nat.pow fine.base k
  perByte_eq : fine.perByte = k * coarse.perByte

/-- A digit written as `k` digits, in this order. -/
def spell (radix : Radix) (order : DigitOrder) (k d : Nat) : List Nat :=
  order.arrange (radix.decompose k d)

@[simp] theorem length_spell (radix : Radix) (order : DigitOrder) (k d : Nat) :
    (radix.spell order k d).length = k := by
  cases order <;> simp [spell, DigitOrder.arrange]

theorem spell_lt {radix : Radix} {order : DigitOrder} {k d digit : Nat}
    (member : digit ∈ radix.spell order k d) : digit < radix.base := by
  cases order with
  | highFirst => exact radix.decompose_lt member
  | lowFirst => exact radix.decompose_lt (List.mem_reverse.mp member)

theorem decompose_zero (radix : Radix) (k : Nat) :
    radix.decompose k 0 = List.replicate k 0 := by
  induction k with
  | zero => rfl
  | succ k ih => rw [decompose, Nat.zero_div, Nat.zero_mod, ih, List.replicate_succ']

/-- Zeros are spelled by zeros. -/
theorem flatMap_spell_zeros (radix : Radix) (order : DigitOrder) (k zeros : Nat) :
    (List.replicate zeros 0).flatMap (radix.spell order k) = List.replicate (k * zeros) 0 := by
  have zero : radix.spell order k 0 = List.replicate k 0 := by
    rw [spell, decompose_zero]
    cases order with
    | highFirst => rfl
    | lowFirst => exact List.reverse_replicate ..
  induction zeros with
  | zero => rfl
  | succ zeros ih =>
    rw [List.replicate_succ, List.flatMap_cons, zero, ih, List.replicate_append_replicate,
      Nat.mul_succ, Nat.add_comm]

namespace Refines

variable {fine coarse : Radix} {k : Nat} (refines : fine.Refines coarse k) (order : DigitOrder)

include refines

/-- The fine digits of a number spell its coarse ones. -/
theorem decompose_eq (count n : Nat) :
    fine.decompose (k * count) n = (coarse.decompose count n).flatMap (fine.decompose k) := by
  induction count generalizing n with
  | zero => rfl
  | succ count ih =>
    rw [decompose, List.flatMap_append, List.flatMap_singleton, Nat.mul_succ, decompose_add,
      refines.base_eq, decompose_mod, ← refines.base_eq, ih]

theorem ofByte_eq (b : UInt8) :
    fine.ofByte order b = (coarse.ofByte order b).flatMap (fine.spell order k) := by
  rw [ofByte, ofByte, refines.perByte_eq, refines.decompose_eq]
  cases order with
  | highFirst => rfl
  | lowFirst => exact List.reverse_flatMap ..

/-- **The fine digits of bytes** spell their coarse ones. -/
theorem ofBytes_eq (bs : Bytes) :
    fine.ofBytes order bs = (coarse.ofBytes order bs).flatMap (fine.spell order k) := by
  rw [ofBytes, ofBytes, List.flatMap_assoc]
  exact congrArg (bs.flatMap ·) (funext fun b => refines.ofByte_eq order b)

theorem byteCount_mul (n : Nat) : fine.byteCount (k * n) = coarse.byteCount n := by
  have some_digit := fine.perByte_pos
  rw [refines.perByte_eq] at some_digit
  have positive : 0 < k := Nat.pos_of_mul_pos_right some_digit
  have some_coarse := coarse.perByte_pos
  -- the same number of whole bytes is reached, with less than one coarse digit left over
  have split : k * n + k * coarse.perByte - 1 = (k - 1) + k * (n + coarse.perByte - 1) := by
    have factor : k * (n + coarse.perByte - 1) + k = k * n + k * coarse.perByte := by
      rw [← Nat.mul_succ, Nat.succ_eq_add_one, Nat.sub_add_cancel (by omega), Nat.mul_add]
    omega
  have below : (k - 1) / k = 0 := Nat.div_eq_of_lt (by omega)
  rw [byteCount, byteCount, refines.perByte_eq, split, ← Nat.div_div_eq_div_mul,
    Nat.add_mul_div_left _ _ positive, below, Nat.zero_add]

/-- Digits and their spelling make the same bytes. -/
theorem toBytes_spelled {digits : List Nat} (are_digits : ∀ d ∈ digits, d < coarse.base) :
    fine.toBytes order (digits.flatMap (fine.spell order k)) = coarse.toBytes order digits := by
  obtain ⟨zeros, made⟩ := coarse.ofBytes_toBytes order are_digits
  apply Eq.symm
  rw [eq_toBytes_iff]
  · constructor
    · rw [length_toBytes, length_flatMap_uniform fun _ => length_spell .., refines.byteCount_mul]
    · refine ⟨k * zeros, ?_⟩
      rw [refines.ofBytes_eq, made, List.flatMap_append, flatMap_spell_zeros]
  · intro d member
    obtain ⟨_, -, member⟩ := List.mem_flatMap.mp member
    exact spell_lt member

end Refines

/-! ### Spelling texts -/

/-- The text of the fine digits that spell the coarse digits of a text. -/
def spelled (fine coarse : Radix) (order : DigitOrder) (k : Nat) (text : Bytes) : Bytes :=
  text.flatMap fun c => (fine.spell order k ((coarse.value? c).getD 0)).map digitChar

/-- The digits of a row of digit characters are that row, cut off or with zeros behind. -/
theorem digitsOf_map_digitChar {radix : Radix} (legible : radix.base ≤ 16) {digits : List Nat}
    (are_digits : ∀ d ∈ digits, d < radix.base) (count : Nat) :
    radix.digitsOf count (digits.map digitChar) =
      digits.take count ++ List.replicate (count - digits.length) 0 := by
  have back : ∀ d ∈ digits.take count, (radix.value? (digitChar d)).getD 0 = d := by
    intro d member
    rw [value?_digitChar legible (are_digits d (List.mem_of_mem_take member)), Option.getD_some]
  rw [digitsOf, ← List.map_take, List.map_map, List.length_map]
  congr 1
  exact (List.map_congr_left back).trans (List.map_id _)

/-- The digits of a spelled text spell the digits of the text. -/
theorem digitsOf_spelled {fine : Radix} (legible : fine.base ≤ 16) (coarse : Radix)
    (order : DigitOrder) (k n : Nat) (text : Bytes) :
    fine.digitsOf (k * n) (fine.spelled coarse order k text) =
      (coarse.digitsOf n text).flatMap (fine.spell order k) := by
  have uniform : ∀ d, (fine.spell order k d).length = k := fun _ => length_spell ..
  have written : fine.spelled coarse order k text =
      ((text.map fun c => (coarse.value? c).getD 0).flatMap (fine.spell order k)).map
        digitChar := by
    rw [spelled, List.map_flatMap, List.flatMap_map]
  have are_digits : ∀ d ∈ (text.map fun c => (coarse.value? c).getD 0).flatMap (fine.spell order k),
      d < fine.base := by
    intro d member
    obtain ⟨_, -, member⟩ := List.mem_flatMap.mp member
    exact spell_lt member
  rw [written, digitsOf_map_digitChar legible are_digits, take_flatMap_uniform uniform,
    length_flatMap_uniform uniform, List.length_map, ← Nat.mul_sub, digitsOf,
    List.flatMap_append, flatMap_spell_zeros, List.map_take]

/-- **A text and its spelling** are packed to the same bytes. -/
theorem Refines.pack?_spelled {fine coarse : Radix} {k : Nat} (refines : fine.Refines coarse k)
    (legible : fine.base ≤ 16) (order : DigitOrder) (n : Nat) {text : Bytes}
    (all : ∀ c ∈ text, coarse.value? c ≠ none) :
    fine.pack? order (k * n) (fine.spelled coarse order k text) = coarse.pack? order n text := by
  have coarse_packed : coarse.pack? order n text =
      .ok (coarse.toBytes order (coarse.digitsOf n text)) :=
    pack?_eq_ok_iff.mpr ⟨fun c member => all c (List.mem_of_mem_take member), rfl⟩
  rw [coarse_packed, pack?_eq_ok_iff]
  constructor
  · intro c member
    obtain ⟨_, -, written⟩ := List.mem_flatMap.mp (List.mem_of_mem_take member)
    obtain ⟨d, digit, rfl⟩ := List.mem_map.mp written
    rw [value?_digitChar legible (spell_lt digit)]
    exact Option.some_ne_none d
  · rw [digitsOf_spelled legible, refines.toBytes_spelled order fun _ => digitsOf_lt]

theorem bits_refines_hex : bits.Refines hex 4 :=
  ⟨rfl, rfl⟩

end Radix

/-! ### Digit characters -/

/-- A capital letter in lowercase, and any other character as it is. -/
def lowercase (c : UInt8) : UInt8 :=
  if 0x41 ≤ c.toNat ∧ c.toNat ≤ 0x5A then UInt8.ofNat (c.toNat + 0x20) else c

/-- A digit that was read in either case is written in lowercase. -/
theorem digitChar_of_digitValue? {c : UInt8} {d : Nat} (value : digitValue? c = some d) :
    d < 16 ∧ digitChar d = lowercase c := by
  have byte := c.toNat_lt
  simp only [digitValue?] at value
  simp only [digitChar, lowercase]
  split at value
  · rename_i decimal
    cases value
    refine ⟨by omega, ?_⟩
    have small : (c.toNat - 0x30) % 16 = c.toNat - 0x30 := by omega
    have same : 0x30 + (c.toNat - 0x30) = c.toNat := by omega
    rw [small, if_pos (by omega), if_neg (by omega), same, UInt8.ofNat_toNat]
  · split at value
    · rename_i letter
      cases value
      refine ⟨by omega, ?_⟩
      have small : (c.toNat - 0x61 + 10) % 16 = c.toNat - 0x61 + 10 := by omega
      have same : 0x61 + (c.toNat - 0x61 + 10 - 10) = c.toNat := by omega
      rw [small, if_neg (by omega), if_neg (by omega), same, UInt8.ofNat_toNat]
    · split at value
      · rename_i letter
        cases value
        refine ⟨by omega, ?_⟩
        have small : (c.toNat - 0x41 + 10) % 16 = c.toNat - 0x41 + 10 := by omega
        have same : 0x61 + (c.toNat - 0x41 + 10 - 10) = c.toNat + 0x20 := by omega
        rw [small, if_neg (by omega), if_pos (by omega), same]
      · cases value

theorem digitValue?_lowercase (c : UInt8) : digitValue? (lowercase c) = digitValue? c := by
  rw [lowercase]
  split
  · rename_i capital
    have small : (UInt8.ofNat (c.toNat + 0x20)).toNat = c.toNat + 0x20 := by
      rw [UInt8.toNat_ofNat', Nat.mod_eq_of_lt (by omega)]
    simp only [digitValue?, small]
    rw [if_neg (by omega), if_neg (by omega : ¬(0x30 ≤ c.toNat ∧ c.toNat ≤ 0x39)),
      if_neg (by omega : ¬(0x61 ≤ c.toNat ∧ c.toNat ≤ 0x66))]
    by_cases digit : c.toNat ≤ 0x46
    · rw [if_pos (by omega), if_pos (by omega)]
      exact congrArg some (by omega)
    · rw [if_neg (by omega), if_neg (by omega), if_neg (by omega)]
  · rfl

/-- Digits are the characters of the radix, in either case, and are worth their place among them. -/
theorem value?_eq_some_iff_getElem?_characters {radix : Radix} (legible : radix.base ≤ 16)
    {c : UInt8} {d : Nat} :
    radix.value? c = some d ↔ radix.characters[d]? = some (lowercase c) := by
  rw [Radix.value?_eq_some_iff]
  constructor
  · rintro ⟨value, small⟩
    rw [Radix.getElem?_characters small, (digitChar_of_digitValue? value).2]
  · intro found
    obtain ⟨inside, -⟩ := List.getElem?_eq_some_iff.mp found
    have small : d < radix.base := by
      rwa [Radix.characters, List.length_map, List.length_range] at inside
    rw [Radix.getElem?_characters small, Option.some.injEq] at found
    rw [← digitValue?_lowercase, ← found]
    exact ⟨Radix.digitValue?_digitChar d (Nat.lt_of_lt_of_le small legible), small⟩

theorem digitChar_of_value?_hex {c : UInt8} {d : Nat} (value : Radix.hex.value? c = some d) :
    digitChar d = lowercase c :=
  (digitChar_of_digitValue? (Radix.value?_eq_some_iff.mp value).1).2

theorem value?_bits (c : UInt8) :
    Radix.bits.value? c = if c = 0x30 ∨ c = 0x31 then some (c.toNat - 0x30) else none := by
  have is_bit : (c = 0x30 ∨ c = 0x31) ↔ 0x30 ≤ c.toNat ∧ c.toNat ≤ 0x31 := by
    rw [← UInt8.toNat_inj, ← UInt8.toNat_inj]
    have zero : (0x30 : UInt8).toNat = 0x30 := rfl
    have one : (0x31 : UInt8).toNat = 0x31 := rfl
    omega
  have two : Radix.bits.base = 2 := rfl
  simp only [is_bit, Radix.value?, digitValue?]
  by_cases decimal : 0x30 ≤ c.toNat ∧ c.toNat ≤ 0x39
  · rw [if_pos decimal]
    by_cases bit : c.toNat ≤ 0x31
    · exact (if_pos (by omega)).trans (if_pos ⟨decimal.1, bit⟩).symm
    · exact (if_neg (by omega)).trans (if_neg (by omega)).symm
  · -- a letter is worth ten at least
    rw [if_neg decimal, if_neg (show ¬(0x30 ≤ c.toNat ∧ c.toNat ≤ 0x31) by omega)]
    by_cases lower : 0x61 ≤ c.toNat ∧ c.toNat ≤ 0x66
    · rw [if_pos lower]
      exact if_neg (by omega)
    · rw [if_neg lower]
      by_cases upper : 0x41 ≤ c.toNat ∧ c.toNat ≤ 0x46
      · rw [if_pos upper]
        exact if_neg (by omega)
      · rw [if_neg upper]

theorem digitChar_of_value?_bits {c : UInt8} {d : Nat} (value : Radix.bits.value? c = some d) :
    digitChar d = c := by
  rw [value?_bits] at value
  split at value
  · rename_i bit
    cases value
    rcases bit with rfl | rfl
    · rfl
    · rfl
  · cases value

/-- Read back, digits are as they are written, and zeros stand where some are missing. -/
theorem map_digitChar_digitsOf {radix : Radix} {written : UInt8 → UInt8}
    (is_written : ∀ c d, radix.value? c = some d → digitChar d = written c) {count : Nat}
    {text : Bytes} (all : ∀ c ∈ text.take count, radix.value? c ≠ none) :
    (radix.digitsOf count text).map digitChar =
      (text.take count).map written ++ List.replicate (count - text.length) 0x30 := by
  have each : ∀ c ∈ text.take count, digitChar ((radix.value? c).getD 0) = written c := by
    intro c member
    obtain ⟨d, value⟩ := Option.ne_none_iff_exists'.mp (all c member)
    rw [value, Option.getD_some]
    exact is_written c d value
  rw [Radix.digitsOf, List.map_append, List.map_map, List.map_replicate]
  exact congrArg (· ++ _) (List.map_congr_left each)

/-! ### The other nibble first -/

/-- The byte with its nibbles exchanged. -/
def swapNibbles (b : UInt8) : UInt8 :=
  UInt8.ofNat (16 * (b.toNat % 16) + b.toNat / 16)

theorem digitAt?_swapNibbles (bs : Bytes) (i : Nat) :
    Radix.hex.digitAt? .lowFirst (bs.map swapNibbles) i = Radix.hex.digitAt? .highFirst bs i := by
  have each (b : UInt8) : (swapNibbles b).toNat / Radix.hex.weight .lowFirst (i % 2) % 16 =
      b.toNat / Radix.hex.weight .highFirst (i % 2) % 16 := by
    have byte := b.toNat_lt
    have swapped : (swapNibbles b).toNat = 16 * (b.toNat % 16) + b.toNat / 16 := by
      rw [swapNibbles, UInt8.toNat_ofNat', Nat.mod_eq_of_lt (by omega)]
    rw [swapped]
    rcases Nat.mod_two_eq_zero_or_one i with first | second
    · have low : Radix.hex.weight .lowFirst 0 = 1 := rfl
      have high : Radix.hex.weight .highFirst 0 = 16 := rfl
      rw [first, low, high, Nat.div_one]
      omega
    · have low : Radix.hex.weight .lowFirst 1 = 16 := rfl
      have high : Radix.hex.weight .highFirst 1 = 1 := rfl
      rw [second, low, high, Nat.div_one, Nat.mul_add_div (by decide),
        Nat.div_eq_of_lt (by omega), Nat.add_zero, Nat.mod_mod]
  rw [Radix.digitAt?, Radix.digitAt?, List.getElem?_map, Option.map_map]
  exact congrArg (Option.map · _) (funext each)

/-- Packing with the other nibble first swaps the nibbles of each byte. -/
theorem pack?_swapNibbles {count : Nat} {text bs : Bytes}
    (packed : Radix.hex.pack? .highFirst count text = .ok bs) :
    Radix.hex.pack? .lowFirst count text = .ok (bs.map swapNibbles) := by
  have length := Radix.length_of_pack? packed
  obtain ⟨all, rfl⟩ := Radix.pack?_eq_ok_iff.mp packed
  have are_digits : ∀ d ∈ Radix.hex.digitsOf count text, d < Radix.hex.base :=
    fun _ => Radix.digitsOf_lt
  obtain ⟨zeros, made⟩ := Radix.hex.ofBytes_toBytes .highFirst are_digits
  rw [Radix.pack?_eq_ok_iff, Radix.hex.eq_toBytes_iff are_digits]
  refine ⟨all, ?_, zeros, ?_⟩
  · rw [List.length_map, length, Radix.length_digitsOf]
  · rw [← made]
    apply List.ext_getElem?
    intro i
    rw [Radix.getElem?_ofBytes, Radix.getElem?_ofBytes, digitAt?_swapNibbles]

end DirectivePack
