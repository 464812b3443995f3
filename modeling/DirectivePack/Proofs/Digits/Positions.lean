import DirectivePack.Proofs.Digits.Groups

/-!
Digit strings told digit by digit.

The digits of some bytes are numbered through from the first byte on, within each byte in the order of
writing.  What is packed and what is unpacked is said here of each number alone.

* `Radix.getElem?_ofBytes`: the digits of bytes stand where their numbers say.
* `Radix.digitAt?_toBytes`: digits are found again in the bytes that they make, and zeros behind them.
* `Radix.eq_toBytes_iff`: the bytes that digits make are the only ones with these digits, of those
  that are as few.
* `Radix.pack?_eq_error_iff`, `Radix.pack?_eq_ok_iff`: packing refuses the first character that is no
  digit, and otherwise makes bytes of all digits that are asked for.
* `Radix.unpack_pack?_append`: these digits are read back, whatever comes behind their bytes.
* `Radix.getElem?_unpack`: unpacking gives the characters of the digits, in order.
-/

namespace DirectivePack.Radix

variable (radix : Radix)

/-- What a digit counts for that has the number `i` in its byte. -/
def weight (order : DigitOrder) (i : Nat) : Nat :=
  match order with
  | .highFirst => Nat.pow radix.base (radix.perByte - 1 - i)
  | .lowFirst => Nat.pow radix.base i

/-- The digit number `i` of some bytes. -/
def digitAt? (order : DigitOrder) (bs : Bytes) (i : Nat) : Option Nat :=
  bs[i / radix.perByte]?.map fun b =>
    b.toNat / radix.weight order (i % radix.perByte) % radix.base

/-! ### Bytes -/

theorem getElem?_decompose {count i : Nat} (inside : i < count) (n : Nat) :
    (radix.decompose count n)[i]? = some (n / Nat.pow radix.base (count - 1 - i) % radix.base) := by
  induction count generalizing n with
  | zero => exact absurd inside (Nat.not_lt_zero i)
  | succ count ih =>
    rw [decompose]
    rcases Nat.lt_or_ge i count with earlier | last
    · have exponent : count + 1 - 1 - i = count - 1 - i + 1 := by omega
      have power : Nat.pow radix.base (count - 1 - i + 1) =
          Nat.pow radix.base (count - 1 - i) * radix.base := rfl
      rw [List.getElem?_append_left (by rwa [length_decompose]), ih earlier,
        Nat.div_div_eq_div_mul, exponent, power, Nat.mul_comm]
    · have same : i = count := by omega
      subst same
      have last_digit : i + 1 - 1 - i = 0 := by omega
      have at_end : (radix.decompose i (n / radix.base)).length ≤ i := by simp
      rw [List.getElem?_append_right at_end,
        length_decompose, Nat.sub_self, List.getElem?_cons_zero, last_digit, Nat.pow,
        Nat.div_one]

/-- The digits of a byte stand where their weights say. -/
theorem getElem?_ofByte (order : DigitOrder) (b : UInt8) {i : Nat} (inside : i < radix.perByte) :
    (radix.ofByte order b)[i]? = some (b.toNat / radix.weight order i % radix.base) := by
  cases order with
  | highFirst => exact radix.getElem?_decompose inside b.toNat
  | lowFirst =>
    have mirrored : radix.perByte - 1 - i < radix.perByte := by omega
    have back : radix.perByte - 1 - (radix.perByte - 1 - i) = i := by omega
    rw [ofByte, DigitOrder.arrange, List.getElem?_reverse (by rwa [length_decompose]),
      length_decompose, getElem?_decompose radix mirrored, back, weight]

/-- **The digits of bytes** stand where their numbers say. -/
theorem getElem?_ofBytes (order : DigitOrder) (bs : Bytes) (i : Nat) :
    (radix.ofBytes order bs)[i]? = radix.digitAt? order bs i := by
  have positive := radix.perByte_pos
  induction bs generalizing i with
  | nil => simp [ofBytes, digitAt?]
  | cons b bs ih =>
    have length := radix.length_ofByte order b
    rw [ofBytes, List.flatMap_cons]
    rcases Nat.lt_or_ge i radix.perByte with first | behind
    · rw [List.getElem?_append_left (by rwa [length]), getElem?_ofByte radix order b first,
        digitAt?, Nat.div_eq_of_lt first, Nat.mod_eq_of_lt first]
      rfl
    · obtain ⟨j, rfl⟩ : ∃ j, i = j + radix.perByte := ⟨i - radix.perByte, by omega⟩
      have others := ih j
      rw [ofBytes] at others
      rw [List.getElem?_append_right (by rw [length]; omega), length, Nat.add_sub_cancel, others,
        digitAt?, digitAt?, Nat.add_div_right j positive, Nat.add_mod_right,
        List.getElem?_cons_succ]

/-- Bytes are told apart by their digits. -/
theorem eq_of_ofBytes_eq (order : DigitOrder) {as bs : Bytes}
    (same : radix.ofBytes order as = radix.ofBytes order bs) : as = bs := by
  rw [← radix.toBytes_ofBytes order as, same, toBytes_ofBytes]

theorem exists_digitAt? (order : DigitOrder) {bs : Bytes} {i : Nat}
    (inside : i < radix.perByte * bs.length) :
    ∃ digit < radix.base, radix.digitAt? order bs i = some digit := by
  have byte : i / radix.perByte < bs.length := Nat.div_lt_of_lt_mul inside
  rw [digitAt?, List.getElem?_eq_getElem byte]
  exact ⟨_, Nat.mod_lt _ radix.base_pos, rfl⟩

/-! ### Bytes that digits make -/

/-- Of the bytes that are as few as cover some digits, those that the digits make are the ones with
these digits in front and only zeros behind. -/
theorem eq_toBytes_iff {order : DigitOrder} {digits : List Nat}
    (are_digits : ∀ d ∈ digits, d < radix.base) {bs : Bytes} :
    bs = radix.toBytes order digits ↔
      bs.length = radix.byteCount digits.length ∧
        ∃ zeros, radix.ofBytes order bs = digits ++ List.replicate zeros 0 := by
  obtain ⟨zeros, made⟩ := radix.ofBytes_toBytes order are_digits
  constructor
  · rintro rfl
    exact ⟨radix.length_toBytes order digits, zeros, made⟩
  · rintro ⟨length, others, found⟩
    -- as many digits in all, so as many zeros
    have total : (radix.ofBytes order bs).length =
        (radix.ofBytes order (radix.toBytes order digits)).length := by
      rw [length_ofBytes, length_ofBytes, length, length_toBytes]
    rw [found, made, List.length_append, List.length_append, List.length_replicate,
      List.length_replicate] at total
    have same : others = zeros := by omega
    apply radix.eq_of_ofBytes_eq order
    rw [found, made, same]

/-- **The digits of bytes that digits make** are those digits, and zeros where they end. -/
theorem digitAt?_toBytes {order : DigitOrder} {digits : List Nat}
    (are_digits : ∀ d ∈ digits, d < radix.base) {i : Nat}
    (inside : i < radix.perByte * (radix.toBytes order digits).length) :
    radix.digitAt? order (radix.toBytes order digits) i = some (digits[i]?.getD 0) := by
  obtain ⟨zeros, made⟩ := radix.ofBytes_toBytes order are_digits
  rw [← length_ofBytes radix order, made, List.length_append, List.length_replicate] at inside
  rw [← getElem?_ofBytes, made]
  rcases Nat.lt_or_ge i digits.length with digit | zero
  · rw [List.getElem?_append_left digit, List.getElem?_eq_getElem digit, Option.getD_some]
  · rw [List.getElem?_append_right zero, List.getElem?_eq_none zero,
      List.getElem?_replicate_of_lt (by omega), Option.getD_none]

/-! ### Characters -/

variable {radix}

theorem value?_eq_some_iff {c : UInt8} {d : Nat} :
    radix.value? c = some d ↔ digitValue? c = some d ∧ d < radix.base := by
  unfold value?
  cases digitValue? c with
  | none => simp
  | some other =>
    by_cases small : other < radix.base
    · simp only [if_pos small, Option.some.injEq, iff_self_and]
      rintro rfl
      exact small
    · simp only [if_neg small, Option.some.injEq, reduceCtorEq, false_iff, not_and]
      rintro rfl
      exact small

theorem value?_lt {c : UInt8} {d : Nat} (value : radix.value? c = some d) : d < radix.base :=
  (value?_eq_some_iff.mp value).2

theorem getElem?_characters {d : Nat} (small : d < radix.base) :
    radix.characters[d]? = some (digitChar d) := by
  rw [characters, List.getElem?_map, List.getElem?_range small, Option.map_some]

/-- The values are those of the characters, if all of them are digits. -/
theorem values_eq_ok_iff {text : Bytes} {digits : List Nat} :
    radix.values text = .ok digits ↔
      (∀ c ∈ text, radix.value? c ≠ none) ∧
        digits = text.map fun c => (radix.value? c).getD 0 := by
  induction text generalizing digits with
  | nil =>
    constructor
    · rintro ⟨⟩
      exact ⟨by simp, rfl⟩
    · rintro ⟨-, rfl⟩
      rfl
  | cons c text ih =>
    rw [values, List.forall_mem_cons]
    cases value : radix.value? c with
    | none => simp
    | some d =>
      cases others : radix.values text with
      | error bad =>
        have none_ok : ∀ digits, radix.values text ≠ .ok digits := by simp [others]
        simp only [reduceCtorEq, false_iff, not_and]
        rintro ⟨-, all⟩ -
        exact none_ok _ (ih.mpr ⟨all, rfl⟩)
      | ok more =>
        obtain ⟨all, rfl⟩ := ih.mp others
        simp only [List.map_cons, value, Option.getD_some, Except.ok.injEq, @eq_comm _ digits]
        constructor
        · intro same
          exact ⟨⟨by simp, all⟩, same⟩
        · rintro ⟨-, same⟩
          exact same

/-- The first character that is no digit is refused. -/
theorem values_eq_error_iff {text : Bytes} {bad : UInt8} :
    radix.values text = .error bad ↔
      ∃ before after, text = before ++ bad :: after ∧ (∀ c ∈ before, radix.value? c ≠ none) ∧
        radix.value? bad = none := by
  constructor
  · intro failed
    induction text with
    | nil => cases failed
    | cons c text ih =>
      rw [values] at failed
      cases value : radix.value? c with
      | none =>
        simp only [value, Except.error.injEq] at failed
        subst failed
        exact ⟨[], text, rfl, by simp, value⟩
      | some d =>
        cases others : radix.values text with
        | ok more => simp [value, others] at failed
        | error other =>
          simp only [value, others, Except.error.injEq] at failed
          obtain ⟨before, after, rfl, all, refused⟩ := ih (failed ▸ others)
          exact ⟨c :: before, after, rfl, List.forall_mem_cons.mpr ⟨by simp [value], all⟩, refused⟩
  · rintro ⟨before, after, rfl, all, refused⟩
    induction before with
    | nil => simp only [List.nil_append, values, refused]
    | cons c before ih =>
      obtain ⟨digit, all⟩ := List.forall_mem_cons.mp all
      obtain ⟨d, value⟩ := Option.ne_none_iff_exists'.mp digit
      simp only [List.cons_append, values, value, ih all]

/-! ### Packing -/

variable (radix) in
/-- The first `count` digits of a text, zeros standing for the ones that are missing. -/
def digitsOf (count : Nat) (text : Bytes) : List Nat :=
  (text.take count).map (fun c => (radix.value? c).getD 0) ++
    List.replicate (count - text.length) 0

@[simp] theorem length_digitsOf (count : Nat) (text : Bytes) :
    (radix.digitsOf count text).length = count := by
  rw [digitsOf, List.length_append, List.length_map, List.length_take, List.length_replicate]
  omega

theorem digitsOf_lt {count : Nat} {text : Bytes} {d : Nat}
    (member : d ∈ radix.digitsOf count text) : d < radix.base := by
  rcases List.mem_append.mp member with digit | zero
  · obtain ⟨c, -, rfl⟩ := List.mem_map.mp digit
    cases value : radix.value? c with
    | none => exact radix.base_pos
    | some d => exact value?_lt value
  · rw [List.eq_of_mem_replicate zero]
    exact radix.base_pos

/-- Digit number `i` is the value of character number `i`, or a zero where there is none. -/
theorem getElem?_digitsOf {count : Nat} {text : Bytes}
    (all : ∀ c ∈ text.take count, radix.value? c ≠ none) (i : Nat) :
    some ((radix.digitsOf count text)[i]?.getD 0) =
      (text.take count)[i]?.elim (some 0) radix.value? := by
  rw [digitsOf, List.getElem?_append, List.length_map, List.getElem?_map]
  split
  · rename_i inside
    rw [List.getElem?_eq_getElem inside]
    obtain ⟨d, value⟩ := Option.ne_none_iff_exists'.mp (all _ (List.getElem_mem inside))
    simp only [Option.map_some, Option.getD_some, Option.elim_some, value]
  · rename_i outside
    rw [List.getElem?_eq_none (Nat.le_of_not_lt outside), List.getElem?_replicate]
    split <;> rfl

/-- Packing refuses the first character that is no digit, of those that are asked for. -/
theorem pack?_eq_error_iff {order : DigitOrder} {count : Nat} {text : Bytes} {bad : UInt8} :
    radix.pack? order count text = .error bad ↔
      ∃ before after, text.take count = before ++ bad :: after ∧
        (∀ c ∈ before, radix.value? c ≠ none) ∧ radix.value? bad = none := by
  rw [← values_eq_error_iff, pack?]
  cases radix.values (text.take count) <;> simp

/-- Packing makes bytes of all digits that are asked for. -/
theorem pack?_eq_ok_iff {order : DigitOrder} {count : Nat} {text bs : Bytes} :
    radix.pack? order count text = .ok bs ↔
      (∀ c ∈ text.take count, radix.value? c ≠ none) ∧
        bs = radix.toBytes order (radix.digitsOf count text) := by
  rw [pack?]
  cases values_of : radix.values (text.take count) with
  | error bad =>
    have none_ok : ∀ digits, radix.values (text.take count) ≠ .ok digits := by simp [values_of]
    simp only [reduceCtorEq, false_iff, not_and]
    intro all
    exact absurd (values_eq_ok_iff.mpr ⟨all, rfl⟩) (none_ok _)
  | ok digits =>
    obtain ⟨all, rfl⟩ := values_eq_ok_iff.mp values_of
    simp only [Except.ok.injEq, @eq_comm _ bs, digitsOf, iff_and_self]
    intro _
    exact all

/-- **Packed digits.** Each digit of the packed bytes is the value of its character, and a zero where
there is none. -/
theorem digitAt?_pack? {order : DigitOrder} {count : Nat} {text bs : Bytes}
    (packed : radix.pack? order count text = .ok bs) {i : Nat}
    (inside : i < radix.perByte * bs.length) :
    radix.digitAt? order bs i = (text.take count)[i]?.elim (some 0) radix.value? := by
  obtain ⟨all, rfl⟩ := pack?_eq_ok_iff.mp packed
  rw [digitAt?_toBytes radix (fun _ => digitsOf_lt) inside, getElem?_digitsOf all]

/-- **Packed digits are read back,** whatever comes behind their bytes. -/
theorem unpack_pack?_append {order : DigitOrder} {count : Nat} {text bs : Bytes}
    (packed : radix.pack? order count text = .ok bs) (tail : Bytes) :
    radix.unpack order count (bs ++ tail) = ((radix.digitsOf count text).map digitChar, tail) := by
  have size := length_of_pack? packed
  obtain ⟨-, rfl⟩ := pack?_eq_ok_iff.mp packed
  have are_digits : ∀ d ∈ radix.digitsOf count text, d < radix.base := fun _ => digitsOf_lt
  obtain ⟨zeros, made⟩ := radix.ofBytes_toBytes order are_digits
  rw [unpack, List.take_left' size, List.drop_left' size, made,
    List.take_left' (length_digitsOf count text)]

/-! ### Unpacking -/

/-- There are as many characters as are asked for, or as there are digits. -/
theorem length_unpack (order : DigitOrder) (count : Nat) (bs : Bytes) :
    (radix.unpack order count bs).1.length = min count (radix.perByte * bs.length) := by
  have enough : count ≤ radix.perByte * radix.byteCount count := by
    have split := Nat.div_add_mod (count + radix.perByte - 1) radix.perByte
    have left := Nat.mod_lt (count + radix.perByte - 1) radix.perByte_pos
    rw [byteCount]
    omega
  rw [unpack, List.length_map, List.length_take, length_ofBytes, List.length_take]
  rcases Nat.le_total (radix.byteCount count) bs.length with long | short
  · have more := Nat.mul_le_mul_left radix.perByte long
    rw [Nat.min_eq_left long]
    omega
  · rw [Nat.min_eq_right short]

/-- **Unpacked digits** are the characters of the digits, in order. -/
theorem getElem?_unpack (order : DigitOrder) (count : Nat) (bs : Bytes) (i : Nat) :
    (radix.unpack order count bs).1[i]? =
      if i < count then (radix.digitAt? order bs i).map digitChar else none := by
  rw [unpack, List.getElem?_map, List.getElem?_take]
  split
  · rename_i inside
    have covered : i / radix.perByte < radix.byteCount count := by
      rw [byteCount, Nat.div_lt_iff_lt_mul radix.perByte_pos]
      have split := Nat.div_add_mod (count + radix.perByte - 1) radix.perByte
      have left := Nat.mod_lt (count + radix.perByte - 1) radix.perByte_pos
      rw [Nat.mul_comm] at split
      omega
    rw [getElem?_ofBytes, digitAt?, digitAt?, List.getElem?_take_of_lt covered]
  · rfl

end DirectivePack.Radix
