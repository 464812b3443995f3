import Mathlib.Data.List.Induction
import Mathlib.Data.List.TakeWhile
import DirectivePack.Text.Numeral

/-!
Which texts are numbers.

Grammars of numerals, signs and decimal numbers, beside the readers of them.

* `digitsValue?_eq_some_iff`: digits are read as the number of which they are a numeral.
* `takeSign_iff`: a sign is taken off where what follows does not start with one.
* `exists_decimalOfText?_iff`: what is read as a decimal number is a sign, a mantissa and an exponent.
-/

namespace DirectivePack

/-! ### Digits -/

theorem toNat_toLower (c : Char) :
    c.toLower.toNat = if 0x41 ≤ c.toNat ∧ c.toNat ≤ 0x5A then c.toNat + 0x20 else c.toNat := by
  unfold Char.toLower
  have capital : (c.val ≥ 'A'.val ∧ c.val ≤ 'Z'.val) ↔ 0x41 ≤ c.toNat ∧ c.toNat ≤ 0x5A := by
    simp only [ge_iff_le, UInt32.le_iff_toNat_le]
    rfl
  by_cases is_capital : 0x41 ≤ c.toNat ∧ c.toNat ≤ 0x5A
  · have no_carry : c.toNat + 0x20 < 2 ^ 32 := by omega
    rw [dif_pos (capital.mpr is_capital), if_pos is_capital]
    show (c.val + ('a'.val - 'A'.val)).toNat = _
    rw [UInt32.toNat_add]
    exact Nat.mod_eq_of_lt no_carry
  · rw [dif_neg (capital.not.mpr is_capital), if_neg is_capital]

theorem toNat_digitChar :
    ∀ d < 16, (Nat.digitChar d).toNat = if d < 10 then 0x30 + d else 0x57 + d := by
  decide

/-- A digit character is worth what the digit of a number is, in either case. -/
theorem digitBelow?_eq_some_iff {base : Nat} (legible : base ≤ 16) {c : Char} {d : Nat} :
    digitBelow? base c = some d ↔ d < base ∧ c.toLower = Nat.digitChar d := by
  by_cases small : d < base
  · rw [← Char.toNat_inj, toNat_toLower, toNat_digitChar d (Nat.lt_of_lt_of_le small legible)]
    unfold digitBelow? digitValue?
    by_cases ascii : c.toNat < 0x80
    · have byte : (UInt8.ofNat c.toNat).toNat = c.toNat := by
        rw [UInt8.toNat_ofNat', Nat.mod_eq_of_lt (by omega)]
      rw [if_pos ascii, byte]
      grind
    · rw [if_neg ascii]
      grind
  · unfold digitBelow?
    grind

/-! ### Numerals -/

/-- A numeral of a number: leading zeros and the digits of the number, in either case. -/
def IsNumeral (base n : Nat) (text : List Char) : Prop :=
  ∃ zeros, text.map Char.toLower = List.replicate zeros '0' ++ Nat.toDigits base n

/-- The digits of a number, none for zero. -/
def significantDigits (base n : Nat) : List Char :=
  if n = 0 then [] else Nat.toDigits base n

theorem significantDigits_of_ne_zero {base n : Nat} (large : 1 < base) (nonzero : n ≠ 0) :
    significantDigits base n =
      significantDigits base (n / base) ++ [Nat.digitChar (n % base)] := by
  rw [significantDigits, if_neg nonzero]
  rcases Nat.lt_or_ge n base with single | more
  · rw [Nat.toDigits_of_lt_base single, Nat.div_eq_of_lt single, Nat.mod_eq_of_lt single]
    rfl
  · have quotient : n / base ≠ 0 := Nat.div_ne_zero_iff.mpr ⟨by omega, more⟩
    rw [Nat.toDigits_of_base_le large more, significantDigits, if_neg quotient]

/-- The last digit with leading zeros. -/
theorem exists_zeros_concat_iff {base n : Nat} (large : 1 < base) {text : List Char} {c : Char} :
    (∃ zeros, text ++ [c] = List.replicate zeros '0' ++ significantDigits base n) ↔
      (∃ zeros, text = List.replicate zeros '0' ++ significantDigits base (n / base)) ∧
        c = Nat.digitChar (n % base) := by
  by_cases zero : n = 0
  · have none_left : significantDigits base 0 = [] := rfl
    simp only [zero, Nat.zero_div, Nat.zero_mod, none_left, List.append_nil]
    constructor
    · rintro ⟨zeros, split⟩
      cases zeros with
      | zero => simp at split
      | succ zeros =>
        rw [List.replicate_succ'] at split
        obtain ⟨others, last⟩ := List.append_inj' split rfl
        exact ⟨⟨zeros, others⟩, List.singleton_inj.mp last⟩
    · rintro ⟨⟨zeros, rfl⟩, rfl⟩
      exact ⟨zeros + 1, List.replicate_succ'.symm⟩
  · rw [significantDigits_of_ne_zero large zero]
    constructor
    · rintro ⟨zeros, split⟩
      rw [← List.append_assoc] at split
      obtain ⟨others, last⟩ := List.append_inj' split rfl
      exact ⟨⟨zeros, others⟩, List.singleton_inj.mp last⟩
    · rintro ⟨⟨zeros, rfl⟩, rfl⟩
      exact ⟨zeros, List.append_assoc ..⟩

theorem exists_zeros_toDigits_iff {base n : Nat} {text : List Char} (nonempty : text ≠ []) :
    (∃ zeros, text = List.replicate zeros '0' ++ significantDigits base n) ↔
      ∃ zeros, text = List.replicate zeros '0' ++ Nat.toDigits base n := by
  unfold significantDigits
  split
  · rename_i zero
    rw [zero, Nat.toDigits_zero]
    constructor
    · rintro ⟨zeros, rfl⟩
      cases zeros with
      | zero => exact absurd rfl nonempty
      | succ zeros => exact ⟨zeros, by rw [List.append_nil, List.replicate_succ']⟩
    · rintro ⟨zeros, rfl⟩
      exact ⟨zeros + 1, by rw [List.append_nil, List.replicate_succ']⟩
  · rfl

theorem appendDigit?_eq_some_iff {base n : Nat} {sofar : Option Nat} {c : Char} :
    appendDigit? base sofar c = some n ↔
      ∃ m d, sofar = some m ∧ digitBelow? base c = some d ∧ base * m + d = n := by
  cases sofar with
  | none => simp [appendDigit?]
  | some m => cases value : digitBelow? base c <;> simp [appendDigit?, value]

section Base

variable {base n : Nat} (large : 1 < base) (legible : base ≤ 16)

include large legible

theorem foldl_appendDigit?_eq_some_iff {text : List Char} :
    text.foldl (appendDigit? base) (some 0) = some n ↔
      ∃ zeros, text.map Char.toLower = List.replicate zeros '0' ++ significantDigits base n := by
  induction text using List.reverseRecOn generalizing n with
  | nil =>
    constructor
    · rintro ⟨⟩
      exact ⟨0, rfl⟩
    · rintro ⟨zeros, empty⟩
      obtain ⟨-, none_left⟩ := List.append_eq_nil_iff.mp empty.symm
      by_cases zero : n = 0
      · rw [zero]
        rfl
      · rw [significantDigits_of_ne_zero large zero] at none_left
        simp at none_left
  | append_singleton text c ih =>
    rw [List.foldl_append, List.foldl_cons, List.foldl_nil, appendDigit?_eq_some_iff,
      List.map_append, List.map_singleton, exists_zeros_concat_iff large]
    constructor
    · rintro ⟨m, d, read, last, rfl⟩
      obtain ⟨small, same⟩ := (digitBelow?_eq_some_iff legible).mp last
      rw [Nat.mul_add_div (by omega), Nat.div_eq_of_lt small, Nat.add_zero, Nat.mul_add_mod,
        Nat.mod_eq_of_lt small]
      exact ⟨ih.mp read, same⟩
    · rintro ⟨others, last⟩
      exact ⟨n / base, n % base, ih.mpr others,
        (digitBelow?_eq_some_iff legible).mpr ⟨Nat.mod_lt n (by omega), last⟩,
        Nat.div_add_mod n base⟩

/-- **Digits** are read as the number of which they are a numeral. -/
theorem digitsValue?_eq_some_iff {text : List Char} :
    digitsValue? base text = some n ↔ IsNumeral base n text := by
  cases text with
  | nil =>
    constructor
    · rintro ⟨⟩
    · rintro ⟨zeros, empty⟩
      obtain ⟨-, none_left⟩ := List.append_eq_nil_iff.mp empty.symm
      exact absurd none_left Nat.toDigits_ne_nil
  | cons c text =>
    have nonempty : (c :: text).map Char.toLower ≠ [] := List.cons_ne_nil _ _
    rw [IsNumeral, ← exists_zeros_toDigits_iff nonempty]
    exact foldl_appendDigit?_eq_some_iff large legible

end Base

/-- Some digits to a base, and no other characters. -/
def IsDigits (base : Nat) (text : List Char) : Prop :=
  text ≠ [] ∧ ∀ c ∈ text, ∃ d < base, c.toLower = Nat.digitChar d

theorem exists_digitBelow?_iff {base : Nat} (legible : base ≤ 16) {c : Char} :
    (∃ d, digitBelow? base c = some d) ↔ ∃ d < base, c.toLower = Nat.digitChar d := by
  simp only [digitBelow?_eq_some_iff legible]

theorem exists_foldl_appendDigit?_iff {base : Nat} (legible : base ≤ 16) {text : List Char} :
    (∃ n, text.foldl (appendDigit? base) (some 0) = some n) ↔
      ∀ c ∈ text, ∃ d < base, c.toLower = Nat.digitChar d := by
  induction text using List.reverseRecOn with
  | nil => simp
  | append_singleton text c ih =>
    rw [List.forall_mem_append, ← ih, List.forall_mem_singleton, ← exists_digitBelow?_iff legible]
    simp only [List.foldl_append, List.foldl_cons, List.foldl_nil, appendDigit?_eq_some_iff]
    constructor
    · rintro ⟨_, m, d, read, last, rfl⟩
      exact ⟨⟨m, read⟩, d, last⟩
    · rintro ⟨⟨m, read⟩, d, last⟩
      exact ⟨_, m, d, read, last, rfl⟩

/-- Digits are read as some number. -/
theorem exists_digitsValue?_iff {base : Nat} (legible : base ≤ 16) {text : List Char} :
    (∃ n, digitsValue? base text = some n) ↔ IsDigits base text := by
  cases text with
  | nil => simp [digitsValue?, IsDigits]
  | cons c text =>
    rw [IsDigits, ← exists_foldl_appendDigit?_iff legible]
    simp [digitsValue?]

theorem IsNumeral.isDigits {base n : Nat} (large : 1 < base) (legible : base ≤ 16)
    {text : List Char} (numeral : IsNumeral base n text) : IsDigits base text :=
  (exists_digitsValue?_iff legible).mp ⟨n, (digitsValue?_eq_some_iff large legible).mpr numeral⟩

/-- The decimal digits are the same in either case. -/
theorem isDigit_iff {c : Char} : isDigit c = true ↔ ∃ d < 10, c.toLower = Nat.digitChar d := by
  have range : isDigit c = true ↔ 0x30 ≤ c.toNat ∧ c.toNat ≤ 0x39 := by
    simp only [isDigit, Bool.and_eq_true, decide_eq_true_eq, Char.le_def, UInt32.le_iff_toNat_le]
    rfl
  rw [range]
  constructor
  · rintro ⟨least, greatest⟩
    refine ⟨c.toNat - 0x30, by omega, ?_⟩
    rw [← Char.toNat_inj, toNat_toLower, toNat_digitChar _ (by omega), if_neg (by omega),
      if_pos (by omega)]
    omega
  · rintro ⟨d, small, same⟩
    rw [← Char.toNat_inj, toNat_toLower, toNat_digitChar _ (by omega)] at same
    split at same <;> omega

/-- The digits stand behind the signs. -/
theorem least_of_digit {base : Nat} (legible : base ≤ 16) {c : Char}
    (digit : ∃ d < base, c.toLower = Nat.digitChar d) : 0x30 ≤ c.toNat := by
  obtain ⟨d, small, same⟩ := digit
  rw [← Char.toNat_inj, toNat_toLower, toNat_digitChar _ (by omega)] at same
  split at same <;> split at same <;> omega

theorem isDigits_ten_iff {text : List Char} :
    IsDigits 10 text ↔ text ≠ [] ∧ ∀ c ∈ text, isDigit c = true := by
  simp only [IsDigits, isDigit_iff]

theorem IsDigits.exists_cons {digits : List Char} (are_digits : IsDigits 10 digits) :
    ∃ c rest, digits = c :: rest ∧ isDigit c = true := by
  obtain ⟨nonempty, each⟩ := isDigits_ten_iff.mp are_digits
  obtain ⟨c, rest, rfl⟩ := List.exists_cons_of_ne_nil nonempty
  exact ⟨c, rest, rfl, each c (.head _)⟩

theorem toDigits_injective : Function.Injective (Nat.toDigits 10) := by
  have back : Function.LeftInverse (fun digits => Nat.ofDigitChars 10 digits 0) (Nat.toDigits 10) :=
    fun _ => Nat.ofDigitChars_ten_toDigits
  exact back.injective

/-- A number is displayed as its decimal numeral. -/
theorem isNumeral_repr (n : Nat) : IsNumeral 10 n n.repr.toList := by
  refine ⟨0, ?_⟩
  have lower : ∀ c ∈ Nat.toDigits 10 n, c.toLower = id c := by
    intro c member
    have digit := Nat.isDigit_of_mem_toDigits (by decide) (by decide) member
    have not_capital : c.toNat ≤ 0x39 := by
      simp only [Char.isDigit, Bool.and_eq_true, decide_eq_true_eq, UInt32.le_iff_toNat_le] at digit
      exact digit.2
    rw [← Char.toNat_inj, toNat_toLower, if_neg (by omega), id]
  rw [Nat.repr_eq_ofList_toDigits, String.toList_ofList, List.map_congr_left lower, List.map_id]
  rfl

/-! ### Signs -/

/-- An optional sign, and whether it is negative. -/
inductive IsSign : Bool → List Char → Prop
  | absent : IsSign false []
  | plus : IsSign false ['+']
  | minus : IsSign true ['-']

/-- Whether a text does not start with a sign. -/
def IsUnsigned (text : List Char) : Prop :=
  ∀ c ∈ text.head?, c ≠ '+' ∧ c ≠ '-'

theorem takeSign_append {negative : Bool} {sign body : List Char} (is_sign : IsSign negative sign)
    (unsigned : IsUnsigned body) : takeSign (sign ++ body) = (negative, body) := by
  cases is_sign with
  | plus | minus => rfl
  | absent =>
    rw [List.nil_append, takeSign]
    · rintro rest rfl
      exact (unsigned '-' rfl).2 rfl
    · rintro rest rfl
      exact (unsigned '+' rfl).1 rfl

theorem exists_sign (text : List Char) :
    ∃ sign, IsSign (takeSign text).1 sign ∧ text = sign ++ (takeSign text).2 := by
  unfold takeSign
  split
  · exact ⟨_, .minus, rfl⟩
  · exact ⟨_, .plus, rfl⟩
  · exact ⟨_, .absent, rfl⟩

/-- What holds of a sign and the text behind it, if that does not start with a sign again. -/
theorem takeSign_iff {holds : Bool → List Char → Prop}
    (unsigned : ∀ negative body, holds negative body → IsUnsigned body) {text : List Char} :
    holds (takeSign text).1 (takeSign text).2 ↔
      ∃ negative sign body, IsSign negative sign ∧ text = sign ++ body ∧ holds negative body := by
  constructor
  · intro held
    obtain ⟨sign, is_sign, split⟩ := exists_sign text
    exact ⟨_, sign, _, is_sign, split, held⟩
  · rintro ⟨negative, sign, body, is_sign, rfl, held⟩
    rwa [takeSign_append is_sign (unsigned negative body held)]

theorem IsDigits.isUnsigned {base : Nat} (legible : base ≤ 16) {digits : List Char}
    (are_digits : IsDigits base digits) : IsUnsigned digits := by
  intro c first
  have least := least_of_digit legible (are_digits.2 c (List.mem_of_mem_head? first))
  constructor
  · rintro rfl
    exact absurd least (by decide)
  · rintro rfl
    exact absurd least (by decide)

/-! ### Decimal numbers -/

/-- Digits with an optional point, at least one digit. -/
inductive IsMantissa : List Char → Prop
  | whole {digits : List Char} (are_digits : IsDigits 10 digits) : IsMantissa digits
  | pointed {digits fraction : List Char} (are_digits : IsDigits 10 digits)
      (optional : fraction = [] ∨ IsDigits 10 fraction) : IsMantissa (digits ++ '.' :: fraction)
  | fraction {fraction : List Char} (are_digits : IsDigits 10 fraction) :
      IsMantissa ('.' :: fraction)

/-- An optional exponent: `e` with an optional sign and digits. -/
inductive IsExponent : List Char → Prop
  | absent : IsExponent []
  | present {mark : Char} {negative : Bool} {sign digits : List Char}
      (is_mark : mark = 'e' ∨ mark = 'E') (is_sign : IsSign negative sign)
      (are_digits : IsDigits 10 digits) : IsExponent (mark :: (sign ++ digits))

/-- A mantissa and an optional exponent. -/
def IsUnsignedDecimal (text : List Char) : Prop :=
  ∃ mantissa exponent, IsMantissa mantissa ∧ IsExponent exponent ∧ text = mantissa ++ exponent

/-- A decimal number: an optional sign, a mantissa and an optional exponent. -/
def IsDecimal (text : List Char) : Prop :=
  ∃ negative sign body, IsSign negative sign ∧ text = sign ++ body ∧ IsUnsignedDecimal body

theorem exists_exponentOfText?_iff {text : List Char} :
    (∃ exponent, exponentOfText? text = some exponent) ↔ IsExponent text := by
  have signed_digits (rest : List Char) : (∃ n, digitsValue? 10 (takeSign rest).2 = some n) ↔
      ∃ negative sign digits, IsSign negative sign ∧ rest = sign ++ digits ∧ IsDigits 10 digits := by
    rw [exists_digitsValue?_iff (by decide)]
    apply @takeSign_iff fun _ => IsDigits 10
    intro negative digits are_digits
    exact are_digits.isUnsigned (by decide)
  cases text with
  | nil =>
    constructor
    · intro _
      exact .absent
    · intro _
      exact ⟨_, rfl⟩
  | cons mark rest =>
    constructor
    · rintro ⟨exponent, read⟩
      rw [exponentOfText?] at read
      split at read
      · rename_i is_mark
        dsimp only at read
        split at read
        · rename_i n digits_read
          obtain ⟨negative, sign, digits, is_sign, rfl, are_digits⟩ :=
            (signed_digits rest).mp ⟨n, digits_read⟩
          exact .present is_mark is_sign are_digits
        · cases read
      · cases read
    · rintro (_ | ⟨is_mark, is_sign, are_digits⟩)
      obtain ⟨n, read⟩ := (signed_digits _).mpr ⟨_, _, _, is_sign, rfl, are_digits⟩
      rw [exponentOfText?, if_pos is_mark]
      dsimp only
      rw [read]
      exact ⟨_, rfl⟩

/-- What ends a mantissa. -/
theorem IsExponent.stops {text : List Char} (is_exponent : IsExponent text) :
    ∀ c ∈ text.head?, isDigit c = false ∧ c ≠ '.' := by
  cases is_exponent with
  | absent => simp
  | present is_mark =>
    rintro c ⟨⟩
    rcases is_mark with rfl | rfl
    · decide
    · decide

theorem takeWhile_isDigit_append {digits rest : List Char}
    (are_digits : ∀ c ∈ digits, isDigit c = true) (stops : ∀ c ∈ rest.head?, isDigit c = false) :
    (digits ++ rest).takeWhile isDigit = digits ∧ (digits ++ rest).dropWhile isDigit = rest := by
  rw [List.takeWhile_append_of_pos are_digits, List.dropWhile_append_of_pos are_digits]
  cases rest with
  | nil => simp
  | cons c rest => simp [stops c rfl]

section Mantissa

variable {digits fraction rest : List Char} (are_digits : ∀ c ∈ digits, isDigit c = true)

include are_digits

theorem takeMantissa_whole (stops : ∀ c ∈ rest.head?, isDigit c = false ∧ c ≠ '.') :
    takeMantissa (digits ++ rest) = (digits, [], rest) := by
  obtain ⟨taken, left⟩ := takeWhile_isDigit_append are_digits fun c first => (stops c first).1
  rw [takeMantissa, taken, left]
  split
  · rename_i pointed
    exact absurd rfl (stops '.' rfl).2
  · rfl

theorem takeMantissa_pointed (are_fraction : ∀ c ∈ fraction, isDigit c = true)
    (stops : ∀ c ∈ rest.head?, isDigit c = false) :
    takeMantissa (digits ++ '.' :: (fraction ++ rest)) = (digits, fraction, rest) := by
  obtain ⟨taken, left⟩ := @takeWhile_isDigit_append digits ('.' :: (fraction ++ rest)) are_digits
    (by rintro c ⟨⟩; decide)
  obtain ⟨taken_fraction, left_fraction⟩ := takeWhile_isDigit_append are_fraction stops
  simp only [takeMantissa, taken, left, taken_fraction, left_fraction]

end Mantissa

/-- A text is put together from the parts that are taken. -/
theorem exists_takeMantissa (text : List Char) :
    ∃ whole fraction rest, takeMantissa text = (whole, fraction, rest) ∧
      (∀ c ∈ whole, isDigit c = true) ∧ (∀ c ∈ fraction, isDigit c = true) ∧
      (text = whole ++ rest ∧ fraction = [] ∨ text = whole ++ '.' :: (fraction ++ rest)) := by
  have split_whole := List.takeWhile_append_dropWhile (p := isDigit) (l := text)
  unfold takeMantissa
  split
  · rename_i rest left
    refine ⟨_, _, _, rfl, fun c => List.mem_takeWhile_imp, fun c => List.mem_takeWhile_imp,
      .inr ?_⟩
    rw [List.takeWhile_append_dropWhile, ← left, split_whole]
  · refine ⟨_, _, _, rfl, fun c => List.mem_takeWhile_imp, by simp, .inl ⟨split_whole.symm, rfl⟩⟩

theorem isUnsignedDecimal_iff {text : List Char} :
    IsUnsignedDecimal text ↔ ∃ whole fraction rest, takeMantissa text = (whole, fraction, rest) ∧
      IsDigits 10 (whole ++ fraction) ∧ IsExponent rest := by
  constructor
  · rintro ⟨mantissa, exponent, is_mantissa, is_exponent, rfl⟩
    have stops := is_exponent.stops
    have stops_fraction : ∀ c ∈ exponent.head?, isDigit c = false :=
      fun c first => (stops c first).1
    cases is_mantissa with
    | whole are_digits =>
      refine ⟨_, _, _, takeMantissa_whole (isDigits_ten_iff.mp are_digits).2 stops, ?_, is_exponent⟩
      rwa [List.append_nil]
    | @pointed digits fraction are_digits optional =>
      obtain ⟨nonempty, each⟩ := isDigits_ten_iff.mp are_digits
      have are_fraction : ∀ c ∈ fraction, isDigit c = true := by
        rcases optional with rfl | are_digits
        · simp
        · exact (isDigits_ten_iff.mp are_digits).2
      rw [List.append_assoc]
      exact ⟨_, _, _, takeMantissa_pointed each are_fraction stops_fraction,
        isDigits_ten_iff.mpr ⟨by simp [nonempty], List.forall_mem_append.mpr ⟨each, are_fraction⟩⟩,
        is_exponent⟩
    | fraction are_digits =>
      exact ⟨[], _, _, @takeMantissa_pointed [] _ _ (by simp) (isDigits_ten_iff.mp are_digits).2
        stops_fraction, are_digits, is_exponent⟩
  · rintro ⟨whole, fraction, rest, taken, are_digits, is_exponent⟩
    obtain ⟨_, _, _, same, are_whole, are_fraction, split⟩ := exists_takeMantissa text
    obtain ⟨rfl, rfl, rfl⟩ : _ ∧ _ ∧ _ := by simpa using taken.symm.trans same
    rcases split with ⟨rfl, rfl⟩ | rfl
    · rw [List.append_nil] at are_digits
      exact ⟨_, _, .whole are_digits, is_exponent, rfl⟩
    · by_cases bare : whole = []
      · rw [bare] at are_digits ⊢
        exact ⟨_, _, .fraction are_digits, is_exponent, rfl⟩
      · have optional : fraction = [] ∨ IsDigits 10 fraction :=
          (em (fraction = [])).imp_right fun nonempty =>
            isDigits_ten_iff.mpr ⟨nonempty, are_fraction⟩
        refine ⟨_, _, .pointed (isDigits_ten_iff.mpr ⟨bare, are_whole⟩) optional, is_exponent, ?_⟩
        rw [List.append_assoc, List.cons_append]

/-- A decimal number starts with a digit or a point, behind its sign. -/
theorem IsUnsignedDecimal.exists_cons {text : List Char} (decimal : IsUnsignedDecimal text) :
    ∃ c rest, text = c :: rest ∧ (isDigit c = true ∨ c = '.') := by
  obtain ⟨mantissa, exponent, is_mantissa, -, rfl⟩ := decimal
  cases is_mantissa with
  | whole are_digits =>
    obtain ⟨c, rest, rfl, digit⟩ := are_digits.exists_cons
    exact ⟨c, _, rfl, .inl digit⟩
  | pointed are_digits =>
    obtain ⟨c, rest, rfl, digit⟩ := are_digits.exists_cons
    exact ⟨c, _, rfl, .inl digit⟩
  | fraction => exact ⟨'.', _, rfl, .inr rfl⟩

theorem IsUnsignedDecimal.isUnsigned {text : List Char} (decimal : IsUnsignedDecimal text) :
    IsUnsigned text := by
  obtain ⟨c, rest, rfl, starts⟩ := decimal.exists_cons
  rintro _ ⟨⟩
  constructor
  · rintro rfl
    revert starts
    decide
  · rintro rfl
    revert starts
    decide

/-- **A decimal number** is a sign, a mantissa and an exponent, and nothing else is. -/
theorem exists_decimalOfText?_iff {text : List Char} :
    (∃ x, decimalOfText? text = some x) ↔ IsDecimal text := by
  rw [IsDecimal, ← @takeSign_iff (fun _ => IsUnsignedDecimal) fun _ _ decimal => decimal.isUnsigned,
    isUnsignedDecimal_iff]
  simp only [← exists_exponentOfText?_iff, ← exists_digitsValue?_iff (by decide : 10 ≤ 16)]
  constructor
  · rintro ⟨x, read⟩
    unfold decimalOfText? at read
    dsimp only at read
    split at read
    · rename_i digits exponent digits_read exponent_read
      exact ⟨_, _, _, rfl, ⟨digits, digits_read⟩, exponent, exponent_read⟩
    · cases read
  · rintro ⟨whole, fraction, rest, taken, ⟨digits, digits_read⟩, exponent, exponent_read⟩
    simp only [decimalOfText?, taken, digits_read, exponent_read]
    exact ⟨_, rfl⟩

/-- A decimal integer is a decimal number as well. -/
theorem decimalOfText?_of_isNumeral {negative : Bool} {sign digits : List Char} {n : Nat}
    (is_sign : IsSign negative sign) (numeral : IsNumeral 10 n digits) :
    decimalOfText? (sign ++ digits) = some (.ofDecimal negative n 0) := by
  have are_digits := numeral.isDigits (by decide) (by decide)
  have taken := @takeMantissa_whole digits [] (isDigits_ten_iff.mp are_digits).2 (by simp)
  have read := (digitsValue?_eq_some_iff (by decide) (by decide)).mpr numeral
  rw [List.append_nil] at taken
  simp only [decimalOfText?, takeSign_append is_sign (are_digits.isUnsigned (by decide)), taken,
    List.append_nil, read, exponentOfText?]
  rfl

/-- A text with the mark of the base 16 is none. -/
theorem decimalOfText?_hexadecimal {negative : Bool} {sign digits : List Char} {x : Char}
    (is_sign : IsSign negative sign) (is_mark : x = 'x' ∨ x = 'X') :
    decimalOfText? (sign ++ '0' :: x :: digits) = none := by
  have unsigned : IsUnsigned ('0' :: x :: digits) := by
    rintro _ ⟨⟩
    decide
  have taken : takeMantissa ('0' :: x :: digits) = (['0'], [], x :: digits) := by
    apply @takeMantissa_whole ['0'] (x :: digits) (List.forall_mem_singleton.mpr rfl)
    rintro _ ⟨⟩
    rcases is_mark with rfl | rfl <;> decide
  have no_exponent : exponentOfText? (x :: digits) = none := by
    rcases is_mark with rfl | rfl <;> rfl
  simp only [decimalOfText?, takeSign_append is_sign unsigned, taken, no_exponent]
  rfl

end DirectivePack
