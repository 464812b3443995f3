import DirectivePack.Argument
import DirectivePack.Proofs.Digits.HexTexts
import DirectivePack.Proofs.Float.Conversions

/-!
What arguments stand for.

* `integerOfText?_eq_some_iff`: the integers that are read are those whose magnitude is below
  `2 ^ 127`, written with an optional sign.
* `doubleOfText?_of_looksNumeric`: of what is read as a double, only decimal numbers look numeric.
* `arguments_classified`: which arguments are integers, doubles, bytes and text.
* `integers_read`: every integer of 128 bits is read from its text, but for the least one.
-/

namespace DirectivePack

/-! ### Integers -/

/-- The magnitude of an integer: decimal digits, or digits to the base 16 after `0x` or `0X`. -/
inductive IsMagnitude (m : Nat) : List Char → Prop
  | decimal {digits : List Char} (numeral : IsNumeral 10 m digits) : IsMagnitude m digits
  | hexadecimal {x : Char} {digits : List Char} (is_mark : x = 'x' ∨ x = 'X')
      (numeral : IsNumeral 16 m digits) : IsMagnitude m ('0' :: x :: digits)

/-- A text for an integer: an optional sign and the magnitude. -/
def SpellsInteger (n : Int) (text : List Char) : Prop :=
  ∃ negative sign body, IsSign negative sign ∧ text = sign ++ body ∧
    ∃ m, IsMagnitude m body ∧ n = if negative then -(m : Int) else m

theorem magnitudeOfText?_eq_some_iff {m : Nat} {text : List Char} :
    magnitudeOfText? text = some m ↔ IsMagnitude m text := by
  have hexadecimal {n : Nat} {digits : List Char} :
      digitsValue? 16 digits = some n ↔ IsNumeral 16 n digits :=
    digitsValue?_eq_some_iff (by decide) (by decide)
  have decimal {n : Nat} {digits : List Char} :
      digitsValue? 10 digits = some n ↔ IsNumeral 10 n digits :=
    digitsValue?_eq_some_iff (by decide) (by decide)
  constructor
  · intro read
    unfold magnitudeOfText? at read
    split at read
    · exact .hexadecimal (.inl rfl) (hexadecimal.mp read)
    · exact .hexadecimal (.inr rfl) (hexadecimal.mp read)
    · exact .decimal (decimal.mp read)
  · rintro (numeral | ⟨rfl | rfl, numeral⟩)
    · have digits := (isDigits_ten_iff.mp (numeral.isDigits (by decide) (by decide))).2
      unfold magnitudeOfText?
      split
      · exact absurd (digits 'x' (by simp)) (by decide)
      · exact absurd (digits 'X' (by simp)) (by decide)
      · exact decimal.mpr numeral
    · exact hexadecimal.mpr numeral
    · exact hexadecimal.mpr numeral

theorem IsMagnitude.isUnsigned {m : Nat} {text : List Char} (magnitude : IsMagnitude m text) :
    IsUnsigned text := by
  cases magnitude with
  | decimal numeral => exact (numeral.isDigits (by decide) (by decide)).isUnsigned (by decide)
  | hexadecimal =>
    rintro _ ⟨⟩
    decide

theorem spellsInteger_iff {n : Int} {text : List Char} :
    SpellsInteger n text ↔ ∃ m, magnitudeOfText? (takeSign text).2 = some m ∧
      n = if (takeSign text).1 then -(m : Int) else m := by
  simp only [magnitudeOfText?_eq_some_iff]
  symm
  apply @takeSign_iff fun negative body =>
    ∃ m, IsMagnitude m body ∧ n = if negative then -(m : Int) else m
  rintro negative body ⟨m, magnitude, -⟩
  exact magnitude.isUnsigned

/-- Just the integers with a magnitude below `2 ^ 127` are read. -/
theorem integerOfText?_eq_some_iff {n : Int} {text : List Char} :
    integerOfText? text = some n ↔ SpellsInteger n text ∧ n.natAbs < 2 ^ 127 := by
  have natAbs_signed (negative : Bool) (m : Nat) :
      (if negative then -(m : Int) else m).natAbs = m := by
    cases negative <;> simp
  rw [spellsInteger_iff]
  cases magnitude : magnitudeOfText? (takeSign text).2 with
  | none => simp [integerOfText?, magnitude]
  | some m =>
    simp only [integerOfText?, magnitude, Option.some.injEq, exists_eq_left']
    by_cases small : m < Nat.pow 2 127
    · rw [if_pos small, Option.some.injEq]
      constructor
      · rintro rfl
        exact ⟨rfl, by rwa [natAbs_signed]⟩
      · rintro ⟨rfl, -⟩
        rfl
    · rw [if_neg small]
      simp only [reduceCtorEq, false_iff, not_and]
      rintro rfl
      rwa [natAbs_signed]

theorem SpellsInteger.unique {m n : Int} {text : List Char} (left : SpellsInteger m text)
    (right : SpellsInteger n text) : m = n := by
  obtain ⟨magnitude, read, rfl⟩ := spellsInteger_iff.mp left
  obtain ⟨other, also_read, rfl⟩ := spellsInteger_iff.mp right
  obtain rfl := Option.some.inj (read.symm.trans also_read)
  rfl

/-- A text for an integer with a greater magnitude is no integer. -/
theorem SpellsInteger.integerOfText?_eq_none {n : Int} {text : List Char}
    (spelled : SpellsInteger n text) (great : 2 ^ 127 ≤ n.natAbs) : integerOfText? text = none := by
  rw [Option.eq_none_iff_forall_ne_some]
  intro m read
  obtain ⟨other, small⟩ := integerOfText?_eq_some_iff.mp read
  rw [other.unique spelled] at small
  exact absurd small (Nat.not_lt.mpr great)

/-! ### Doubles -/

theorem looksNumeric_takeSign (text : List Char) :
    looksNumeric (takeSign text).2 = looksNumeric text := by
  unfold takeSign
  split
  · rfl
  · rfl
  · rfl

/-- Without a sign, the first character decides. -/
theorem looksNumeric_cons {c : Char} {rest : List Char} (unsigned : IsUnsigned (c :: rest)) :
    looksNumeric (c :: rest) = (isDigit c || c == '.') := by
  obtain ⟨not_plus, not_minus⟩ := unsigned c rfl
  simp [looksNumeric, not_plus, not_minus]

theorem IsDecimal.looksNumeric {text : List Char} (decimal : IsDecimal text) :
    looksNumeric text = true := by
  obtain ⟨negative, sign, body, is_sign, rfl, decimal⟩ := decimal
  have unsigned := decimal.isUnsigned
  obtain ⟨c, rest, rfl, starts⟩ := decimal.exists_cons
  rw [← looksNumeric_takeSign, takeSign_append is_sign unsigned, looksNumeric_cons unsigned]
  simpa using starts

theorem looksNumeric_of_letter {c : Char} {rest : List Char}
    (letter : c.toLower = 'i' ∨ c.toLower = 'n') : looksNumeric (c :: rest) = false := by
  have not_own {other : Char} (self : other.toLower = other) (others : other ≠ 'i' ∧ other ≠ 'n') :
      c ≠ other := by
    rintro rfl
    rw [self] at letter
    exact letter.elim others.1 others.2
  have no_digit : ∀ d < 10, Nat.digitChar d ≠ 'i' ∧ Nat.digitChar d ≠ 'n' := by decide
  have unsigned : IsUnsigned (c :: rest) := by
    rintro _ ⟨⟩
    exact ⟨not_own rfl (by decide), not_own rfl (by decide)⟩
  have not_digit : isDigit c = false := by
    rw [Bool.eq_false_iff]
    intro digit
    obtain ⟨d, small, same⟩ := isDigit_iff.mp digit
    rw [same] at letter
    exact letter.elim (no_digit d small).1 (no_digit d small).2
  rw [looksNumeric_cons unsigned, not_digit, Bool.false_or, beq_eq_false_iff_ne]
  exact not_own rfl (by decide)

/-- The words for infinities and NaNs do not look like numbers. -/
theorem magnitudeOfWord?_of_looksNumeric {word : List Char} (looks : looksNumeric word = true) :
    magnitudeOfWord? word = none := by
  cases word with
  | nil => cases looks
  | cons c rest =>
    have no_word {first : Char} {others : List Char} (letter : first = 'i' ∨ first = 'n') :
        (c :: rest).map Char.toLower ≠ first :: others := by
      intro same
      rw [List.map_cons, List.cons.injEq] at same
      rw [looksNumeric_of_letter (by rwa [same.1])] at looks
      cases looks
    rw [magnitudeOfWord?, if_neg, if_neg]
    · exact no_word (.inr rfl)
    · rintro (inf | infinity)
      · exact no_word (.inl rfl) inf
      · exact no_word (.inl rfl) infinity

theorem doubleOfText?_of_looksNumeric (text : List Char) :
    (if looksNumeric text then doubleOfText? text else none) = decimalOfText? text := by
  by_cases looks : looksNumeric text = true
  · have no_word : magnitudeOfWord? (takeSign text).2 = none := by
      apply magnitudeOfWord?_of_looksNumeric
      rwa [looksNumeric_takeSign]
    rw [if_pos looks, doubleOfText?]
    simp only [no_word]
  · rw [if_neg looks]
    symm
    rw [Option.eq_none_iff_forall_ne_some]
    intro x read
    exact looks (exists_decimalOfText?_iff.mp ⟨x, read⟩).looksNumeric

theorem isNaN_of_decimalOfText? {text : List Char} {x : Binary64}
    (read : decimalOfText? text = some x) : x.isNaN = false := by
  unfold decimalOfText? at read
  dsimp only at read
  split at read
  · obtain rfl := Option.some.inj read
    exact Binary64.isNaN_ofDecimal ..
  · cases read

/-! ### Arguments -/

theorem afterMark?_eq_some_iff {mark text rest : List Char} :
    afterMark? mark text = some rest ↔ text = mark ++ rest := by
  rw [afterMark?]
  split
  · rename_i marked
    obtain ⟨others, rfl⟩ := List.isPrefixOf_iff_prefix.mp marked
    simp
  · rename_i unmarked
    simp only [reduceCtorEq, false_iff]
    rintro rfl
    exact unmarked (by simp)

theorem afterMark?_eq_none_iff {mark text : List Char} :
    afterMark? mark text = none ↔ ¬ mark <+: text := by
  rw [Option.eq_none_iff_forall_ne_some]
  simp only [ne_eq, afterMark?_eq_some_iff, ← not_exists, List.IsPrefix, eq_comm]

theorem exists_eq_append_iff {s mark : String} :
    (∃ rest, s = mark ++ rest) ↔ mark.toList <+: s.toList := by
  constructor
  · rintro ⟨rest, rfl⟩
    exact ⟨rest.toList, String.toList_append.symm⟩
  · rintro ⟨rest, split⟩
    exact ⟨String.ofList rest, String.toList_inj.mp (by simp [split])⟩

namespace Value

/-- Behind the mark for text, whatever is there is text. -/
theorem ofArgument_str (rest : String) :
    ofArgument ("str:" ++ rest) = .ok (.bytes (Utf8.encode rest)) := by
  have split : "str:" ++ rest = String.ofList ("str:".toList ++ rest.toList) := by
    rw [String.ofList_append, String.ofList_toList, String.ofList_toList]
  rw [split, ofArgument_text, String.ofList_toList]
  rfl

/-- Behind the mark for digits, bytes are read if the digits are those of the bytes. -/
theorem ofArgument_hex_eq_ok_iff {digits : String} {v : Value} :
    ofArgument ("hex:" ++ digits) = .ok v ↔
      ∃ bs, digits.toList.map Char.toLower = hexDigits bs ∧ v = .bytes bs := by
  have no_text : afterMark? "str:".toList ("hex:".toList ++ digits.toList) = none := rfl
  have marked : afterMark? "hex:".toList ("hex:".toList ++ digits.toList) = some digits.toList :=
    afterMark?_eq_some_iff.mpr rfl
  simp only [ofArgument, String.toList_append, no_text, marked, ← Hex.decode_encode_eq_ok_iff]
  cases Hex.decode (Utf8.encode (String.ofList digits.toList)) <;> simp [eq_comm]

/-- Without a mark, an argument always stands for a value. -/
theorem ofArgument_unmarked {argument : String} (no_text : ∀ rest, argument ≠ "str:" ++ rest)
    (no_digits : ∀ rest, argument ≠ "hex:" ++ rest) :
    ofArgument argument = .ok (.ofUnmarked argument) := by
  have unmarked {mark : String} (no_mark : ∀ rest, argument ≠ mark ++ rest) :
      afterMark? mark.toList argument.toList = none :=
    afterMark?_eq_none_iff.mpr fun marked => (exists_eq_append_iff.mpr marked).elim no_mark
  simp only [ofArgument, unmarked no_text, unmarked no_digits]

theorem ofUnmarked_eq_integer_iff {argument : String} {n : Int} :
    ofUnmarked argument = .integer n ↔ integerOfText? argument.toList = some n := by
  simp only [ofUnmarked, doubleOfText?_of_looksNumeric]
  cases integerOfText? argument.toList with
  | some m => simp
  | none => cases decimalOfText? argument.toList <;> simp [text]

theorem ofUnmarked_eq_float_iff {argument : String} {x : Binary64} :
    ofUnmarked argument = .float x ↔
      integerOfText? argument.toList = none ∧ decimalOfText? argument.toList = some x := by
  simp only [ofUnmarked, doubleOfText?_of_looksNumeric]
  cases integerOfText? argument.toList with
  | some m => simp
  | none => cases decimalOfText? argument.toList <;> simp [text]

theorem ofUnmarked_eq_text {argument : String} (no_integer : integerOfText? argument.toList = none)
    (no_double : decimalOfText? argument.toList = none) :
    ofUnmarked argument = .bytes (Utf8.encode argument) := by
  simp only [ofUnmarked, doubleOfText?_of_looksNumeric, no_integer, no_double, text]

/-- Just the arguments with a mark for digits may stand for no value. -/
theorem exists_ofArgument_eq_error_iff {argument : String} :
    (∃ bad, ofArgument argument = .error bad) ↔ ∃ digits : String, argument = "hex:" ++ digits ∧
      ¬ (digits.toList.length % 2 = 0 ∧
        ∀ c ∈ digits.toList, ∃ d < 16, c.toLower = Nat.digitChar d) := by
  constructor
  · rintro ⟨bad, failed⟩
    by_cases text_marked : ∃ rest, argument = "str:" ++ rest
    · obtain ⟨rest, rfl⟩ := text_marked
      cases (ofArgument_str rest).symm.trans failed
    · by_cases marked : ∃ digits, argument = "hex:" ++ digits
      · obtain ⟨digits, rfl⟩ := marked
        refine ⟨digits, rfl, ?_⟩
        intro good
        obtain ⟨bs, same⟩ := Hex.exists_hexDigits_iff.mpr good
        cases (ofArgument_hex_eq_ok_iff.mpr ⟨bs, same, rfl⟩).symm.trans failed
      · cases (ofArgument_unmarked (not_exists.mp text_marked)
          (not_exists.mp marked)).symm.trans failed
  · rintro ⟨digits, rfl, bad⟩
    cases outcome : ofArgument ("hex:" ++ digits) with
    | error reason => exact ⟨_, rfl⟩
    | ok v =>
      obtain ⟨bs, same, -⟩ := ofArgument_hex_eq_ok_iff.mp outcome
      exact absurd (Hex.exists_hexDigits_iff.mp ⟨bs, same⟩) bad

end Value

/-- **What an argument stands for.** An argument stands for no value iff it is marked with `hex:` and
what follows is not an even number of hexadecimal digits.  Marked with `str:` it stands for the text
that follows, and marked with `hex:` for the bytes of which the digits follow, in either case.

Without a mark it is an integer iff it is an optional sign and the digits of one with a magnitude
below `2 ^ 127`, decimal or to the base 16.  Of the others, the decimal numbers are doubles, and never
NaNs; whatever is left is text. -/
theorem arguments_classified :
    (∀ argument : String, (∃ bad, Value.ofArgument argument = .error bad) ↔
      ∃ digits : String, argument = "hex:" ++ digits ∧
        ¬ (digits.toList.length % 2 = 0 ∧
          ∀ c ∈ digits.toList, ∃ d < 16, c.toLower = Nat.digitChar d)) ∧
    (∀ text : String, Value.ofArgument ("str:" ++ text) = .ok (.bytes (Utf8.encode text))) ∧
    (∀ (digits : String) (bs : Bytes), digits.toList.map Char.toLower = hexDigits bs →
      Value.ofArgument ("hex:" ++ digits) = .ok (.bytes bs)) ∧
    ∀ argument : String, (∀ rest, argument ≠ "str:" ++ rest) → (∀ rest, argument ≠ "hex:" ++ rest) →
      (∀ n, Value.ofArgument argument = .ok (.integer n) ↔
        SpellsInteger n argument.toList ∧ n.natAbs < 2 ^ 127) ∧
      ((∃ x, Value.ofArgument argument = .ok (.float x)) ↔
        (∀ n, Value.ofArgument argument ≠ .ok (.integer n)) ∧ IsDecimal argument.toList) ∧
      (∀ x, Value.ofArgument argument = .ok (.float x) → x.isNaN = false) ∧
      ((∀ n, Value.ofArgument argument ≠ .ok (.integer n)) → ¬ IsDecimal argument.toList →
        Value.ofArgument argument = .ok (.bytes (Utf8.encode argument))) := by
  refine ⟨fun _ => Value.exists_ofArgument_eq_error_iff, Value.ofArgument_str, ?_, ?_⟩
  · intro digits bs same
    exact Value.ofArgument_hex_eq_ok_iff.mpr ⟨bs, same, rfl⟩
  · intro argument no_text no_digits
    have no_integer : (∀ n, Value.ofUnmarked argument ≠ .integer n) ↔
        integerOfText? argument.toList = none := by
      simp only [ne_eq, Value.ofUnmarked_eq_integer_iff, Option.eq_none_iff_forall_ne_some]
    simp only [Value.ofArgument_unmarked no_text no_digits, Except.ok.injEq, ne_eq] at no_integer ⊢
    refine ⟨?_, ?_, ?_, ?_⟩
    · intro n
      rw [Value.ofUnmarked_eq_integer_iff, integerOfText?_eq_some_iff]
    · rw [no_integer, ← exists_decimalOfText?_iff, ← exists_and_left]
      simp only [Value.ofUnmarked_eq_float_iff]
    · intro x read
      exact isNaN_of_decimalOfText? (Value.ofUnmarked_eq_float_iff.mp read).2
    · intro not_integer not_decimal
      apply Value.ofUnmarked_eq_text (no_integer.mp not_integer)
      rw [Option.eq_none_iff_forall_ne_some]
      intro x read
      exact not_decimal (exists_decimalOfText?_iff.mp ⟨x, read⟩)

/-- Marked arguments, an integer and a double with all their parts, and words that stay text. -/
theorem arguments_classified_of_words :
    (∃ bad, Value.ofArgument "hex:0aF" = .error bad) ∧
      Value.ofArgument "hex:0aFf" = .ok (.bytes [0x0A, 0xFF]) ∧
      Value.ofArgument "-0X1f" = .ok (.integer (-31)) ∧
      (∃ x, Value.ofArgument "-.5e3" = .ok (.float x)) ∧
      ∀ word ∈ ["inf", "nan", "0x", "--5", "1_000", "12abc"],
        Value.ofArgument word = .ok (.bytes (Utf8.encode word)) := by
  obtain ⟨fails, -, marked, unmarked⟩ := arguments_classified
  have no_mark {argument mark : String} (absent : ¬ mark.toList <+: argument.toList) :
      ∀ rest, argument ≠ mark ++ rest :=
    fun rest same => absent (exists_eq_append_iff.mp ⟨rest, same⟩)
  have no_integer {argument : String} (no_text : ¬ "str:".toList <+: argument.toList)
      (no_digits : ¬ "hex:".toList <+: argument.toList)
      (unread : magnitudeOfText? (takeSign argument.toList).2 = none) (n : Int) :
      Value.ofArgument argument ≠ .ok (.integer n) := by
    intro integer
    obtain ⟨spelled, -⟩ := ((unmarked _ (no_mark no_text) (no_mark no_digits)).1 n).mp integer
    obtain ⟨m, read, -⟩ := spellsInteger_iff.mp spelled
    cases unread.symm.trans read
  refine ⟨?_, ?_, ?_, ?_, ?_⟩
  · exact (fails _).mpr ⟨"0aF", rfl, by decide⟩
  · exact marked "0aFf" [0x0A, 0xFF] (by decide)
  · have spelled : SpellsInteger (-31) "-0X1f".toList :=
      ⟨true, ['-'], ['0', 'X', '1', 'f'], .minus, rfl, 31,
        .hexadecimal (.inr rfl) ⟨0, by decide⟩, rfl⟩
    exact ((unmarked _ (no_mark (by decide)) (no_mark (by decide))).1 (-31)).mpr
      ⟨spelled, by decide⟩
  · have one_digit (c : Char) (digit : isDigit c = true) : IsDigits 10 [c] :=
      isDigits_ten_iff.mpr ⟨List.cons_ne_nil _ _, List.forall_mem_singleton.mpr digit⟩
    have decimal : IsDecimal "-.5e3".toList :=
      ⟨true, ['-'], ['.', '5', 'e', '3'], .minus, rfl, ['.', '5'], ['e', '3'],
        .fraction (one_digit '5' rfl), .present (.inl rfl) .absent (one_digit '3' rfl), rfl⟩
    exact (unmarked _ (no_mark (by decide)) (no_mark (by decide))).2.1.mpr
      ⟨no_integer (by decide) (by decide) rfl, decimal⟩
  · have unread : ∀ word ∈ ["inf", "nan", "0x", "--5", "1_000", "12abc"],
        ¬ "str:".toList <+: word.toList ∧ ¬ "hex:".toList <+: word.toList ∧
          magnitudeOfText? (takeSign word.toList).2 = none ∧ decimalOfText? word.toList = none := by
      decide
    intro word member
    obtain ⟨no_text, no_digits, no_magnitude, no_double⟩ := unread word member
    apply (unmarked _ (no_mark no_text) (no_mark no_digits)).2.2.2
      (no_integer no_text no_digits no_magnitude)
    rw [← exists_decimalOfText?_iff, no_double]
    simp

/-! ### Integers of 128 bits -/

/-- An integer is displayed as a text for it. -/
theorem spellsInteger_toText (n : Int) : SpellsInteger n (Value.integer n).toText.toList := by
  have displayed : (Value.integer n).toText = n.repr := rfl
  rw [displayed, Int.repr_eq_if]
  by_cases nonneg : 0 ≤ n
  · rw [if_pos nonneg]
    exact ⟨false, [], _, .absent, rfl, _, .decimal (isNumeral_repr _),
      (Int.toNat_of_nonneg nonneg).symm⟩
  · rw [if_neg nonneg, String.toList_append]
    refine ⟨true, ['-'], _, .minus, rfl, _, .decimal (isNumeral_repr _), ?_⟩
    rw [if_pos rfl, Int.toNat_of_nonneg (by omega), Int.neg_neg]

/-- A text for an integer starts with a sign or a digit. -/
theorem SpellsInteger.exists_cons {n : Int} {text : List Char} (spelled : SpellsInteger n text) :
    ∃ c rest, text = c :: rest ∧ (c = '+' ∨ c = '-' ∨ isDigit c = true) := by
  obtain ⟨negative, sign, body, is_sign, rfl, m, magnitude, -⟩ := spelled
  cases is_sign with
  | plus => exact ⟨_, _, rfl, .inl rfl⟩
  | minus => exact ⟨_, _, rfl, .inr (.inl rfl)⟩
  | absent =>
    cases magnitude with
    | decimal numeral =>
      obtain ⟨c, rest, rfl, digit⟩ := (numeral.isDigits (by decide) (by decide)).exists_cons
      exact ⟨c, rest, rfl, .inr (.inr digit)⟩
    | hexadecimal => exact ⟨_, _, rfl, .inr (.inr rfl)⟩

theorem SpellsInteger.unmarked {n : Int} {text : String} (spelled : SpellsInteger n text.toList) :
    (∀ rest, text ≠ "str:" ++ rest) ∧ ∀ rest, text ≠ "hex:" ++ rest := by
  obtain ⟨c, others, split, starts⟩ := spelled.exists_cons
  constructor
  · rintro rest rfl
    rw [String.toList_append] at split
    obtain rfl : 's' = c := (List.cons.inj split).1
    revert starts
    decide
  · rintro rest rfl
    rw [String.toList_append] at split
    obtain rfl : 'h' = c := (List.cons.inj split).1
    revert starts
    decide

/-- A text for the least integer is a decimal number, or the base is 16. -/
theorem SpellsInteger.decimalOfText?_least {text : List Char}
    (spelled : SpellsInteger (-(2 ^ 127)) text) :
    decimalOfText? text = some ⟨0xC7E0000000000000⟩ ∨ decimalOfText? text = none := by
  obtain ⟨negative, sign, body, is_sign, rfl, m, magnitude, signed⟩ := spelled
  cases negative with
  | false => simp at signed
  | true =>
    obtain rfl : m = 2 ^ 127 := by
      simp at signed
      omega
    cases magnitude with
    | decimal numeral =>
      left
      rw [decimalOfText?_of_isNumeral is_sign numeral]
      decide
    | hexadecimal is_mark => exact .inr (decimalOfText?_hexadecimal is_sign is_mark)

/-- **Integers as arguments.** An integer of 128 bits is displayed as a text for it, and read from every
text for it, in decimal or to the base 16, unless it is the least one: its magnitude is out of range
before the sign is put to it.  In decimal that one is read as a double, and to the base 16 it stays
text. -/
theorem integers_read {n : Int} (least : -(2 ^ 127) ≤ n) (greatest : n < 2 ^ 127) :
    SpellsInteger n (Value.integer n).toText.toList ∧
      ∀ text : String, SpellsInteger n text.toList →
        (Value.ofArgument text = .ok (.integer n) ↔ n ≠ -(2 ^ 127)) ∧
        (n = -(2 ^ 127) → IsDecimal text.toList →
          Value.ofArgument text = .ok (.float ⟨0xC7E0000000000000⟩)) ∧
        (n = -(2 ^ 127) → ¬ IsDecimal text.toList →
          Value.ofArgument text = .ok (.bytes (Utf8.encode text))) := by
  refine ⟨spellsInteger_toText n, fun text spelled => ?_⟩
  obtain ⟨no_text, no_digits⟩ := spelled.unmarked
  rw [Value.ofArgument_unmarked no_text no_digits]
  simp only [Except.ok.injEq]
  refine ⟨?_, ?_, ?_⟩
  · rw [Value.ofUnmarked_eq_integer_iff, integerOfText?_eq_some_iff]
    simp only [spelled, true_and]
    omega
  · rintro rfl decimal
    have unread := spelled.integerOfText?_eq_none (by decide)
    obtain ⟨x, read⟩ := exists_decimalOfText?_iff.mpr decimal
    rcases spelled.decimalOfText?_least with double | none_read
    · exact Value.ofUnmarked_eq_float_iff.mpr ⟨unread, double⟩
    · cases none_read.symm.trans read
  · rintro rfl not_decimal
    have unread := spelled.integerOfText?_eq_none (by decide)
    rcases spelled.decimalOfText?_least with double | none_read
    · exact absurd (exists_decimalOfText?_iff.mp ⟨_, double⟩) not_decimal
    · exact Value.ofUnmarked_eq_text unread none_read

/-- The greatest integer with leading zeros, and a negative one to the base 16. -/
theorem integers_read_of_greatest :
    Value.ofArgument "+00170141183460469231731687303715884105727" = .ok (.integer (2 ^ 127 - 1)) ∧
      Value.ofArgument "-0XfFe" = .ok (.integer (-4094)) ∧
      Value.ofArgument "-0x80000000000000000000000000000000" =
        .ok (.bytes (Utf8.encode "-0x80000000000000000000000000000000")) := by
  have decimal : SpellsInteger (2 ^ 127 - 1) "+00170141183460469231731687303715884105727".toList :=
    ⟨false, ['+'], "00170141183460469231731687303715884105727".toList, .plus, rfl, 2 ^ 127 - 1,
      .decimal ⟨2, by decide⟩, rfl⟩
  have hexadecimal : SpellsInteger (-4094) "-0XfFe".toList :=
    ⟨true, ['-'], "0XfFe".toList, .minus, rfl, 4094, .hexadecimal (.inr rfl) ⟨0, by decide⟩, rfl⟩
  have least : SpellsInteger (-(2 ^ 127)) "-0x80000000000000000000000000000000".toList :=
    ⟨true, ['-'], "0x80000000000000000000000000000000".toList, .minus, rfl, 2 ^ 127,
      .hexadecimal (.inl rfl) ⟨0, by decide⟩, rfl⟩
  refine ⟨?_, ?_, ?_⟩
  · exact ((integers_read (by decide) (by decide)).2 _ decimal).1.mpr (by decide)
  · exact ((integers_read (by decide) (by decide)).2 _ hexadecimal).1.mpr (by decide)
  · have no_double : decimalOfText? "-0x80000000000000000000000000000000".toList = none := rfl
    refine ((integers_read (by decide) (by decide)).2 _ least).2.2 rfl ?_
    rw [← exists_decimalOfText?_iff, no_double]
    simp

/-- The least integer is displayed as a text that is read as a double. -/
theorem least_integer_not_read :
    (Value.integer (-(2 ^ 127))).toText = "-170141183460469231731687303715884105728" ∧
      Value.ofArgument "-170141183460469231731687303715884105728" =
        .ok (.float ⟨0xC7E0000000000000⟩) ∧
      Value.ofArgument "-170141183460469231731687303715884105728" ≠ .ok (.integer (-(2 ^ 127))) := by
  have read : Value.ofArgument "-170141183460469231731687303715884105728" =
      .ok (.float ⟨0xC7E0000000000000⟩) := rfl
  refine ⟨by decide, read, ?_⟩
  rw [read]
  nofun

end DirectivePack
