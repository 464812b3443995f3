import DirectivePack.Text.Utf8

/-!
Reading a character undoes writing one, and nothing else is read.

A character of one to four bytes carries its number in the low bits of these bytes.  What the reader
demands of the first two bytes keeps that number within the range of the length, and out of the
surrogates, so that the number is written with the same length again.

* `readChar_cases`: the four shapes of what is read.
* `readChar_eq_ok_iff`: a character is read off the front of some bytes iff they start with what is
  written for it.
* `decode?_eq_some_iff`: a text is read from just the bytes that are written for it.
-/

namespace DirectivePack

/-! ### Numbers of characters -/

/-- The numbers that are those of characters. -/
def IsScalar (n : Nat) : Prop :=
  n < 0xD800 ∨ (0xDFFF < n ∧ n < 0x110000)

theorem isScalar_toNat (c : Char) : IsScalar c.toNat :=
  c.valid

theorem toNat_ofNat {n : Nat} (scalar : IsScalar n) : (Char.ofNat n).toNat = n := by
  have valid : n.isValidChar := scalar
  rw [Char.ofNat, dif_pos valid]
  rfl

theorem charOfNumber?_eq_some_iff {n : Nat} {c : Char} :
    charOfNumber? n = some c ↔ n = c.toNat := by
  constructor
  · intro found
    rw [charOfNumber?] at found
    split at found
    · rename_i scalar
      rw [← Option.some.inj found, toNat_ofNat scalar]
    · cases found
  · rintro rfl
    have scalar := isScalar_toNat c
    unfold IsScalar at scalar
    rw [charOfNumber?, if_pos scalar, Char.ofNat_toNat]

namespace Utf8

/-! ### What is read -/

/-- The shapes of what is read: a character of one, two, three or four bytes. -/
theorem readChar_cases {bs rest : Bytes} {c : Char} (read : readChar bs = .ok (c, rest)) :
    (∃ a, bs = [a] ++ rest ∧ charLength a = 1 ∧ c = Char.ofNat a.toNat) ∨
      (∃ a b, bs = [a, b] ++ rest ∧ charLength a = 2 ∧ mayFollow a b = true ∧
        c = Char.ofNat (a.toNat % 32 * 64 + tailBits b)) ∨
      (∃ a b t, bs = [a, b, t] ++ rest ∧ charLength a = 3 ∧ mayFollow a b = true ∧
        isTail t = true ∧
        c = Char.ofNat (a.toNat % 16 * 4096 + tailBits b * 64 + tailBits t)) ∨
      (∃ a b t u, bs = [a, b, t, u] ++ rest ∧ charLength a = 4 ∧ mayFollow a b = true ∧
        isTail t = true ∧ isTail u = true ∧
        c = Char.ofNat
          (a.toNat % 8 * 262144 + tailBits b * 4096 + tailBits t * 64 + tailBits u)) := by
  unfold readChar at read
  grind

theorem readChar_of_one {a : UInt8} (length : charLength a = 1) (rest : Bytes) :
    readChar (a :: rest) = .ok (Char.ofNat a.toNat, rest) := by
  simp [readChar, length]

theorem readChar_of_two {a b : UInt8} (length : charLength a = 2) (follows : mayFollow a b = true)
    (rest : Bytes) :
    readChar (a :: b :: rest) = .ok (Char.ofNat (a.toNat % 32 * 64 + b.toNat % 64), rest) := by
  simp [readChar, length, follows, tailBits]

theorem readChar_of_three {a b t : UInt8} (length : charLength a = 3)
    (follows : mayFollow a b = true) (third : isTail t = true) (rest : Bytes) :
    readChar (a :: b :: t :: rest) =
      .ok (Char.ofNat (a.toNat % 16 * 4096 + b.toNat % 64 * 64 + t.toNat % 64), rest) := by
  simp [readChar, length, follows, third, tailBits]

theorem readChar_of_four {a b t u : UInt8} (length : charLength a = 4)
    (follows : mayFollow a b = true) (third : isTail t = true) (fourth : isTail u = true)
    (rest : Bytes) :
    readChar (a :: b :: t :: u :: rest) =
      .ok (Char.ofNat
        (a.toNat % 8 * 262144 + b.toNat % 64 * 4096 + t.toNat % 64 * 64 + u.toNat % 64), rest) := by
  simp [readChar, length, follows, third, fourth, tailBits]

/-! ### Bytes and numbers of each length -/

theorem charLength_eq_one_iff {a : UInt8} : charLength a = 1 ↔ a.toNat < 0x80 := by
  unfold charLength
  grind

theorem charLength_eq_two_iff {a : UInt8} :
    charLength a = 2 ↔ 0xC2 ≤ a.toNat ∧ a.toNat < 0xE0 := by
  unfold charLength
  grind

theorem charLength_eq_three_iff {a : UInt8} :
    charLength a = 3 ↔ 0xE0 ≤ a.toNat ∧ a.toNat < 0xF0 := by
  unfold charLength
  grind

theorem charLength_eq_four_iff {a : UInt8} :
    charLength a = 4 ↔ 0xF0 ≤ a.toNat ∧ a.toNat < 0xF5 := by
  unfold charLength
  grind

theorem isTail_iff {b : UInt8} : isTail b = true ↔ 0x80 ≤ b.toNat ∧ b.toNat < 0xC0 := by
  simp only [isTail, Bool.and_eq_true, decide_eq_true_eq]
  omega

/-- What may stand behind a lead byte: a tail, and behind four of them only a part of the tails. -/
theorem mayFollow_iff {a b : UInt8} :
    mayFollow a b = true ↔ (0x80 ≤ b.toNat ∧ b.toNat < 0xC0) ∧
      (a.toNat = 0xE0 → 0xA0 ≤ b.toNat) ∧ (a.toNat = 0xED → b.toNat < 0xA0) ∧
      (a.toNat = 0xF0 → 0x90 ≤ b.toNat) ∧ (a.toNat = 0xF4 → b.toNat < 0x90) := by
  unfold mayFollow isTail
  split <;> simp at * <;> omega

/-- Three bytes carry a number that no two bytes carry, and no surrogate. -/
theorem scalar_of_three {a b t : UInt8} (length : charLength a = 3)
    (follows : mayFollow a b = true) :
    0x800 ≤ a.toNat % 16 * 4096 + b.toNat % 64 * 64 + t.toNat % 64 ∧
      IsScalar (a.toNat % 16 * 4096 + b.toNat % 64 * 64 + t.toNat % 64) := by
  rw [charLength_eq_three_iff] at length
  rw [mayFollow_iff] at follows
  unfold IsScalar
  omega

/-- Four bytes carry a number that no three bytes carry, and none that is too great. -/
theorem scalar_of_four {a b t u : UInt8} (length : charLength a = 4)
    (follows : mayFollow a b = true) :
    0x10000 ≤ a.toNat % 8 * 262144 + b.toNat % 64 * 4096 + t.toNat % 64 * 64 + u.toNat % 64 ∧
      IsScalar
        (a.toNat % 8 * 262144 + b.toNat % 64 * 4096 + t.toNat % 64 * 64 + u.toNat % 64) := by
  rw [charLength_eq_four_iff] at length
  rw [mayFollow_iff] at follows
  unfold IsScalar
  omega

/-! ### Reading and writing -/

theorem ofNat_eq_of_eq_toNat {n : Nat} {b : UInt8} (same : n = b.toNat) : UInt8.ofNat n = b := by
  rw [same, UInt8.ofNat_toNat]

/-- What is read is what is written for the character. -/
theorem eq_encodeChar_of_readChar {bs rest : Bytes} {c : Char}
    (read : readChar bs = .ok (c, rest)) : bs = encodeChar c ++ rest := by
  rcases readChar_cases read with ⟨a, rfl, length, rfl⟩ | ⟨a, b, rfl, length, follows, rfl⟩ |
    ⟨a, b, t, rfl, length, follows, third, rfl⟩ |
    ⟨a, b, t, u, rfl, length, follows, third, fourth, rfl⟩
  · rw [charLength_eq_one_iff] at length
    have number : (Char.ofNat a.toNat).toNat = a.toNat := toNat_ofNat (.inl (by omega))
    rw [encodeChar, number, if_pos length, UInt8.ofNat_toNat]
  · rw [charLength_eq_two_iff] at length
    rw [mayFollow_iff] at follows
    unfold tailBits
    have number : (Char.ofNat (a.toNat % 32 * 64 + b.toNat % 64)).toNat =
        a.toNat % 32 * 64 + b.toNat % 64 := toNat_ofNat (.inl (by omega))
    rw [encodeChar, number, if_neg (by omega), if_pos (by omega),
      ofNat_eq_of_eq_toNat (b := a) (by omega), ofNat_eq_of_eq_toNat (b := b) (by omega)]
  · obtain ⟨least, scalar⟩ := scalar_of_three length follows
    rw [charLength_eq_three_iff] at length
    rw [mayFollow_iff] at follows
    rw [isTail_iff] at third
    unfold tailBits
    rw [encodeChar, toNat_ofNat scalar, if_neg (by omega), if_neg (by omega), if_pos (by omega),
      ofNat_eq_of_eq_toNat (b := a) (by omega), ofNat_eq_of_eq_toNat (b := b) (by omega),
      ofNat_eq_of_eq_toNat (b := t) (by omega)]
  · obtain ⟨least, scalar⟩ := scalar_of_four length follows
    rw [charLength_eq_four_iff] at length
    rw [mayFollow_iff] at follows
    rw [isTail_iff] at third fourth
    unfold tailBits
    rw [encodeChar, toNat_ofNat scalar, if_neg (by omega), if_neg (by omega), if_neg (by omega),
      ofNat_eq_of_eq_toNat (b := a) (by omega), ofNat_eq_of_eq_toNat (b := b) (by omega),
      ofNat_eq_of_eq_toNat (b := t) (by omega), ofNat_eq_of_eq_toNat (b := u) (by omega)]

theorem toNat_ofNat_of_lt {n : Nat} (small : n < 0x100) : (UInt8.ofNat n).toNat = n := by
  rw [UInt8.toNat_ofNat', Nat.mod_eq_of_lt small]

/-- What is written for a character is read as that character, whatever comes behind it. -/
theorem readChar_encodeChar_append (c : Char) (rest : Bytes) :
    readChar (encodeChar c ++ rest) = .ok (c, rest) := by
  have scalar := isScalar_toNat c
  unfold IsScalar at scalar
  have number : Char.ofNat c.toNat = c := Char.ofNat_toNat c
  rw [encodeChar]
  generalize c.toNat = n at scalar number ⊢
  have byte : ∀ m, m < 0x100 → (UInt8.ofNat m).toNat = m := fun _ => toNat_ofNat_of_lt
  by_cases one : n < 0x80
  · have read := readChar_of_one (a := UInt8.ofNat n)
      (by rw [charLength_eq_one_iff, byte _ (by omega)]; exact one) rest
    rw [byte _ (by omega), number] at read
    rwa [if_pos one]
  rw [if_neg one]
  by_cases two : n < 0x800
  · have read := readChar_of_two (a := UInt8.ofNat (0xC0 + n / 64))
      (b := UInt8.ofNat (0x80 + n % 64))
      (by rw [charLength_eq_two_iff, byte _ (by omega)]; omega)
      (by rw [mayFollow_iff, byte _ (by omega), byte _ (by omega)]; omega) rest
    have value : (0xC0 + n / 64) % 32 * 64 + (0x80 + n % 64) % 64 = n := by omega
    rw [byte _ (by omega), byte _ (by omega), value, number] at read
    rwa [if_pos two]
  rw [if_neg two]
  by_cases three : n < 0x10000
  · have read := readChar_of_three (a := UInt8.ofNat (0xE0 + n / 4096))
      (b := UInt8.ofNat (0x80 + n / 64 % 64)) (t := UInt8.ofNat (0x80 + n % 64))
      (by rw [charLength_eq_three_iff, byte _ (by omega)]; omega)
      (by rw [mayFollow_iff, byte _ (by omega), byte _ (by omega)]; omega)
      (by rw [isTail_iff, byte _ (by omega)]; omega) rest
    have value : (0xE0 + n / 4096) % 16 * 4096 + (0x80 + n / 64 % 64) % 64 * 64 +
        (0x80 + n % 64) % 64 = n := by omega
    rw [byte _ (by omega), byte _ (by omega), byte _ (by omega), value, number] at read
    rwa [if_pos three]
  rw [if_neg three]
  have read := readChar_of_four (a := UInt8.ofNat (0xF0 + n / 262144))
    (b := UInt8.ofNat (0x80 + n / 4096 % 64)) (t := UInt8.ofNat (0x80 + n / 64 % 64))
    (u := UInt8.ofNat (0x80 + n % 64))
    (by rw [charLength_eq_four_iff, byte _ (by omega)]; omega)
    (by rw [mayFollow_iff, byte _ (by omega), byte _ (by omega)]; omega)
    (by rw [isTail_iff, byte _ (by omega)]; omega)
    (by rw [isTail_iff, byte _ (by omega)]; omega) rest
  have value : (0xF0 + n / 262144) % 8 * 262144 + (0x80 + n / 4096 % 64) % 64 * 4096 +
      (0x80 + n / 64 % 64) % 64 * 64 + (0x80 + n % 64) % 64 = n := by omega
  rwa [byte _ (by omega), byte _ (by omega), byte _ (by omega), byte _ (by omega), value,
    number] at read

/-- **Characters.** A character is read off the front of some bytes iff they start with what is
written for it. -/
theorem readChar_eq_ok_iff {bs rest : Bytes} {c : Char} :
    readChar bs = .ok (c, rest) ↔ bs = encodeChar c ++ rest := by
  constructor
  · exact eq_encodeChar_of_readChar
  · rintro rfl
    exact readChar_encodeChar_append c rest

/-- Reading a character takes a member of the family of what is written for characters. -/
theorem readChar_eq_ok_iff_exists (bs : Bytes) (c : Char) (rest : Bytes) :
    readChar bs = .ok (c, rest) ↔ ∃ d : Char, c = d ∧ bs = encodeChar d ++ rest := by
  rw [readChar_eq_ok_iff, exists_eq_left']

/-! ### Texts -/

/-- **Texts.** A text is read from just the bytes that are written for it. -/
theorem decode?_eq_some_iff {bs : Bytes} {text : String} :
    decode? bs = some text ↔ bs = encode text := by
  have read (chars : List Char) : readAll readChar readChar_rest_length_lt bs = .ok chars ↔
      bs = chars.flatMap encodeChar := by
    rw [readAll_eq_ok_iff _ readChar_eq_ok_iff_exists]
    simp only [List.map_id']
    exact exists_eq_left'
  rw [encode, ← read, decode?]
  cases readAll readChar readChar_rest_length_lt bs with
  | error left => simp
  | ok chars => simp [String.ext_iff]

theorem decode?_encode (text : String) : decode? (encode text) = some text :=
  decode?_eq_some_iff.mpr rfl

theorem encode_injective : Function.Injective encode := by
  intro text other same
  have read := decode?_encode text
  rw [same, decode?_encode] at read
  exact (Option.some.inj read).symm

end Utf8

end DirectivePack
