import DirectivePack.Proofs.Text.Characters

/-!
Well-formed text, told by its bytes and without a reader.

A code point stands in one to four bytes.  The first byte says by its leading bits how many these
are, and each byte behind it carries six bits behind the mark `10`.  Such a form is well-formed if no
shorter one has room for the number and the number is that of a character.

* `form_iff`: the forms are just what is written for characters.
* `codePoints_iff`: hence well-formed text is just what is written for rows of characters.
* `exists_decode?_iff`: and it is what can be read as a text.
-/

namespace DirectivePack.Utf8

/-! ### Forms -/

/-- Six bits behind the mark `10`. -/
def IsContinuation (b : UInt8) : Prop :=
  0x80 ≤ b.toNat ∧ b.toNat < 0xC0

/-- The bytes of a code point.  Each clause gives the marks of the bytes, the number that their other
bits make, and the range of the numbers that need so many bytes.  The third leaves out the
surrogates, the fourth what is above the last code point. -/
inductive Form : Bytes → Nat → Prop where
  | one {a : UInt8} : a.toNat < 0x80 → Form [a] a.toNat
  | two {a b : UInt8} {n : Nat} :
      0xC0 ≤ a.toNat → a.toNat < 0xE0 → IsContinuation b →
      n = a.toNat % 32 * 64 + b.toNat % 64 →
      0x80 ≤ n → Form [a, b] n
  | three {a b c : UInt8} {n : Nat} :
      0xE0 ≤ a.toNat → a.toNat < 0xF0 → IsContinuation b → IsContinuation c →
      n = a.toNat % 16 * 4096 + b.toNat % 64 * 64 + c.toNat % 64 →
      0x800 ≤ n → ¬ (0xD800 ≤ n ∧ n ≤ 0xDFFF) → Form [a, b, c] n
  | four {a b c d : UInt8} {n : Nat} :
      0xF0 ≤ a.toNat → a.toNat < 0xF8 → IsContinuation b → IsContinuation c → IsContinuation d →
      n = a.toNat % 8 * 262144 + b.toNat % 64 * 4096 + c.toNat % 64 * 64 + d.toNat % 64 →
      0x10000 ≤ n → n ≤ 0x10FFFF → Form [a, b, c, d] n

/-- Bytes from which a character is read, and nothing behind it, are what is written for that
character. -/
theorem exists_char_of_readChar {bs : Bytes} {n : Nat} (scalar : IsScalar n)
    (read : readChar bs = .ok (Char.ofNat n, [])) :
    ∃ c : Char, n = c.toNat ∧ bs = encodeChar c := by
  refine ⟨Char.ofNat n, (toNat_ofNat scalar).symm, ?_⟩
  rw [eq_encodeChar_of_readChar read, List.append_nil]

/-- A form is what is written for a character.  The range of its numbers excludes the lead bytes that
start no character, and after four others a part of the continuation bytes. -/
theorem Form.exists_char {bs : Bytes} {n : Nat} (form : Form bs n) :
    ∃ c : Char, n = c.toNat ∧ bs = encodeChar c := by
  cases form with
  | @one a small =>
    exact exists_char_of_readChar (.inl (by omega))
      (readChar_of_one (charLength_eq_one_iff.mpr small) [])
  | @two a b n least greatest second number shortest =>
    subst number
    obtain ⟨second_least, second_greatest⟩ := second
    have length : charLength a = 2 := charLength_eq_two_iff.mpr (by omega)
    have follows : mayFollow a b = true := mayFollow_iff.mpr (by omega)
    exact exists_char_of_readChar (.inl (by omega)) (readChar_of_two length follows [])
  | @three a b c n least greatest second third number shortest no_surrogate =>
    subst number
    obtain ⟨second_least, second_greatest⟩ := second
    have length : charLength a = 3 := charLength_eq_three_iff.mpr ⟨least, greatest⟩
    have follows : mayFollow a b = true := mayFollow_iff.mpr (by omega)
    exact exists_char_of_readChar (scalar_of_three length follows).2
      (readChar_of_three length follows (isTail_iff.mpr third) [])
  | @four a b c d n least greatest second third fourth number shortest last =>
    subst number
    obtain ⟨second_least, second_greatest⟩ := second
    have length : charLength a = 4 := charLength_eq_four_iff.mpr (by omega)
    have follows : mayFollow a b = true := mayFollow_iff.mpr (by omega)
    exact exists_char_of_readChar (scalar_of_four (u := d) length follows).2
      (readChar_of_four length follows (isTail_iff.mpr third) (isTail_iff.mpr fourth) [])

/-- What is written for a character is a form of its number. -/
theorem form_encodeChar (c : Char) : Form (encodeChar c) c.toNat := by
  have scalar := isScalar_toNat c
  unfold IsScalar at scalar
  rw [encodeChar]
  generalize c.toNat = n at scalar ⊢
  by_cases one : n < 0x80
  · have byte : (UInt8.ofNat n).toNat = n := toNat_ofNat_of_lt (by omega)
    have form := Form.one (a := UInt8.ofNat n) (by rw [byte]; exact one)
    rw [byte] at form
    rwa [if_pos one]
  rw [if_neg one]
  by_cases two : n < 0x800
  · rw [if_pos two]
    refine .two ?_ ?_ ?_ ?_ (by omega) <;>
      simp (disch := omega) only [IsContinuation, toNat_ofNat_of_lt] <;> omega
  rw [if_neg two]
  by_cases three : n < 0x10000
  · rw [if_pos three]
    refine .three ?_ ?_ ?_ ?_ ?_ (by omega) (by omega) <;>
      simp (disch := omega) only [IsContinuation, toNat_ofNat_of_lt] <;> omega
  rw [if_neg three]
  refine .four ?_ ?_ ?_ ?_ ?_ ?_ (by omega) (by omega) <;>
    simp (disch := omega) only [IsContinuation, toNat_ofNat_of_lt] <;> omega

/-- **Forms.** They are just what is written for characters. -/
theorem form_iff {bs : Bytes} {n : Nat} :
    Form bs n ↔ ∃ c : Char, n = c.toNat ∧ bs = encodeChar c := by
  constructor
  · exact Form.exists_char
  · rintro ⟨c, rfl, rfl⟩
    exact form_encodeChar c

/-! ### Texts -/

/-- The bytes of a text, and its code points in order. -/
inductive CodePoints : Bytes → List Nat → Prop where
  | nil : CodePoints [] []
  | cons {form rest : Bytes} {n : Nat} {ns : List Nat} :
      Form form n → CodePoints rest ns → CodePoints (form ++ rest) (n :: ns)

/-- Bytes that are forms of code points, one behind the other. -/
def WellFormed (bs : Bytes) : Prop :=
  ∃ ns, CodePoints bs ns

/-- **Texts.** Well-formed text is just what is written for rows of characters. -/
theorem codePoints_iff {bs : Bytes} {ns : List Nat} :
    CodePoints bs ns ↔ ∃ cs : List Char, ns = cs.map Char.toNat ∧ bs = cs.flatMap encodeChar := by
  constructor
  · intro codes
    induction codes with
    | nil => exact ⟨[], rfl, rfl⟩
    | cons form _ ih =>
      obtain ⟨c, rfl, rfl⟩ := form_iff.mp form
      obtain ⟨cs, rfl, rfl⟩ := ih
      exact ⟨c :: cs, rfl, List.flatMap_cons.symm⟩
  · rintro ⟨cs, rfl, rfl⟩
    induction cs with
    | nil => exact .nil
    | cons c cs ih => exact .cons (form_encodeChar c) ih

theorem wellFormed_iff {bs : Bytes} : WellFormed bs ↔ ∃ cs : List Char, bs = cs.flatMap encodeChar := by
  simp only [WellFormed, codePoints_iff]
  constructor
  · rintro ⟨_, cs, -, written⟩
    exact ⟨cs, written⟩
  · rintro ⟨cs, written⟩
    exact ⟨_, cs, rfl, written⟩

/-- A text can be read from just the well-formed bytes. -/
theorem exists_decode?_iff {bs : Bytes} : (∃ text, decode? bs = some text) ↔ WellFormed bs := by
  simp only [decode?_eq_some_iff, wellFormed_iff]
  constructor
  · rintro ⟨text, written⟩
    exact ⟨text.toList, written⟩
  · rintro ⟨cs, rfl⟩
    exact ⟨String.ofList cs, by rw [encode, String.toList_ofList]⟩

theorem decode?_eq_none_iff {bs : Bytes} : decode? bs = none ↔ ¬ WellFormed bs := by
  rw [← exists_decode?_iff, Option.eq_none_iff_forall_ne_some, not_exists]

end DirectivePack.Utf8
