import DirectivePack.Proofs.Text.WellFormed

/-!
Text that breaks off.

Bytes are incomplete if more bytes behind them make well-formed text.  Their end tells: behind
well-formed text stands a byte that a code point starts with, and behind it fewer bytes than the code
point needs, each of which may stand there.  Such an opening is a piece that is cut off, since its
lead byte says by its leading bits that more bytes follow.  But some bytes say so that no code point
starts with, and the bytes behind a lead byte may be such as no code point has there; so not every
piece that is cut off is an opening.

* `isOpening_iff`: the openings are the proper fronts of forms.
* `incomplete_append_iff`: well-formed text in front does not count.
* `incomplete_iff_breaksOffIn`: what is no well-formed text is incomplete iff it breaks off in an
  opening.
-/

namespace DirectivePack.Utf8

/-- Some bytes behind these make well-formed text. -/
def Incomplete (bs : Bytes) : Prop :=
  ∃ more, more ≠ [] ∧ WellFormed (bs ++ more)

/-! ### Pieces -/

/-- The leading bits of a byte say that a code point of so many bytes starts with it. -/
inductive Announces : UInt8 → Nat → Prop where
  | two {a : UInt8} : 0xC0 ≤ a.toNat → a.toNat < 0xE0 → Announces a 2
  | three {a : UInt8} : 0xE0 ≤ a.toNat → a.toNat < 0xF0 → Announces a 3
  | four {a : UInt8} : 0xF0 ≤ a.toNat → a.toNat < 0xF8 → Announces a 4

/-- A piece that has fewer bytes than its first byte announces. -/
def IsCutOff (length : Nat) (piece : Bytes) : Prop :=
  ∃ lead rest, piece = lead :: rest ∧ Announces lead length ∧ piece.length < length

theorem IsCutOff.ne_nil {length : Nat} {piece : Bytes} (cut : IsCutOff length piece) :
    piece ≠ [] := by
  obtain ⟨lead, rest, rfl, -⟩ := cut
  exact List.cons_ne_nil _ _

/-- The bytes end in a piece that is cut off, behind well-formed text. -/
def BreaksOffIn (bs : Bytes) (length : Nat) (piece : Bytes) : Prop :=
  ∃ text, bs = text ++ piece ∧ WellFormed text ∧ IsCutOff length piece

/-- What may stand behind the lead byte of a code point.  Behind four lead bytes a part of the
continuation bytes makes no code point, or one that has a shorter form. -/
def IsSecond (lead b : UInt8) : Prop :=
  IsContinuation b ∧
    (lead.toNat = 0xE0 → 0xA0 ≤ b.toNat) ∧ (lead.toNat = 0xED → b.toNat < 0xA0) ∧
    (lead.toNat = 0xF0 → 0x90 ≤ b.toNat) ∧ (lead.toNat = 0xF4 → b.toNat < 0x90)

/-- The first bytes of a code point that needs more. -/
inductive IsOpening : Bytes → Prop where
  | lead {a : UInt8} : 0xC2 ≤ a.toNat → a.toNat < 0xF5 → IsOpening [a]
  | second {a b : UInt8} : 0xE0 ≤ a.toNat → a.toNat < 0xF5 → IsSecond a b → IsOpening [a, b]
  | third {a b c : UInt8} :
      0xF0 ≤ a.toNat → a.toNat < 0xF5 → IsSecond a b → IsContinuation c → IsOpening [a, b, c]

theorem IsOpening.isCutOff {piece : Bytes} (opening : IsOpening piece) :
    ∃ length, IsCutOff length piece := by
  have announced : ∀ a : UInt8, 0xC2 ≤ a.toNat → a.toNat < 0xF5 →
      ∃ length, Announces a length ∧ 2 ≤ length ∧ (0xE0 ≤ a.toNat → 3 ≤ length) ∧
        (0xF0 ≤ a.toNat → 4 ≤ length) := by
    intro a least greatest
    by_cases two : a.toNat < 0xE0
    · exact ⟨2, .two (by omega) two, by omega, by omega, by omega⟩
    · by_cases three : a.toNat < 0xF0
      · exact ⟨3, .three (by omega) three, by omega, by omega, by omega⟩
      · exact ⟨4, .four (by omega) (by omega), by omega, by omega, by omega⟩
  cases opening with
  | @lead a least greatest =>
    obtain ⟨length, announces, more, -, -⟩ := announced a least greatest
    exact ⟨length, a, [], rfl, announces, more⟩
  | @second a b least greatest =>
    obtain ⟨length, announces, -, more, -⟩ := announced a (by omega) greatest
    exact ⟨length, a, [b], rfl, announces, more least⟩
  | @third a b c least greatest =>
    obtain ⟨length, announces, -, -, more⟩ := announced a (by omega) greatest
    exact ⟨length, a, [b, c], rfl, announces, more least⟩

/-! ### Fronts of forms -/

theorem exists_isSecond (lead : UInt8) : ∃ b, IsSecond lead b := by
  by_cases narrowed : lead.toNat = 0xE0 ∨ lead.toNat = 0xF0
  · have byte : (0xA0 : UInt8).toNat = 0xA0 := rfl
    refine ⟨0xA0, ⟨by omega, by omega⟩, ?_⟩
    omega
  · have byte : (0x80 : UInt8).toNat = 0x80 := rfl
    refine ⟨0x80, ⟨by omega, by omega⟩, ?_⟩
    omega

theorem isContinuation_least : IsContinuation 0x80 :=
  ⟨by decide, by decide⟩

theorem form_of_two {a b : UInt8} (least : 0xC2 ≤ a.toNat) (greatest : a.toNat < 0xE0)
    (second : IsContinuation b) : ∃ n, Form [a, b] n := by
  refine ⟨_, .two (by omega) greatest second rfl ?_⟩
  omega

theorem form_of_three {a b c : UInt8} (least : 0xE0 ≤ a.toNat) (greatest : a.toNat < 0xF0)
    (second : IsSecond a b) (third : IsContinuation c) : ∃ n, Form [a, b, c] n := by
  obtain ⟨continues, narrowed⟩ := second
  have range := continues
  unfold IsContinuation at range
  refine ⟨_, .three least greatest continues third rfl ?_ ?_⟩
  · omega
  · omega

theorem form_of_four {a b c d : UInt8} (least : 0xF0 ≤ a.toNat) (greatest : a.toNat < 0xF5)
    (second : IsSecond a b) (third : IsContinuation c) (fourth : IsContinuation d) :
    ∃ n, Form [a, b, c, d] n := by
  obtain ⟨continues, narrowed⟩ := second
  have range := continues
  unfold IsContinuation at range
  refine ⟨_, .four least (by omega) continues third fourth rfl ?_ ?_⟩
  · omega
  · omega

section Form

variable {a b c d : UInt8} {rest : Bytes} {n : Nat}

theorem Form.lead (form : Form (a :: rest) n) (more : rest ≠ []) :
    0xC2 ≤ a.toNat ∧ a.toNat < 0xF5 := by
  cases form with
  | one => exact absurd rfl more
  | two => omega
  | three => omega
  | four => omega

theorem Form.second (form : Form (a :: b :: rest) n) (more : rest ≠ []) :
    0xE0 ≤ a.toNat ∧ a.toNat < 0xF5 ∧ IsSecond a b := by
  cases form with
  | two => exact absurd rfl more
  | three least greatest second =>
    have range := second
    unfold IsContinuation at range
    exact ⟨least, by omega, second, by omega⟩
  | four least greatest second =>
    have range := second
    unfold IsContinuation at range
    exact ⟨by omega, by omega, second, by omega⟩

theorem Form.third (form : Form (a :: b :: c :: rest) n) (more : rest ≠ []) :
    0xF0 ≤ a.toNat ∧ a.toNat < 0xF5 ∧ IsSecond a b ∧ IsContinuation c := by
  obtain ⟨-, greatest, second⟩ := form.second (List.cons_ne_nil _ _)
  cases form with
  | three => exact absurd rfl more
  | four least _ _ third => exact ⟨least, greatest, second, third⟩

theorem Form.fourth (form : Form (a :: b :: c :: d :: rest) n) : rest = [] := by
  cases form
  rfl

/-- The lead byte of a form announces its length, if that is more than one byte. -/
theorem Form.length_eq {length : Nat} (form : Form (a :: rest) n) (announced : Announces a length) :
    (a :: rest).length = length := by
  cases form with
  | one => cases announced <;> omega
  | two =>
    cases announced with
    | two => rfl
    | three | four => omega
  | three =>
    cases announced with
    | three => rfl
    | two | four => omega
  | four =>
    cases announced with
    | four => rfl
    | two | three => omega

end Form

/-- **The openings** are the proper fronts of forms. -/
theorem isOpening_iff {piece : Bytes} :
    IsOpening piece ↔ piece ≠ [] ∧ ∃ more n, more ≠ [] ∧ Form (piece ++ more) n := by
  constructor
  · intro opening
    cases opening with
    | @lead a least greatest =>
      refine ⟨List.cons_ne_nil _ _, ?_⟩
      obtain ⟨b, second⟩ := exists_isSecond a
      by_cases two : a.toNat < 0xE0
      · obtain ⟨n, form⟩ := form_of_two least two second.1
        exact ⟨_, n, List.cons_ne_nil _ _, form⟩
      · by_cases three : a.toNat < 0xF0
        · obtain ⟨n, form⟩ := form_of_three (by omega) three second isContinuation_least
          exact ⟨_, n, List.cons_ne_nil _ _, form⟩
        · obtain ⟨n, form⟩ :=
            form_of_four (by omega) greatest second isContinuation_least isContinuation_least
          exact ⟨_, n, List.cons_ne_nil _ _, form⟩
    | @second a b least greatest second =>
      refine ⟨List.cons_ne_nil _ _, ?_⟩
      by_cases three : a.toNat < 0xF0
      · obtain ⟨n, form⟩ := form_of_three least three second isContinuation_least
        exact ⟨_, n, List.cons_ne_nil _ _, form⟩
      · obtain ⟨n, form⟩ :=
          form_of_four (by omega) greatest second isContinuation_least isContinuation_least
        exact ⟨_, n, List.cons_ne_nil _ _, form⟩
    | third least greatest second third =>
      obtain ⟨n, form⟩ := form_of_four least greatest second third isContinuation_least
      exact ⟨List.cons_ne_nil _ _, _, n, List.cons_ne_nil _ _, form⟩
  · rintro ⟨nonempty, more, n, behind, form⟩
    rcases piece with _ | ⟨a, _ | ⟨b, _ | ⟨c, _ | ⟨d, rest⟩⟩⟩⟩
    · exact absurd rfl nonempty
    · obtain ⟨least, greatest⟩ := form.lead behind
      exact .lead least greatest
    · obtain ⟨least, greatest, second⟩ := form.second behind
      exact .second least greatest second
    · obtain ⟨least, greatest, second, third⟩ := form.third behind
      exact .third least greatest second third
    · exact absurd (List.append_eq_nil_iff.mp form.fourth).2 behind

/-- No form stands in front of a piece that is cut off. -/
theorem IsCutOff.ne_form_append {length n : Nat} {piece form : Bytes} (cut : IsCutOff length piece)
    (is_form : Form form n) (rest : Bytes) : piece ≠ form ++ rest := by
  obtain ⟨lead, behind, rfl, announced, shorter⟩ := cut
  cases form with
  | nil => cases is_form
  | cons a tail =>
    intro whole
    obtain ⟨rfl, -⟩ := List.cons.inj whole
    have same := is_form.length_eq announced
    rw [whole, List.length_append] at shorter
    omega

/-! ### Well-formed text in front -/

theorem encodeChar_append_inj {c d : Char} {bs rest : Bytes}
    (same : encodeChar c ++ bs = encodeChar d ++ rest) : c = d ∧ bs = rest := by
  have read := readChar_encodeChar_append c bs
  rw [same, readChar_encodeChar_append] at read
  cases read
  exact ⟨rfl, rfl⟩

theorem encodeChar_ne_nil (c : Char) : encodeChar c ≠ [] := by
  intro empty
  cases empty ▸ form_encodeChar c

theorem wellFormed_encodeChar_append_iff {c : Char} {bs : Bytes} :
    WellFormed (encodeChar c ++ bs) ↔ WellFormed bs := by
  simp only [wellFormed_iff]
  constructor
  · rintro ⟨_ | ⟨d, ds⟩, written⟩
    · exact absurd (List.append_eq_nil_iff.mp written).1 (encodeChar_ne_nil c)
    · exact ⟨ds, (encodeChar_append_inj (written.trans List.flatMap_cons)).2⟩
  · rintro ⟨cs, rfl⟩
    exact ⟨c :: cs, List.flatMap_cons.symm⟩

theorem wellFormed_append_iff {text bs : Bytes} (well : WellFormed text) :
    WellFormed (text ++ bs) ↔ WellFormed bs := by
  obtain ⟨cs, rfl⟩ := wellFormed_iff.mp well
  induction cs with
  | nil => rfl
  | cons c cs ih =>
    rw [List.flatMap_cons, List.append_assoc, wellFormed_encodeChar_append_iff]
    exact ih (wellFormed_iff.mpr ⟨cs, rfl⟩)

/-- Well-formed text in front does not count. -/
theorem incomplete_append_iff {text bs : Bytes} (well : WellFormed text) :
    Incomplete (text ++ bs) ↔ Incomplete bs := by
  simp only [Incomplete, List.append_assoc, wellFormed_append_iff well]

/-! ### Incomplete text -/

/-- **Incomplete bytes.** Bytes that no form stands in front of are incomplete iff they are the
opening of one. -/
theorem incomplete_iff_isOpening {bs : Bytes} (nonempty : bs ≠ [])
    (starts_none : ∀ form n, Form form n → ∀ rest, bs ≠ form ++ rest) :
    Incomplete bs ↔ IsOpening bs := by
  rw [isOpening_iff]
  constructor
  · rintro ⟨more, behind, well⟩
    obtain ⟨_ | ⟨c, cs⟩, written⟩ := wellFormed_iff.mp well
    · exact absurd (List.append_eq_nil_iff.mp written).1 nonempty
    · -- the first character ends within the bytes or within what is put behind them
      rcases List.append_eq_append_iff.mp (written.trans List.flatMap_cons) with
        ⟨others, split, -⟩ | ⟨others, split, -⟩
      · have form := form_encodeChar c
        refine ⟨nonempty, others, _, ?_, split ▸ form⟩
        rintro rfl
        exact starts_none _ _ form [] (by rw [split, List.append_nil, List.append_nil])
      · exact absurd split (starts_none _ _ (form_encodeChar c) _)
  · rintro ⟨-, more, n, behind, form⟩
    have single : CodePoints (bs ++ more) [n] := by
      rw [← List.append_nil (bs ++ more)]
      exact .cons form .nil
    exact ⟨more, behind, _, single⟩

theorem BreaksOffIn.not_wellFormed {bs piece : Bytes} {length : Nat}
    (breaks : BreaksOffIn bs length piece) : ¬ WellFormed bs := by
  obtain ⟨text, rfl, well, cut⟩ := breaks
  rw [wellFormed_append_iff well, wellFormed_iff]
  rintro ⟨_ | ⟨c, cs⟩, written⟩
  · exact cut.ne_nil written
  · exact cut.ne_form_append (form_encodeChar c) _ (written.trans List.flatMap_cons)

theorem BreaksOffIn.incomplete_iff {bs piece : Bytes} {length : Nat}
    (breaks : BreaksOffIn bs length piece) : Incomplete bs ↔ IsOpening piece := by
  obtain ⟨text, rfl, well, cut⟩ := breaks
  rw [incomplete_append_iff well]
  exact incomplete_iff_isOpening cut.ne_nil fun _ _ form => cut.ne_form_append form

/-- All bytes are well-formed text and others that no form stands in front of. -/
theorem exists_front (bs : Bytes) :
    ∃ text rest, bs = text ++ rest ∧ WellFormed text ∧
      ∀ form n, Form form n → ∀ more, rest ≠ form ++ more := by
  obtain ⟨n, chars, rest, read, stop⟩ := exists_readTimes_stop readChar_rest_length_lt bs
  obtain ⟨cs, -, -, split⟩ := (readTimes_eq_ok_iff readChar_eq_ok_iff_exists).mp read
  refine ⟨_, rest, split, wellFormed_iff.mpr ⟨cs, rfl⟩, ?_⟩
  rintro form m is_form more rfl
  obtain ⟨c, -, rfl⟩ := form_iff.mp is_form
  rcases stop with empty | ⟨left, -, fails⟩
  · exact encodeChar_ne_nil c (List.append_eq_nil_iff.mp empty).1
  · rw [readChar_encodeChar_append] at fails
    cases fails

/-- **Incomplete text.** Bytes that are no well-formed text are incomplete iff they break off in the
opening of a code point. -/
theorem incomplete_iff_breaksOffIn {bs : Bytes} (ill : ¬ WellFormed bs) :
    Incomplete bs ↔ ∃ length piece, BreaksOffIn bs length piece ∧ IsOpening piece := by
  constructor
  · intro incomplete
    obtain ⟨text, rest, rfl, well, starts_none⟩ := exists_front bs
    have nonempty : rest ≠ [] := by
      rintro rfl
      rw [List.append_nil] at ill
      exact ill well
    rw [incomplete_append_iff well] at incomplete
    have opening := (incomplete_iff_isOpening nonempty starts_none).mp incomplete
    obtain ⟨length, cut⟩ := opening.isCutOff
    exact ⟨length, rest, ⟨text, rfl, well, cut⟩, opening⟩
  · rintro ⟨length, piece, breaks, opening⟩
    exact breaks.incomplete_iff.mpr opening

end DirectivePack.Utf8
