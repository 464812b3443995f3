import DirectivePack.Proofs.Format.Grammar

/-!
The canonical directive string of a program.

Tokens are written without anything between them.  They can be told apart again because no item
starts with a mark, a star or a digit, and these are all that may follow a letter in its token.

* `Operation.WellFormed.spells_text`: the canonical token of a well-formed operation, in front of a
  directive string, spells that operation in front of its program.
* `spells_text`: hence the canonical string of well-formed operations spells them.
* `parse_text_and_text_eq_iff`: what was read once is read again from its canonical string, and
  canonical strings are equal iff the programs are.
-/

namespace DirectivePack

/-- Behind a count may stand whatever spells a program. -/
theorem Spells.maximal {rest : List Char} {program : Program} (spells : Spells rest program)
    (count : Count) : count.Maximal rest := by
  rintro - c - head
  obtain ⟨cs, rfl⟩ := List.head?_eq_some_iff.mp head
  exact spells.head_ends_token.2.2

/-! ### The parts of a token -/

/-- The canonical marks ask for the modifiers that they are written for. -/
theorem Modifiers.ofMarks_text {m : Modifiers} (order_explicit : m.order ≠ some .native) :
    ofMarks m.text.toList = m := by
  obtain ⟨native, order⟩ := m
  cases native <;> rcases order with _ | _ | _ | _ <;> simp_all [ofMarks, text]

theorem Modifiers.marksAllowed_text {m : Modifiers} {letter : Char}
    (takes_marks : m ≠ .none → letter ∈ markedLetters) : MarksAllowed letter m.text.toList := by
  obtain ⟨native, order⟩ := m
  refine ⟨?_, fun some_mark => takes_marks ?_, ?_⟩
  · cases native <;> rcases order with _ | _ | _ | _ <;> simp [text, modifierMarks]
  · rintro ⟨⟩
    exact some_mark rfl
  · cases native <;> rcases order with _ | _ | _ | _ <;> simp [text]

theorem Count.countText_text {count : Count} (count_le : ∀ n, count = .times n → n ≤ 2147483647) :
    CountText count.text.toList count := by
  cases count with
  | once => exact .once
  | all => exact .all
  | times n =>
    have value : Nat.ofDigitChars 10 (Nat.toDigits 10 n) 0 = n := Nat.ofDigitChars_ten_toDigits
    have is_count : CountText (Nat.toDigits 10 n)
        (.times (Nat.ofDigitChars 10 (Nat.toDigits 10 n) 0)) :=
      .times Nat.toDigits_ne_nil
        (fun c member => Nat.isDigit_of_mem_toDigits (by decide) (by decide) member)
        (by rw [value]; exact count_le n rfl)
    rw [value] at is_count
    simpa [text] using is_count

/-! ### Tokens and programs -/

/-- A canonical token in front of a directive string spells its operation. -/
theorem Operation.WellFormed.spells_text {op : Operation} (wellFormed : op.WellFormed)
    {rest : List Char} {program : Program} (spells : Spells rest program) :
    Spells (op.text.toList ++ rest) (op :: program) := by
  obtain ⟨directive, modifiers, count⟩ := op
  have token := Spells.token wellFormed.in_table
    (Modifiers.marksAllowed_text wellFormed.takes_marks) (Count.countText_text wellFormed.count_le)
    (spells.maximal count) spells
  rw [Modifiers.ofMarks_text wellFormed.order_explicit] at token
  simpa [Operation.text, Operation.letter] using token

/-- The canonical string of well-formed operations spells them. -/
theorem spells_text {program : Program} (wellFormed : ∀ op ∈ program, op.WellFormed) :
    Spells program.text.toList program := by
  induction program with
  | nil => exact .nil
  | cons op program ih =>
    have rest := ih fun other member => wellFormed other (.tail _ member)
    have token := (wellFormed op (.head _)).spells_text rest
    simpa [Program.text] using token

/-- What was read once is read again from its canonical string. -/
theorem parse_text_of_parse {text : String} {program : Program}
    (parsed : Program.parse text = .ok program) : Program.parse program.text = .ok program :=
  parse_of_spells (spells_text (spells_of_parse parsed).wellFormed)

/-- **Canonical strings.** What was read once is read again from its canonical string, which is
therefore its own canonical string; and of all that can be read, canonical strings are equal iff the
programs are. -/
theorem parse_text_and_text_eq_iff {text : String} {program : Program}
    (parsed : Program.parse text = .ok program) :
    Program.parse program.text = .ok program ∧
      (∀ again, Program.parse program.text = .ok again → again.text = program.text) ∧
      ∀ other_text other, Program.parse other_text = .ok other →
        (program.text = other.text ↔ program = other) := by
  have again := parse_text_of_parse parsed
  refine ⟨again, ?_, ?_⟩
  · intro other read
    rw [again] at read
    cases read
    rfl
  · intro other_text other parsed_other
    constructor
    · intro same
      have read := parse_text_of_parse parsed_other
      rw [← same, again] at read
      exact Except.ok.inj read
    · rintro rfl
      rfl

/-- Blanks, a comment, the other native-width mark and a leading zero are gone from the canonical
string, and nothing else is. -/
theorem parse_text_of_loose_string :
    ∃ program, Program.parse "s!>03 # x\nN*" = .ok program ∧ program.text = "s_>3N*" ∧
      Program.parse "s_>3N*" = .ok program := by
  have parsed : Program.parse "s!>03 # x\nN*" = .ok
      [⟨Directive.hostInteger 's' 2 2 true "signed 16-bit integer", ⟨true, some .big⟩, .times 3⟩,
        ⟨Directive.fixedInteger 'N' 4 false .big "32-bit network order", .none, .all⟩] := rfl
  have text : Program.text
      [⟨Directive.hostInteger 's' 2 2 true "signed 16-bit integer", ⟨true, some .big⟩, .times 3⟩,
        ⟨Directive.fixedInteger 'N' 4 false .big "32-bit network order", .none, .all⟩] =
      "s_>3N*" := by decide
  exact ⟨_, parsed, text, text ▸ (parse_text_and_text_eq_iff parsed).1⟩

end DirectivePack
