import DirectivePack.Format.Parser

/-!
The grammar of directive strings, and that the reader accepts exactly it.

A directive string is a row of items: blanks, comments and tokens.  `Spells` is that grammar.  It
speaks of whole pieces of text and knows no states; `Pending.Continues` says in its terms what the
text behind each state of the reader looks like.

* `Pending.continues_cons_iff`: a text continues a state iff the reader takes its first character
  from there to a state that the other characters continue.
* `scan_iff_continues`: hence a text is read from a state iff it continues that state.
* `parse_eq_ok_iff_spells`: a directive string has a program iff it spells that program.
-/

namespace DirectivePack

/-! ### The grammar -/

/-- The ASCII white space characters. -/
def asciiBlanks : List Char := [' ', '\t', '\n', '\x0c', '\r']

/-- The marks that stand for modifiers. -/
def modifierMarks : List Char := ['_', '!', '<', '>']

/-- The letters that marks may follow. -/
def markedLetters : List Char := ['s', 'S', 'i', 'I', 'l', 'L', 'q', 'Q', 'j', 'J']

/-- The marks that may stand behind a letter, in any order and any number of times. -/
structure MarksAllowed (letter : Char) (marks : List Char) : Prop where
  are_marks : ∀ mark ∈ marks, mark ∈ modifierMarks
  letter_takes_marks : marks ≠ [] → letter ∈ markedLetters
  one_order : ¬ ('<' ∈ marks ∧ '>' ∈ marks)

/-- What marks ask for. -/
def Modifiers.ofMarks (marks : List Char) : Modifiers where
  nativeWidth := '_' ∈ marks ∨ '!' ∈ marks
  order := if '<' ∈ marks then some .little else if '>' ∈ marks then some .big else Option.none

/-- The texts of a count: nothing, a star, or decimal digits with a value that is not too large. -/
inductive CountText : List Char → Count → Prop where
  | once : CountText [] .once
  | all : CountText ['*'] .all
  | times {digits : List Char} : digits ≠ [] → (∀ c ∈ digits, c.isDigit = true) →
      Nat.ofDigitChars 10 digits 0 ≤ 2147483647 →
      CountText digits (.times (Nat.ofDigitChars 10 digits 0))

/-- Digits that are a count are followed by no further digit. -/
def Count.Maximal (count : Count) (rest : List Char) : Prop :=
  ∀ n c, count = .times n → rest.head? = some c → c.isDigit = false

/-- The directive strings and their programs.  A comment ends with a line feed or with the text. -/
inductive Spells : List Char → Program → Prop where
  | nil : Spells [] []
  | blank {c : Char} {rest : List Char} {program : Program} :
      c ∈ asciiBlanks → Spells rest program → Spells (c :: rest) program
  | comment {body rest : List Char} {program : Program} :
      '\n' ∉ body → Spells rest program → Spells ('#' :: (body ++ '\n' :: rest)) program
  | lastComment {body : List Char} : '\n' ∉ body → Spells ('#' :: body) []
  | token {directive : Directive} {marks digits rest : List Char} {count : Count}
      {program : Program} :
      directive ∈ Directive.table → MarksAllowed directive.letter marks → CountText digits count →
      count.Maximal rest → Spells rest program →
      Spells (directive.letter :: (marks ++ (digits ++ rest)))
        (⟨directive, .ofMarks marks, count⟩ :: program)

/-! ### Characters -/

theorem isBlank_iff_mem {c : Char} : isBlank c = true ↔ c ∈ asciiBlanks := by
  simp [isBlank, asciiBlanks, or_assoc]

theorem isModifier_iff_mem {c : Char} : isModifier c = true ↔ c ∈ modifierMarks := by
  simp [isModifier, modifierMarks, or_assoc]

/-- The reader and the grammar mean the same digits, with the same values. -/
theorem decimalDigit?_eq (c : Char) :
    decimalDigit? c = if c.isDigit then some (c.toNat - '0'.toNat) else none := by
  simp only [decimalDigit?, Char.isDigit, Char.le_def, ge_iff_le, Bool.and_eq_true,
    decide_eq_true_eq]

/-- No letter of the table starts another item or continues a token, and none but the letters
of the grammar takes marks. -/
theorem table_letters : ∀ d ∈ Directive.table,
    isBlank d.letter = false ∧ d.letter ≠ '#' ∧ d.letter ≠ '*' ∧ d.letter.isDigit = false ∧
      isModifier d.letter = false ∧ d.nativeWidth.isSome = decide (d.letter ∈ markedLetters) := by
  decide

namespace Pending

/-- What the reader does between tokens with the first character of each item, and that it does
nothing with any other. -/
theorem start_eq_ok_iff {position : Nat} {c : Char} {next : Pending} :
    start position c = .ok next ↔
      (c ∈ asciiBlanks ∧ next = .gap) ∨ (c = '#' ∧ next = .comment) ∨
        ∃ d ∈ Directive.table, c = d.letter ∧ next = .modifiers d .none := by
  constructor
  · intro started
    unfold start at started
    split at started
    · rename_i blank
      cases started
      exact .inl ⟨isBlank_iff_mem.mp blank, rfl⟩
    · split at started
      · rename_i hash
        cases started
        exact .inr (.inl ⟨hash, rfl⟩)
      · split at started
        · cases started
        · cases found : Directive.find? c with
          | none => simp [found] at started
          | some d =>
            simp only [found, Except.ok.injEq] at started
            obtain ⟨member, letter⟩ := Directive.mem_table_of_find? found
            exact .inr (.inr ⟨d, member, letter.symm, started.symm⟩)
  · rintro (⟨blank, rfl⟩ | ⟨rfl, rfl⟩ | ⟨d, member, rfl, rfl⟩)
    · simp [start, isBlank_iff_mem.mpr blank]
    · rfl
    · obtain ⟨notBlank, notHash, notStar, notDigit, notMark, -⟩ := table_letters d member
      simp [start, notBlank, notHash, notStar, notMark, decimalDigit?_eq, notDigit,
        Directive.find?_letter d member]

end Pending

/-! ### Marks -/

theorem MarksAllowed.nil (letter : Char) : MarksAllowed letter [] :=
  ⟨by simp, by simp, by simp⟩

theorem Modifiers.ofMarks_nil : Modifiers.ofMarks [] = Modifiers.none := by
  simp [ofMarks, none]

/-- A prefix of allowed marks is allowed. -/
theorem MarksAllowed.of_append {letter : Char} {earlier later : List Char}
    (allowed : MarksAllowed letter (earlier ++ later)) : MarksAllowed letter earlier where
  are_marks mark member := allowed.are_marks mark (List.mem_append_left _ member)
  letter_takes_marks some_mark := allowed.letter_takes_marks (by simp [some_mark])
  one_order both := allowed.one_order
    ⟨List.mem_append_left _ both.1, List.mem_append_left _ both.2⟩

namespace Modifiers

/-- One more mark is taken iff it leaves the marks allowed, and then the modifiers are those of all
marks so far. -/
theorem add_ofMarks_eq_ok_iff {d : Directive} (member : d ∈ Directive.table) {earlier : List Char}
    (allowed : MarksAllowed d.letter earlier) {position : Nat} {mark : Char}
    (is_mark : mark ∈ modifierMarks) {next : Modifiers} :
    (ofMarks earlier).add d position mark = .ok next ↔
      MarksAllowed d.letter (earlier ++ [mark]) ∧ next = ofMarks (earlier ++ [mark]) := by
  have takes : d.nativeWidth.isSome = decide (d.letter ∈ markedLetters) :=
    (table_letters d member).2.2.2.2.2
  have allowed_iff : MarksAllowed d.letter (earlier ++ [mark]) ↔
      d.letter ∈ markedLetters ∧ ¬ ('<' ∈ earlier ++ [mark] ∧ '>' ∈ earlier ++ [mark]) := by
    constructor
    · intro all
      exact ⟨all.letter_takes_marks (by simp), all.one_order⟩
    · rintro ⟨letter, order⟩
      refine ⟨?_, fun _ => letter, order⟩
      intro m hm
      rcases List.mem_append.mp hm with hm | hm
      · exact allowed.are_marks m hm
      · rw [List.mem_singleton.mp hm]
        exact is_mark
  rw [allowed_iff]
  have one_order := allowed.one_order
  simp only [modifierMarks, List.mem_cons, List.not_mem_nil, or_false] at is_mark
  rcases is_mark with rfl | rfl | rfl | rfl <;>
    by_cases letter : d.letter ∈ markedLetters <;>
    by_cases little : '<' ∈ earlier <;> by_cases big : '>' ∈ earlier <;>
    simp_all [add, ByteOrder.ofModifier?, Directive.acceptsNativeWidth, Directive.acceptsOrder,
      ofMarks, @eq_comm _ next]

/-- Whether a mark is taken does not depend on where it stands. -/
theorem add_eq_ok_at {d : Directive} {found next : Modifiers} {position : Nat} {mark : Char}
    (added : found.add d position mark = .ok next) (other : Nat) :
    found.add d other mark = .ok next := by
  unfold add at added ⊢
  grind

end Modifiers

/-- Marks that take a directive from some modifiers to others, one at a time. -/
inductive Marked (d : Directive) : Modifiers → List Char → Modifiers → Prop where
  | nil {found : Modifiers} : Marked d found [] found
  | cons {found next last : Modifiers} {mark : Char} {marks : List Char} :
      mark ∈ modifierMarks → (∀ position, found.add d position mark = .ok next) →
      Marked d next marks last → Marked d found (mark :: marks) last

theorem marked_ofMarks_iff {d : Directive} (member : d ∈ Directive.table)
    {earlier marks : List Char} (allowed : MarksAllowed d.letter earlier) {last : Modifiers} :
    Marked d (.ofMarks earlier) marks last ↔
      MarksAllowed d.letter (earlier ++ marks) ∧ last = .ofMarks (earlier ++ marks) := by
  induction marks generalizing earlier with
  | nil =>
    constructor
    · intro marked
      cases marked
      simp [allowed]
    · rintro ⟨-, rfl⟩
      simpa using Marked.nil
  | cons mark marks ih =>
    constructor
    · intro marked
      cases marked with
      | cons is_mark added marked =>
        obtain ⟨allowed', rfl⟩ :=
          (Modifiers.add_ofMarks_eq_ok_iff member allowed is_mark).mp (added 0)
        simpa using (ih allowed').mp marked
    · rintro ⟨all, rfl⟩
      have is_mark : mark ∈ modifierMarks := all.are_marks mark (by simp)
      have split : earlier ++ mark :: marks = (earlier ++ [mark]) ++ marks := by simp
      rw [split] at all
      refine .cons is_mark (fun position => ?_) ((ih all.of_append).mpr ⟨all, by rw [split]⟩)
      exact (Modifiers.add_ofMarks_eq_ok_iff member allowed is_mark).mpr ⟨all.of_append, rfl⟩

/-! ### The text behind a state of the reader -/

/-- The text behind a state, and the operations that the state and the text make together. -/
def Pending.Continues : Pending → List Char → Program → Prop
  | .gap, text, program => Spells text program
  | .comment, text, program =>
    ('\n' ∉ text ∧ program = []) ∨
      ∃ body rest, text = body ++ '\n' :: rest ∧ '\n' ∉ body ∧ Spells rest program
  | .modifiers d found, text, program =>
    ∃ marks digits rest modifiers count more, text = marks ++ (digits ++ rest) ∧
      Marked d found marks modifiers ∧ CountText digits count ∧ count.Maximal rest ∧
      Spells rest more ∧ program = ⟨d, modifiers, count⟩ :: more
  | .digits d found _ sofar, text, program =>
    ∃ digits rest more, text = digits ++ rest ∧ (∀ c ∈ digits, c.isDigit = true) ∧
      (digits ≠ [] → Nat.ofDigitChars 10 digits sofar ≤ 2147483647) ∧
      (Count.times sofar).Maximal rest ∧ Spells rest more ∧
      program = ⟨d, found, .times (Nat.ofDigitChars 10 digits sofar)⟩ :: more

/-- An item is read by its first character and then by what that character starts. -/
theorem spells_cons_iff (position : Nat) {c : Char} {cs : List Char} {program : Program} :
    Spells (c :: cs) program ↔
      ∃ next, Pending.start position c = .ok next ∧ next.Continues cs program := by
  constructor
  · intro spells
    cases spells with
    | blank blank rest => exact ⟨.gap, Pending.start_eq_ok_iff.mpr (.inl ⟨blank, rfl⟩), rest⟩
    | @comment body rest _ free spells =>
      exact ⟨.comment, Pending.start_eq_ok_iff.mpr (.inr (.inl ⟨rfl, rfl⟩)),
        .inr ⟨body, rest, rfl, free, spells⟩⟩
    | lastComment free =>
      exact ⟨.comment, Pending.start_eq_ok_iff.mpr (.inr (.inl ⟨rfl, rfl⟩)), .inl ⟨free, rfl⟩⟩
    | @token d marks digits rest count more member allowed text maximal spells =>
      have marked : Marked d .none marks (.ofMarks marks) := by
        rw [← Modifiers.ofMarks_nil]
        exact (marked_ofMarks_iff member (.nil _)).mpr ⟨allowed, rfl⟩
      exact ⟨.modifiers d .none, Pending.start_eq_ok_iff.mpr (.inr (.inr ⟨d, member, rfl, rfl⟩)),
        marks, digits, rest, .ofMarks marks, count, more, rfl, marked, text, maximal, spells, rfl⟩
  · rintro ⟨next, started, continues⟩
    rcases Pending.start_eq_ok_iff.mp started with ⟨blank, rfl⟩ | ⟨rfl, rfl⟩ | ⟨d, member, rfl, rfl⟩
    · exact .blank blank continues
    · rcases continues with ⟨free, rfl⟩ | ⟨body, rest, rfl, free, spells⟩
      · exact .lastComment free
      · exact .comment free spells
    · obtain ⟨marks, digits, rest, modifiers, count, more, rfl, marked, text, maximal, spells,
        rfl⟩ := continues
      rw [← Modifiers.ofMarks_nil] at marked
      obtain ⟨allowed, rfl⟩ := (marked_ofMarks_iff member (.nil _)).mp marked
      exact .token member allowed text maximal spells

/-- No item starts with what could belong to the token before it. -/
theorem Spells.head_ends_token {c : Char} {cs : List Char} {program : Program}
    (spells : Spells (c :: cs) program) :
    isModifier c = false ∧ c ≠ '*' ∧ c.isDigit = false := by
  obtain ⟨next, started, -⟩ := (spells_cons_iff 0).mp spells
  rcases Pending.start_eq_ok_iff.mp started with ⟨blank, -⟩ | ⟨rfl, -⟩ | ⟨d, member, rfl, -⟩
  · simp only [asciiBlanks, List.mem_cons, List.not_mem_nil, or_false] at blank
    rcases blank with rfl | rfl | rfl | rfl | rfl <;> decide
  · decide
  · obtain ⟨-, -, notStar, notDigit, notMark, -⟩ := table_letters d member
    exact ⟨notMark, notStar, notDigit⟩

/-! ### Counts -/

theorem le_ofDigitChars (digits : List Char) (sofar : Nat) :
    sofar ≤ Nat.ofDigitChars 10 digits sofar := by
  induction digits generalizing sofar with
  | nil => simp
  | cons c digits ih =>
    rw [Nat.ofDigitChars_cons]
    have := ih (10 * sofar + (c.toNat - '0'.toNat))
    omega

@[simp] theorem Count.maximal_times_iff {n : Nat} {rest : List Char} :
    (Count.times n).Maximal rest ↔ ∀ c, rest.head? = some c → c.isDigit = false := by
  constructor
  · intro maximal c head
    exact maximal n c rfl head
  · rintro none_follows - c - head
    exact none_follows c head

theorem Pending.digit_eq_ok_iff {d : Directive} {found : Modifiers} {first sofar value : Nat}
    {next : Pending} :
    digit d found first sofar value = .ok next ↔
      10 * sofar + value ≤ 2147483647 ∧ next = .digits d found first (10 * sofar + value) := by
  unfold digit Count.greatest
  by_cases fits : 10 * sofar + value ≤ 2147483647 <;> simp [fits, @eq_comm _ next]

/-! ### One character -/

namespace Pending

/-- What a state makes of a character, and the rest of the text of what that leaves. -/
def StepsOn (pending : Pending) (position : Nat) (c : Char) (cs : List Char) (program : Program) :
    Prop :=
  ∃ complete next more, pending.step position c = .ok (complete, next) ∧ next.Continues cs more ∧
    program = complete ++ more

/-- A character that ends the token before it starts the next item. -/
theorem spells_cons_iff_stepsOn {pending : Pending} {position : Nat} {c : Char} {cs : List Char}
    {program : Program}
    (ends : pending.step position c = (start position c).map (pending.close, ·)) :
    pending.StepsOn position c cs program ↔
      ∃ more, Spells (c :: cs) more ∧ program = pending.close ++ more := by
  constructor
  · rintro ⟨complete, next, more, stepped, continues, rfl⟩
    rw [ends] at stepped
    obtain ⟨next', started, same⟩ := map_eq_ok_iff.mp stepped
    obtain ⟨rfl, rfl⟩ := Prod.mk.inj same
    exact ⟨more, (spells_cons_iff position).mpr ⟨next', started, continues⟩, rfl⟩
  · rintro ⟨more, spells, rfl⟩
    obtain ⟨next, started, continues⟩ := (spells_cons_iff position).mp spells
    exact ⟨pending.close, next, more, by rw [ends, started]; rfl, continues, rfl⟩

theorem continues_gap_cons_iff (position : Nat) {c : Char} {cs : List Char} {program : Program} :
    gap.Continues (c :: cs) program ↔ gap.StepsOn position c cs program := by
  rw [spells_cons_iff_stepsOn rfl]
  simp [Continues, close]

theorem continues_comment_cons_iff (position : Nat) {c : Char} {cs : List Char}
    {program : Program} :
    comment.Continues (c :: cs) program ↔ comment.StepsOn position c cs program := by
  simp only [StepsOn, step, Except.ok.injEq, Prod.mk.injEq]
  by_cases feed : c = '\n'
  · subst feed
    constructor
    · rintro (⟨free, -⟩ | ⟨body, rest, split, free, spells⟩)
      · simp at free
      · cases body with
        | nil =>
          obtain ⟨-, rfl⟩ := List.cons.inj split
          exact ⟨[], .gap, program, ⟨rfl, rfl⟩, spells, rfl⟩
        | cons b body =>
          obtain ⟨rfl, -⟩ := List.cons.inj split
          simp at free
    · rintro ⟨_, _, more, ⟨rfl, rfl⟩, continues, rfl⟩
      exact .inr ⟨[], cs, rfl, by simp, continues⟩
  · have feed' : '\n' ≠ c := fun h => feed h.symm
    simp only [if_neg feed]
    constructor
    · rintro (⟨free, rfl⟩ | ⟨body, rest, split, free, spells⟩)
      · exact ⟨[], .comment, [], ⟨rfl, rfl⟩, .inl ⟨fun h => free (.tail _ h), rfl⟩, rfl⟩
      · cases body with
        | nil => exact absurd (List.cons.inj split).1 feed
        | cons b body =>
          obtain ⟨rfl, rfl⟩ := List.cons.inj split
          exact ⟨[], .comment, program, ⟨rfl, rfl⟩,
            .inr ⟨body, rest, rfl, fun h => free (.tail _ h), spells⟩, rfl⟩
    · rintro ⟨_, _, more, ⟨rfl, rfl⟩, ⟨free, rfl⟩ | ⟨body, rest, rfl, free, spells⟩, rfl⟩
      · exact .inl ⟨by simp [feed', free], rfl⟩
      · exact .inr ⟨c :: body, rest, rfl, by simp [feed', free], spells⟩

theorem continues_digits_cons_iff (position : Nat) {d : Directive} {found : Modifiers}
    {first sofar : Nat} {c : Char} {cs : List Char} {program : Program} :
    (digits d found first sofar).Continues (c :: cs) program ↔
      (digits d found first sofar).StepsOn position c cs program := by
  cases is_digit : c.isDigit with
  | false =>
    rw [spells_cons_iff_stepsOn (by simp [step, decimalDigit?_eq, is_digit])]
    constructor
    · rintro ⟨text, rest, more, split, digits, -, -, spells, rfl⟩
      cases text with
      | nil =>
        obtain rfl : c :: cs = rest := split
        exact ⟨more, spells, rfl⟩
      | cons t text =>
        obtain ⟨rfl, -⟩ := List.cons.inj split
        simp [is_digit] at digits
    · rintro ⟨more, spells, rfl⟩
      exact ⟨[], c :: cs, more, rfl, by simp, by simp, by simp [is_digit], spells, rfl⟩
  | true =>
    simp only [StepsOn, step, decimalDigit?_eq, is_digit, if_true]
    constructor
    · rintro ⟨text, rest, more, split, digits, bound, maximal, spells, rfl⟩
      cases text with
      | nil =>
        obtain rfl : c :: cs = rest := split
        simp [is_digit] at maximal
      | cons t text =>
        obtain ⟨rfl, rfl⟩ := List.cons.inj split
        have bound := bound (by simp)
        rw [Nat.ofDigitChars_cons] at bound ⊢
        have fits := Nat.le_trans (le_ofDigitChars _ _) bound
        refine ⟨[], .digits d found first (10 * sofar + (c.toNat - '0'.toNat)), _, ?_, ?_, rfl⟩
        · rw [digit_eq_ok_iff.mpr ⟨fits, rfl⟩]
          rfl
        · exact ⟨text, rest, more, rfl, fun c h => digits c (.tail _ h), fun _ => bound,
            by simpa using maximal, spells, rfl⟩
    · rintro ⟨complete, next, _, stepped, continues, rfl⟩
      obtain ⟨next', taken, same⟩ := map_eq_ok_iff.mp stepped
      obtain ⟨rfl, rfl⟩ := Prod.mk.inj same
      obtain ⟨fits, rfl⟩ := digit_eq_ok_iff.mp taken
      obtain ⟨text, rest, more, rfl, digits, bound, maximal, spells, rfl⟩ := continues
      refine ⟨c :: text, rest, more, rfl, ?_, fun _ => ?_, by simpa using maximal, spells, ?_⟩
      · intro c' member
        rcases List.mem_cons.mp member with rfl | member
        · exact is_digit
        · exact digits c' member
      · rw [Nat.ofDigitChars_cons]
        cases text with
        | nil => simpa using fits
        | cons t text => exact bound (by simp)
      · rw [Nat.ofDigitChars_cons]
        rfl

/-- Behind a letter and its marks stands one more mark, a star, a digit, or the next item. -/
theorem continues_modifiers_cons_cases (first : Nat) {d : Directive} {found : Modifiers} {c : Char}
    {cs : List Char} {program : Program} :
    (modifiers d found).Continues (c :: cs) program ↔
      (c ∈ modifierMarks ∧ ∃ next, (∀ position, found.add d position c = .ok next) ∧
        (modifiers d next).Continues cs program) ∨
      (c = '*' ∧ ∃ more, Spells cs more ∧ program = ⟨d, found, .all⟩ :: more) ∨
      (c.isDigit = true ∧ (digits d found first 0).Continues (c :: cs) program) ∨
      ∃ more, Spells (c :: cs) more ∧ program = ⟨d, found, .once⟩ :: more := by
  constructor
  · rintro ⟨marks, text, rest, last, count, more, split, marked, is_count, maximal, spells, rfl⟩
    cases marked with
    | cons is_mark added marked =>
      obtain ⟨rfl, rfl⟩ := List.cons.inj split
      exact .inl ⟨is_mark, _, added,
        _, text, rest, last, count, more, rfl, marked, is_count, maximal, spells, rfl⟩
    | nil =>
      cases is_count with
      | once =>
        obtain rfl : c :: cs = rest := split
        exact .inr (.inr (.inr ⟨more, spells, rfl⟩))
      | all =>
        obtain ⟨rfl, rfl⟩ := List.cons.inj split
        exact .inr (.inl ⟨rfl, more, spells, rfl⟩)
      | times some_digit are_digits bound =>
        obtain ⟨t, text, rfl⟩ := List.exists_cons_of_ne_nil some_digit
        obtain ⟨rfl, rfl⟩ := List.cons.inj split
        exact .inr (.inr (.inl ⟨are_digits _ (by simp), _, rest, more, rfl, are_digits,
          fun _ => bound, by simpa using maximal, spells, rfl⟩))
  · rintro (⟨is_mark, next, added, marks, text, rest, last, count, more, rfl, marked, continues⟩ |
      ⟨rfl, more, spells, rfl⟩ | ⟨is_digit, text, rest, more, split, are_digits, bound, maximal,
        spells, rfl⟩ | ⟨more, spells, rfl⟩)
    · exact ⟨c :: marks, text, rest, last, count, more, rfl, .cons is_mark added marked, continues⟩
    · exact ⟨[], ['*'], cs, found, .all, more, rfl, .nil, .all, by simp [Count.Maximal], spells,
        rfl⟩
    · have some_digit : text ≠ [] := by
        rintro rfl
        obtain rfl : c :: cs = rest := split
        simp [is_digit] at maximal
      exact ⟨[], text, rest, found, _, more, split, .nil,
        .times some_digit are_digits (bound some_digit), by simpa using maximal, spells, rfl⟩
    · exact ⟨[], [], c :: cs, found, .once, more, rfl, .nil, .once, by simp [Count.Maximal], spells,
        rfl⟩

theorem continues_modifiers_cons_iff (position : Nat) {d : Directive} {found : Modifiers} {c : Char}
    {cs : List Char} {program : Program} :
    (modifiers d found).Continues (c :: cs) program ↔
      (modifiers d found).StepsOn position c cs program := by
  rw [continues_modifiers_cons_cases position]
  have next_item {more : Program} (spells : Spells (c :: cs) more) :
      c ∉ modifierMarks ∧ c ≠ '*' ∧ c.isDigit = false := by
    simpa [← isModifier_iff_mem] using spells.head_ends_token
  by_cases is_mark : c ∈ modifierMarks
  · have not_other : c ≠ '*' ∧ c.isDigit = false := by
      simp only [modifierMarks, List.mem_cons, List.not_mem_nil, or_false] at is_mark
      rcases is_mark with rfl | rfl | rfl | rfl <;> decide
    have steps : (modifiers d found).step position c =
        (found.add d position c).map fun found => ([], modifiers d found) := by
      simp [step, isModifier_iff_mem.mpr is_mark]
    constructor
    · rintro (⟨-, next, added, continues⟩ | ⟨star, -⟩ | ⟨digit, -⟩ | ⟨more, spells, -⟩)
      · exact ⟨[], modifiers d next, program, by rw [steps, added]; rfl, continues, rfl⟩
      · exact absurd star not_other.1
      · simp [not_other.2] at digit
      · exact absurd is_mark (next_item spells).1
    · rintro ⟨complete, next, more, stepped, continues, rfl⟩
      rw [steps] at stepped
      obtain ⟨next', added, same⟩ := map_eq_ok_iff.mp stepped
      obtain ⟨rfl, rfl⟩ := Prod.mk.inj same
      exact .inl ⟨is_mark, next', Modifiers.add_eq_ok_at added, continues⟩
  · have not_mark : isModifier c = false := by
      simpa [← isModifier_iff_mem] using is_mark
    by_cases star : c = '*'
    · subst star
      have steps : (modifiers d found).step position '*' = .ok ([⟨d, found, .all⟩], .gap) := rfl
      constructor
      · rintro (⟨mark, -⟩ | ⟨-, more, spells, rfl⟩ | ⟨digit, -⟩ | ⟨more, spells, -⟩)
        · exact absurd mark is_mark
        · exact ⟨[⟨d, found, .all⟩], .gap, more, steps, spells, rfl⟩
        · simp at digit
        · exact absurd rfl (next_item spells).2.1
      · rintro ⟨complete, next, more, stepped, continues, rfl⟩
        obtain ⟨rfl, rfl⟩ := Prod.mk.inj (Except.ok.inj (steps.symm.trans stepped))
        exact .inr (.inl ⟨rfl, more, continues, rfl⟩)
    · cases is_digit : c.isDigit with
      | true =>
        -- The first digit of a count is read as one more digit behind none.
        have steps : (modifiers d found).step position c =
            (digits d found position 0).step position c := by
          simp [step, not_mark, star, decimalDigit?_eq, is_digit]
        have same : (modifiers d found).StepsOn position c cs program ↔
            (digits d found position 0).Continues (c :: cs) program := by
          rw [continues_digits_cons_iff position, StepsOn, steps, StepsOn]
        rw [same]
        constructor
        · rintro (⟨mark, -⟩ | ⟨star', -⟩ | ⟨-, continues⟩ | ⟨more, spells, -⟩)
          · exact absurd mark is_mark
          · exact absurd star' star
          · exact continues
          · simp [is_digit] at next_item
            exact absurd spells next_item
        · intro continues
          exact .inr (.inr (.inl ⟨rfl, continues⟩))
      | false =>
        rw [spells_cons_iff_stepsOn (by simp [step, not_mark, star, decimalDigit?_eq, is_digit])]
        simp [is_mark, star, close]

/-- **One character.** A text continues a state iff the reader takes its first character from there
to a state that the other characters continue. -/
theorem continues_cons_iff (position : Nat) {pending : Pending} {c : Char} {cs : List Char}
    {program : Program} :
    pending.Continues (c :: cs) program ↔ pending.StepsOn position c cs program := by
  cases pending with
  | gap => exact continues_gap_cons_iff position
  | comment => exact continues_comment_cons_iff position
  | modifiers d found => exact continues_modifiers_cons_iff position
  | digits d found first sofar => exact continues_digits_cons_iff position

/-- At the end of the text a state makes what it closes with. -/
theorem continues_nil_iff {pending : Pending} {program : Program} :
    pending.Continues [] program ↔ program = pending.close := by
  cases pending with
  | gap =>
    constructor
    · intro spells
      cases spells
      rfl
    · rintro rfl
      exact .nil
  | comment => simp [Continues, close]
  | modifiers d found =>
    constructor
    · rintro ⟨marks, digits, rest, modifiers, count, more, split, marked, text, -, spells, rfl⟩
      obtain ⟨rfl, behind⟩ := List.append_eq_nil_iff.mp split.symm
      obtain ⟨rfl, rfl⟩ := List.append_eq_nil_iff.mp behind
      cases marked
      cases spells
      cases text with
      | once => rfl
      | times some_digit => exact absurd rfl some_digit
    · rintro rfl
      exact ⟨[], [], [], found, .once, [], rfl, .nil, .once, by simp [Count.Maximal], .nil, rfl⟩
  | digits d found first sofar =>
    constructor
    · rintro ⟨digits, rest, more, split, -, -, -, spells, rfl⟩
      obtain ⟨rfl, rfl⟩ := List.append_eq_nil_iff.mp split.symm
      cases spells
      rfl
    · rintro rfl
      exact ⟨[], [], [], rfl, by simp, by simp, by simp, .nil, rfl⟩

end Pending

/-! ### Whole texts -/

/-- **Reading a text.** A state and a text make a program together iff the reader reads the text
from there and the program is what it completes on the way and at the end. -/
theorem scan_iff_continues (position : Nat) {pending : Pending} {text : List Char}
    {program : Program} :
    (∃ complete last, scan position pending text = .ok (complete, last) ∧
        program = complete ++ last.close) ↔
      pending.Continues text program := by
  induction text generalizing position pending program with
  | nil =>
    rw [Pending.continues_nil_iff]
    constructor
    · rintro ⟨_, _, ⟨⟩, rfl⟩
      rfl
    · rintro rfl
      exact ⟨[], pending, rfl, rfl⟩
  | cons c cs ih =>
    rw [Pending.continues_cons_iff position]
    unfold Pending.StepsOn scan
    cases pending.step position c with
    | error fault => simp
    | ok stepped =>
      obtain ⟨complete, next⟩ := stepped
      dsimp only
      constructor
      · rintro ⟨_, last, scanned, rfl⟩
        cases scanned_rest : scan (position + c.utf8Size) next cs with
        | error fault => simp [scanned_rest] at scanned
        | ok behind =>
          obtain ⟨more, last'⟩ := behind
          simp only [scanned_rest, Except.ok.injEq, Prod.mk.injEq] at scanned
          obtain ⟨rfl, rfl⟩ := scanned
          exact ⟨complete, next, more ++ last'.close, rfl,
            (ih _).mp ⟨more, last', scanned_rest, rfl⟩, List.append_assoc ..⟩
      · rintro ⟨_, _, more, ⟨⟩, continues, rfl⟩
        obtain ⟨more, last, scanned, rfl⟩ := (ih (position + c.utf8Size)).mpr continues
        refine ⟨complete ++ more, last, ?_, (List.append_assoc ..).symm⟩
        rw [scanned]

theorem parse_eq_ok_iff_scan {text : String} {program : Program} :
    Program.parse text = .ok program ↔
      ∃ complete last, scan 0 .gap text.toList = .ok (complete, last) ∧
        program = complete ++ last.close := by
  unfold Program.parse
  cases scan 0 .gap text.toList with
  | error fault => simp
  | ok scanned =>
    obtain ⟨complete, last⟩ := scanned
    simp only [Except.ok.injEq, Prod.mk.injEq]
    constructor
    · rintro rfl
      exact ⟨complete, last, ⟨rfl, rfl⟩, rfl⟩
    · rintro ⟨_, _, ⟨rfl, rfl⟩, rfl⟩
      rfl

/-- Whatever the reader accepts is spelled by the text. -/
theorem spells_of_parse {text : String} {program : Program}
    (parsed : Program.parse text = .ok program) : Spells text.toList program :=
  (scan_iff_continues 0).mp (parse_eq_ok_iff_scan.mp parsed)

/-- Whatever a text spells the reader accepts. -/
theorem parse_of_spells {text : String} {program : Program}
    (spells : Spells text.toList program) : Program.parse text = .ok program :=
  parse_eq_ok_iff_scan.mpr ((scan_iff_continues 0).mpr spells)

/-- **The reader accepts exactly the grammar.** A directive string has a program iff the grammar
gives it that program. -/
theorem parse_eq_ok_iff_spells (text : String) (program : Program) :
    Program.parse text = .ok program ↔ Spells text.toList program :=
  ⟨spells_of_parse, parse_of_spells⟩

/-! ### What a directive string can ask for -/

/-- What holds of every operation that a directive string spells. -/
structure Operation.WellFormed (op : Operation) : Prop where
  in_table : op.directive ∈ Directive.table
  takes_marks : op.modifiers ≠ .none → op.directive.letter ∈ markedLetters
  order_explicit : op.modifiers.order ≠ some .native
  count_le : ∀ n, op.count = .times n → n ≤ 2147483647

theorem CountText.count_le {text : List Char} {count : Count} (is_count : CountText text count) :
    ∀ n, count = .times n → n ≤ 2147483647 := by
  intro n is_times
  cases is_count with
  | once => cases is_times
  | all => cases is_times
  | times _ _ bound =>
    cases is_times
    exact bound

theorem Spells.wellFormed {text : List Char} {program : Program} (spells : Spells text program) :
    ∀ op ∈ program, op.WellFormed := by
  induction spells with
  | nil => simp
  | blank _ _ ih => exact ih
  | comment _ _ ih => exact ih
  | lastComment _ => simp
  | @token directive marks _ _ count _ member allowed is_count _ _ ih =>
    intro op in_program
    rcases List.mem_cons.mp in_program with rfl | in_program
    · refine ⟨member, fun modified => allowed.letter_takes_marks ?_, ?_, is_count.count_le⟩
      · rintro rfl
        exact modified Modifiers.ofMarks_nil
      · simp only [Modifiers.ofMarks]
        grind
    · exact ih op in_program

end DirectivePack
