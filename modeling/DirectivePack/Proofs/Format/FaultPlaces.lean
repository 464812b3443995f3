import DirectivePack.Proofs.Format.Grammar
import DirectivePack.Proofs.Format.Joined

/-!
Where the faults of a directive string point, and that they are final.

The reader stops at the first character that it cannot take.  Its fault points there, or, of a count
that grew too large, at the first digit of that count.  In front of the place stands a directive
string of its own, and nothing behind the character that was not taken changes the fault.

* `Fault.Rejects`: the faults that may be found at a character.
* `scan_eq_error_iff`: reading fails iff it fails on one character, behind others that are read.
* `exists_scan_of_digits`: the place that is remembered with a count is the one of its first digit.
* `Program.rejects_of_parse`: the place, the character there and the string in front of it.
* `parse_faults_placed_and_final`: faults of directive strings are placed and final.
-/

namespace DirectivePack

/-- The place in the directive string that a fault carries. -/
def Fault.place? : Fault → Option Nat
  | .format position _ => some position
  | .unknownDirective _ position => position
  | _ => none

/-- The faults that a character is rejected with at a place, and what it has to be for that. -/
inductive Fault.Rejects (c : Char) (place : Nat) : Fault → Prop where
  | stray : Rejects c place (.format place (.stray c))
  | modifierNotAllowed :
      c ∈ modifierMarks → Rejects c place (.format place (.modifierNotAllowed c))
  | bothOrders : c = '<' ∨ c = '>' → Rejects c place (.format place .bothOrders)
  | countTooLarge : c.isDigit = true → Rejects c place (.format place .countTooLarge)
  | unknownDirective :
      (∀ d ∈ Directive.table, d.letter ≠ c) → Rejects c place (.unknownDirective c (some place))

theorem Fault.Rejects.place?_eq {fault : Fault} {c : Char} {place : Nat}
    (rejects : fault.Rejects c place) : fault.place? = some place := by
  cases rejects <;> rfl

theorem Fault.Rejects.not_letter {fault : Fault} {c letter : Char} {place : Nat}
    {position : Option Nat} (rejects : fault.Rejects c place)
    (unknown : fault = .unknownDirective letter position) :
    letter = c ∧ ∀ d ∈ Directive.table, d.letter ≠ c := by
  cases rejects with
  | unknownDirective absent =>
    cases unknown
    exact ⟨rfl, absent⟩
  | stray | modifierNotAllowed | bothOrders | countTooLarge => cases unknown

/-! ### One character -/

section Step

variable {fault : Fault} {position : Nat} {c : Char}

theorem ofModifier?_eq_some {order : ByteOrder} (found : ByteOrder.ofModifier? c = some order) :
    c = '<' ∨ c = '>' := by
  unfold ByteOrder.ofModifier? at found
  split at found
  · exact .inl rfl
  · exact .inr rfl
  · cases found

theorem Modifiers.rejects_of_add {found : Modifiers} {d : Directive} (is_mark : c ∈ modifierMarks)
    (failed : found.add d position c = .error fault) : fault.Rejects c position := by
  unfold add at failed
  split at failed
  · split at failed
    · cases failed
    · cases failed
      exact .modifierNotAllowed is_mark
  · rename_i order is_order
    split at failed
    · cases failed
      exact .modifierNotAllowed is_mark
    · split at failed
      · cases failed
        exact .bothOrders (ofModifier?_eq_some is_order)
      · cases failed

namespace Pending

theorem rejects_of_start (failed : start position c = .error fault) : fault.Rejects c position := by
  unfold start at failed
  split at failed
  · cases failed
  · split at failed
    · cases failed
    · split at failed
      · cases failed
        exact .stray
      · cases found : Directive.find? c with
        | some d => simp [found] at failed
        | none =>
          simp only [found, Except.error.injEq] at failed
          subst failed
          apply Fault.Rejects.unknownDirective
          rintro d member rfl
          rw [Directive.find?_letter d member] at found
          cases found

theorem digit_eq_error {d : Directive} {found : Modifiers} {first count value : Nat}
    (failed : digit d found first count value = .error fault) :
    fault = .format first .countTooLarge := by
  unfold digit at failed
  split at failed
  · cases failed
  · cases failed
    rfl

theorem isDigit_of_decimalDigit? {value : Nat} (is_digit : decimalDigit? c = some value) :
    c.isDigit = true := by
  rw [decimalDigit?_eq] at is_digit
  cases digit : c.isDigit with
  | true => rfl
  | false => simp [digit] at is_digit

/-- A character is rejected where it stands, but for a digit that makes a count too large: that one
is rejected where the count starts. -/
theorem rejects_of_step {pending : Pending} (failed : pending.step position c = .error fault) :
    fault.Rejects c position ∨
      ∃ d found first count, pending = .digits d found first count ∧
        fault = .format first .countTooLarge := by
  cases pending with
  | gap => exact .inl (rejects_of_start (map_eq_error_iff.mp failed))
  | comment => cases failed
  | modifiers d found =>
    simp only [step] at failed
    split at failed
    · rename_i is_mark
      exact .inl (Modifiers.rejects_of_add (isModifier_iff_mem.mp is_mark)
        (map_eq_error_iff.mp failed))
    · split at failed
      · cases failed
      · split at failed
        · rename_i value is_digit
          obtain rfl := digit_eq_error (map_eq_error_iff.mp failed)
          exact .inl (.countTooLarge (isDigit_of_decimalDigit? is_digit))
        · exact .inl (rejects_of_start (map_eq_error_iff.mp failed))
  | digits d found first count =>
    simp only [step] at failed
    split at failed
    · exact .inr ⟨d, found, first, count, rfl, digit_eq_error (map_eq_error_iff.mp failed)⟩
    · exact .inl (rejects_of_start (map_eq_error_iff.mp failed))

/-- Behind a digit of a count stands one more digit of it, or it is the first one. -/
theorem digits_of_step {pending : Pending} {complete : List Operation} {d : Directive}
    {found : Modifiers} {first count : Nat}
    (stepped : pending.step position c = .ok (complete, .digits d found first count)) :
    (∃ count', pending = .digits d found first count') ∨
      (pending = .modifiers d found ∧ first = position ∧ c.isDigit = true) := by
  -- nothing but a digit leads to a count, and what starts an item never does
  have not_started : ∀ {done : List Operation},
      (start position c).map (done, ·) ≠ .ok (complete, .digits d found first count) := by
    intro done started
    obtain ⟨next, started, same⟩ := map_eq_ok_iff.mp started
    obtain ⟨-, rfl⟩ := Prod.mk.inj same
    rcases start_eq_ok_iff.mp started with ⟨-, ⟨⟩⟩ | ⟨-, ⟨⟩⟩ | ⟨_, -, -, ⟨⟩⟩
  cases pending with
  | gap => exact absurd stepped not_started
  | comment =>
    simp only [step] at stepped
    split at stepped <;> cases stepped
  | modifiers d' found' =>
    simp only [step] at stepped
    split at stepped
    · obtain ⟨_, -, ⟨⟩⟩ := map_eq_ok_iff.mp stepped
    · split at stepped
      · cases stepped
      · split at stepped
        · rename_i value is_digit
          obtain ⟨next, taken, same⟩ := map_eq_ok_iff.mp stepped
          obtain ⟨-, rfl⟩ := Prod.mk.inj same
          obtain ⟨-, same⟩ := digit_eq_ok_iff.mp taken
          cases same
          exact .inr ⟨rfl, rfl, isDigit_of_decimalDigit? is_digit⟩
        · exact absurd stepped not_started
  | digits d' found' first' count' =>
    simp only [step] at stepped
    split at stepped
    · obtain ⟨next, taken, same⟩ := map_eq_ok_iff.mp stepped
      obtain ⟨-, rfl⟩ := Prod.mk.inj same
      obtain ⟨-, same⟩ := digit_eq_ok_iff.mp taken
      cases same
      exact .inl ⟨count', rfl⟩
    · exact absurd stepped not_started

end Pending

end Step

/-! ### Rows of characters -/

section Scan

variable {position : Nat} {pending : Pending} {text : List Char}

theorem scan_append_of_error {fault : Fault} (failed : scan position pending text = .error fault)
    (behind : List Char) : scan position pending (text ++ behind) = .error fault := by
  rw [scan_append, failed]

/-- Reading fails iff it fails on one character, behind others that are read. -/
theorem scan_eq_error_iff {fault : Fault} :
    scan position pending text = .error fault ↔
      ∃ before c after complete next, text = before ++ c :: after ∧
        scan position pending before = .ok (complete, next) ∧
        next.step (position + utf8Length before) c = .error fault := by
  constructor
  · intro failed
    induction text generalizing position pending with
    | nil => cases failed
    | cons c cs ih =>
      rw [scan] at failed
      cases stepped : pending.step position c with
      | error e =>
        simp only [stepped, Except.error.injEq] at failed
        exact ⟨[], c, cs, [], pending, rfl, rfl, failed ▸ stepped⟩
      | ok found =>
        obtain ⟨complete, next⟩ := found
        cases others : scan (position + c.utf8Size) next cs with
        | ok found => simp [stepped, others] at failed
        | error e =>
          simp only [stepped, others, Except.error.injEq] at failed
          obtain ⟨before, c', after, more, last, rfl, scanned, fails⟩ := ih (failed ▸ others)
          refine ⟨c :: before, c', after, complete ++ more, last, rfl, ?_, ?_⟩
          · simp only [scan, stepped, scanned]
          · rwa [utf8Length, ← Nat.add_assoc]
  · rintro ⟨before, c, after, complete, next, rfl, scanned, fails⟩
    rw [scan_append, scanned]
    simp only [scan, fails]

/-- What is read leads to a count from within that count, or from a first digit of it, which stands
at the place that is remembered with the count. -/
theorem exists_scan_of_digits {complete : Program} {d : Directive} {found : Modifiers}
    {first count : Nat}
    (scanned : scan position pending text = .ok (complete, .digits d found first count)) :
    (∃ count', pending = .digits d found first count') ∨
      ∃ before c after earlier, text = before ++ c :: after ∧ c.isDigit = true ∧
        first = position + utf8Length before ∧
        scan position pending before = .ok (earlier, .modifiers d found) := by
  induction text generalizing position pending complete with
  | nil =>
    cases scanned
    exact .inl ⟨count, rfl⟩
  | cons c cs ih =>
    rw [scan] at scanned
    cases stepped : pending.step position c with
    | error e => simp [stepped] at scanned
    | ok stepped_to =>
      obtain ⟨done, next⟩ := stepped_to
      cases others : scan (position + c.utf8Size) next cs with
      | error e => simp [stepped, others] at scanned
      | ok scanned_to =>
        obtain ⟨more, last⟩ := scanned_to
        simp only [stepped, others, Except.ok.injEq, Prod.mk.injEq] at scanned
        obtain ⟨-, rfl⟩ := scanned
        rcases ih others with ⟨count', rfl⟩ | ⟨before, c', after, earlier, rfl, is_digit, rfl, read⟩
        · rcases Pending.digits_of_step stepped with within | ⟨rfl, rfl, is_digit⟩
          · exact .inl within
          · exact .inr ⟨[], c, cs, [], rfl, is_digit, rfl, rfl⟩
        · refine .inr ⟨c :: before, c', after, done ++ earlier, rfl, is_digit, ?_, ?_⟩
          · rw [utf8Length, Nat.add_assoc]
          · simp only [scan, stepped, read]

end Scan

/-! ### Directive strings -/

namespace Program

theorem parse_eq_error_iff {text : String} {fault : Fault} :
    parse text = .error fault ↔ scan 0 .gap text.toList = .error fault := by
  unfold parse
  cases scan 0 .gap text.toList <;> simp

theorem exists_parse_iff {text : String} :
    (∃ program, parse text = .ok program) ↔ ∃ scanned, scan 0 .gap text.toList = .ok scanned := by
  unfold parse
  cases scan 0 .gap text.toList <;> simp

/-- **Final faults.** Nothing that is appended changes a fault. -/
theorem parse_append_of_error {text : String} {fault : Fault} (failed : parse text = .error fault)
    (behind : String) : parse (text ++ behind) = .error fault := by
  rw [parse_eq_error_iff] at failed ⊢
  rw [String.toList_append]
  exact scan_append_of_error failed behind.toList

/-- **The place of a fault.** A fault is found at a character, in front of which the string is a
directive string. -/
theorem rejects_of_parse {text : String} {fault : Fault} (failed : parse text = .error fault) :
    ∃ before c after, text = before ++ String.singleton c ++ after ∧
      fault.Rejects c before.utf8ByteSize ∧ ∃ program, parse before = .ok program := by
  obtain ⟨before, c, after, complete, next, split, scanned, fails⟩ :=
    scan_eq_error_iff.mp (parse_eq_error_iff.mp failed)
  -- a split of the characters at which the fault is found is what is asked for
  have enough : ∀ (before after : List Char) (c : Char) (earlier : Program) (last : Pending),
      text.toList = before ++ c :: after → scan 0 .gap before = .ok (earlier, last) →
      fault.Rejects c (utf8Length before) →
      ∃ before c after, text = before ++ String.singleton c ++ after ∧
        fault.Rejects c before.utf8ByteSize ∧ ∃ program, parse before = .ok program := by
    intro before after c earlier last split scanned rejects
    refine ⟨String.ofList before, c, String.ofList after, ?_, ?_, ?_⟩
    · apply String.toList_inj.mp
      simp [split]
    · rwa [utf8ByteSize_ofList]
    · rw [exists_parse_iff, String.toList_ofList]
      exact ⟨_, scanned⟩
  rw [Nat.zero_add] at fails
  rcases Pending.rejects_of_step fails with rejects | ⟨d, found, first, count, rfl, rfl⟩
  · exact enough before after c complete next split scanned rejects
  · rcases exists_scan_of_digits scanned with
      ⟨_, ⟨⟩⟩ | ⟨front, digit, digits, earlier, rfl, is_digit, place, read⟩
    rw [Nat.zero_add] at place
    subst place
    rw [List.append_assoc, List.cons_append] at split
    exact enough front (digits ++ c :: after) digit earlier _ split read (.countTooLarge is_digit)

end Program

/-- **Faults are placed and final.** The fault of a directive string carries a place in it, at the
start of a character.  The character there is the one that is rejected, and no directive has it if it
is said to be unknown; what stands in front of the place is a directive string, and whatever is
appended leaves the fault as it is.  Hence the front of a directive string is a directive string. -/
theorem parse_faults_placed_and_final :
    (∀ (text : String) (fault : Fault), Program.parse text = .error fault →
      ∃ place, fault.place? = some place ∧ place < text.utf8ByteSize ∧
        String.Pos.Raw.IsValid text ⟨place⟩ ∧
        (∃ before c after, text = before ++ String.singleton c ++ after ∧
          before.utf8ByteSize = place ∧ (∃ program, Program.parse before = .ok program) ∧
          fault.Rejects c place ∧
          ∀ letter position, fault = .unknownDirective letter position →
            position = some place ∧ letter = c ∧ ∀ d ∈ Directive.table, d.letter ≠ c) ∧
        ∀ behind, Program.parse (text ++ behind) = .error fault) ∧
    ∀ (front behind : String) (program : Program), Program.parse (front ++ behind) = .ok program →
      ∃ program, Program.parse front = .ok program := by
  constructor
  · intro text fault failed
    obtain ⟨before, c, after, split, rejects, front⟩ := Program.rejects_of_parse failed
    refine ⟨before.utf8ByteSize, rejects.place?_eq, ?_, ?_, ⟨before, c, after, split, rfl, front,
      rejects, ?_⟩, Program.parse_append_of_error failed⟩
    · have some_byte := c.utf8Size_pos
      rw [split, String.utf8ByteSize_append, String.utf8ByteSize_append,
        String.utf8ByteSize_singleton]
      omega
    · rw [String.Pos.Raw.isValid_iff_exists_append]
      exact ⟨before, String.singleton c ++ after, by rw [split, String.append_assoc], rfl⟩
    · intro letter position unknown
      have placed := rejects.place?_eq
      rw [unknown] at placed
      exact ⟨placed, rejects.not_letter unknown⟩
  · intro front behind program parsed
    cases alone : Program.parse front with
    | ok found => exact ⟨found, rfl⟩
    | error fault =>
      rw [Program.parse_append_of_error alone] at parsed
      cases parsed

/-- A count that is too large, behind a comment with a character of two bytes: the place is the one of
its first digit, although it is the last one that is too much. -/
theorem parse_faults_placed_and_final_of_count :
    Program.parse "s#ü\nC2147483648" = .error (.format 6 .countTooLarge) ∧
      (∃ before c after, "s#ü\nC2147483648" = before ++ String.singleton c ++ after ∧
        before.utf8ByteSize = 6 ∧ ∃ program, Program.parse before = .ok program) ∧
      Program.parse ("s#ü\nC2147483648" ++ " ]") = .error (.format 6 .countTooLarge) ∧
      ∃ program, Program.parse "s#ü\nC2" = .ok program := by
  have failed : Program.parse "s#ü\nC2147483648" = .error (.format 6 .countTooLarge) := rfl
  obtain ⟨faults, fronts⟩ := parse_faults_placed_and_final
  obtain ⟨place, placed, -, -, ⟨before, c, after, split, size, front, -, -⟩, final⟩ :=
    faults _ _ failed
  cases placed
  exact ⟨failed, ⟨before, c, after, split, size, front⟩, final " ]",
    fronts "s#ü\nC2" " s" _ rfl⟩

end DirectivePack
