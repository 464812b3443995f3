import DirectivePack.Format.Parser

/-!
Two directive strings on consecutive lines.

A line feed ends whatever the reader is in the middle of, so that it reads the second line as it
would read it alone.  Only the places in its faults are other ones, since these count from the start
of the first line.

* `scan_moved`: reading from a later place gives the same, with later places in faults.
* `Pending.step_newline`: a line feed completes the pending token.
* `Program.parse_append_newline`: the program of both lines.
-/

namespace DirectivePack

/-! ### Places -/

/-- The fault with its place moved back by so many bytes. -/
def Fault.moved (offset : Nat) : Fault → Fault
  | .format position reason => .format (position + offset) reason
  | .unknownDirective letter (some position) => .unknownDirective letter (some (position + offset))
  | fault => fault

/-- The state with the place that it remembers moved back by so many bytes. -/
def Pending.moved (offset : Nat) : Pending → Pending
  | .digits directive found start count => .digits directive found (start + offset) count
  | pending => pending

/-- An outcome of reading, with what it says of places moved back by so many bytes. -/
def movedOutcome {α : Type} (offset : Nat) (move : α → α) (outcome : Except Fault α) :
    Except Fault α :=
  (outcome.map move).mapError (Fault.moved offset)

section Moved

variable (offset position : Nat)

theorem Modifiers.add_moved (found : Modifiers) (directive : Directive) (mark : Char) :
    found.add directive (position + offset) mark =
      movedOutcome offset id (found.add directive position mark) := by
  unfold add
  cases ByteOrder.ofModifier? mark with
  | none =>
    dsimp only
    split <;> rfl
  | some order =>
    dsimp only
    split
    · rfl
    · split <;> rfl

namespace Pending

@[simp] theorem close_moved (pending : Pending) : (pending.moved offset).close = pending.close := by
  cases pending <;> rfl

theorem start_moved (c : Char) :
    start (position + offset) c = movedOutcome offset (moved offset) (start position c) := by
  unfold start
  split
  · rfl
  · split
    · rfl
    · split
      · rfl
      · cases Directive.find? c <;> rfl

theorem digit_moved (directive : Directive) (found : Modifiers) (count d : Nat) :
    digit directive found (position + offset) count d =
      movedOutcome offset (moved offset) (digit directive found position count d) := by
  unfold digit
  split <;> rfl

/-- Reading a character further back. -/
theorem step_moved (pending : Pending) (c : Char) :
    (pending.moved offset).step (position + offset) c =
      movedOutcome offset (Prod.map id (moved offset)) (pending.step position c) := by
  cases pending with
  | gap =>
    simp only [moved, step, start_moved]
    cases start position c <;> rfl
  | comment => simp only [moved, step]; split <;> rfl
  | modifiers directive found =>
    simp only [moved, step, Modifiers.add_moved, digit_moved, start_moved]
    split
    · cases found.add directive position c <;> rfl
    · split
      · rfl
      · split
        · cases digit directive found position 0 _ <;> rfl
        · cases start position c <;> rfl
  | digits directive found first count =>
    simp only [moved, step, digit_moved, start_moved]
    split
    · cases digit directive found first count _ <;> rfl
    · cases start position c <;> rfl

end Pending

/-- Reading characters further back. -/
theorem scan_moved (pending : Pending) (text : List Char) :
    scan (position + offset) (pending.moved offset) text =
      movedOutcome offset (Prod.map id (Pending.moved offset)) (scan position pending text) := by
  induction text generalizing position pending with
  | nil => rfl
  | cons c cs ih =>
    have further : position + offset + c.utf8Size = position + c.utf8Size + offset := by omega
    rw [scan, scan, Pending.step_moved]
    cases pending.step position c with
    | error fault => rfl
    | ok stepped =>
      obtain ⟨complete, next⟩ := stepped
      simp only [movedOutcome, Except.map, mapError_ok, Prod.map, id, further, ih]
      cases scan (position + c.utf8Size) next cs <;> rfl

end Moved

/-! ### Lines -/

/-- A line feed ends what is pending. -/
theorem Pending.step_newline (pending : Pending) (position : Nat) :
    pending.step position '\n' = .ok (pending.close, .gap) := by
  cases pending <;> rfl

theorem utf8ByteSize_ofList (cs : List Char) : (String.ofList cs).utf8ByteSize = utf8Length cs := by
  induction cs with
  | nil => rfl
  | cons c cs ih =>
    rw [String.ofList_cons, String.utf8ByteSize_append, String.utf8ByteSize_singleton, ih,
      utf8Length]

theorem utf8Length_toList (text : String) : utf8Length text.toList = text.utf8ByteSize := by
  rw [← utf8ByteSize_ofList, String.ofList_toList]

/-- **Two lines.** If the first line is a program, both lines are that program and behind it what
the second line is alone.  A fault of the second line is found at a place that is further back by the
bytes of the first line and the line feed. -/
theorem Program.parse_append_newline {first : String} {program : Program}
    (parsed : parse first = .ok program) (second : String) :
    parse (first ++ "\n" ++ second) =
      ((parse second).map (program ++ ·)).mapError (Fault.moved (first.utf8ByteSize + 1)) := by
  unfold parse at parsed ⊢
  cases scanned : scan 0 .gap first.toList with
  | error fault => simp [scanned] at parsed
  | ok found =>
    obtain ⟨complete, pending⟩ := found
    simp only [scanned, Except.ok.injEq] at parsed
    subst parsed
    have lines : (first ++ "\n" ++ second).toList = first.toList ++ '\n' :: second.toList := by
      simp
    have place : 0 + utf8Length first.toList + '\n'.utf8Size = 0 + (first.utf8ByteSize + 1) := by
      rw [utf8Length_toList]
      rfl
    have behind : scan (0 + (first.utf8ByteSize + 1)) .gap second.toList = _ :=
      scan_moved (first.utf8ByteSize + 1) 0 .gap second.toList
    rw [lines, scan_append, scanned]
    dsimp only
    rw [scan, Pending.step_newline]
    dsimp only
    rw [place, behind]
    cases scan 0 .gap second.toList with
    | error fault => rfl
    | ok found =>
      obtain ⟨more, last⟩ := found
      simp [movedOutcome, Except.map, List.append_assoc]

end DirectivePack
