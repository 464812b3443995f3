import DirectivePack.Format.Program
import DirectivePack.Fault
import DirectivePack.Text.Blank

/-!
Reading a directive string.

A token is a directive letter, then its modifiers, then its count, with nothing in between.  Between
tokens stand blanks, and comments from `#` to the end of the line.

The reader is an automaton over characters.  What it knows between two characters is a `Pending`:
the token that the characters so far may still belong to.  Places in faults are counted in bytes of
the UTF-8 form; a count that grows too large is reported where its digits start.

* `scan_append`: reading a text and then another one is reading both in one.
-/

namespace DirectivePack

/-- What the reader is in the middle of. -/
inductive Pending where
  /-- Between tokens. -/
  | gap
  | comment
  /-- Behind a letter and some modifiers. -/
  | modifiers (directive : Directive) (found : Modifiers)
  /-- Behind some digits of a count, the first of which stands at `start`. -/
  | digits (directive : Directive) (found : Modifiers) (start : Nat) (count : Nat)
deriving DecidableEq, Repr

def isModifier (c : Char) : Bool :=
  c == '_' || c == '!' || c == '<' || c == '>'

namespace Modifiers

/-- The modifiers with one more, which stands at `position`. -/
def add (found : Modifiers) (directive : Directive) (position : Nat) (mark : Char) :
    Except Fault Modifiers :=
  match ByteOrder.ofModifier? mark with
  | Option.none =>
    if directive.acceptsNativeWidth then .ok { found with nativeWidth := true }
    else .error (.format position (.modifierNotAllowed mark))
  | some order =>
    if ! directive.acceptsOrder then .error (.format position (.modifierNotAllowed mark))
    else if found.order.isSome && found.order != some order then
      .error (.format position .bothOrders)
    else .ok { found with order := some order }

end Modifiers

/-- The value of a decimal digit. -/
def decimalDigit? (c : Char) : Option Nat :=
  if '0' ≤ c ∧ c ≤ '9' then some (c.toNat - '0'.toNat) else none

namespace Pending

/-- The operations that end with the pending token. -/
def close : Pending → List Operation
  | .gap | .comment => []
  | .modifiers directive found => [⟨directive, found, .once⟩]
  | .digits directive found _ count => [⟨directive, found, .times count⟩]

/-- A character that does not continue a token. -/
def start (position : Nat) (c : Char) : Except Fault Pending :=
  if isBlank c then .ok .gap
  else if c = '#' then .ok .comment
  else if c = '*' ∨ (decimalDigit? c).isSome ∨ isModifier c then
    .error (.format position (.stray c))
  else
    match Directive.find? c with
    | some directive => .ok (.modifiers directive .none)
    | none => .error (.unknownDirective c (some position))

/-- One more digit of a count. -/
def digit (directive : Directive) (found : Modifiers) (start count d : Nat) :
    Except Fault Pending :=
  if 10 * count + d ≤ Count.greatest then .ok (.digits directive found start (10 * count + d))
  else .error (.format start .countTooLarge)

/-- Reads one character: the operations that it completes, and what is pending behind it. -/
def step (position : Nat) (c : Char) : Pending → Except Fault (List Operation × Pending)
  | .gap => (start position c).map ([], ·)
  | .comment => .ok ([], if c = '\n' then .gap else .comment)
  | .modifiers directive found =>
    if isModifier c then
      (found.add directive position c).map fun found => ([], .modifiers directive found)
    else if c = '*' then .ok ([⟨directive, found, .all⟩], .gap)
    else
      match decimalDigit? c with
      | some d => (digit directive found position 0 d).map ([], ·)
      | none => (start position c).map ((modifiers directive found).close, ·)
  | .digits directive found first count =>
    match decimalDigit? c with
    | some d => (digit directive found first count d).map ([], ·)
    | none => (start position c).map ((digits directive found first count).close, ·)

end Pending

/-- Reads characters, the first of which stands at `position`: the operations that they complete,
and what is pending behind them. -/
def scan (position : Nat) (pending : Pending) : List Char → Except Fault (Program × Pending)
  | [] => .ok ([], pending)
  | c :: cs =>
    match pending.step position c with
    | .error fault => .error fault
    | .ok (complete, pending) =>
      match scan (position + c.utf8Size) pending cs with
      | .error fault => .error fault
      | .ok (program, pending) => .ok (complete ++ program, pending)

/-- The size of the UTF-8 form of some characters. -/
def utf8Length : List Char → Nat
  | [] => 0
  | c :: cs => c.utf8Size + utf8Length cs

theorem scan_append (position : Nat) (pending : Pending) (first second : List Char) :
    scan position pending (first ++ second) =
      match scan position pending first with
      | .error fault => .error fault
      | .ok (program, pending) =>
        match scan (position + utf8Length first) pending second with
        | .error fault => .error fault
        | .ok (more, pending) => .ok (program ++ more, pending) := by
  induction first generalizing position pending with
  | nil =>
    simp only [List.nil_append, scan, utf8Length, Nat.add_zero]
    cases scan position pending second <;> simp
  | cons c cs ih =>
    simp only [List.cons_append, scan, utf8Length]
    cases pending.step position c with
    | error fault => rfl
    | ok stepped =>
      simp only [ih, Nat.add_assoc]
      cases scan (position + c.utf8Size) stepped.2 cs with
      | error fault => rfl
      | ok scanned =>
        dsimp only
        cases scan (position + (c.utf8Size + utf8Length cs)) scanned.2 second <;>
          simp [List.append_assoc]

namespace Program

/-- The program of a directive string. -/
def parse (text : String) : Except Fault Program :=
  match scan 0 .gap text.toList with
  | .error fault => .error fault
  | .ok (program, pending) => .ok (program ++ pending.close)

end Program

end DirectivePack
