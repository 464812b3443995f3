import DirectivePack.Directive

/-!
Programs: what a directive string asks for, as a list of operations.

An operation is a directive with a count and modifiers.  Counts stay symbolic, since a star stands
for as many elements as are left when the operation runs.  `Program.text` is the canonical directive
string: no blanks or comments, `_` for either native-width modifier, one order mark at most, counts
without leading zeros.
-/

namespace DirectivePack

/-- How often a directive applies, or how wide its field is. -/
inductive Count where
  /-- No count, which means one. -/
  | once
  | times (n : Nat)
  /-- A star: as many as there are. -/
  | all
deriving DecidableEq, Repr

namespace Count

/-- The greatest count that can be written. -/
def greatest : Nat := 2147483647

/-- The count where `available` are there. -/
def resolve (available : Nat) : Count → Nat
  | .once => 1
  | .times n => n
  | .all => available

def text : Count → String
  | .once => ""
  | .times n => n.repr
  | .all => "*"

end Count

/-- The modifiers of a directive. -/
structure Modifiers where
  nativeWidth : Bool
  order : Option ByteOrder
deriving DecidableEq, Repr

namespace Modifiers

def none : Modifiers := ⟨false, Option.none⟩

def text (m : Modifiers) : String :=
  (if m.nativeWidth then "_" else "") ++
    match m.order with
    | some .big => ">"
    | some .little => "<"
    | _ => ""

end Modifiers

/-- One step of a program. -/
structure Operation where
  directive : Directive
  modifiers : Modifiers
  count : Count
deriving DecidableEq, Repr

namespace Operation

def letter (op : Operation) : Char :=
  op.directive.letter

/-- The bytes in an element, after the modifiers. -/
def width (op : Operation) : Nat :=
  if op.modifiers.nativeWidth then op.directive.nativeWidth.getD op.directive.width
  else op.directive.width

/-- The byte order, after the modifiers. -/
def order (op : Operation) : ByteOrder :=
  op.modifiers.order.getD op.directive.order

def signed (op : Operation) : Bool :=
  op.directive.signed

/-- The canonical token. -/
def text (op : Operation) : String :=
  String.singleton op.letter ++ op.modifiers.text ++ op.count.text

end Operation

/-- The operations of a directive string, in order. -/
abbrev Program := List Operation

namespace Program

/-- The canonical directive string. -/
def text (program : Program) : String :=
  String.join (program.map Operation.text)

end Program

end DirectivePack
