/-!
Byte orders of a multi-byte field.

A directive fixes its order or follows the host, and an order modifier may override the host order
for one token.  The host of this library is little-endian.
-/

namespace DirectivePack

inductive ByteOrder where
  /-- The order of the host. -/
  | native
  /-- Most significant byte first. -/
  | big
  /-- Least significant byte first. -/
  | little
deriving DecidableEq, Repr, Inhabited

namespace ByteOrder

/-- A directive without an order of its own follows the host. -/
def standard : ByteOrder := .native

/-- The order that a modifier character asks for. -/
def ofModifier? : Char → Option ByteOrder
  | '<' => some .little
  | '>' => some .big
  | _ => none

/-- The order in force: the host order is little-endian. -/
def resolve : ByteOrder → ByteOrder
  | .native => .little
  | order => order

/-- The order in words. -/
def name : ByteOrder → String
  | .native => "native"
  | .big => "big-endian"
  | .little => "little-endian"

/-- The order as a word of a JSON document. -/
def key : ByteOrder → String
  | .native => "native"
  | .big => "big_endian"
  | .little => "little_endian"

/-- Puts digits given with the least significant first into this order, or back. -/
def arrange {α : Type} (order : ByteOrder) (digits : List α) : List α :=
  match order.resolve with
  | .big => digits.reverse
  | _ => digits

@[simp] theorem resolve_resolve (order : ByteOrder) : order.resolve.resolve = order.resolve := by
  cases order <;> rfl

@[simp] theorem arrange_arrange {α : Type} (order : ByteOrder) (digits : List α) :
    order.arrange (order.arrange digits) = digits := by
  cases order <;> simp [arrange, resolve]

@[simp] theorem length_arrange {α : Type} (order : ByteOrder) (digits : List α) :
    (order.arrange digits).length = digits.length := by
  cases order <;> simp [arrange, resolve]

end ByteOrder

end DirectivePack
