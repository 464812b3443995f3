import DirectivePack.Field.Integer
import DirectivePack.Float.Format

/-!
Doubles in fields of four or eight bytes.

A field of four bytes holds the nearest single; any other width holds the double as it is.
-/

namespace DirectivePack.Field

/-- The field of `width` bytes that holds a double. -/
def putFloat (width : Nat) (order : ByteOrder) (x : Binary64) : Bytes :=
  order.arrange <| if width = 4 then digits 4 x.narrow else digits 8 x.bits.toNat

/-- The double in a field. -/
def getFloat (order : ByteOrder) (field : Bytes) : Binary64 :=
  let pattern := value (order.arrange field)
  if field.length = 4 then .widen pattern else .ofPattern pattern

end DirectivePack.Field
