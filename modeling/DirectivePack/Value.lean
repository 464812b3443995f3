import DirectivePack.Text.Utf8
import DirectivePack.Float.Decimal

/-!
The values that are packed and that unpacking produces.

An integer is never read as bytes nor bytes as an integer; the one widening is from an integer to
the nearest double.
-/

namespace DirectivePack

/-- An element of an argument list or of a result list. -/
inductive Value where
  | integer (n : Int)
  | float (x : Binary64)
  | bytes (bs : Bytes)
deriving DecidableEq, Repr

/-- The kinds of values. -/
inductive ValueKind where
  | integer
  | float
  | bytes
deriving DecidableEq, Repr

/-- The kind in words. -/
def ValueKind.name : ValueKind → String
  | .integer => "integer"
  | .float => "float"
  | .bytes => "bytes"

namespace Value

def kind : Value → ValueKind
  | .integer _ => .integer
  | .float _ => .float
  | .bytes _ => .bytes

/-- The bytes of a text as a value. -/
def text (s : String) : Value :=
  .bytes (Utf8.encode s)

def asInteger? : Value → Option Int
  | .integer n => some n
  | _ => none

/-- The value as a double; an integer gives the nearest one. -/
def asFloat? : Value → Option Binary64
  | .float x => some x
  | .integer n => some (.ofInt n)
  | .bytes _ => none

def asBytes? : Value → Option Bytes
  | .bytes bs => some bs
  | _ => none

/-- The value as text; bytes that are not text show as replacement characters. -/
def toText : Value → String
  | .integer n => toString n
  | .float x => x.plainText
  | .bytes bs => String.ofList (Utf8.decodeLossy bs)

/-- Equality of values, with doubles compared as numbers. -/
def equal : Value → Value → Bool
  | .integer m, .integer n => m == n
  | .float x, .float y => x.numericallyEqual y
  | .bytes as, .bytes bs => as == bs
  | _, _ => false

end Value

end DirectivePack
