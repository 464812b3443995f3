/-!
IEEE 754 binary formats on bit patterns, with exact integer arithmetic.

A pattern is a natural number: a sign bit, then the exponent field, then the fraction field.  One
rounding function serves every conversion, whether it narrows a double, widens an integer or reads a
decimal: `FloatFormat.round` takes a quotient of natural numbers to the nearest pattern, ties to the
even one.

* `decode` says which number, infinity or NaN a pattern stands for.
* `divNearestEven` is the only place where anything is rounded.
-/

namespace DirectivePack

/-- A binary format: the sizes of its fraction field and its exponent field. -/
structure FloatFormat where
  fractionBits : Nat
  exponentBits : Nat
deriving DecidableEq, Repr

/-- What a bit pattern stands for.  A finite number is `significand * 2 ^ exponent`, signed. -/
inductive FloatDatum where
  | nan (negative : Bool) (payload : Nat)
  | infinite (negative : Bool)
  | finite (negative : Bool) (significand : Nat) (exponent : Int)
deriving DecidableEq, Repr

/-! ### Quotients of natural numbers -/

/-- The natural number nearest to `num / den`, ties to the even one. -/
def divNearestEven (num den : Nat) : Nat :=
  let quotient := num / den
  let twice := 2 * (num % den)
  if twice < den then quotient
  else if den < twice then quotient + 1
  else if quotient % 2 = 0 then quotient
  else quotient + 1

/-- Numerator and denominator of `num / den / 2 ^ exponent`. -/
def unscale (num den : Nat) (exponent : Int) : Nat × Nat :=
  (num * Nat.pow 2 (-exponent).toNat, den * Nat.pow 2 exponent.toNat)

/-- The exponent of the greatest power of two that is not above `num / den`, both positive. -/
def floorLog2 (num den : Nat) : Int :=
  let estimate : Int := (num.log2 : Int) - den.log2
  let (n, d) := unscale num den estimate
  if d ≤ n then estimate else estimate - 1

namespace FloatFormat

def binary32 : FloatFormat := ⟨23, 8⟩

def binary64 : FloatFormat := ⟨52, 11⟩

/-- The exponent of the last fraction bit of the smallest numbers. -/
def minExponent (format : FloatFormat) : Int :=
  2 - (Nat.pow 2 (format.exponentBits - 1) : Int) - format.fractionBits

/-- The pattern of positive infinity.  Patterns above it, sign bit aside, are NaNs. -/
def infinity (format : FloatFormat) : Nat :=
  (Nat.pow 2 format.exponentBits - 1) * Nat.pow 2 format.fractionBits

/-- The sign bit as a number. -/
def signBit (format : FloatFormat) : Nat :=
  Nat.pow 2 (format.fractionBits + format.exponentBits)

/-- A magnitude with its sign bit. -/
def withSign (format : FloatFormat) (negative : Bool) (magnitude : Nat) : Nat :=
  if negative then format.signBit + magnitude else magnitude

/-- What a pattern stands for. -/
def decode (format : FloatFormat) (pattern : Nat) : FloatDatum :=
  let negative := pattern / format.signBit % 2 = 1
  let field := pattern / Nat.pow 2 format.fractionBits % Nat.pow 2 format.exponentBits
  let fraction := pattern % Nat.pow 2 format.fractionBits
  if field = Nat.pow 2 format.exponentBits - 1 then
    if fraction = 0 then .infinite negative else .nan negative fraction
  else if field = 0 then .finite negative fraction format.minExponent
  else .finite negative (Nat.pow 2 format.fractionBits + fraction) (format.minExponent + field - 1)

/-- The pattern nearest to `num / den`, ties to even; infinity from half a step above the greatest
finite number on.  Neighbouring magnitudes have neighbouring patterns, so a significand that rounds
up to the next power of two carries into the exponent field by itself. -/
def round (format : FloatFormat) (num den : Nat) : Nat :=
  if num = 0 then 0
  else
    let exponent := max (floorLog2 num den - format.fractionBits) format.minExponent
    let (n, d) := unscale num den exponent
    let field := (exponent - format.minExponent).toNat
    min (field * Nat.pow 2 format.fractionBits + divNearestEven n d) format.infinity

/-- The pattern of this format for what a pattern of another one stands for.  A NaN keeps its sign
and its leading payload bits and becomes quiet. -/
def ofDatum (format source : FloatFormat) : FloatDatum → Nat
  | .infinite negative => format.withSign negative format.infinity
  | .nan negative payload =>
    let quiet := Nat.pow 2 (format.fractionBits - 1)
    let moved := payload * Nat.pow 2 format.fractionBits / Nat.pow 2 source.fractionBits
    format.withSign negative (format.infinity + quiet + moved % quiet)
  | .finite negative significand exponent =>
    let (n, d) := unscale significand 1 (-exponent)
    format.withSign negative (format.round n d)

end FloatFormat

/-! ### Doubles -/

/-- A double, as its bit pattern.  Patterns that are equal are the same double; the numbers `0` and
`-0` are two. -/
structure Binary64 where
  bits : UInt64
deriving DecidableEq, Repr, Inhabited

namespace Binary64

/-- The double with the low 64 bits of a number as its pattern. -/
def ofPattern (pattern : Nat) : Binary64 :=
  ⟨UInt64.ofNat pattern⟩

def datum (x : Binary64) : FloatDatum :=
  FloatFormat.binary64.decode x.bits.toNat

def isFinite (x : Binary64) : Bool :=
  match x.datum with
  | .finite .. => true
  | _ => false

def isNaN (x : Binary64) : Bool :=
  match x.datum with
  | .nan .. => true
  | _ => false

/-- The double nearest to an integer. -/
def ofInt (n : Int) : Binary64 :=
  let format := FloatFormat.binary64
  ofPattern (format.withSign (n < 0) (format.round n.natAbs 1))

/-- The pattern of the nearest single, which is infinite for numbers beyond its range. -/
def narrow (x : Binary64) : Nat :=
  FloatFormat.binary32.ofDatum .binary64 x.datum

/-- The pattern of the nearest single, unless a finite number is beyond its range. -/
def narrow? (x : Binary64) : Option Nat :=
  let pattern := x.narrow
  if x.isFinite && pattern % FloatFormat.binary32.signBit == FloatFormat.binary32.infinity then none
  else some pattern

/-- The double with the value of a single. -/
def widen (pattern : Nat) : Binary64 :=
  ofPattern (FloatFormat.binary64.ofDatum .binary32 (FloatFormat.binary32.decode pattern))

/-- Equality of numbers: a NaN differs from everything, and zero equals minus zero. -/
def numericallyEqual (x y : Binary64) : Bool :=
  match x.datum, y.datum with
  | .nan .., _ => false
  | _, .nan .. => false
  | .finite _ 0 _, .finite _ 0 _ => true
  | _, _ => x == y

end Binary64

end DirectivePack
