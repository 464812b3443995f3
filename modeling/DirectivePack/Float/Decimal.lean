import DirectivePack.Float.Format

/-!
Doubles as decimals.

* `shortest`: of the decimals that read back as a given double, one with the fewest digits, and of
  those the nearest to it.
* `ofDecimal`: the double nearest to a decimal.
* `plainText` and `exponentText` are the two layouts of a double: one never uses an exponent, the
  other does outside a middle range.
-/

namespace DirectivePack

/-- The number `digits * 10 ^ exponent`. -/
structure Decimal where
  digits : Nat
  exponent : Int
deriving DecidableEq, Repr

/-- Which of two neighbours a decimal exactly between them becomes. -/
inductive Tie where
  | up
  | even
deriving DecidableEq, Repr

namespace Decimal

/-- Numerator and denominator of `10 ^ p / 2 ^ q`. -/
def gridStep (p q : Int) : Nat × Nat :=
  (Nat.pow 10 p.toNat * Nat.pow 2 (-q).toNat, Nat.pow 10 (-p).toNat * Nat.pow 2 q.toNat)

/-- An exponent of ten not below the one of the leading digit of `significand * 2 ^ q`, and at most
two above it.  The quotient 30103 / 100000 is the logarithm of two to the base ten. -/
def leadingExponent (significand : Nat) (q : Int) : Int :=
  ((significand.log2 : Int) + q) * 30103 / 100000 + 2

/-- A positive double `significand * 2 ^ exponent` with the numbers that round to it, in quarters of
`2 ^ exponent`: those from `center - below` to `center + 2`, the ends counted if the significand is
even. -/
structure Target where
  significand : Nat
  exponent : Int
  below : Nat

namespace Target

def center (t : Target) : Nat :=
  4 * t.significand

/-- Whether a multiple of `step` rounds to the target, with all numbers scaled by `unit`. -/
def admits (t : Target) (unit x : Nat) : Bool :=
  let low := (t.center - t.below) * unit
  let high := (t.center + 2) * unit
  if t.significand % 2 = 0 then low ≤ x && x ≤ high else low < x && x < high

/-- The multiple of `10 ^ p` nearest to the target, if one rounds to it. -/
def onGrid? (t : Target) (tie : Tie) (p : Int) : Option Decimal :=
  let (step, unit) := gridStep p (t.exponent - 2)
  let center := t.center * unit
  let low := center / step
  let toLow := center - low * step
  let toHigh := (low + 1) * step - center
  match t.admits unit (low * step), t.admits unit ((low + 1) * step) with
  | true, true =>
    if toLow < toHigh then some ⟨low, p⟩
    else if toHigh < toLow then some ⟨low + 1, p⟩
    else match tie with
      | .up => some ⟨low + 1, p⟩
      | .even => some ⟨if low % 2 = 0 then low else low + 1, p⟩
  | true, false => some ⟨low, p⟩
  | false, true => some ⟨low + 1, p⟩
  | false, false => none

/-- The shortest decimal that rounds to the target: the first hit on grids that get finer.  A double
needs at most seventeen digits, so the list of grids is long enough. -/
def shortest (t : Target) (tie : Tie) : Decimal :=
  let top := leadingExponent t.significand t.exponent
  ((List.range 22).findSome? fun (i : Nat) => t.onGrid? tie (top - i)).getD ⟨0, 0⟩

end Target

/-- The shortest decimal for a positive double.  Below a power of two the doubles stand closer. -/
def shortest (tie : Tie) (significand : Nat) (exponent : Int) : Decimal :=
  let closer := significand = Nat.pow 2 FloatFormat.binary64.fractionBits
    ∧ FloatFormat.binary64.minExponent < exponent
  Target.shortest ⟨significand, exponent, if closer then 1 else 2⟩ tie

/-! ### Layouts -/

/-- The digits with the decimal point in its place, and no exponent. -/
def positional (x : Decimal) : String :=
  let digits := x.digits.repr
  if 0 ≤ x.exponent then digits ++ "".pushn '0' x.exponent.toNat
  else
    let places := (-x.exponent).toNat
    let chars := digits.toList
    if places < chars.length then
      let whole := chars.length - places
      String.ofList (chars.take whole) ++ "." ++ String.ofList (chars.drop whole)
    else "0." ++ "".pushn '0' (places - chars.length) ++ digits

/-- The position of the decimal point, counted from the front of the digits. -/
def point (x : Decimal) : Int :=
  x.digits.repr.length + x.exponent

/-- One digit, the others behind a point, and a signed exponent. -/
def scientific (x : Decimal) : String :=
  let power := x.point - 1
  let mark := if power < 0 then "e-" else "e+"
  let digits := match x.digits.repr.toList with
    | [] => ""
    | [d] => String.singleton d
    | d :: ds => String.singleton d ++ "." ++ String.ofList ds
  digits ++ mark ++ power.natAbs.repr

end Decimal

namespace Binary64

/-- Sign, then a text for the magnitude. -/
def withMinus (negative : Bool) (text : String) : String :=
  if negative then "-" ++ text else text

/-- The shortest text without an exponent: `1`, `0.1`, `-0`, `inf`, `NaN`.  A tie goes up. -/
def plainText (x : Binary64) : String :=
  match x.datum with
  | .nan .. => "NaN"
  | .infinite negative => withMinus negative "inf"
  | .finite negative 0 _ => withMinus negative "0"
  | .finite negative significand exponent =>
    withMinus negative (Decimal.shortest .up significand exponent).positional

/-- The shortest text that shows a fraction or an exponent: `1.0`, `0.00001`, `1e-6`, `1e+16`.  A
point may stand four places before the digits and up to sixteen behind the first of them; a tie goes
to the even digit. -/
def exponentText (x : Binary64) : String :=
  match x.datum with
  | .nan .. => "NaN"
  | .infinite negative => withMinus negative "inf"
  | .finite negative 0 _ => withMinus negative "0.0"
  | .finite negative significand exponent =>
    let decimal := Decimal.shortest .even significand exponent
    withMinus negative <|
      if decimal.point < -4 ∨ 16 < decimal.point then decimal.scientific
      else if 0 ≤ decimal.exponent then decimal.positional ++ ".0"
      else decimal.positional

/-! ### Reading -/

/-- The double nearest to `digits * 10 ^ exponent`, signed.  The two ranges cut off are far outside
what a double can hold. -/
def ofDecimal (negative : Bool) (digits : Nat) (exponent : Int) : Binary64 :=
  let format := FloatFormat.binary64
  let size : Int := digits.log2 * 30103 / 100000 + exponent
  let magnitude :=
    if digits = 0 ∨ size < -400 then 0
    else if 400 < size then format.infinity
    else format.round (digits * Nat.pow 10 exponent.toNat) (Nat.pow 10 (-exponent).toNat)
  ofPattern (format.withSign negative magnitude)

end Binary64

end DirectivePack
