import DirectivePack.Front
import DirectivePack.ByteOrder

/-!
Integers in fields of a fixed number of bytes, in two's complement.

A field of `w` bytes holds the base-256 digits of the integer modulo `2 ^ (8 * w)`.  A field
accepts both the signed and the unsigned range of its width, so `-1` and `255` are the same byte.

* `digits_length`, `value_digits`: `w` digits are written, and they carry the value modulo
  `256 ^ w`.
* `digits_value`: the digits of a value read from bytes are those bytes.
-/

namespace DirectivePack.Field

/-! ### Digits to the base 256, least significant first -/

/-- The low `width` digits of a number. -/
def digits : Nat → Nat → Bytes
  | 0, _ => []
  | width + 1, n => UInt8.ofNat (n % 256) :: digits width (n / 256)

/-- The number with these digits. -/
def value : Bytes → Nat
  | [] => 0
  | b :: bs => b.toNat + 256 * value bs

@[simp] theorem digits_length (width n : Nat) : (digits width n).length = width := by
  induction width generalizing n with
  | zero => rfl
  | succ width ih => simp [digits, ih]

theorem value_digits (width n : Nat) : value (digits width n) = n % Nat.pow 256 width := by
  induction width generalizing n with
  | zero => simp [digits, value, Nat.mod_one]
  | succ width ih =>
    have hlow : n % 256 % 256 = n % 256 := Nat.mod_mod n 256
    have hpow : Nat.pow 256 (width + 1) = 256 * Nat.pow 256 width := Nat.mul_comm _ _
    rw [digits, value, ih, hpow, Nat.mod_mul]
    simp

theorem digits_value (bs : Bytes) : digits bs.length (value bs) = bs := by
  induction bs with
  | nil => rfl
  | cons b bs ih =>
    have hb : b.toNat < 256 := b.toNat_lt
    have hmod : (b.toNat + 256 * value bs) % 256 = b.toNat := by omega
    have hdiv : (b.toNat + 256 * value bs) / 256 = value bs := by omega
    simp [digits, value, hmod, hdiv, ih]

theorem value_lt (bs : Bytes) : value bs < Nat.pow 256 bs.length := by
  induction bs with
  | nil => simp [value]
  | cons b bs ih =>
    have hb : b.toNat < 256 := b.toNat_lt
    have hpow : Nat.pow 256 (bs.length + 1) = Nat.pow 256 bs.length * 256 := rfl
    rw [value, List.length_cons, hpow]
    omega

/-! ### Integer fields -/

/-- The least and the greatest integer that a field of `width` bytes accepts. -/
def integerRange (width : Nat) : Int × Int :=
  (-(Nat.pow 2 (8 * width - 1) : Int), (Nat.pow 2 (8 * width) : Int) - 1)

/-- Whether a field of `width` bytes accepts the integer, as signed or as unsigned. -/
def fits (width : Nat) (n : Int) : Bool :=
  (integerRange width).1 ≤ n && n ≤ (integerRange width).2

/-- The field of `width` bytes that holds `n` modulo `2 ^ (8 * width)`. -/
def putInteger (width : Nat) (order : ByteOrder) (n : Int) : Bytes :=
  order.arrange (digits width (n % (Nat.pow 2 (8 * width) : Int)).toNat)

/-- The integer in a field: the unsigned value, or its representative around zero. -/
def getInteger (signed : Bool) (order : ByteOrder) (field : Bytes) : Int :=
  let unsigned := value (order.arrange field)
  if signed && Nat.pow 2 (8 * field.length - 1) ≤ unsigned then
    (unsigned : Int) - (Nat.pow 2 (8 * field.length) : Int)
  else
    unsigned

end DirectivePack.Field
