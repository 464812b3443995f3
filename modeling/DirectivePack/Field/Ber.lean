import DirectivePack.Front

/-!
Compressed integers: base-128 digits, the most significant first, every byte but the last marked
with its high bit.

Reading is limited to 128 bits.  A failed read still uses up the bytes that it looked at, so a
cursor over the bytes stands behind them.
-/

namespace DirectivePack.Field

/-- Why a compressed integer cannot be read. -/
inductive BerFailure where
  /-- The bytes end before an unmarked byte. -/
  | incomplete
  /-- The value needs more than 128 bits. -/
  | overflow
deriving DecidableEq, Repr

/-- The marked bytes of a number, in front of `tail`. -/
def berMarked (n : Nat) (tail : Bytes) : Bytes :=
  if n = 0 then tail
  else berMarked (n / 128) (UInt8.ofNat (128 + n % 128) :: tail)
termination_by n

/-- The shortest compressed form of a number. -/
def putBer (n : Nat) : Bytes :=
  berMarked (n / 128) [UInt8.ofNat (n % 128)]

/-- Continues a compressed integer of which the digits so far make `sofar`.  A digit that would
not leave the value below `2 ^ 128` is an overflow, whatever comes after it. -/
def getBerFrom (sofar : Nat) : Bytes → Except BerFailure Nat × Bytes
  | [] => (.error .incomplete, [])
  | b :: bs =>
    if Nat.pow 2 121 ≤ sofar then (.error .overflow, bs)
    else
      let n := 128 * sofar + b.toNat % 128
      if b.toNat < 128 then (.ok n, bs) else getBerFrom n bs

/-- The compressed integer at the front of the bytes, and the bytes behind what was looked at. -/
def getBer : Bytes → Except BerFailure Nat × Bytes :=
  getBerFrom 0

theorem getBerFrom_rest_length_lt {sofar n : Nat} {bs rest : Bytes}
    (read : getBerFrom sofar bs = (.ok n, rest)) : rest.length < bs.length := by
  induction bs generalizing sofar with
  | nil => simp [getBerFrom] at read
  | cons b bs ih =>
    simp only [getBerFrom] at read
    split at read
    · simp at read
    · split at read
      · simp only [Prod.mk.injEq] at read
        simp [← read.2]
      · have := ih read
        simp only [List.length_cons]
        omega

end DirectivePack.Field
