import DirectivePack.Front

/-!
UTF-8: the shortest forms only, no surrogates, nothing above U+10FFFF.

* `encodeChar` and `readChar` are the two sides of one character.
* `decode?` accepts exactly well-formed text; `decodeLossy` reads any bytes and puts U+FFFD for
  each longest ill-formed piece that a well-formed character could have started with.
* `readChar_rest_length_lt`, `readChar_skipped_length_lt`: reading a character, or skipping an
  ill-formed piece, always uses up a byte.
-/

namespace DirectivePack

/-- The character with a number, unless the number is a surrogate or no code point at all. -/
def charOfNumber? (n : Nat) : Option Char :=
  if n < 0xD800 ∨ (0xDFFF < n ∧ n < 0x110000) then some (Char.ofNat n) else none

namespace Utf8

/-! ### Writing -/

/-- The bytes of one character. -/
def encodeChar (c : Char) : Bytes :=
  let n := c.toNat
  if n < 0x80 then [UInt8.ofNat n]
  else if n < 0x800 then
    [UInt8.ofNat (0xC0 + n / 64), UInt8.ofNat (0x80 + n % 64)]
  else if n < 0x10000 then
    [UInt8.ofNat (0xE0 + n / 4096), UInt8.ofNat (0x80 + n / 64 % 64), UInt8.ofNat (0x80 + n % 64)]
  else
    [UInt8.ofNat (0xF0 + n / 262144), UInt8.ofNat (0x80 + n / 4096 % 64),
      UInt8.ofNat (0x80 + n / 64 % 64), UInt8.ofNat (0x80 + n % 64)]

/-- The bytes of a text. -/
def encode (text : String) : Bytes :=
  text.toList.flatMap encodeChar

/-! ### Reading -/

/-- A byte that continues a character. -/
def isTail (b : UInt8) : Bool :=
  0x80 ≤ b.toNat && b.toNat ≤ 0xBF

/-- Whether `b` may stand right after `lead`.  Four lead bytes narrow the choice, which excludes
longer forms than needed, surrogates, and numbers above U+10FFFF. -/
def mayFollow (lead b : UInt8) : Bool :=
  match lead.toNat with
  | 0xE0 => 0xA0 ≤ b.toNat && b.toNat ≤ 0xBF
  | 0xED => 0x80 ≤ b.toNat && b.toNat ≤ 0x9F
  | 0xF0 => 0x90 ≤ b.toNat && b.toNat ≤ 0xBF
  | 0xF4 => 0x80 ≤ b.toNat && b.toNat ≤ 0x8F
  | _ => isTail b

/-- The length of the character that starts with `lead`, or `0` if none does. -/
def charLength (lead : UInt8) : Nat :=
  if lead.toNat < 0x80 then 1
  else if lead.toNat < 0xC2 then 0
  else if lead.toNat < 0xE0 then 2
  else if lead.toNat < 0xF0 then 3
  else if lead.toNat < 0xF5 then 4
  else 0

/-- The six bits that a continuation byte carries. -/
def tailBits (b : UInt8) : Nat :=
  b.toNat % 64

/-- The character at the front and the bytes behind it; or, where no character stands, the bytes
behind the ill-formed piece. -/
def readChar : Bytes → Except Bytes (Char × Bytes)
  | [] => .error []
  | a :: bs =>
    match charLength a, bs with
    | 1, bs => .ok (Char.ofNat a.toNat, bs)
    | 2, b :: rest =>
      if mayFollow a b then .ok (Char.ofNat (a.toNat % 32 * 64 + tailBits b), rest)
      else .error (b :: rest)
    | 3, b :: c :: rest =>
      if mayFollow a b then
        if isTail c then
          .ok (Char.ofNat (a.toNat % 16 * 4096 + tailBits b * 64 + tailBits c), rest)
        else .error (c :: rest)
      else .error (b :: c :: rest)
    | 4, b :: c :: d :: rest =>
      if mayFollow a b then
        if isTail c then
          if isTail d then
            .ok (Char.ofNat
              (a.toNat % 8 * 262144 + tailBits b * 4096 + tailBits c * 64 + tailBits d), rest)
          else .error (d :: rest)
        else .error (c :: d :: rest)
      else .error (b :: c :: d :: rest)
    | 3, [b] => .error (if mayFollow a b then [] else [b])
    | 4, [b] => .error (if mayFollow a b then [] else [b])
    | 4, [b, c] => .error (if mayFollow a b then if isTail c then [] else [c] else [b, c])
    | _, bs => .error bs

theorem readChar_rest_length_lt (bs : Bytes) (c : Char) (rest : Bytes)
    (read : readChar bs = .ok (c, rest)) : rest.length < bs.length := by
  unfold readChar at read
  grind

theorem readChar_skipped_length_lt (b : UInt8) (bs rest : Bytes)
    (read : readChar (b :: bs) = .error rest) : rest.length < (b :: bs).length := by
  unfold readChar at read
  grind

/-- The text of well-formed bytes. -/
def decode? (bs : Bytes) : Option String :=
  match readAll readChar readChar_rest_length_lt bs with
  | .ok chars => some (String.ofList chars)
  | .error _ => none

/-- What stands for an ill-formed piece. -/
def replacement : Char := '\uFFFD'

/-- The characters of any bytes, ill-formed pieces replaced. -/
def decodeLossy (bs : Bytes) : List Char :=
  match bs with
  | [] => []
  | b :: bs =>
    match _reads : readChar (b :: bs) with
    | .ok (c, rest) => c :: decodeLossy rest
    | .error rest => replacement :: decodeLossy rest
termination_by bs.length
decreasing_by
  · exact readChar_rest_length_lt _ _ _ _reads
  · exact readChar_skipped_length_lt _ _ _ _reads

end Utf8

end DirectivePack
