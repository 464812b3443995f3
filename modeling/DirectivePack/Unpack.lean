import DirectivePack.Field.Floating
import DirectivePack.Field.Ber
import DirectivePack.Format.Parser

/-!
Unpacking: a program turns bytes into a list of values.

Operations read from the front of the bytes and leave the rest to the next one.  Numbers of fixed
width need all their bytes; byte strings, digit strings and padding take what is there.  A star on
characters or compressed integers reads until nothing is left.
-/

namespace DirectivePack

namespace Operation

/-! ### One element -/

/-- Takes `needed` bytes, which have to be there. -/
def require (op : Operation) (needed : Nat) (bs : Bytes) : Except Fault (Bytes × Bytes) :=
  match front? needed bs with
  | some split => .ok split
  | none => .error (.truncated op.letter needed bs.length)

def readInteger (op : Operation) (bs : Bytes) : Except Fault (Value × Bytes) :=
  match op.require op.width bs with
  | .error fault => .error fault
  | .ok (field, rest) => .ok (.integer (Field.getInteger op.signed op.order field), rest)

def readFloat (op : Operation) (bs : Bytes) : Except Fault (Value × Bytes) :=
  match op.require op.width bs with
  | .error fault => .error fault
  | .ok (field, rest) => .ok (.float (Field.getFloat op.order field), rest)

/-- The length of a character by its first byte alone.  The ranges are wider than those of
well-formed text: a few lead bytes announce a length although no character starts with them. -/
def announcedLength? (lead : UInt8) : Option Nat :=
  if lead.toNat < 0x80 then some 1
  else if lead.toNat < 0xC0 then none
  else if lead.toNat < 0xE0 then some 2
  else if lead.toNat < 0xF0 then some 3
  else if lead.toNat < 0xF8 then some 4
  else none

/-- The number of the character at the front.  Bytes that are missing are noticed before bytes that
are wrong. -/
def readChar (op : Operation) (bs : Bytes) : Except Fault (Value × Bytes) :=
  match bs with
  | [] => .error (.truncated op.letter 1 0)
  | lead :: _ =>
    match announcedLength? lead with
    | none => .error (.malformed op.letter (.badLeadByte lead))
    | some length =>
      match op.require length bs with
      | .error fault => .error fault
      | .ok (piece, rest) =>
        match Utf8.readChar piece with
        | .ok (c, _) => .ok (.integer c.toNat, rest)
        | .error _ => .error (.malformed op.letter .badUtf8)

/-- The compressed integer at the front. -/
def readBer (op : Operation) (bs : Bytes) : Except Fault (Value × Bytes) :=
  match Field.getBer bs with
  | (.ok n, rest) =>
    if n < Nat.pow 2 127 then .ok (.integer n, rest)
    else .error (.malformed op.letter .beyondSigned128Bits)
  | (.error .incomplete, _) => .error (.truncated op.letter (bs.length + 1) bs.length)
  | (.error .overflow, _) => .error (.malformed op.letter .beyond128Bits)

theorem readChar_rest_length_lt (op : Operation) (bs : Bytes) (v : Value) (rest : Bytes)
    (read : op.readChar bs = .ok (v, rest)) : rest.length < bs.length := by
  unfold readChar at read
  split at read
  · simp at read
  · rename_i lead tail
    split at read
    · simp at read
    · rename_i length announced
      have positive : 0 < length := by
        unfold announcedLength? at announced
        grind
      unfold require at read
      cases split_at : front? length (lead :: tail) with
      | none => simp [split_at] at read
      | some split =>
        obtain ⟨piece, behind⟩ := split
        obtain ⟨whole, piece_length⟩ := front?_eq_some_iff.mp split_at
        have total := congrArg List.length whole
        rw [List.length_append, piece_length] at total
        simp only [split_at] at read
        split at read
        · simp only [Except.ok.injEq, Prod.mk.injEq] at read
          rw [← read.2]
          omega
        · simp at read

theorem readBer_rest_length_lt (op : Operation) (bs : Bytes) (v : Value) (rest : Bytes)
    (read : op.readBer bs = .ok (v, rest)) : rest.length < bs.length := by
  unfold readBer at read
  split at read
  · rename_i n behind got
    split at read
    · simp only [Except.ok.injEq, Prod.mk.injEq] at read
      rw [← read.2]
      exact Field.getBerFrom_rest_length_lt got
    · simp at read
  · simp at read
  · simp at read

/-! ### One operation -/

def readRaw (style : RawStyle) (count : Count) (bs : Bytes) : Bytes × Bytes :=
  match count with
  | .all => style.getAll bs
  | .once => style.getField 1 bs
  | .times n => style.getField n bs

/-- Digits of a radix under a star are all there are. -/
def readDigits (radix : Radix) (order : DigitOrder) (count : Count) (bs : Bytes) : Bytes × Bytes :=
  radix.unpack order (count.resolve (radix.perByte * bs.length)) bs

/-- A count of zero asks for one text in padded form, which is all the bytes; any other count for a
segment. -/
def readBase64 (count : Count) (bs : Bytes) : Except Base64.Fault Bytes × Bytes :=
  match count with
  | .times 0 => (Base64.decode bs, [])
  | _ =>
    let (symbols, rest) := Base64.segment bs
    (Base64.decodeSymbols symbols, rest)

/-- The values that the operation reads, and the bytes that it leaves. -/
def unpack (op : Operation) (bs : Bytes) : Except Fault (List Value × Bytes) :=
  match op.directive.encoding with
  | .padding => .ok ([], bs.drop (op.count.resolve bs.length))
  | .integer => readTimes op.readInteger (op.count.resolve (bs.length / op.width)) bs
  | .float => readTimes op.readFloat (op.count.resolve (bs.length / op.width)) bs
  | .raw style =>
    let (value, rest) := readRaw style op.count bs
    .ok ([.bytes value], rest)
  | .hexString order =>
    let (value, rest) := readDigits .hex order op.count bs
    .ok ([.bytes value], rest)
  | .bitString order =>
    let (value, rest) := readDigits .bits order op.count bs
    .ok ([.bytes value], rest)
  | .utf8 =>
    match op.count with
    | .all => (readAll op.readChar op.readChar_rest_length_lt bs).map (·, [])
    | count => readTimes op.readChar (count.resolve 0) bs
  | .ber =>
    match op.count with
    | .all => (readAll op.readBer op.readBer_rest_length_lt bs).map (·, [])
    | count => readTimes op.readBer (count.resolve 0) bs
  | .base64 =>
    match readBase64 op.count bs with
    | (.ok value, rest) => .ok ([.bytes value], rest)
    | (.error fault, _) => .error (.malformed op.letter (.base64 fault))

end Operation

/-! ### Programs -/

namespace Program

/-- The values that a program reads, and the bytes that it leaves. -/
def unpackFront : Program → Bytes → Except Fault (List Value × Bytes)
  | [], bs => .ok ([], bs)
  | op :: program, bs =>
    match op.unpack bs with
    | .error fault => .error fault
    | .ok (values, rest) =>
      match unpackFront program rest with
      | .error fault => .error fault
      | .ok (more, rest) => .ok (values ++ more, rest)

/-- The values that a program reads.  Bytes left over are ignored. -/
def unpack (program : Program) (bs : Bytes) : Except Fault (List Value) :=
  match program.unpackFront bs with
  | .error fault => .error fault
  | .ok (values, _) => .ok values

theorem unpackFront_singleton (op : Operation) (bs : Bytes) :
    unpackFront [op] bs = op.unpack bs := by
  cases unpacked : op.unpack bs with
  | error fault => simp [unpackFront, unpacked]
  | ok found => simp [unpackFront, unpacked]

theorem unpackFront_cons_eq_ok_iff {op : Operation} {program : Program} {bs rest : Bytes}
    {values : List Value} :
    unpackFront (op :: program) bs = .ok (values, rest) ↔
      ∃ read behind more, op.unpack bs = .ok (read, behind) ∧
        unpackFront program behind = .ok (more, rest) ∧ values = read ++ more := by
  constructor
  · intro unpacked
    rw [unpackFront] at unpacked
    cases first : op.unpack bs with
    | error fault => simp [first] at unpacked
    | ok found =>
      obtain ⟨read, behind⟩ := found
      cases others : unpackFront program behind with
      | error fault => simp [first, others] at unpacked
      | ok found =>
        simp only [first, others, Except.ok.injEq, Prod.mk.injEq] at unpacked
        obtain ⟨rfl, rfl⟩ := unpacked
        exact ⟨read, behind, found.1, rfl, others, rfl⟩
  · rintro ⟨read, behind, more, first, others, rfl⟩
    simp only [unpackFront, first, others]

theorem unpack_eq_ok_iff {program : Program} {data : Bytes} {values : List Value} :
    program.unpack data = .ok values ↔ ∃ rest, program.unpackFront data = .ok (values, rest) := by
  cases front : program.unpackFront data with
  | error fault => simp [unpack, front]
  | ok found => simp [unpack, front, Prod.ext_iff]

end Program

/-- Unpacks bytes by a directive string. -/
def unpack (format : String) (bs : Bytes) : Except Fault (List Value) :=
  match Program.parse format with
  | .error fault => .error fault
  | .ok program => program.unpack bs

end DirectivePack
