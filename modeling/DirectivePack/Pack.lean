import DirectivePack.Field.Floating
import DirectivePack.Field.Ber
import DirectivePack.Format.Parser

/-!
Packing: a program turns a list of values into bytes.

Operations take their values from the front of the list.  How many an operation takes depends on its
count for numbers, characters and compressed integers; it is one for every kind of byte string and
none for padding (`Operation.arity`).

A program either yields all its bytes or the first fault; nothing of what it wrote before the fault
is left.
-/

namespace DirectivePack

/-- The bytes of values one after the other, or the first fault. -/
def encodeEach (encode : Value → Except Fault Bytes) : List Value → Except Fault Bytes
  | [] => .ok []
  | v :: vs =>
    match encode v with
    | .error fault => .error fault
    | .ok bs =>
      match encodeEach encode vs with
      | .error fault => .error fault
      | .ok more => .ok (bs ++ more)

theorem encodeEach_cons_eq_ok_iff {encode : Value → Except Fault Bytes} {v : Value}
    {values : List Value} {bs : Bytes} :
    encodeEach encode (v :: values) = .ok bs ↔
      ∃ piece more, encode v = .ok piece ∧ encodeEach encode values = .ok more ∧
        bs = piece ++ more := by
  cases first : encode v with
  | error fault => simp [encodeEach, first]
  | ok piece =>
    cases others : encodeEach encode values with
    | error fault => simp [encodeEach, first, others]
    | ok more => simp [encodeEach, first, others, eq_comm]

/-- Bytes in a line of base64 without a usable count. -/
def base64LineBytes : Nat := 45

namespace Operation

/-! ### One value -/

/-- Requires an integer. -/
def withInteger (op : Operation) (v : Value) (encode : Int → Except ValueReason Bytes) :
    Except Fault Bytes :=
  match v.asInteger? with
  | none => .error (.wrongKind op.letter .integer v.kind)
  | some n => (encode n).mapError (.unencodable op.letter)

/-- Requires a number. -/
def withFloat (op : Operation) (v : Value) (encode : Binary64 → Except ValueReason Bytes) :
    Except Fault Bytes :=
  match v.asFloat? with
  | none => .error (.wrongKind op.letter .float v.kind)
  | some x => (encode x).mapError (.unencodable op.letter)

/-- Requires a byte string. -/
def withBytes (op : Operation) (v : Value) (encode : Bytes → Except ValueReason Bytes) :
    Except Fault Bytes :=
  match v.asBytes? with
  | none => .error (.wrongKind op.letter .bytes v.kind)
  | some bs => (encode bs).mapError (.unencodable op.letter)

def encodeInteger (op : Operation) (n : Int) : Except ValueReason Bytes :=
  if Field.fits op.width n then .ok (Field.putInteger op.width op.order n)
  else .error (.outOfRange n op.width)

def encodeFloat (op : Operation) (x : Binary64) : Except ValueReason Bytes :=
  if op.width = 4 ∧ x.narrow? = none then .error (.outOfSingleRange x)
  else .ok (Field.putFloat op.width op.order x)

def encodeRaw (style : RawStyle) (count : Count) (bs : Bytes) : Bytes :=
  match count with
  | .all => style.putAll bs
  | .once => style.putField 1 bs
  | .times n => style.putField n bs

def encodeChar (n : Int) : Except ValueReason Bytes :=
  match if n < 0 then none else charOfNumber? n.toNat with
  | some c => .ok (Utf8.encodeChar c)
  | none => .error (.badCodePoint n)

def encodeBer (n : Int) : Except ValueReason Bytes :=
  if n < 0 then .error .negative else .ok (Field.putBer n.toNat)

/-- A count of zero asks for a single unbroken text; a count of three or more for lines of at most
that many bytes, in whole groups. -/
def encodeBase64 (count : Count) (bs : Bytes) : Bytes :=
  match count with
  | .times 0 => Base64.encode bs
  | .times n => Base64.encodeLines (if 2 < n then n / 3 * 3 else base64LineBytes) bs
  | _ => Base64.encodeLines base64LineBytes bs

/-- The bytes of one value. -/
def encodeValue (op : Operation) (v : Value) : Except Fault Bytes :=
  match op.directive.encoding with
  | .integer => op.withInteger v op.encodeInteger
  | .float => op.withFloat v op.encodeFloat
  | .raw style => op.withBytes v fun bs => .ok (encodeRaw style op.count bs)
  | .hexString order => op.withBytes v fun bs =>
    (Radix.hex.pack? order (op.count.resolve bs.length) bs).mapError .badHexDigit
  | .bitString order => op.withBytes v fun bs =>
    (Radix.bits.pack? order (op.count.resolve bs.length) bs).mapError .badBitDigit
  | .utf8 => op.withInteger v encodeChar
  | .ber => op.withInteger v encodeBer
  | .base64 => op.withBytes v fun bs => .ok (encodeBase64 op.count bs)
  | .padding => .ok []

/-! ### One operation -/

/-- How many values the operation takes where `available` are left. -/
def arity (op : Operation) (available : Nat) : Nat :=
  match op.directive.encoding with
  | .integer | .float | .utf8 | .ber => op.count.resolve available
  | .raw _ | .hexString _ | .bitString _ | .base64 => 1
  | .padding => 0

/-- The bytes of the values taken.  Padding under a star is empty. -/
def encode (op : Operation) (taken : List Value) : Except Fault Bytes :=
  match op.directive.encoding with
  | .padding => .ok (List.replicate (op.count.resolve 0) 0)
  | _ => encodeEach op.encodeValue taken

/-- The bytes that the operation writes, and the values that it leaves. -/
def pack (op : Operation) (values : List Value) : Except Fault (Bytes × List Value) :=
  match front? (op.arity values.length) values with
  | none => .error (.missingValues op.letter (op.arity values.length) values.length)
  | some (taken, rest) =>
    match op.encode taken with
    | .error fault => .error fault
    | .ok bs => .ok (bs, rest)

theorem pack_eq_ok_iff {op : Operation} {values left : List Value} {bs : Bytes} :
    op.pack values = .ok (bs, left) ↔
      ∃ taken, values = taken ++ left ∧ taken.length = op.arity values.length ∧
        op.encode taken = .ok bs := by
  constructor
  · intro packed
    rw [pack] at packed
    cases split : front? (op.arity values.length) values with
    | none => simp [split] at packed
    | some found =>
      obtain ⟨taken, rest⟩ := found
      cases encoded : op.encode taken with
      | error fault => simp [split, encoded] at packed
      | ok written =>
        simp only [split, encoded, Except.ok.injEq, Prod.mk.injEq] at packed
        obtain ⟨rfl, rfl⟩ := packed
        obtain ⟨whole, length⟩ := front?_eq_some_iff.mp split
        exact ⟨taken, whole, length, encoded⟩
  · rintro ⟨taken, whole, length, encoded⟩
    simp only [pack, front?_eq_some_iff.mpr ⟨whole, length⟩, encoded]

end Operation

/-! ### Programs -/

namespace Program

/-- The bytes that a program writes, and the values that it leaves. -/
def packFront : Program → List Value → Except Fault (Bytes × List Value)
  | [], values => .ok ([], values)
  | op :: program, values =>
    match op.pack values with
    | .error fault => .error fault
    | .ok (bs, rest) =>
      match packFront program rest with
      | .error fault => .error fault
      | .ok (more, rest) => .ok (bs ++ more, rest)

/-- The bytes that a program writes.  Values left over are ignored. -/
def pack (program : Program) (values : List Value) : Except Fault Bytes :=
  match program.packFront values with
  | .error fault => .error fault
  | .ok (bs, _) => .ok bs

theorem packFront_singleton (op : Operation) (values : List Value) :
    packFront [op] values = op.pack values := by
  cases packed : op.pack values with
  | error fault => simp [packFront, packed]
  | ok found => simp [packFront, packed]

theorem packFront_cons_eq_ok_iff {op : Operation} {program : Program} {values left : List Value}
    {bs : Bytes} :
    packFront (op :: program) values = .ok (bs, left) ↔
      ∃ piece behind more, op.pack values = .ok (piece, behind) ∧
        packFront program behind = .ok (more, left) ∧ bs = piece ++ more := by
  constructor
  · intro packed
    rw [packFront] at packed
    cases first : op.pack values with
    | error fault => simp [first] at packed
    | ok found =>
      obtain ⟨piece, behind⟩ := found
      cases others : packFront program behind with
      | error fault => simp [first, others] at packed
      | ok found =>
        simp only [first, others, Except.ok.injEq, Prod.mk.injEq] at packed
        obtain ⟨rfl, rfl⟩ := packed
        exact ⟨piece, behind, found.1, rfl, others, rfl⟩
  · rintro ⟨piece, behind, more, first, others, rfl⟩
    simp only [packFront, first, others]

theorem pack_eq_ok_iff {program : Program} {values : List Value} {bs : Bytes} :
    program.pack values = .ok bs ↔ ∃ left, program.packFront values = .ok (bs, left) := by
  cases front : program.packFront values with
  | error fault => simp [pack, front]
  | ok found => simp [pack, front, Prod.ext_iff]

end Program

/-- Packs values by a directive string. -/
def pack (format : String) (values : List Value) : Except Fault Bytes :=
  match Program.parse format with
  | .error fault => .error fault
  | .ok program => program.pack values

end DirectivePack
