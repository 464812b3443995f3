import DirectivePack.Pack
import DirectivePack.Unpack
import DirectivePack.Proofs.Format.Grammar
import DirectivePack.Proofs.Text.Characters

/-!
Operations as rows of elements.

An operation other than padding writes and reads one element for each of its values: a number, a
character, or a whole byte string.  What holds of one element is carried over to a row of them here,
in both directions.

* `unpack_eq_readTimes`, `encode_eq_encodeEach`: an operation with a fixed number of values reads
  and writes so many elements.
* `readChar_eq_ok_iff`: an element of characters is exactly what is written for one.
* `exists_encodeEach`: if every element is read back in front of whatever comes behind it, so is a
  row of them.
* `encodeEach_of_readTimes`: if every element that is read is written as it was, so is a row of
  them.
-/

namespace DirectivePack

/-- A count that is no star does not depend on what is there. -/
theorem Count.resolve_eq {count : Count} (counted : count ≠ .all) (available other : Nat) :
    count.resolve available = count.resolve other := by
  cases count with
  | once => rfl
  | times n => rfl
  | all => exact absurd rfl counted

/-- How many bytes a line of base64 stands for: whole groups of three under a count for one such
group at least, and 45 otherwise. -/
def Count.lineBytes : Count → Nat
  | .times n => if n ≤ 2 then 45 else 3 * (n / 3)
  | .once | .all => 45

theorem Count.lineBytes_pos (count : Count) : 0 < count.lineBytes := by
  unfold lineBytes
  split
  · split <;> omega
  · decide
  · decide

theorem Count.lineBytes_whole (count : Count) : count.lineBytes % 3 = 0 := by
  unfold lineBytes
  split
  · split <;> omega
  · rfl
  · rfl

/-! ### Digit strings -/

/-- The radix and the order of an encoding of digits. -/
def Encoding.digits? : Encoding → Option (Radix × DigitOrder)
  | .hexString order => some (.hex, order)
  | .bitString order => some (.bits, order)
  | _ => none

/-- What is said of a character that is no digit. -/
def Encoding.digitReason : Encoding → UInt8 → ValueReason
  | .bitString _ => .badBitDigit
  | _ => .badHexDigit

theorem Encoding.eq_of_digits?_eq_some {encoding : Encoding} {radix : Radix} {order : DigitOrder}
    (digits : encoding.digits? = some (radix, order)) :
    (encoding = .hexString order ∧ radix = .hex) ∨
      (encoding = .bitString order ∧ radix = .bits) := by
  unfold digits? at digits
  split at digits
  · cases digits
    exact .inl ⟨rfl, rfl⟩
  · cases digits
    exact .inr ⟨rfl, rfl⟩
  · cases digits

theorem Encoding.legible_of_digits? {encoding : Encoding} {radix : Radix} {order : DigitOrder}
    (digits : encoding.digits? = some (radix, order)) : radix.base ≤ 16 := by
  rcases eq_of_digits?_eq_some digits with ⟨-, rfl⟩ | ⟨-, rfl⟩
  · decide
  · decide

theorem Encoding.eq_of_isFixedWidthNumeric {encoding : Encoding}
    (numeric : encoding.isFixedWidthNumeric = true) : encoding = .integer ∨ encoding = .float := by
  cases encoding with
  | integer => exact .inl rfl
  | float => exact .inr rfl
  | raw | padding | hexString | bitString | utf8 | ber | base64 => cases numeric

/-! ### Rows -/

/-- Each of `n` reads, one after the other, starts where `holds` says. -/
def EachRead {α β ε : Type} (read : List α → Except ε (β × List α)) (holds : List α → Prop) :
    Nat → List α → Prop
  | 0, _ => True
  | n + 1, xs =>
    holds xs ∧ ∀ value rest, read xs = .ok (value, rest) → EachRead read holds n rest

/-- A row cannot be written iff one of its values cannot, behind others that can. -/
theorem encodeEach_eq_error_iff {encode : Value → Except Fault Bytes} {values : List Value}
    {fault : Fault} :
    encodeEach encode values = .error fault ↔
      ∃ before v after bs, values = before ++ v :: after ∧ encodeEach encode before = .ok bs ∧
        encode v = .error fault := by
  constructor
  · intro failed
    induction values with
    | nil => cases failed
    | cons v values ih =>
      rw [encodeEach] at failed
      cases first : encode v with
      | error e =>
        simp only [first, Except.error.injEq] at failed
        exact ⟨[], v, values, [], rfl, rfl, failed ▸ first⟩
      | ok piece =>
        cases others : encodeEach encode values with
        | ok more => simp [first, others] at failed
        | error e =>
          simp only [first, others, Except.error.injEq] at failed
          obtain ⟨before, w, after, more, rfl, encoded, fails⟩ := ih (failed ▸ others)
          exact ⟨v :: before, w, after, piece ++ more, rfl,
            encodeEach_cons_eq_ok_iff.mpr ⟨piece, more, first, encoded, rfl⟩, fails⟩
  · rintro ⟨before, v, after, bs, rfl, encoded, fails⟩
    induction before generalizing bs with
    | nil => simp only [List.nil_append, encodeEach, fails]
    | cons w before ih =>
      obtain ⟨piece, more, first, others, rfl⟩ := encodeEach_cons_eq_ok_iff.mp encoded
      simp only [List.cons_append, encodeEach, first, ih more others]

section Family

variable {γ : Type} {ofMember : γ → Value} {accepts : γ → Prop} [DecidablePred accepts]
  {form : γ → Bytes} {reason : γ → Fault} {encode : Value → Except Fault Bytes}
  (element : ∀ c, encode (ofMember c) = if accepts c then .ok (form c) else .error (reason c))

include element

/-- A row of a family is written in order if all its members are accepted. -/
theorem encodeEach_map_eq_ok_iff {cs : List γ} {bs : Bytes} :
    encodeEach encode (cs.map ofMember) = .ok bs ↔
      (∀ c ∈ cs, accepts c) ∧ bs = cs.flatMap form := by
  induction cs generalizing bs with
  | nil =>
    constructor
    · rintro ⟨⟩
      exact ⟨by simp, rfl⟩
    · rintro ⟨-, rfl⟩
      rfl
  | cons c cs ih =>
    rw [List.map_cons, encodeEach_cons_eq_ok_iff, element, List.forall_mem_cons, List.flatMap_cons]
    constructor
    · rintro ⟨piece, more, first, others, rfl⟩
      split at first
      · rename_i accepted
        obtain ⟨all, rfl⟩ := ih.mp others
        cases first
        exact ⟨⟨accepted, all⟩, rfl⟩
      · cases first
    · rintro ⟨⟨accepted, all⟩, rfl⟩
      exact ⟨_, _, if_pos accepted, ih.mpr ⟨all, rfl⟩, rfl⟩

/-- The first member that is not accepted is rejected. -/
theorem encodeEach_map_eq_error_iff {cs : List γ} {fault : Fault} :
    encodeEach encode (cs.map ofMember) = .error fault ↔
      ∃ before c after, cs = before ++ c :: after ∧ (∀ b ∈ before, accepts b) ∧ ¬ accepts c ∧
        fault = reason c := by
  rw [encodeEach_eq_error_iff]
  constructor
  · rintro ⟨_, _, _, bs, split, encoded, fails⟩
    obtain ⟨before, behind, rfl, rfl, starts⟩ := List.map_eq_append_iff.mp split
    obtain ⟨c, after, rfl, rfl, rfl⟩ := List.map_eq_cons_iff.mp starts
    rw [element] at fails
    split at fails
    · cases fails
    · rename_i rejected
      cases fails
      exact ⟨before, c, after, rfl, ((encodeEach_map_eq_ok_iff element).mp encoded).1, rejected, rfl⟩
  · rintro ⟨before, c, after, rfl, accepted, rejected, rfl⟩
    refine ⟨before.map ofMember, ofMember c, after.map ofMember, _, by simp,
      (encodeEach_map_eq_ok_iff element).mpr ⟨accepted, rfl⟩, ?_⟩
    rw [element, if_neg rejected]

end Family

theorem exists_encodeEach {encode : Value → Except Fault Bytes}
    {read : Bytes → Except Fault (Value × Bytes)} {values : List Value}
    (each : ∀ v ∈ values, ∃ bs, encode v = .ok bs ∧ ∀ rest, read (bs ++ rest) = .ok (v, rest)) :
    ∃ bs, encodeEach encode values = .ok bs ∧
      ∀ rest, readTimes read values.length (bs ++ rest) = .ok (values, rest) := by
  induction values with
  | nil => exact ⟨[], rfl, fun _ => rfl⟩
  | cons v values ih =>
    obtain ⟨bs, encoded, read_back⟩ := each v (.head _)
    obtain ⟨more, encoded_more, read_more⟩ := ih fun other member => each other (.tail _ member)
    refine ⟨bs ++ more, ?_, fun rest => ?_⟩
    · exact encodeEach_cons_eq_ok_iff.mpr ⟨bs, more, encoded, encoded_more, rfl⟩
    · simp only [List.length_cons, readTimes, List.append_assoc, read_back, read_more]

theorem encodeEach_of_readTimes {encode : Value → Except Fault Bytes}
    {read : Bytes → Except Fault (Value × Bytes)} {holds : Bytes → Prop}
    (restores : ∀ bs v rest, holds bs → read bs = .ok (v, rest) →
      ∃ piece, encode v = .ok piece ∧ bs = piece ++ rest)
    {n : Nat} {bs rest : Bytes} {values : List Value} (starts : EachRead read holds n bs)
    (read_all : readTimes read n bs = .ok (values, rest)) :
    values.length = n ∧ ∃ written, encodeEach encode values = .ok written ∧
      bs = written ++ rest := by
  induction n generalizing bs values with
  | zero =>
    simp only [readTimes, Except.ok.injEq, Prod.mk.injEq] at read_all
    obtain ⟨rfl, rfl⟩ := read_all
    exact ⟨rfl, [], rfl, rfl⟩
  | succ n ih =>
    obtain ⟨start, starts⟩ := starts
    obtain ⟨v, behind, more, first, others, rfl⟩ := readTimes_succ_eq_ok_iff.mp read_all
    obtain ⟨piece, encoded, rfl⟩ := restores bs v behind start first
    obtain ⟨length, written, encoded_more, rfl⟩ := ih (starts v behind first) others
    exact ⟨congrArg (· + 1) length, piece ++ written,
      encodeEach_cons_eq_ok_iff.mpr ⟨_, _, encoded, encoded_more, rfl⟩,
      (List.append_assoc ..).symm⟩

namespace Operation

/-! ### Elements of an operation -/

/-- Whether the operation takes a fixed number of values. -/
def Counted (op : Operation) : Prop :=
  match op.directive.encoding with
  | .integer | .float | .utf8 | .ber => op.count ≠ .all
  | _ => True

/-- Reads the element of one value.  Padding has no values, and no element of it is ever read. -/
def readElement (op : Operation) : Bytes → Except Fault (Value × Bytes) :=
  match op.directive.encoding with
  | .integer => op.readInteger
  | .float => op.readFloat
  | .utf8 => op.readChar
  | .ber => op.readBer
  | .raw style => fun bs => .ok ((readRaw style op.count bs).map .bytes id)
  | .hexString order => fun bs => .ok ((readDigits .hex order op.count bs).map .bytes id)
  | .bitString order => fun bs => .ok ((readDigits .bits order op.count bs).map .bytes id)
  | .base64 => fun bs =>
    match readBase64 op.count bs with
    | (.ok value, rest) => .ok (.bytes value, rest)
    | (.error fault, _) => .error (.malformed op.letter (.base64 fault))
  | .padding => fun bs => .ok (.bytes [], bs)

theorem counted_of_ne_all {op : Operation} (starless : op.count ≠ .all) : op.Counted := by
  unfold Counted
  cases op.directive.encoding with
  | integer | float | utf8 | ber => exact starless
  | raw | hexString | bitString | base64 | padding => trivial

theorem arity_eq {op : Operation} (counted : op.Counted) (available : Nat) :
    op.arity available = op.arity 0 := by
  unfold Counted at counted
  unfold arity
  cases encoding : op.directive.encoding with
  | integer | float | utf8 | ber =>
    simp only [encoding] at counted ⊢
    exact Count.resolve_eq counted ..
  | raw | hexString | bitString | base64 | padding => rfl

/-- An operation with a fixed number of values reads so many elements. -/
theorem unpack_eq_readTimes {op : Operation} (counted : op.Counted)
    (valued : op.directive.encoding ≠ .padding) (bs : Bytes) :
    op.unpack bs = readTimes op.readElement (op.arity 0) bs := by
  unfold Counted at counted
  unfold unpack arity readElement
  cases encoding : op.directive.encoding with
  | integer | float =>
    simp only [encoding] at counted ⊢
    rw [Count.resolve_eq counted _ 0]
  | utf8 | ber =>
    simp only [encoding] at counted ⊢
    cases count : op.count with
    | once => rfl
    | times n => rfl
    | all => exact absurd count counted
  | raw | hexString | bitString => simp [readTimes]
  | base64 => rcases read : readBase64 op.count bs with ⟨_ | _, rest⟩ <;> simp [readTimes, read]
  | padding => exact absurd encoding valued

/-- Numbers of fixed width are read one after the other also under a star. -/
theorem unpack_eq_readTimes_of_numeric {op : Operation}
    (numeric : op.directive.encoding.isFixedWidthNumeric = true) (bs : Bytes) :
    op.unpack bs = readTimes op.readElement (op.count.resolve (bs.length / op.width)) bs := by
  unfold unpack readElement
  rcases Encoding.eq_of_isFixedWidthNumeric numeric with encoding | encoding
  · rw [encoding]
  · rw [encoding]

theorem encode_eq_encodeEach {op : Operation} (valued : op.directive.encoding ≠ .padding)
    (taken : List Value) : op.encode taken = encodeEach op.encodeValue taken := by
  unfold encode
  cases encoding : op.directive.encoding with
  | padding => exact absurd encoding valued
  | integer | float | utf8 | ber | raw | hexString | bitString | base64 => rfl

/-- An operation takes its values from the front. -/
theorem pack_append {op : Operation} (counted : op.Counted) {taken : List Value}
    (length : taken.length = op.arity 0) {bs : Bytes} (encoded : op.encode taken = .ok bs)
    (values : List Value) : op.pack (taken ++ values) = .ok (bs, values) := by
  rw [pack, arity_eq counted, ← length, front?_append]
  simp only [encoded]

/-! ### Byte strings of a fixed width -/

theorem encodeRaw_of_counted {count : Count} (counted : count ≠ .all) (style : RawStyle)
    (bs : Bytes) : encodeRaw style count bs = style.putField (count.resolve 0) bs := by
  cases count with
  | once => rfl
  | times n => rfl
  | all => exact absurd rfl counted

theorem readRaw_of_counted {count : Count} (counted : count ≠ .all) (style : RawStyle)
    (bs : Bytes) : readRaw style count bs = style.getField (count.resolve 0) bs := by
  cases count with
  | once => rfl
  | times n => rfl
  | all => exact absurd rfl counted

/-! ### Base64 in lines -/

theorem encodeBase64_of_lined {count : Count} (lined : count ≠ .times 0) (bs : Bytes) :
    encodeBase64 count bs = Base64.encodeLines count.lineBytes bs := by
  cases count with
  | once | all => rfl
  | times n =>
    cases n with
    | zero => exact absurd rfl lined
    | succ n =>
      rw [encodeBase64, Count.lineBytes]
      · by_cases short : n + 1 ≤ 2
        · rw [if_pos short, if_neg (by omega)]
          rfl
        · rw [if_neg short, if_pos (by omega), Nat.mul_comm]
      · exact nofun

theorem readBase64_of_lined {count : Count} (lined : count ≠ .times 0) (bs : Bytes) :
    readBase64 count bs =
      (Base64.decodeSymbols (Base64.segment bs).1, (Base64.segment bs).2) := by
  cases count with
  | once | all => rfl
  | times n =>
    cases n with
    | zero => exact absurd rfl lined
    | succ n => rfl

/-! ### Writing one element -/

theorem WellFormed.width_pos {op : Operation} (wellFormed : op.WellFormed)
    (numeric : op.directive.encoding.isFixedWidthNumeric = true) : 0 < op.width := by
  have widths : ∀ d ∈ Directive.table, d.encoding.isFixedWidthNumeric = true →
      0 < d.width ∧ 0 < d.nativeWidth.getD d.width := by
    decide
  obtain ⟨plain, native⟩ := widths op.directive wellFormed.in_table numeric
  unfold width
  split
  · exact native
  · exact plain

theorem encodeValue_integer {op : Operation} {n : Int}
    (encoding : op.directive.encoding = .integer) (accepted : Field.fits op.width n = true) :
    op.encodeValue (.integer n) = .ok (Field.putInteger op.width op.order n) := by
  simp [encodeValue, encoding, withInteger, Value.asInteger?, encodeInteger, accepted]

theorem encodeValue_float {op : Operation} (encoding : op.directive.encoding = .float)
    (width : op.width = 8) (x : Binary64) :
    op.encodeValue (.float x) = .ok (Field.putFloat 8 op.order x) := by
  simp [encodeValue, encoding, withFloat, Value.asFloat?, encodeFloat, width]

theorem encodeValue_utf8 {op : Operation} (encoding : op.directive.encoding = .utf8) (c : Char) :
    op.encodeValue (.integer c.toNat) = .ok (Utf8.encodeChar c) := by
  have found : charOfNumber? c.toNat = some c := charOfNumber?_eq_some_iff.mpr rfl
  have nonnegative : ¬ (c.toNat : Int) < 0 := by omega
  simp [encodeValue, encoding, withInteger, Value.asInteger?, encodeChar, found, nonnegative]

theorem encodeValue_ber {op : Operation} (encoding : op.directive.encoding = .ber) (n : Nat) :
    op.encodeValue (.integer n) = .ok (Field.putBer n) := by
  have nonnegative : ¬ (n : Int) < 0 := by omega
  simp [encodeValue, encoding, withInteger, Value.asInteger?, encodeBer, nonnegative]

theorem encodeValue_raw {op : Operation} {style : RawStyle}
    (encoding : op.directive.encoding = .raw style) (bs : Bytes) :
    op.encodeValue (.bytes bs) = .ok (encodeRaw style op.count bs) := by
  simp [encodeValue, encoding, withBytes, Value.asBytes?]

/-- Hexadecimal digits and bits are written alike, by their radix and order. -/
theorem encodeValue_digits_eq {op : Operation} {radix : Radix} {order : DigitOrder}
    (encoding : op.directive.encoding.digits? = some (radix, order)) (v : Value) :
    op.encodeValue v = op.withBytes v fun text =>
      (radix.pack? order (op.count.resolve text.length) text).mapError
        op.directive.encoding.digitReason := by
  rcases Encoding.eq_of_digits?_eq_some encoding with ⟨hex, rfl⟩ | ⟨bits, rfl⟩
  · simp only [encodeValue, hex, Encoding.digitReason]
  · simp only [encodeValue, bits, Encoding.digitReason]

theorem encodeValue_digits_bytes {op : Operation} {radix : Radix} {order : DigitOrder}
    (encoding : op.directive.encoding.digits? = some (radix, order)) (text : Bytes) :
    op.encodeValue (.bytes text) =
      (radix.pack? order (op.count.resolve text.length) text).mapError fun bad =>
        .unencodable op.letter (op.directive.encoding.digitReason bad) := by
  rw [encodeValue_digits_eq encoding, withBytes, Value.asBytes?]
  dsimp only
  cases radix.pack? order (op.count.resolve text.length) text <;> rfl

theorem encodeValue_digits {op : Operation} {radix : Radix} {order : DigitOrder} {text bs : Bytes}
    (encoding : op.directive.encoding.digits? = some (radix, order))
    (packed : radix.pack? order (op.count.resolve text.length) text = .ok bs) :
    op.encodeValue (.bytes text) = .ok bs := by
  rw [encodeValue_digits_bytes encoding, packed]
  rfl

theorem encodeValue_base64 {op : Operation} (encoding : op.directive.encoding = .base64)
    (bs : Bytes) : op.encodeValue (.bytes bs) = .ok (encodeBase64 op.count bs) := by
  simp [encodeValue, encoding, withBytes, Value.asBytes?]

/-! ### Reading one element -/

theorem readElement_digits {op : Operation} {radix : Radix} {order : DigitOrder}
    (encoding : op.directive.encoding.digits? = some (radix, order)) (bs : Bytes) :
    op.readElement bs = .ok ((readDigits radix order op.count bs).map .bytes id) := by
  rcases Encoding.eq_of_digits?_eq_some encoding with ⟨hex, rfl⟩ | ⟨bits, rfl⟩
  · simp only [readElement, hex]
  · simp only [readElement, bits]

theorem require_eq_ok_iff {op : Operation} {needed : Nat} {bs piece rest : Bytes} :
    op.require needed bs = .ok (piece, rest) ↔ bs = piece ++ rest ∧ piece.length = needed := by
  rw [← front?_eq_some_iff, require]
  cases front? needed bs with
  | none => simp
  | some split => simp

theorem require_eq_error_iff {op : Operation} {needed : Nat} {bs : Bytes} {fault : Fault} :
    op.require needed bs = .error fault ↔
      bs.length < needed ∧ fault = .truncated op.letter needed bs.length := by
  rw [← front?_eq_none_iff, require]
  cases front? needed bs with
  | none => simp [eq_comm]
  | some split => simp

/-- Reading a field of fixed width and making a value of it. -/
theorem readField_eq_ok_iff {op : Operation} {needed : Nat} {ofField : Bytes → Value}
    {bs rest : Bytes} {v : Value} :
    (match op.require needed bs with
      | .error fault => .error fault
      | .ok (field, rest) => .ok (ofField field, rest)) = Except.ok (v, rest) ↔
      ∃ field, bs = field ++ rest ∧ field.length = needed ∧ v = ofField field := by
  constructor
  · intro read
    cases required : op.require needed bs with
    | error fault => simp [required] at read
    | ok split =>
      obtain ⟨field, behind⟩ := split
      obtain ⟨rfl, length⟩ := require_eq_ok_iff.mp required
      simp only [required, Except.ok.injEq, Prod.mk.injEq] at read
      obtain ⟨rfl, rfl⟩ := read
      exact ⟨field, rfl, length, rfl⟩
  · rintro ⟨field, rfl, length, rfl⟩
    rw [require_eq_ok_iff.mpr ⟨rfl, length⟩]

/-- A field of fixed width fails to be read iff bytes are missing. -/
theorem readField_eq_error_iff {op : Operation} {needed : Nat} {ofField : Bytes → Value}
    {bs : Bytes} {fault : Fault} :
    (match op.require needed bs with
      | .error fault => .error fault
      | .ok (field, rest) => .ok (ofField field, rest)) =
        (.error fault : Except Fault (Value × Bytes)) ↔
      bs.length < needed ∧ fault = .truncated op.letter needed bs.length := by
  rw [← require_eq_error_iff]
  cases op.require needed bs <;> simp

theorem readInteger_eq_ok_iff {op : Operation} {bs rest : Bytes} {v : Value} :
    op.readInteger bs = .ok (v, rest) ↔
      ∃ field, bs = field ++ rest ∧ field.length = op.width ∧
        v = .integer (Field.getInteger op.signed op.order field) :=
  readField_eq_ok_iff

theorem readFloat_eq_ok_iff {op : Operation} {bs rest : Bytes} {v : Value} :
    op.readFloat bs = .ok (v, rest) ↔
      ∃ field, bs = field ++ rest ∧ field.length = op.width ∧
        v = .float (Field.getFloat op.order field) :=
  readField_eq_ok_iff

/-- Of the compressed integers that are read, only those below `2 ^ 127` are values. -/
theorem readBer_eq_ok_iff {op : Operation} {bs rest : Bytes} {v : Value} :
    op.readBer bs = .ok (v, rest) ↔
      ∃ n : Nat, v = .integer n ∧ n < Nat.pow 2 127 ∧ Field.getBer bs = (.ok n, rest) := by
  unfold readBer
  rcases Field.getBer bs with ⟨_ | n, behind⟩
  · rename_i failure
    cases failure <;> simp
  · by_cases small : n < Nat.pow 2 127
    · simp only [if_pos small, Except.ok.injEq, Prod.mk.injEq]
      constructor
      · rintro ⟨rfl, rfl⟩
        exact ⟨n, rfl, small, rfl, rfl⟩
      · rintro ⟨_, rfl, -, rfl, rfl⟩
        exact ⟨rfl, rfl⟩
    · simp only [if_neg small, Except.ok.injEq, Prod.mk.injEq, reduceCtorEq, false_iff]
      rintro ⟨_, -, small', rfl, -⟩
      exact small small'

/-- The first byte of a character announces its length. -/
theorem announcedLength?_encodeChar (c : Char) :
    ∃ lead tail, Utf8.encodeChar c = lead :: tail ∧
      announcedLength? lead = some (Utf8.encodeChar c).length := by
  have scalar := isScalar_toNat c
  unfold IsScalar at scalar
  have byte : ∀ m, m < 0x100 → (UInt8.ofNat m).toNat = m := fun _ => Utf8.toNat_ofNat_of_lt
  unfold Utf8.encodeChar announcedLength?
  generalize c.toNat = n at scalar ⊢
  by_cases one : n < 0x80
  · refine ⟨_, _, if_pos one, ?_⟩
    rw [byte _ (by omega), if_pos one, if_pos one]
    rfl
  by_cases two : n < 0x800
  · refine ⟨_, _, (if_neg one).trans (if_pos two), ?_⟩
    rw [byte _ (by omega), if_neg (by omega), if_neg (by omega), if_pos (by omega), if_neg one,
      if_pos two]
    rfl
  by_cases three : n < 0x10000
  · refine ⟨_, _, (if_neg one).trans ((if_neg two).trans (if_pos three)), ?_⟩
    rw [byte _ (by omega), if_neg (by omega), if_neg (by omega), if_neg (by omega),
      if_pos (by omega), if_neg one, if_neg two, if_pos three]
    rfl
  · refine ⟨_, _, (if_neg one).trans ((if_neg two).trans (if_neg three)), ?_⟩
    rw [byte _ (by omega), if_neg (by omega), if_neg (by omega), if_neg (by omega),
      if_neg (by omega), if_pos (by omega), if_neg one, if_neg two, if_neg three]
    rfl

/-- An element of characters is one character, and its value the number of it. -/
theorem readChar_eq_ok_iff {op : Operation} {bs rest : Bytes} {v : Value} :
    op.readChar bs = .ok (v, rest) ↔
      ∃ c : Char, v = .integer c.toNat ∧ bs = Utf8.encodeChar c ++ rest := by
  constructor
  · intro read
    unfold Operation.readChar at read
    split at read
    · cases read
    · rename_i lead behind
      split at read
      · cases read
      · rename_i length announced
        cases field : op.require length (lead :: behind) with
        | error fault => simp [field] at read
        | ok split =>
          obtain ⟨piece, last⟩ := split
          obtain ⟨whole, piece_length⟩ := require_eq_ok_iff.mp field
          simp only [field] at read
          split at read
          · rename_i c left decoded
            simp only [Except.ok.injEq, Prod.mk.injEq] at read
            obtain ⟨rfl, rfl⟩ := read
            have piece_eq := Utf8.eq_encodeChar_of_readChar decoded
            obtain ⟨lead', tail, written, announced'⟩ := announcedLength?_encodeChar c
            -- both lengths are announced by the same byte, so the piece is just the character
            have same : lead = lead' := by
              rw [piece_eq, written] at whole
              exact List.head_eq_of_cons_eq whole
            rw [same, announced'] at announced
            have total := congrArg List.length piece_eq
            rw [List.length_append, piece_length, ← Option.some.inj announced] at total
            have none_left : left = [] := List.eq_nil_of_length_eq_zero (by omega)
            rw [none_left, List.append_nil] at piece_eq
            exact ⟨c, rfl, by rw [whole, piece_eq]⟩
          · cases read
  · rintro ⟨c, rfl, rfl⟩
    obtain ⟨lead, tail, written, announced⟩ := announcedLength?_encodeChar c
    have field : op.require (Utf8.encodeChar c).length (Utf8.encodeChar c ++ rest) =
        .ok (Utf8.encodeChar c, rest) := require_eq_ok_iff.mpr ⟨rfl, rfl⟩
    have decoded := Utf8.readChar_encodeChar_append c []
    rw [List.append_nil] at decoded
    rw [written] at announced field decoded ⊢
    rw [List.cons_append] at field ⊢
    simp only [Operation.readChar, announced, field, decoded]

end Operation

end DirectivePack
