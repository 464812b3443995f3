import DirectivePack.Proofs.RoundTrip.Elements
import DirectivePack.Proofs.Field.Word
import DirectivePack.Proofs.Field.Compressed
import DirectivePack.Proofs.Field.Padded
import DirectivePack.Proofs.Digits.Groups
import DirectivePack.Proofs.Base64.Lines

/-!
What a program packs it unpacks again, whatever bytes come behind it.

This needs operations that find the end of what they wrote by themselves (`SelfDelimiting`), and
values that writing does not cut off, fill up or confuse with padding (`Canonical`).  A double is
compared by its pattern, so that a NaN is a value like any other.

* `Operation.SelfDelimiting.readsBack`: an element is read back in front of whatever comes behind
  it.
* `Operation.exists_pack_append`: hence so are the values of an operation.
* `Program.unpack_append_of_pack`: and those of a program, operation by operation.
-/

namespace DirectivePack

/-- The operation finds the end of what it wrote: by its count, or by an end mark. -/
def Operation.SelfDelimiting (op : Operation) : Prop :=
  match op.directive.encoding with
  | .integer | .utf8 | .ber | .padding => op.count ≠ .all
  | .float => op.width = 8 ∧ op.count ≠ .all
  | .raw .nullTerminated => True
  | .raw _ | .hexString _ | .bitString _ => op.count ≠ .all
  | .base64 => op.count ≠ .times 0

/-- The values that the operation writes in a form that stands for them alone. -/
def Operation.Canonical (op : Operation) (v : Value) : Prop :=
  match op.directive.encoding, v with
  | .integer, .integer n => Field.InRange op.signed op.width n
  | .float, .float _ => True
  | .utf8, .integer n => 0 ≤ n ∧ IsScalar n.toNat
  | .ber, .integer n => 0 ≤ n ∧ n < (Nat.pow 2 127 : Int)
  | .raw style, .bytes bs =>
    match op.count with
    | .all => 0x00 ∉ bs
    | count => style.Shows (count.resolve 0) bs
  | .hexString _, .bytes bs =>
    bs.length = op.count.resolve 0 ∧ ∀ c ∈ bs, c ∈ Radix.hex.characters
  | .bitString _, .bytes bs =>
    bs.length = op.count.resolve 0 ∧ ∀ c ∈ bs, c ∈ Radix.bits.characters
  | .base64, .bytes bs => bs.length % 3 ≠ 0
  | _, _ => False

/-- The values that a program takes, so many for each operation, all of them canonical. -/
inductive Program.Takes : Program → List Value → Prop where
  | nil : Takes [] []
  | cons {op : Operation} {program : Program} {taken values : List Value} :
      taken.length = op.arity 0 → (∀ v ∈ taken, op.Canonical v) → Takes program values →
      Takes (op :: program) (taken ++ values)

namespace Operation

/-! ### Elements -/

/-- The value is written as an element, and read back in front of whatever comes behind that. -/
def ReadsBack (op : Operation) (v : Value) : Prop :=
  ∃ bs, op.encodeValue v = .ok bs ∧ ∀ rest, op.readElement (bs ++ rest) = .ok (v, rest)

theorem readsBack_integer {op : Operation} {n : Int}
    (encoding : op.directive.encoding = .integer) (positive : 0 < op.width)
    (inRange : Field.InRange op.signed op.width n) : op.ReadsBack (.integer n) := by
  refine ⟨_, encodeValue_integer encoding (inRange.fits positive), fun rest => ?_⟩
  have read : op.readInteger (Field.putInteger op.width op.order n ++ rest) =
      .ok (.integer n, rest) := by
    refine readInteger_eq_ok_iff.mpr ⟨_, rfl, Field.length_putInteger .., ?_⟩
    rw [Field.getInteger_putInteger op.order positive inRange]
  rw [readElement, encoding]
  exact read

theorem readsBack_float {op : Operation} (encoding : op.directive.encoding = .float)
    (width : op.width = 8) (x : Binary64) : op.ReadsBack (.float x) := by
  refine ⟨_, encodeValue_float encoding width x, fun rest => ?_⟩
  have read : op.readFloat (Field.putFloat 8 op.order x ++ rest) = .ok (.float x, rest) := by
    refine readFloat_eq_ok_iff.mpr ⟨_, rfl, ?_, ?_⟩
    · rw [Field.length_putFloat, width]
    · rw [Field.getFloat_putFloat]
  rw [readElement, encoding]
  exact read

theorem readsBack_utf8 {op : Operation} {n : Int} (encoding : op.directive.encoding = .utf8)
    (nonnegative : 0 ≤ n) (scalar : IsScalar n.toNat) : op.ReadsBack (.integer n) := by
  have number : ((Char.ofNat n.toNat).toNat : Int) = n := by
    rw [toNat_ofNat scalar, Int.toNat_of_nonneg nonnegative]
  have encoded := encodeValue_utf8 encoding (Char.ofNat n.toNat)
  rw [number] at encoded
  refine ⟨_, encoded, fun rest => ?_⟩
  rw [readElement, encoding]
  exact readChar_eq_ok_iff.mpr ⟨Char.ofNat n.toNat, by rw [number], rfl⟩

theorem readsBack_ber {op : Operation} {n : Int} (encoding : op.directive.encoding = .ber)
    (nonnegative : 0 ≤ n) (bound : n < (Nat.pow 2 127 : Int)) : op.ReadsBack (.integer n) := by
  have number : (n.toNat : Int) = n := Int.toNat_of_nonneg nonnegative
  have small : n.toNat < Nat.pow 2 127 := by omega
  have readable : n.toNat < Nat.pow 2 128 := Nat.lt_trans small (by decide)
  have encoded := encodeValue_ber encoding n.toNat
  rw [number] at encoded
  refine ⟨_, encoded, fun rest => ?_⟩
  rw [readElement, encoding]
  exact readBer_eq_ok_iff.mpr
    ⟨n.toNat, by rw [number], small, Field.getBer_putBer_append readable rest⟩

/-- A byte string in a field of so many bytes as the count says. -/
theorem readsBack_raw_field {op : Operation} {style : RawStyle} {bs : Bytes}
    (encoding : op.directive.encoding = .raw style) (counted : op.count ≠ .all)
    (shows_value : style.Shows (op.count.resolve 0) bs) : op.ReadsBack (.bytes bs) := by
  refine ⟨_, encodeValue_raw encoding bs, fun rest => ?_⟩
  simp only [readElement, encoding, encodeRaw_of_counted counted, readRaw_of_counted counted,
    RawStyle.getField_putField_append, RawStyle.trim_putField shows_value, Prod.map, id]

/-- A byte string up to its terminator. -/
theorem readsBack_raw_terminated {op : Operation} {bs : Bytes}
    (encoding : op.directive.encoding = .raw .nullTerminated) (all : op.count = .all)
    (free : 0x00 ∉ bs) : op.ReadsBack (.bytes bs) := by
  refine ⟨_, encodeValue_raw encoding bs, fun rest => ?_⟩
  simp only [readElement, encoding, all, encodeRaw, readRaw,
    RawStyle.getAll_putAll_append free rest, Prod.map, id]

/-- As many digits as the count says. -/
theorem readsBack_digits {op : Operation} {radix : Radix} {order : DigitOrder} {text : Bytes}
    (encoding : op.directive.encoding.digits? = some (radix, order)) (counted : op.count ≠ .all)
    (length : text.length = op.count.resolve 0)
    (are_written : ∀ c ∈ text, c ∈ radix.characters) : op.ReadsBack (.bytes text) := by
  have fixed : ∀ available, op.count.resolve available = text.length := fun available =>
    (Count.resolve_eq counted available 0).trans length.symm
  obtain ⟨bs, packed, read⟩ :=
    Radix.unpack_of_pack? (Encoding.legible_of_digits? encoding) order are_written
  refine ⟨bs, encodeValue_digits encoding (by rw [fixed, packed]), fun rest => ?_⟩
  rw [readElement_digits encoding, readDigits, fixed, read]
  rfl

theorem readsBack_base64 {op : Operation} {bs : Bytes} (encoding : op.directive.encoding = .base64)
    (lined : op.count ≠ .times 0) (short : bs.length % 3 ≠ 0) : op.ReadsBack (.bytes bs) := by
  refine ⟨_, encodeValue_base64 encoding bs, fun rest => ?_⟩
  obtain ⟨symbols, split, decoded⟩ :=
    Base64.decodeSymbols_segment_encodeLines op.count.lineBytes_pos op.count.lineBytes_whole short rest
  simp only [readElement, encoding, encodeBase64_of_lined lined, readBase64_of_lined lined, split,
    decoded]

/-- **One element.** A canonical value is read back from the element that it is written as,
whatever comes behind that. -/
theorem SelfDelimiting.readsBack {op : Operation} (delimited : op.SelfDelimiting)
    (wellFormed : op.WellFormed) {v : Value} (canonical : op.Canonical v) : op.ReadsBack v := by
  unfold SelfDelimiting at delimited
  unfold Operation.Canonical at canonical
  cases encoding : op.directive.encoding with
  | integer =>
    cases v with
    | integer n =>
      simp only [encoding] at canonical
      exact readsBack_integer encoding (wellFormed.width_pos (by rw [encoding]; rfl)) canonical
    | float | bytes => simp [encoding] at canonical
  | float =>
    cases v with
    | float x =>
      simp only [encoding] at delimited
      exact readsBack_float encoding delimited.1 x
    | integer | bytes => simp [encoding] at canonical
  | utf8 =>
    cases v with
    | integer n =>
      simp only [encoding] at canonical
      exact readsBack_utf8 encoding canonical.1 canonical.2
    | float | bytes => simp [encoding] at canonical
  | ber =>
    cases v with
    | integer n =>
      simp only [encoding] at canonical
      exact readsBack_ber encoding canonical.1 canonical.2
    | float | bytes => simp [encoding] at canonical
  | raw style =>
    cases v with
    | bytes bs =>
      simp only [encoding] at delimited canonical
      by_cases all : op.count = .all
      · simp only [all] at canonical
        cases style with
        | nullTerminated => exact readsBack_raw_terminated encoding all canonical
        | nullPadded | spacePadded => exact absurd all delimited
      · refine readsBack_raw_field encoding all ?_
        cases count : op.count with
        | once => simpa only [count] using canonical
        | times n => simpa only [count] using canonical
        | all => exact absurd count all
    | integer | float => simp [encoding] at canonical
  | hexString order =>
    cases v with
    | bytes bs =>
      simp only [encoding] at delimited canonical
      exact readsBack_digits (congrArg Encoding.digits? encoding) delimited canonical.1 canonical.2
    | integer | float => simp [encoding] at canonical
  | bitString order =>
    cases v with
    | bytes bs =>
      simp only [encoding] at delimited canonical
      exact readsBack_digits (congrArg Encoding.digits? encoding) delimited canonical.1 canonical.2
    | integer | float => simp [encoding] at canonical
  | base64 =>
    cases v with
    | bytes bs =>
      simp only [encoding] at delimited canonical
      exact readsBack_base64 encoding delimited canonical
    | integer | float => simp [encoding] at canonical
  | padding => cases v <;> simp [encoding] at canonical

/-! ### Operations -/

theorem SelfDelimiting.counted {op : Operation} (delimited : op.SelfDelimiting) : op.Counted := by
  unfold SelfDelimiting at delimited
  unfold Counted
  cases encoding : op.directive.encoding with
  | integer | utf8 | ber => simpa only [encoding] using delimited
  | float =>
    simp only [encoding] at delimited ⊢
    exact delimited.2
  | raw | hexString | bitString | base64 | padding => trivial

/-- Padding is written and skipped by its count. -/
theorem unpack_padding_append {op : Operation} (encoding : op.directive.encoding = .padding)
    (counted : op.count ≠ .all) :
    ∃ bs, op.encode [] = .ok bs ∧ ∀ rest, op.unpack (bs ++ rest) = .ok ([], rest) := by
  refine ⟨List.replicate (op.count.resolve 0) 0, by simp only [encode, encoding], fun rest => ?_⟩
  simp only [unpack, encoding]
  rw [Count.resolve_eq counted _ 0, List.drop_left' (List.length_replicate ..)]

/-- **One operation.** It packs its values and unpacks them again, whatever comes behind them. -/
theorem exists_pack_append {op : Operation} (delimited : op.SelfDelimiting)
    (wellFormed : op.WellFormed) {taken : List Value} (length : taken.length = op.arity 0)
    (canonical : ∀ v ∈ taken, op.Canonical v) :
    ∃ bs, (∀ values, op.pack (taken ++ values) = .ok (bs, values)) ∧
      ∀ rest, op.unpack (bs ++ rest) = .ok (taken, rest) := by
  have counted := delimited.counted
  by_cases padding : op.directive.encoding = .padding
  · have none_taken : taken = [] := by
      apply List.eq_nil_of_length_eq_zero
      rw [length, arity, padding]
    subst none_taken
    have count : op.count ≠ .all := by simpa only [SelfDelimiting, padding] using delimited
    obtain ⟨bs, encoded, read⟩ := unpack_padding_append padding count
    exact ⟨bs, pack_append counted length encoded, read⟩
  · have each : ∀ v ∈ taken, op.ReadsBack v := fun v member =>
      delimited.readsBack wellFormed (canonical v member)
    obtain ⟨bs, encoded, read⟩ := exists_encodeEach each
    rw [← encode_eq_encodeEach padding] at encoded
    refine ⟨bs, pack_append counted length encoded, fun rest => ?_⟩
    rw [unpack_eq_readTimes counted padding, ← length, read]

end Operation

/-! ### Programs -/

namespace Program

/-- A program packs the values that it takes and unpacks them again, whatever comes behind them. -/
theorem unpackFront_append_of_pack {program : Program} {values : List Value}
    (wellFormed : ∀ op ∈ program, op.WellFormed) (delimited : ∀ op ∈ program, op.SelfDelimiting)
    (takes : program.Takes values) :
    ∃ bs, program.packFront values = .ok (bs, []) ∧
      ∀ tail, program.unpackFront (bs ++ tail) = .ok (values, tail) := by
  induction takes with
  | nil => exact ⟨[], rfl, fun _ => rfl⟩
  | @cons op program taken values length canonical _ ih =>
    obtain ⟨op_wellFormed, others_wellFormed⟩ := List.forall_mem_cons.mp wellFormed
    obtain ⟨op_delimited, others_delimited⟩ := List.forall_mem_cons.mp delimited
    obtain ⟨more, packed_more, read_more⟩ := ih others_wellFormed others_delimited
    obtain ⟨bs, packed, read⟩ :=
      Operation.exists_pack_append op_delimited op_wellFormed length canonical
    refine ⟨bs ++ more, ?_, fun tail => ?_⟩
    · exact packFront_cons_eq_ok_iff.mpr ⟨bs, values, more, packed values, packed_more, rfl⟩
    · rw [List.append_assoc]
      exact unpackFront_cons_eq_ok_iff.mpr
        ⟨taken, more ++ tail, values, read (more ++ tail), read_more tail, rfl⟩

/-- **Packing, then unpacking.** A program of self-delimiting operations packs the canonical values
that it takes, and whatever bytes come behind, it unpacks these values and leaves those bytes. -/
theorem unpack_append_of_pack {text : String} {program : Program} {values : List Value}
    (parsed : Program.parse text = .ok program) (delimited : ∀ op ∈ program, op.SelfDelimiting)
    (takes : program.Takes values) :
    ∃ bs, program.pack values = .ok bs ∧
      ∀ tail, program.unpack (bs ++ tail) = .ok values ∧
        program.unpackFront (bs ++ tail) = .ok (values, tail) := by
  obtain ⟨bs, packed, read⟩ :=
    unpackFront_append_of_pack (spells_of_parse parsed).wellFormed delimited takes
  refine ⟨bs, ?_, fun tail => ⟨?_, read tail⟩⟩
  · rw [pack, packed]
  · rw [unpack, read tail]

/-- Two signed fields, a terminated text, padding and base64, one behind the other. -/
theorem unpack_append_of_pack_mixed :
    ∃ program, Program.parse "s>2Z*xm" = .ok program ∧
      ∃ bs, program.pack [.integer (-2), .integer 300, .bytes [0x68, 0x69], .bytes [0x00]] =
          .ok bs ∧
        ∀ tail, program.unpack (bs ++ tail) =
          .ok [.integer (-2), .integer 300, .bytes [0x68, 0x69], .bytes [0x00]] := by
  have parsed : Program.parse "s>2Z*xm" = .ok
      [⟨Directive.hostInteger 's' 2 2 true "signed 16-bit integer", ⟨false, some .big⟩, .times 2⟩,
        ⟨Directive.unsized 'Z' (.raw .nullTerminated) "null-terminated byte string", .none, .all⟩,
        ⟨⟨'x', .padding, 1, false, .native, none, "null byte"⟩, .none, .once⟩,
        ⟨Directive.unsized 'm' .base64 "base64 encoded string", .none, .once⟩] := rfl
  refine ⟨_, parsed, ?_⟩
  have takes : Takes
      [⟨Directive.hostInteger 's' 2 2 true "signed 16-bit integer", ⟨false, some .big⟩, .times 2⟩,
        ⟨Directive.unsized 'Z' (.raw .nullTerminated) "null-terminated byte string", .none, .all⟩,
        ⟨⟨'x', .padding, 1, false, .native, none, "null byte"⟩, .none, .once⟩,
        ⟨Directive.unsized 'm' .base64 "base64 encoded string", .none, .once⟩]
      ([.integer (-2), .integer 300] ++ ([.bytes [0x68, 0x69]] ++ ([] ++ ([.bytes [0x00]] ++ []))))
      := by
    refine .cons rfl ?_ (.cons rfl ?_ (.cons rfl ?_ (.cons rfl ?_ .nil)))
    · simp [Operation.Canonical, Directive.hostInteger, Field.InRange, Operation.signed,
        Operation.width]
    · simp [Operation.Canonical, Directive.unsized]
    · simp
    · simp [Operation.Canonical, Directive.unsized]
  obtain ⟨bs, packed, read⟩ := unpack_append_of_pack parsed
    (by simp [Operation.SelfDelimiting, Directive.hostInteger, Directive.unsized]) takes
  exact ⟨bs, packed, fun tail => (read tail).1⟩

end Program

end DirectivePack
