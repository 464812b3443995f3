import DirectivePack.Proofs.RoundTrip.Elements
import DirectivePack.Proofs.Field.Word
import DirectivePack.Proofs.Field.Compressed
import DirectivePack.Proofs.Field.Padded
import DirectivePack.Proofs.Digits.Groups

/-!
What a program unpacks it packs again to the bytes that it read.

This needs operations that take nothing off and stop within no byte (`Restorable`), and bytes from
which they read all that they ask for (`ReadsWhole`).  A double is written by its pattern, so that
nothing is asked of it.

* `Operation.Restorable.restores`: an element is written as it was read.
* `Operation.pack_append_of_unpack`: hence so is what an operation reads.
* `Program.pack_of_unpack`: and what a program reads, operation by operation.
-/

namespace DirectivePack

/-- The values that the operation reads show all of the bytes that it takes. -/
def Operation.Restorable (op : Operation) : Prop :=
  op.count ≠ .all ∧
    match op.directive.encoding with
    | .integer | .utf8 | .ber | .padding | .raw .nullPadded => True
    | .float => op.width = 8
    | .hexString _ => op.count.resolve 0 % 2 = 0
    | .bitString _ => op.count.resolve 0 % 8 = 0
    | .raw _ | .base64 => False

/-- The bytes hold all that the element at their front asks for.  A compressed integer does not
start with an idle digit. -/
def Operation.StartsWhole (op : Operation) (bs : Bytes) : Prop :=
  match op.directive.encoding with
  | .raw _ => op.count.resolve 0 ≤ bs.length
  | .hexString _ => Radix.hex.byteCount (op.count.resolve 0) ≤ bs.length
  | .bitString _ => Radix.bits.byteCount (op.count.resolve 0) ≤ bs.length
  | .ber => bs.head? ≠ some Field.idleDigit
  | _ => True

/-- The bytes hold all that the operation asks for, where each of its elements starts.  Padding is
there, and zero. -/
def Operation.ReadsWhole (op : Operation) (bs : Bytes) : Prop :=
  match op.directive.encoding with
  | .padding => op.count.resolve 0 ≤ bs.length ∧ ∀ b ∈ bs.take (op.count.resolve 0), b = 0x00
  | _ => EachRead op.readElement op.StartsWhole (op.arity 0) bs

/-- The bytes hold all that the program asks for, where each of its operations starts. -/
def Program.ReadsWhole : Program → Bytes → Prop
  | [], _ => True
  | op :: program, bs =>
    op.ReadsWhole bs ∧
      ∀ values rest, op.unpack bs = .ok (values, rest) → ReadsWhole program rest

namespace Operation

/-! ### Elements -/

/-- The value is written as the element that it was read from. -/
def Restores (op : Operation) (bs : Bytes) (v : Value) (rest : Bytes) : Prop :=
  ∃ piece, op.encodeValue v = .ok piece ∧ bs = piece ++ rest

theorem restores_integer {op : Operation} {bs rest : Bytes} {v : Value}
    (encoding : op.directive.encoding = .integer) (positive : 0 < op.width)
    (read : op.readInteger bs = .ok (v, rest)) : op.Restores bs v rest := by
  obtain ⟨field, split, length, rfl⟩ := readInteger_eq_ok_iff.mp read
  rw [← length] at positive
  have accepted := (Field.getInteger_spec op.signed op.order positive).1.fits positive
  rw [length] at accepted
  refine ⟨field, ?_, split⟩
  rw [encodeValue_integer encoding accepted, ← length,
    Field.putInteger_getInteger op.signed op.order positive]

theorem restores_float {op : Operation} {bs rest : Bytes} {v : Value}
    (encoding : op.directive.encoding = .float) (width : op.width = 8)
    (read : op.readFloat bs = .ok (v, rest)) : op.Restores bs v rest := by
  obtain ⟨field, split, length, rfl⟩ := readFloat_eq_ok_iff.mp read
  refine ⟨field, ?_, split⟩
  rw [encodeValue_float encoding width, Field.putFloat_getFloat op.order (length.trans width)]

theorem restores_utf8 {op : Operation} {bs rest : Bytes} {v : Value}
    (encoding : op.directive.encoding = .utf8) (read : op.readChar bs = .ok (v, rest)) :
    op.Restores bs v rest := by
  obtain ⟨c, rfl, split⟩ := readChar_eq_ok_iff.mp read
  exact ⟨Utf8.encodeChar c, encodeValue_utf8 encoding c, split⟩

theorem restores_ber {op : Operation} {bs rest : Bytes} {v : Value}
    (encoding : op.directive.encoding = .ber) (busy : bs.head? ≠ some Field.idleDigit)
    (read : op.readBer bs = .ok (v, rest)) : op.Restores bs v rest := by
  obtain ⟨n, rfl, -, got⟩ := readBer_eq_ok_iff.mp read
  exact ⟨Field.putBer n, encodeValue_ber encoding n, Field.putBer_of_getBer got busy⟩

theorem restores_raw {op : Operation} {bs : Bytes}
    (encoding : op.directive.encoding = .raw .nullPadded) (counted : op.count ≠ .all)
    (full : op.count.resolve 0 ≤ bs.length) :
    op.Restores bs (.bytes (readRaw .nullPadded op.count bs).1)
      (readRaw .nullPadded op.count bs).2 := by
  rw [readRaw_of_counted counted]
  refine ⟨bs.take (op.count.resolve 0), ?_, (List.take_append_drop ..).symm⟩
  rw [encodeValue_raw encoding, encodeRaw_of_counted counted]
  exact congrArg Except.ok (RawStyle.putField_take _ full)

/-- Digits that fill whole bytes, as many as are asked for. -/
theorem restores_digits {op : Operation} {radix : Radix} {order : DigitOrder} {bs rest : Bytes}
    {v : Value} (encoding : op.directive.encoding.digits? = some (radix, order))
    (counted : op.count ≠ .all) (whole : op.count.resolve 0 % radix.perByte = 0)
    (full : radix.byteCount (op.count.resolve 0) ≤ bs.length)
    (read : op.readElement bs = .ok (v, rest)) : op.Restores bs v rest := by
  have fixed : ∀ available, op.count.resolve available = op.count.resolve 0 := fun available =>
    Count.resolve_eq counted available 0
  rw [readElement_digits encoding, readDigits, fixed] at read
  cases read
  obtain ⟨field, split, packed⟩ :=
    Radix.pack?_of_unpack (Encoding.legible_of_digits? encoding) order whole full
  exact ⟨field, encodeValue_digits encoding (by rw [fixed]; exact packed), split⟩

/-- **One element.** It is written as it was read. -/
theorem Restorable.restores {op : Operation} (restorable : op.Restorable)
    (wellFormed : op.WellFormed) (valued : op.directive.encoding ≠ .padding) {bs rest : Bytes}
    {v : Value} (whole : op.StartsWhole bs) (read : op.readElement bs = .ok (v, rest)) :
    op.Restores bs v rest := by
  obtain ⟨counted, whole_bytes⟩ := restorable
  unfold StartsWhole at whole
  cases encoding : op.directive.encoding with
  | integer =>
    simp only [readElement, encoding] at read
    exact restores_integer encoding (wellFormed.width_pos (by rw [encoding]; rfl)) read
  | float =>
    simp only [encoding] at whole_bytes
    simp only [readElement, encoding] at read
    exact restores_float encoding whole_bytes read
  | utf8 =>
    simp only [readElement, encoding] at read
    exact restores_utf8 encoding read
  | ber =>
    simp only [encoding] at whole
    simp only [readElement, encoding] at read
    exact restores_ber encoding whole read
  | raw style =>
    simp only [encoding] at whole whole_bytes
    simp only [readElement, encoding] at read
    cases style with
    | nullPadded =>
      cases read
      exact restores_raw encoding counted whole
    | spacePadded | nullTerminated => exact absurd whole_bytes id
  | hexString order =>
    simp only [encoding] at whole whole_bytes
    exact restores_digits (congrArg Encoding.digits? encoding) counted whole_bytes whole read
  | bitString order =>
    simp only [encoding] at whole whole_bytes
    exact restores_digits (congrArg Encoding.digits? encoding) counted whole_bytes whole read
  | base64 =>
    simp only [encoding] at whole_bytes
  | padding => exact absurd encoding valued

/-! ### Operations -/

theorem Restorable.counted {op : Operation} (restorable : op.Restorable) : op.Counted :=
  counted_of_ne_all restorable.1

/-- Zeros that were skipped are written again. -/
theorem encode_of_unpack_padding {op : Operation} (encoding : op.directive.encoding = .padding)
    (counted : op.count ≠ .all) {bs rest : Bytes} {values : List Value} (whole : op.ReadsWhole bs)
    (unpacked : op.unpack bs = .ok (values, rest)) :
    values = [] ∧ ∃ written, op.encode values = .ok written ∧ bs = written ++ rest := by
  simp only [ReadsWhole, encoding] at whole
  obtain ⟨there, zero⟩ := whole
  simp only [unpack, encoding, Except.ok.injEq, Prod.mk.injEq] at unpacked
  obtain ⟨rfl, rfl⟩ := unpacked
  have zeros : bs.take (op.count.resolve 0) = List.replicate (op.count.resolve 0) 0 := by
    rw [List.eq_replicate_iff]
    exact ⟨List.length_take_of_le there, zero⟩
  refine ⟨rfl, List.replicate (op.count.resolve 0) 0, by simp only [encode, encoding], ?_⟩
  rw [Count.resolve_eq counted bs.length 0, ← zeros, List.take_append_drop]

/-- **One operation.** What it reads it packs again to the bytes that it read. -/
theorem pack_append_of_unpack {op : Operation} (restorable : op.Restorable)
    (wellFormed : op.WellFormed) {bs rest : Bytes} {taken : List Value} (whole : op.ReadsWhole bs)
    (unpacked : op.unpack bs = .ok (taken, rest)) :
    ∃ written, (∀ values, op.pack (taken ++ values) = .ok (written, values)) ∧
      bs = written ++ rest := by
  have counted := restorable.counted
  by_cases padding : op.directive.encoding = .padding
  · obtain ⟨rfl, written, encoded, split⟩ :=
      encode_of_unpack_padding padding restorable.1 whole unpacked
    have length : ([] : List Value).length = op.arity 0 := by
      rw [arity, padding]
      rfl
    exact ⟨written, pack_append counted length encoded, split⟩
  · have starts : EachRead op.readElement op.StartsWhole (op.arity 0) bs := by
      unfold ReadsWhole at whole
      cases encoding : op.directive.encoding with
      | padding => exact absurd encoding padding
      | integer | float | utf8 | ber | raw | hexString | bitString | base64 =>
        simpa only [encoding] using whole
    rw [unpack_eq_readTimes counted padding] at unpacked
    have restores : ∀ bs v rest, op.StartsWhole bs → op.readElement bs = .ok (v, rest) →
        op.Restores bs v rest := fun _ _ _ => restorable.restores wellFormed padding
    obtain ⟨length, written, encoded, split⟩ := encodeEach_of_readTimes restores starts unpacked
    rw [← encode_eq_encodeEach padding] at encoded
    exact ⟨written, pack_append counted length encoded, split⟩

end Operation

/-! ### Programs -/

namespace Program

/-- Where an operation is read, the other operations start from what it leaves. -/
theorem readsWhole_cons_iff {op : Operation} {program : Program} {bs rest : Bytes}
    {values : List Value} (read : op.unpack bs = .ok (values, rest)) :
    ReadsWhole (op :: program) bs ↔ op.ReadsWhole bs ∧ ReadsWhole program rest := by
  constructor
  · rintro ⟨whole, behind⟩
    exact ⟨whole, behind values rest read⟩
  · rintro ⟨whole, behind⟩
    refine ⟨whole, fun values' rest' read' => ?_⟩
    rw [read] at read'
    cases read'
    exact behind

theorem packFront_of_unpackFront {program : Program} {data rest : Bytes} {values : List Value}
    (wellFormed : ∀ op ∈ program, op.WellFormed) (restorable : ∀ op ∈ program, op.Restorable)
    (whole : program.ReadsWhole data) (unpacked : program.unpackFront data = .ok (values, rest)) :
    ∃ bs, program.packFront values = .ok (bs, []) ∧ data = bs ++ rest := by
  induction program generalizing data values with
  | nil =>
    simp only [unpackFront, Except.ok.injEq, Prod.mk.injEq] at unpacked
    obtain ⟨rfl, rfl⟩ := unpacked
    exact ⟨[], rfl, rfl⟩
  | cons op program ih =>
    obtain ⟨op_wellFormed, others_wellFormed⟩ := List.forall_mem_cons.mp wellFormed
    obtain ⟨op_restorable, others_restorable⟩ := List.forall_mem_cons.mp restorable
    obtain ⟨taken, behind, more, first, others, rfl⟩ := unpackFront_cons_eq_ok_iff.mp unpacked
    obtain ⟨op_whole, behind_whole⟩ := (readsWhole_cons_iff first).mp whole
    obtain ⟨piece, packed, rfl⟩ :=
      Operation.pack_append_of_unpack op_restorable op_wellFormed op_whole first
    obtain ⟨bs, packed_more, rfl⟩ := ih others_wellFormed others_restorable behind_whole others
    exact ⟨piece ++ bs,
      packFront_cons_eq_ok_iff.mpr ⟨piece, more, bs, packed more, packed_more, rfl⟩,
      (List.append_assoc ..).symm⟩

/-- **Unpacking, then packing.** The values that a program of restorable operations unpacks from
bytes that hold all it asks for, it packs again to just the bytes that it used up. -/
theorem pack_of_unpack {text : String} {program : Program} {data : Bytes} {values : List Value}
    (parsed : Program.parse text = .ok program) (restorable : ∀ op ∈ program, op.Restorable)
    (unpacked : program.unpack data = .ok values) (whole : program.ReadsWhole data) :
    ∃ bs rest, program.unpackFront data = .ok (values, rest) ∧ data = bs ++ rest ∧
      program.pack values = .ok bs := by
  rw [unpack] at unpacked
  cases front : program.unpackFront data with
  | error fault => simp [front] at unpacked
  | ok found =>
    obtain ⟨read, rest⟩ := found
    simp only [front, Except.ok.injEq] at unpacked
    subst unpacked
    obtain ⟨bs, packed, split⟩ :=
      packFront_of_unpackFront (spells_of_parse parsed).wellFormed restorable whole front
    exact ⟨bs, rest, rfl, split, by rw [pack, packed]⟩

/-- A signed field, digits and padding, with a byte behind them that nothing reads. -/
theorem pack_of_unpack_mixed :
    ∃ program, Program.parse "s>H2x" = .ok program ∧
      program.unpack [0xFF, 0xFE, 0xAB, 0x00, 0x99] = .ok [.integer (-2), .bytes [0x61, 0x62]] ∧
      ∃ bs rest, [0xFF, 0xFE, 0xAB, 0x00, 0x99] = bs ++ rest ∧
        program.pack [.integer (-2), .bytes [0x61, 0x62]] = .ok bs := by
  have parsed : Program.parse "s>H2x" = .ok
      [⟨Directive.hostInteger 's' 2 2 true "signed 16-bit integer", ⟨false, some .big⟩, .once⟩,
        ⟨Directive.unsized 'H' (.hexString .highFirst) "hex string, high nibble first", .none,
          .times 2⟩,
        ⟨⟨'x', .padding, 1, false, .native, none, "null byte"⟩, .none, .once⟩] := rfl
  have whole : ReadsWhole
      [⟨Directive.hostInteger 's' 2 2 true "signed 16-bit integer", ⟨false, some .big⟩, .once⟩,
        ⟨Directive.unsized 'H' (.hexString .highFirst) "hex string, high nibble first", .none,
          .times 2⟩,
        ⟨⟨'x', .padding, 1, false, .native, none, "null byte"⟩, .none, .once⟩]
      [0xFF, 0xFE, 0xAB, 0x00, 0x99] := by
    refine (readsWhole_cons_iff rfl).mpr ⟨?_, (readsWhole_cons_iff rfl).mpr ⟨?_,
      (readsWhole_cons_iff rfl).mpr ⟨?_, trivial⟩⟩⟩
    · exact ⟨trivial, fun _ _ _ => trivial⟩
    · exact ⟨(by decide : 1 ≤ 3), fun _ _ _ => trivial⟩
    · exact ⟨(by decide : 1 ≤ 2), fun _ member => List.mem_singleton.mp member⟩
  obtain ⟨bs, rest, -, split, packed⟩ := pack_of_unpack parsed
    (by simp [Operation.Restorable, Directive.hostInteger, Directive.unsized, Count.resolve])
    rfl whole
  exact ⟨_, parsed, rfl, bs, rest, split, packed⟩

end Program

end DirectivePack
