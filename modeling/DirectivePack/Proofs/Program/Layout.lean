import Mathlib.Data.List.Forall2
import DirectivePack.Proofs.Digits.Groups
import DirectivePack.Proofs.Field.Padded
import DirectivePack.Proofs.Field.Word
import DirectivePack.Proofs.Program.Accounting

/-!
Layouts: where the bytes of each value stand.

Without stars, characters, compressed integers and base64, a program alone says which bytes belong
to which of its values.  Packing writes each value into its own bytes and nowhere else, and
unpacking reads it from these and looks at no other byte.

* `Operation.readElement_append`, `Operation.length_of_encodeValue`: both directions give a value
  as many bytes.
* `Program.written_of_packFront`, `Program.read_of_unpackFront`: every value is written to its place
  and read from there.
* `Program.exists_holds`, `Program.not_holds_gap`: every byte belongs to a value or is padding, and
  none is both.
* `values_stay_in_place`: hence what is done with one value depends on no byte of another one.
-/

namespace DirectivePack

/-! ### Stretches of bytes -/

/-- Some bytes in a row: how many stand in front of them, and how many they are. -/
structure Stretch where
  offset : Nat
  size : Nat
deriving DecidableEq, Repr

namespace Stretch

def Holds (s : Stretch) (position : Nat) : Prop :=
  s.offset ≤ position ∧ position < s.offset + s.size

instance (s : Stretch) (position : Nat) : Decidable (s.Holds position) :=
  inferInstanceAs (Decidable (_ ∧ _))

/-- The bytes that stand there. -/
def cut (s : Stretch) (data : Bytes) : Bytes :=
  (data.drop s.offset).take s.size

/-- From the one offset on and up to the other. -/
def IsWithin (s : Stretch) (start stop : Nat) : Prop :=
  start ≤ s.offset ∧ s.offset + s.size ≤ stop

/-- The same bytes stand there in both. -/
def Agree (s : Stretch) (data other : Bytes) : Prop :=
  ∀ position, s.Holds position → data[position]? = other[position]?

theorem getElem?_cut (s : Stretch) (data : Bytes) (i : Nat) :
    (s.cut data)[i]? = if i < s.size then data[s.offset + i]? else none := by
  rw [cut, List.getElem?_take, List.getElem?_drop]

theorem agree_iff_cut_eq {s : Stretch} {data other : Bytes} :
    s.Agree data other ↔ s.cut data = s.cut other := by
  constructor
  · intro agree
    apply List.ext_getElem?
    intro i
    rw [getElem?_cut, getElem?_cut]
    split
    · rename_i inside
      exact agree _ ⟨Nat.le_add_right .., Nat.add_lt_add_left inside _⟩
    · rfl
  · rintro same position ⟨from_offset, below⟩
    have inside : position - s.offset < s.size := by omega
    have byte := congrArg (fun field : Bytes => field[position - s.offset]?) same
    simpa only [getElem?_cut, if_pos inside, Nat.add_sub_cancel' from_offset] using byte

theorem cut_append (front piece rest : Bytes) :
    cut ⟨front.length, piece.length⟩ (front ++ (piece ++ rest)) = piece := by
  rw [cut, List.drop_left' rfl, List.take_left' rfl]

theorem IsWithin.mono {s : Stretch} {start stop start' stop' : Nat} (within : s.IsWithin start stop)
    (from_earlier : start' ≤ start) (to_later : stop ≤ stop') : s.IsWithin start' stop' :=
  ⟨Nat.le_trans from_earlier within.1, Nat.le_trans within.2 to_later⟩

theorem IsWithin.of_holds {s : Stretch} {start stop position : Nat}
    (within : s.IsWithin start stop) (holds : s.Holds position) :
    start ≤ position ∧ position < stop :=
  ⟨Nat.le_trans within.1 holds.1, Nat.lt_of_lt_of_le holds.2 within.2⟩

end Stretch

/-! ### Layouts -/

/-- Whether, without a star, the elements have a size that does not depend on their values. -/
def Encoding.hasFixedSize : Encoding → Bool
  | .integer | .float | .raw _ | .padding | .hexString _ | .bitString _ => true
  | .utf8 | .ber | .base64 => false

namespace Operation

/-- The operations of which the bytes are fixed by the program alone. -/
def IsLaidOut (op : Operation) : Prop :=
  op.count ≠ .all ∧ op.directive.encoding.hasFixedSize = true

instance (op : Operation) : Decidable op.IsLaidOut :=
  inferInstanceAs (Decidable (_ ∧ _))

/-- How many bytes an operation stands for: its count says how many numbers, bytes, hexadecimal
digits or bits there are. -/
def size (op : Operation) : Nat :=
  let n := op.count.resolve 0
  match op.directive.encoding with
  | .integer | .float => n * op.width
  | .raw _ | .padding => n
  | .hexString _ => (n + 1) / 2
  | .bitString _ => (n + 7) / 8
  | .utf8 | .ber | .base64 => 0

/-- How many of these bytes belong to each value. -/
def valueSize (op : Operation) : Nat :=
  match op.directive.encoding with
  | .integer | .float => op.width
  | _ => op.size

/-- So many values one behind the other, from an offset on. -/
def valuesFrom (op : Operation) : Nat → Nat → List Element
  | 0, _ => []
  | count + 1, offset => ⟨op, offset⟩ :: op.valuesFrom count (offset + op.valueSize)

/-- The bytes that belong to no value. -/
def gaps (op : Operation) (offset : Nat) : List Stretch :=
  if op.directive.encoding = .padding then [⟨offset, op.size⟩] else []

end Operation

/-- The bytes of an element. -/
def Element.stretch (e : Element) : Stretch :=
  ⟨e.offset, e.op.valueSize⟩

namespace Program

/-- How many bytes a program stands for. -/
def size : Program → Nat
  | [] => 0
  | op :: program => op.size + size program

/-- The elements of the values of a program, in order, with `offset` bytes in front of them. -/
def layout : Program → Nat → List Element
  | [], _ => []
  | op :: program, offset => op.valuesFrom op.need offset ++ layout program (offset + op.size)

/-- The padding of a program, with `offset` bytes in front of it. -/
def gaps : Program → Nat → List Stretch
  | [], _ => []
  | op :: program, offset => op.gaps offset ++ gaps program (offset + op.size)

end Program

/-! ### One value -/

namespace Operation

variable {op : Operation} (laidOut : op.IsLaidOut)

theorem withKind_eq_ok_iff {γ : Type} {expected actual : ValueKind}
    {encode : γ → Except ValueReason Bytes} {found : Option γ} {bs : Bytes} :
    op.withKind expected actual encode found = .ok bs ↔
      ∃ x, found = some x ∧ encode x = .ok bs := by
  cases found with
  | none => simp [withKind]
  | some x => cases encoded : encode x <;> simp [withKind, encoded]

theorem exists_of_encodeValue_digits {radix : Radix} {order : DigitOrder} {v : Value} {bs : Bytes}
    (encoding : op.directive.encoding.digits? = some (radix, order))
    (encoded : op.encodeValue v = .ok bs) :
    ∃ text, radix.pack? order (op.count.resolve text.length) text = .ok bs := by
  rw [encodeValue_digits_eq encoding, withBytes_eq_withKind] at encoded
  obtain ⟨text, -, packed⟩ := withKind_eq_ok_iff.mp encoded
  exact ⟨text, mapError_eq_ok_iff.mp packed⟩

include laidOut

/-- Padding stands for no value; the bytes of any other operation are those of its values. -/
theorem size_eq (wellFormed : op.WellFormed) (valued : op.directive.encoding ≠ .padding) :
    op.size = op.need * op.valueSize := by
  rw [← arity_eq_need wellFormed laidOut.1 0, valueSize, size, arity]
  have fixed := laidOut.2
  cases encoding : op.directive.encoding with
  | integer | float => rfl
  | raw | hexString | bitString => exact (Nat.one_mul _).symm
  | padding => exact absurd encoding valued
  | utf8 | ber | base64 => simp [encoding, Encoding.hasFixedSize] at fixed

/-- Whatever the value, it is written as so many bytes. -/
theorem length_of_encodeValue (wellFormed : op.WellFormed)
    (valued : op.directive.encoding ≠ .padding) {v : Value} {bs : Bytes}
    (encoded : op.encodeValue v = .ok bs) : bs.length = op.valueSize := by
  have counted (available : Nat) : op.count.resolve available = op.count.resolve 0 :=
    Count.resolve_eq laidOut.1 available 0
  have fixed := laidOut.2
  unfold valueSize size
  cases encoding : op.directive.encoding with
  | integer =>
    simp only [encodeValue, encoding, withInteger_eq_withKind] at encoded
    obtain ⟨n, -, written⟩ := withKind_eq_ok_iff.mp encoded
    unfold encodeInteger at written
    split at written
    · cases written
      exact Field.length_putInteger ..
    · cases written
  | float =>
    have widths : ∀ d ∈ Directive.table, d.encoding = .float →
        d.nativeWidth = none ∧ (d.width = 4 ∨ d.width = 8) := by
      decide
    obtain ⟨native, width⟩ := widths op.directive wellFormed.in_table encoding
    have wide : op.width = 4 ∨ op.width = 8 := by simpa [Operation.width, native] using width
    simp only [encodeValue, encoding, withFloat_eq_withKind] at encoded
    obtain ⟨x, -, written⟩ := withKind_eq_ok_iff.mp encoded
    unfold encodeFloat at written
    split at written
    · cases written
    · cases written
      exact Field.length_putFloat_of_width wide ..
  | raw style =>
    simp only [encodeValue, encoding, withBytes_eq_withKind, encodeRaw_of_counted laidOut.1]
      at encoded
    obtain ⟨text, -, written⟩ := withKind_eq_ok_iff.mp encoded
    cases written
    exact RawStyle.length_putField ..
  | hexString order | bitString order =>
    obtain ⟨text, packed⟩ :=
      exists_of_encodeValue_digits (congrArg Encoding.digits? encoding) encoded
    rw [counted] at packed
    exact Radix.length_of_pack? packed
  | padding => exact absurd encoding valued
  | utf8 | ber | base64 => simp [encoding, Encoding.hasFixedSize] at fixed

/-- As many bytes as the digits take are read as these digits. -/
theorem readElement_digits_append {radix : Radix} {order : DigitOrder} {field : Bytes}
    (encoding : op.directive.encoding.digits? = some (radix, order))
    (length : field.length = radix.byteCount (op.count.resolve 0)) (rest : Bytes) :
    op.readElement (field ++ rest) =
      .ok (.bytes (((radix.ofBytes order field).take (op.count.resolve 0)).map digitChar),
        rest) := by
  rw [readElement_digits encoding, readDigits, Count.resolve_eq laidOut.1 _ 0, Radix.unpack]
  rw [List.take_left' length, List.drop_left' length]
  rfl

/-- So many bytes are read as a value, whatever they are and whatever comes behind them. -/
theorem readElement_append (valued : op.directive.encoding ≠ .padding) {field : Bytes}
    (length : field.length = op.valueSize) :
    ∃ v, ∀ rest, op.readElement (field ++ rest) = .ok (v, rest) := by
  have fixed := laidOut.2
  unfold valueSize size at length
  cases encoding : op.directive.encoding with
  | integer | float =>
    have numeric : op.directive.encoding.isFixedWidthNumeric = true := by
      rw [encoding]
      rfl
    simp only [encoding] at length
    refine ⟨op.numberOf field, fun rest => ?_⟩
    rw [readElement_of_numeric numeric, require_eq_ok_iff.mpr ⟨rfl, length⟩]
  | raw style =>
    simp only [encoding] at length
    refine ⟨.bytes (style.trim field), fun rest => ?_⟩
    simp only [readElement, encoding, readRaw_of_counted laidOut.1, RawStyle.getField]
    rw [List.take_left' length, List.drop_left' length]
    rfl
  | hexString order =>
    simp only [encoding] at length
    exact ⟨_, readElement_digits_append laidOut (congrArg Encoding.digits? encoding) length⟩
  | bitString order =>
    simp only [encoding] at length
    exact ⟨_, readElement_digits_append laidOut (congrArg Encoding.digits? encoding) length⟩
  | padding => exact absurd encoding valued
  | utf8 | ber | base64 => simp [encoding, Encoding.hasFixedSize] at fixed

end Operation

/-! ### Values at their places -/

namespace Element

/-- The value is written as the bytes of the element. -/
def Writes (whole : Bytes) (e : Element) (v : Value) : Prop :=
  e.op.encodeValue v = .ok (e.stretch.cut whole)

/-- The value is read from the bytes of the element alone. -/
def Reads (whole : Bytes) (e : Element) (v : Value) : Prop :=
  e.op.readElement (e.stretch.cut whole) = .ok (v, [])

theorem Reads.unique_of_agree {data other : Bytes} {e : Element} {v w : Value}
    (read : e.Reads data v) (again : e.Reads other w) (agree : e.stretch.Agree data other) :
    v = w := by
  unfold Reads at read again
  rw [Stretch.agree_iff_cut_eq.mp agree, again] at read
  cases read
  rfl

end Element

namespace Operation

variable {op : Operation} (laidOut : op.IsLaidOut) (valued : op.directive.encoding ≠ .padding)

include laidOut valued

/-- Values one behind the other are written to their places. -/
theorem written_of_encodeEach (wellFormed : op.WellFormed) {taken : List Value} {bs : Bytes}
    (encoded : encodeEach op.encodeValue taken = .ok bs) :
    bs.length = taken.length * op.valueSize ∧
      ∀ front rest : Bytes, List.Forall₂ (Element.Writes (front ++ (bs ++ rest)))
        (op.valuesFrom taken.length front.length) taken := by
  induction taken generalizing bs with
  | nil =>
    cases encoded
    exact ⟨(Nat.zero_mul _).symm, fun _ _ => .nil⟩
  | cons v taken ih =>
    obtain ⟨piece, more, first, others, rfl⟩ := encodeEach_cons_eq_ok_iff.mp encoded
    have piece_length := length_of_encodeValue laidOut wellFormed valued first
    obtain ⟨more_length, written⟩ := ih others
    refine ⟨?_, fun front rest => ?_⟩
    · rw [List.length_append, piece_length, more_length, List.length_cons, Nat.succ_mul,
        Nat.add_comm]
    · have behind := written (front ++ piece) rest
      rw [List.length_append, piece_length, List.append_assoc] at behind
      rw [List.append_assoc]
      refine .cons ?_ behind
      have place : Stretch.cut ⟨front.length, op.valueSize⟩ (front ++ (piece ++ (more ++ rest))) =
          piece := piece_length ▸ Stretch.cut_append front piece (more ++ rest)
      unfold Element.Writes
      rw [Element.stretch, place]
      exact first

/-- Values one behind the other are read from their places. -/
theorem read_of_readTimes {data : Bytes} {count offset : Nat}
    (there : offset + count * op.valueSize ≤ data.length) :
    ∃ values, readTimes op.readElement count (data.drop offset) =
        .ok (values, data.drop (offset + count * op.valueSize)) ∧
      List.Forall₂ (Element.Reads data) (op.valuesFrom count offset) values := by
  induction count generalizing offset with
  | zero =>
    refine ⟨[], ?_, .nil⟩
    rw [Nat.zero_mul]
    rfl
  | succ count ih =>
    have further : offset + op.valueSize + count * op.valueSize =
        offset + (count + 1) * op.valueSize := by
      rw [Nat.succ_mul]
      omega
    have length : (Stretch.cut ⟨offset, op.valueSize⟩ data).length = op.valueSize := by
      rw [Nat.succ_mul] at there
      simp only [Stretch.cut, List.length_take, List.length_drop]
      omega
    have split : data.drop offset =
        Stretch.cut ⟨offset, op.valueSize⟩ data ++ data.drop (offset + op.valueSize) := by
      rw [Stretch.cut, ← List.drop_drop, List.take_append_drop]
    obtain ⟨v, first⟩ := readElement_append laidOut valued length
    obtain ⟨values, others, read⟩ := ih (further ▸ there)
    refine ⟨v :: values, ?_, .cons ?_ read⟩
    · rw [split]
      exact readTimes_succ_eq_ok_iff.mpr ⟨v, _, values, first _, further ▸ others, rfl⟩
    · have alone := first []
      rwa [List.append_nil] at alone

end Operation

namespace Operation

variable {op : Operation} (laidOut : op.IsLaidOut) (wellFormed : op.WellFormed)

/-! ### One operation -/

theorem valuesFrom_within {count offset : Nat} {e : Element}
    (found : e ∈ op.valuesFrom count offset) :
    e.stretch.IsWithin offset (offset + count * op.valueSize) := by
  induction count generalizing offset with
  | zero => simp [valuesFrom] at found
  | succ count ih =>
    have further : offset + op.valueSize + count * op.valueSize =
        offset + (count + 1) * op.valueSize := by
      rw [Nat.succ_mul]
      omega
    rcases List.mem_cons.mp found with rfl | behind
    · refine ⟨Nat.le_refl _, ?_⟩
      rw [← further]
      exact Nat.le_add_right ..
    · exact (ih behind).mono (Nat.le_add_right ..) (Nat.le_of_eq further)

/-- In so many elements one behind the other there is no other byte. -/
theorem exists_valuesFrom_holds {count offset position : Nat} (behind : offset ≤ position)
    (before : position < offset + count * op.valueSize) :
    ∃ e ∈ op.valuesFrom count offset, e.stretch.Holds position := by
  induction count generalizing offset with
  | zero =>
    rw [Nat.zero_mul] at before
    omega
  | succ count ih =>
    rw [Nat.succ_mul] at before
    by_cases first : position < offset + op.valueSize
    · exact ⟨⟨op, offset⟩, List.mem_cons_self, behind, first⟩
    · obtain ⟨e, found, holds⟩ := ih (Nat.not_lt.mp first) (by omega)
      exact ⟨e, List.mem_cons_of_mem _ found, holds⟩

theorem length_valuesFrom (count offset : Nat) :
    (op.valuesFrom count offset).length = count := by
  induction count generalizing offset with
  | zero => rfl
  | succ count ih => rw [valuesFrom, List.length_cons, ih]

theorem mem_gaps {offset : Nat} {gap : Stretch} :
    gap ∈ op.gaps offset ↔ op.directive.encoding = .padding ∧ gap = ⟨offset, op.size⟩ := by
  unfold gaps
  split <;> simp_all

theorem size_of_padding (padding : op.directive.encoding = .padding) :
    op.size = op.count.resolve 0 := by
  simp only [size, padding]

include laidOut wellFormed

theorem need_of_padding (padding : op.directive.encoding = .padding) : op.need = 0 := by
  rw [← arity_eq_need wellFormed laidOut.1 0, arity, padding]

theorem values_within {offset : Nat} {e : Element} (found : e ∈ op.valuesFrom op.need offset) :
    op.directive.encoding ≠ .padding ∧ e.stretch.IsWithin offset (offset + op.size) := by
  by_cases padding : op.directive.encoding = .padding
  · rw [need_of_padding laidOut wellFormed padding] at found
    cases found
  · rw [size_eq laidOut wellFormed padding]
    exact ⟨padding, valuesFrom_within found⟩

/-- Every byte of an operation belongs to a value or is padding. -/
theorem exists_holds {offset position : Nat} (behind : offset ≤ position)
    (before : position < offset + op.size) :
    (∃ e ∈ op.valuesFrom op.need offset, e.stretch.Holds position) ∨
      ∃ gap ∈ op.gaps offset, gap.Holds position := by
  by_cases padding : op.directive.encoding = .padding
  · exact .inr ⟨_, mem_gaps.mpr ⟨padding, rfl⟩, behind, before⟩
  · rw [size_eq laidOut wellFormed padding] at before
    exact .inl (exists_valuesFrom_holds behind before)

/-- An operation writes its values to their places, and zeros to its padding. -/
theorem written_of_pack {values left : List Value} {bs : Bytes}
    (packed : op.pack values = .ok (bs, left)) :
    bs.length = op.size ∧ ∃ taken, values = taken ++ left ∧ ∀ front rest : Bytes,
      List.Forall₂ (Element.Writes (front ++ (bs ++ rest))) (op.valuesFrom op.need front.length)
          taken ∧
        ∀ gap ∈ op.gaps front.length,
          gap.cut (front ++ (bs ++ rest)) = List.replicate gap.size 0 := by
  obtain ⟨taken, whole, length, encoded⟩ := pack_eq_ok_iff.mp packed
  rw [arity_eq_need wellFormed laidOut.1] at length
  by_cases padding : op.directive.encoding = .padding
  · have none_taken := need_of_padding laidOut wellFormed padding
    rw [none_taken, List.length_eq_zero_iff] at length
    subst length
    simp only [encode, padding, Except.ok.injEq, ← size_of_padding padding] at encoded
    subst encoded
    refine ⟨List.length_replicate, [], whole, fun front rest => ⟨?_, fun gap found => ?_⟩⟩
    · rw [none_taken]
      exact .nil
    · obtain ⟨-, rfl⟩ := mem_gaps.mp found
      have place := Stretch.cut_append front (List.replicate op.size 0) rest
      rwa [List.length_replicate] at place
  · rw [encode_eq_encodeEach padding] at encoded
    obtain ⟨bs_length, written⟩ := written_of_encodeEach laidOut padding wellFormed encoded
    rw [length] at bs_length written
    refine ⟨bs_length.trans (size_eq laidOut wellFormed padding).symm, taken, whole,
      fun front rest => ⟨written front rest, fun gap found => ?_⟩⟩
    exact absurd (mem_gaps.mp found).1 padding

/-- An operation reads its values from their places, whatever bytes stand there. -/
theorem read_of_unpack {data : Bytes} {offset : Nat} (there : offset + op.size ≤ data.length) :
    ∃ values, op.unpack (data.drop offset) = .ok (values, data.drop (offset + op.size)) ∧
      List.Forall₂ (Element.Reads data) (op.valuesFrom op.need offset) values := by
  by_cases padding : op.directive.encoding = .padding
  · refine ⟨[], ?_, ?_⟩
    · rw [unpack, padding, size_of_padding padding, Count.resolve_eq laidOut.1 _ 0, List.drop_drop]
    · rw [need_of_padding laidOut wellFormed padding]
      exact .nil
  · rw [size_eq laidOut wellFormed padding] at there ⊢
    rw [unpack_eq_readTimes (counted_of_ne_all laidOut.1) padding,
      arity_eq_need wellFormed laidOut.1]
    exact read_of_readTimes laidOut padding there

end Operation

/-! ### Programs -/

namespace Program

variable {program : Program} (wellFormed : ∀ op ∈ program, op.WellFormed)
  (laidOut : ∀ op ∈ program, op.IsLaidOut)

include wellFormed laidOut

theorem layout_within {offset : Nat} {e : Element} (found : e ∈ program.layout offset) :
    e.stretch.IsWithin offset (offset + program.size) := by
  induction program generalizing offset with
  | nil => cases found
  | cons op program ih =>
    obtain ⟨op_wellFormed, others_wellFormed⟩ := List.forall_mem_cons.mp wellFormed
    obtain ⟨op_laidOut, others_laidOut⟩ := List.forall_mem_cons.mp laidOut
    rw [size, ← Nat.add_assoc]
    rcases List.mem_append.mp found with first | others
    · exact (Operation.values_within op_laidOut op_wellFormed first).2.mono (Nat.le_refl _)
        (Nat.le_add_right ..)
    · exact (ih others_wellFormed others_laidOut others).mono (Nat.le_add_right ..) (Nat.le_refl _)

omit wellFormed laidOut in
theorem gaps_within {offset : Nat} {gap : Stretch} (found : gap ∈ program.gaps offset) :
    gap.IsWithin offset (offset + program.size) := by
  induction program generalizing offset with
  | nil => cases found
  | cons op program ih =>
    rw [size, ← Nat.add_assoc]
    rcases List.mem_append.mp found with first | others
    · obtain ⟨-, rfl⟩ := Operation.mem_gaps.mp first
      exact ⟨Nat.le_refl _, Nat.le_add_right ..⟩
    · exact (ih others).mono (Nat.le_add_right ..) (Nat.le_refl _)

/-- Every byte of a program belongs to a value or is padding. -/
theorem exists_holds {offset position : Nat} (behind : offset ≤ position)
    (before : position < offset + program.size) :
    (∃ e ∈ program.layout offset, e.stretch.Holds position) ∨
      ∃ gap ∈ program.gaps offset, gap.Holds position := by
  induction program generalizing offset with
  | nil =>
    rw [size] at before
    omega
  | cons op program ih =>
    obtain ⟨op_wellFormed, others_wellFormed⟩ := List.forall_mem_cons.mp wellFormed
    obtain ⟨op_laidOut, others_laidOut⟩ := List.forall_mem_cons.mp laidOut
    rw [size, ← Nat.add_assoc] at before
    by_cases first : position < offset + op.size
    · rcases Operation.exists_holds op_laidOut op_wellFormed behind first with
        ⟨e, found, holds⟩ | ⟨gap, found, holds⟩
      · exact .inl ⟨e, List.mem_append_left _ found, holds⟩
      · exact .inr ⟨gap, List.mem_append_left _ found, holds⟩
    · rcases ih others_wellFormed others_laidOut (Nat.not_lt.mp first) before with
        ⟨e, found, holds⟩ | ⟨gap, found, holds⟩
      · exact .inl ⟨e, List.mem_append_right _ found, holds⟩
      · exact .inr ⟨gap, List.mem_append_right _ found, holds⟩

/-- No byte of a value is padding. -/
theorem not_holds_gap {offset position : Nat} {e : Element} {gap : Stretch}
    (found : e ∈ program.layout offset) (gap_found : gap ∈ program.gaps offset)
    (holds : e.stretch.Holds position) : ¬ gap.Holds position := by
  intro gap_holds
  induction program generalizing offset with
  | nil => cases found
  | cons op program ih =>
    obtain ⟨op_wellFormed, others_wellFormed⟩ := List.forall_mem_cons.mp wellFormed
    obtain ⟨op_laidOut, others_laidOut⟩ := List.forall_mem_cons.mp laidOut
    rcases List.mem_append.mp found with first | others <;>
      rcases List.mem_append.mp gap_found with gap_first | gap_others
    · have valued := (Operation.values_within op_laidOut op_wellFormed first).1
      exact absurd (Operation.mem_gaps.mp gap_first).1 valued
    · have below := (Operation.values_within op_laidOut op_wellFormed first).2.of_holds holds
      have above := (gaps_within gap_others).of_holds gap_holds
      omega
    · obtain ⟨-, rfl⟩ := Operation.mem_gaps.mp gap_first
      have above := (layout_within others_wellFormed others_laidOut others).of_holds holds
      exact absurd gap_holds.2 (Nat.not_lt.mpr above.1)
    · exact ih others_wellFormed others_laidOut others gap_others

/-- A program writes its values to their places, and zeros to its padding. -/
theorem written_of_packFront {values left : List Value} {bs : Bytes}
    (packed : program.packFront values = .ok (bs, left)) :
    bs.length = program.size ∧ ∃ taken, values = taken ++ left ∧ ∀ front rest : Bytes,
      List.Forall₂ (Element.Writes (front ++ (bs ++ rest))) (program.layout front.length) taken ∧
        ∀ gap ∈ program.gaps front.length,
          gap.cut (front ++ (bs ++ rest)) = List.replicate gap.size 0 := by
  induction program generalizing values bs with
  | nil =>
    cases packed
    exact ⟨rfl, [], rfl, fun _ _ => ⟨.nil, fun _ found => nomatch found⟩⟩
  | cons op program ih =>
    obtain ⟨op_wellFormed, others_wellFormed⟩ := List.forall_mem_cons.mp wellFormed
    obtain ⟨op_laidOut, others_laidOut⟩ := List.forall_mem_cons.mp laidOut
    obtain ⟨piece, behind, more, first, others, rfl⟩ := packFront_cons_eq_ok_iff.mp packed
    obtain ⟨piece_length, taken, rfl, written⟩ :=
      Operation.written_of_pack op_laidOut op_wellFormed first
    obtain ⟨more_length, taken_more, rfl, written_more⟩ :=
      ih others_wellFormed others_laidOut others
    refine ⟨?_, taken ++ taken_more, (List.append_assoc ..).symm, fun front rest => ?_⟩
    · rw [List.length_append, piece_length, more_length, size]
    · -- the others see the piece as a part of what stands in front of them
      have ⟨here, here_zero⟩ := written front (more ++ rest)
      have ⟨there, there_zero⟩ := written_more (front ++ piece) rest
      rw [List.length_append, piece_length, List.append_assoc] at there there_zero
      rw [List.append_assoc]
      refine ⟨List.rel_append here there, fun gap found => ?_⟩
      rcases List.mem_append.mp found with found | found
      · exact here_zero gap found
      · exact there_zero gap found

/-- A program reads its values from their places, whatever bytes stand there. -/
theorem read_of_unpackFront {data : Bytes} {offset : Nat}
    (there : offset + program.size ≤ data.length) :
    ∃ values, program.unpackFront (data.drop offset) =
        .ok (values, data.drop (offset + program.size)) ∧
      List.Forall₂ (Element.Reads data) (program.layout offset) values := by
  induction program generalizing offset with
  | nil => exact ⟨[], rfl, .nil⟩
  | cons op program ih =>
    obtain ⟨op_wellFormed, others_wellFormed⟩ := List.forall_mem_cons.mp wellFormed
    obtain ⟨op_laidOut, others_laidOut⟩ := List.forall_mem_cons.mp laidOut
    rw [size, ← Nat.add_assoc] at there ⊢
    obtain ⟨read, first, places⟩ :=
      Operation.read_of_unpack op_laidOut op_wellFormed (Nat.le_of_add_right_le there)
    obtain ⟨more, others, places_more⟩ := ih others_wellFormed others_laidOut there
    exact ⟨read ++ more, unpackFront_cons_eq_ok_iff.mpr ⟨read, _, more, first, others, rfl⟩,
      List.rel_append places places_more⟩

omit wellFormed laidOut in
theorem length_layout (program : Program) (offset : Nat) :
    (program.layout offset).length = program.need := by
  induction program generalizing offset with
  | nil => rfl
  | cons op program ih =>
    rw [layout, List.length_append, Operation.length_valuesFrom, ih, need]

end Program

/-! ### Two runs -/

theorem exists_of_forall₂_of_getElem? {α β : Type} {R : α → β → Prop} {xs : List α} {ys : List β}
    (related : List.Forall₂ R xs ys) {k : Nat} {x : α} (found : xs[k]? = some x) :
    ∃ y, ys[k]? = some y ∧ R x y := by
  induction related generalizing k with
  | nil => cases found
  | @cons x' y' xs' ys' here _ ih =>
    cases k with
    | zero =>
      cases found
      exact ⟨y', rfl, here⟩
    | succ k => exact ih found

namespace Program

variable {program : Program} (wellFormed : ∀ op ∈ program, op.WellFormed)
  (laidOut : ∀ op ∈ program, op.IsLaidOut)

include wellFormed laidOut

/-- Where two lists of values differ at one place only, so does what is written. -/
theorem pack_agrees_beside {values others : List Value} {bs bs' : Bytes} {k : Nat}
    (beside : ∀ i ≠ k, values[i]? = others[i]?) (packed : program.pack values = .ok bs)
    (packed' : program.pack others = .ok bs') {position : Nat}
    (outside : ∀ e, (program.layout 0)[k]? = some e → ¬ e.stretch.Holds position) :
    bs[position]? = bs'[position]? := by
  obtain ⟨left, front⟩ := pack_eq_ok_iff.mp packed
  obtain ⟨left', front'⟩ := pack_eq_ok_iff.mp packed'
  obtain ⟨length, taken, rfl, written⟩ := written_of_packFront wellFormed laidOut front
  obtain ⟨length', taken', rfl, written'⟩ := written_of_packFront wellFormed laidOut front'
  obtain ⟨places, zeros⟩ := written [] []
  obtain ⟨places', zeros'⟩ := written' [] []
  rw [List.nil_append, List.append_nil] at places places' zeros zeros'
  by_cases before : position < 0 + program.size
  · rcases exists_holds wellFormed laidOut (Nat.zero_le _) before with
      ⟨e, found, holds⟩ | ⟨gap, found, holds⟩
    · obtain ⟨i, at_i⟩ := List.getElem?_of_mem found
      have other_place : i ≠ k := fun same => outside e (same ▸ at_i) holds
      obtain ⟨v, v_taken, writes⟩ := exists_of_forall₂_of_getElem? places at_i
      obtain ⟨w, w_taken, writes'⟩ := exists_of_forall₂_of_getElem? places' at_i
      have same_value := beside i other_place
      rw [List.getElem?_append_left (List.getElem?_eq_some_iff.mp v_taken).1,
        List.getElem?_append_left (List.getElem?_eq_some_iff.mp w_taken).1, v_taken, w_taken,
        Option.some.injEq] at same_value
      subst same_value
      have agree : e.stretch.Agree bs bs' :=
        Stretch.agree_iff_cut_eq.mpr (Except.ok.inj (writes.symm.trans writes'))
      exact agree position holds
    · have agree : gap.Agree bs bs' :=
        Stretch.agree_iff_cut_eq.mpr ((zeros gap found).trans (zeros' gap found).symm)
      exact agree position holds
  · rw [Nat.zero_add, Nat.not_lt] at before
    rw [List.getElem?_eq_none (length ▸ before), List.getElem?_eq_none (length' ▸ before)]

/-- Every value is read from its own bytes. -/
theorem exists_reads {data : Bytes} (there : program.size ≤ data.length) :
    ∃ values, program.unpack data = .ok values ∧
      List.Forall₂ (Element.Reads data) (program.layout 0) values := by
  rw [← Nat.zero_add program.size] at there
  obtain ⟨values, front, places⟩ := read_of_unpackFront wellFormed laidOut there
  exact ⟨values, unpack_eq_ok_iff.mpr ⟨_, front⟩, places⟩

end Program

/-- **Layout.** A directive string without stars, characters, compressed integers and base64 gives
each value its own bytes.  All packed strings have the same length, and where two lists of values
differ at one place only, what is written differs only in the bytes of this value.  So many bytes
are always unpacked, and each value depends on its own bytes only: not on those of other values, nor
on padding, nor on what comes behind. -/
theorem values_stay_in_place {text : String} {program : Program}
    (parsed : Program.parse text = .ok program) (laidOut : ∀ op ∈ program, op.IsLaidOut) :
    (∀ values bs, pack text values = .ok bs → bs.length = program.size) ∧
      (∀ (values others : List Value) (k : Nat) (bs bs' : Bytes),
        (∀ i ≠ k, values[i]? = others[i]?) →
        pack text values = .ok bs → pack text others = .ok bs' →
        ∀ position, (∀ e : Element, (program.layout 0)[k]? = some e → ¬ e.stretch.Holds position) →
          bs[position]? = bs'[position]?) ∧
      ∀ data other : Bytes, program.size ≤ data.length → program.size ≤ other.length →
        ∃ values again, unpack text data = .ok values ∧ unpack text other = .ok again ∧
          values.length = program.need ∧ (program.layout 0).length = program.need ∧
          (∀ (k : Nat) (e : Element), (program.layout 0)[k]? = some e → e.stretch.Agree data other →
            values[k]? = again[k]?) ∧
          ((∀ position < program.size, (∀ gap ∈ program.gaps 0, ¬ gap.Holds position) →
            data[position]? = other[position]?) → values = again) := by
  have wellFormed := (spells_of_parse parsed).wellFormed
  simp only [pack, unpack, parsed]
  refine ⟨?_, ?_, ?_⟩
  · intro values bs packed
    obtain ⟨left, front⟩ := Program.pack_eq_ok_iff.mp packed
    exact (Program.written_of_packFront wellFormed laidOut front).1
  · intro values others k bs bs' beside packed packed' position outside
    exact Program.pack_agrees_beside wellFormed laidOut beside packed packed' outside
  · intro data other there other_there
    obtain ⟨values, read, places⟩ := Program.exists_reads wellFormed laidOut there
    obtain ⟨again, read_again, places'⟩ := Program.exists_reads wellFormed laidOut other_there
    have length := places.length_eq.symm
    have length' := places'.length_eq.symm
    have local_to (k : Nat) (e : Element) (found : (program.layout 0)[k]? = some e)
        (agree : e.stretch.Agree data other) : values[k]? = again[k]? := by
      obtain ⟨v, at_k, reads⟩ := exists_of_forall₂_of_getElem? places found
      obtain ⟨w, again_at_k, reads'⟩ := exists_of_forall₂_of_getElem? places' found
      rw [at_k, again_at_k, reads.unique_of_agree reads' agree]
    refine ⟨values, again, read, read_again, length.trans (Program.length_layout ..),
      Program.length_layout .., local_to, fun agree => List.ext_getElem? fun k => ?_⟩
    cases at_k : (program.layout 0)[k]? with
    | none =>
      have beyond := List.getElem?_eq_none_iff.mp at_k
      rw [List.getElem?_eq_none (length.symm ▸ beyond),
        List.getElem?_eq_none (length'.symm ▸ beyond)]
    | some e =>
      have found := List.mem_of_getElem? at_k
      refine local_to k e at_k fun position holds => agree position ?_ fun gap gap_found => ?_
      · have within := (Program.layout_within wellFormed laidOut found).of_holds holds
        omega
      · exact Program.not_holds_gap wellFormed laidOut found gap_found holds

/-- Behind the number and its padding stand three bytes, three digits and ten bits.  What is written
behind the three bytes does not depend on them, and what is read does not depend on the padding. -/
theorem values_stay_in_place_of_short_fields :
    ∃ program, Program.parse "s>x2A3H3b10" = .ok program ∧ (∀ op ∈ program, op.IsLaidOut) ∧
      program.size = 11 ∧
      (program.layout 0).map Element.stretch = [⟨0, 2⟩, ⟨4, 3⟩, ⟨7, 2⟩, ⟨9, 2⟩] ∧
      (∃ bs, pack "s>x2A3H3b10" [.integer 258, .bytes [], .bytes [97, 98, 99], .bytes [49]] =
          .ok bs ∧
        ∀ v bs', pack "s>x2A3H3b10" [.integer 258, v, .bytes [97, 98, 99], .bytes [49]] = .ok bs' →
          bs'.length = 11 ∧ bs'[7]? = bs[7]?) ∧
      ∃ values again,
        unpack "s>x2A3H3b10" [1, 2, 0, 0, 65, 32, 32, 0xAB, 0xC0, 1, 0] = .ok values ∧
        unpack "s>x2A3H3b10" [1, 2, 7, 7, 65, 32, 32, 0xAB, 0xC0, 1, 0, 9] = .ok again ∧
        values = again := by
  have parsed : Program.parse "s>x2A3H3b10" = .ok
      [⟨Directive.hostInteger 's' 2 2 true "signed 16-bit integer", ⟨false, some .big⟩, .once⟩,
        ⟨⟨'x', .padding, 1, false, .native, none, "null byte"⟩, .none, .times 2⟩,
        ⟨Directive.unsized 'A' (.raw .spacePadded) "byte string, space padded", .none, .times 3⟩,
        ⟨Directive.unsized 'H' (.hexString .highFirst) "hex string, high nibble first", .none,
          .times 3⟩,
        ⟨Directive.unsized 'b' (.bitString .lowFirst) "bit string, LSB first", .none,
          .times 10⟩] := rfl
  obtain ⟨bs, packed⟩ : ∃ bs, pack "s>x2A3H3b10"
      [.integer 258, .bytes [], .bytes [97, 98, 99], .bytes [49]] = .ok bs := ⟨_, rfl⟩
  obtain ⟨length, beside, reads⟩ := values_stay_in_place parsed (by decide)
  refine ⟨_, parsed, by decide, by decide, by decide, ⟨bs, packed, ?_⟩, ?_⟩
  · intro v bs' packed'
    refine ⟨length _ bs' packed', beside _ _ 1 bs' bs ?_ packed' packed 7 ?_⟩
    · intro i other
      match i, other with
      | 0, _ | 2, _ | 3, _ | i + 4, _ => rfl
    · intro e found
      cases found
      decide
  · obtain ⟨values, again, read, read_again, -, -, -, same⟩ :=
      reads [1, 2, 0, 0, 65, 32, 32, 0xAB, 0xC0, 1, 0] [1, 2, 7, 7, 65, 32, 32, 0xAB, 0xC0, 1, 0, 9]
        (by decide) (by decide)
    exact ⟨values, again, read, read_again, same (by decide)⟩

end DirectivePack
