import DirectivePack.Proofs.Digits.HexAndBits
import DirectivePack.Proofs.Program.Repetition

/-!
Digit strings under their directives.

Hexadecimal digits and bits have two directives each, one for either order within a byte.  All four
obey the same laws, in which only the radix, the order, the letter, the fault and the look of a digit
that is read back differ.

* `pack_digits`, `unpack_digits`: such directives pack and unpack by their radix and order.
* `DigitLaws`: what they do to characters and bytes, digit by digit.
* `StandsForDigits.laws`: they obey these laws under every count.
* `hex_strings`, `bit_strings`: the laws of either radix, the one nibble order by the other, and
  hexadecimal digits as bits.
-/

namespace DirectivePack

/-! ### Directive strings -/

namespace DigitOrder

/-- The letter for hexadecimal digits in this order. -/
def hexLetter : DigitOrder → Char
  | .highFirst => 'H'
  | .lowFirst => 'h'

/-- The letter for bits in this order. -/
def bitLetter : DigitOrder → Char
  | .highFirst => 'B'
  | .lowFirst => 'b'

end DigitOrder

/-- The letter of a directive for digits of this radix in this order, which names a character that is
no digit in the way of `reason`. -/
def StandsForDigits (radix : Radix) (order : DigitOrder) (letter : Char)
    (reason : UInt8 → ValueReason) : Prop :=
  ∃ d ∈ Directive.table, d.letter = letter ∧ d.encoding.digits? = some (radix, order) ∧
    d.encoding.digitReason = reason

theorem hexLetter_standsForDigits (order : DigitOrder) :
    StandsForDigits .hex order order.hexLetter .badHexDigit := by
  cases order with
  | highFirst =>
    exact ⟨.unsized 'H' (.hexString .highFirst) "hex string, high nibble first", by decide, rfl, rfl,
      rfl⟩
  | lowFirst =>
    exact ⟨.unsized 'h' (.hexString .lowFirst) "hex string, low nibble first", by decide, rfl, rfl,
      rfl⟩

theorem bitLetter_standsForDigits (order : DigitOrder) :
    StandsForDigits .bits order order.bitLetter .badBitDigit := by
  cases order with
  | highFirst =>
    exact ⟨.unsized 'B' (.bitString .highFirst) "bit string, MSB first", by decide, rfl, rfl, rfl⟩
  | lowFirst =>
    exact ⟨.unsized 'b' (.bitString .lowFirst) "bit string, LSB first", by decide, rfl, rfl, rfl⟩

theorem Operation.arity_of_digits {op : Operation} {radix : Radix} {order : DigitOrder}
    (digits : op.directive.encoding.digits? = some (radix, order)) (available : Nat) :
    op.arity available = 1 := by
  rcases Encoding.eq_of_digits?_eq_some digits with ⟨hex, -⟩ | ⟨bits, -⟩
  · rw [arity, hex]
  · rw [arity, bits]

section Digits

variable {radix : Radix} {order : DigitOrder} {letter : Char} {reason : UInt8 → ValueReason}
  (stands : StandsForDigits radix order letter reason) {count : Count}
  (count_le : ∀ k, count = .times k → k ≤ Count.greatest)

include stands count_le

/-- The letter and the count make a single operation. -/
theorem StandsForDigits.exists_operation :
    ∃ op, Program.parse (countedLetter letter count) = .ok [op] ∧
      op.directive.encoding.digits? = some (radix, order) ∧ op.count = count ∧ op.letter = letter ∧
      op.directive.encoding.digitReason = reason := by
  obtain ⟨d, in_table, rfl, digits, rfl⟩ := stands
  exact ⟨_, parse_token in_table (.nil _) count count_le, digits, rfl, rfl, rfl⟩

/-- The letter of a digit directive packs one text by its radix and order. -/
theorem pack_digits (text : Bytes) :
    pack (countedLetter letter count) [.bytes text] =
      (radix.pack? order (count.resolve text.length) text).mapError fun bad =>
        .unencodable letter (reason bad) := by
  obtain ⟨op, parsed, digits, rfl, rfl, rfl⟩ := stands.exists_operation count_le
  rw [pack_of_parse_singleton parsed (Operation.arity_of_digits digits),
    Operation.encodeValue_digits_bytes digits]

theorem pack_digits_eq_ok_iff {text bs : Bytes} :
    pack (countedLetter letter count) [.bytes text] = .ok bs ↔
      radix.pack? order (count.resolve text.length) text = .ok bs := by
  rw [pack_digits stands count_le, mapError_eq_ok_iff]

/-- The letter of a digit directive unpacks one text by its radix and order. -/
theorem unpack_digits (data : Bytes) :
    unpack (countedLetter letter count) data =
      .ok [.bytes (radix.unpack order (count.resolve (radix.perByte * data.length)) data).1] := by
  obtain ⟨op, parsed, digits, rfl, -, -⟩ := stands.exists_operation count_le
  rw [unpack_eq_map_unpackFront, unpackFront_of_parse_singleton parsed, Operation.unpack]
  rcases Encoding.eq_of_digits?_eq_some digits with ⟨hex, rfl⟩ | ⟨bits, rfl⟩
  · rw [hex]
    rfl
  · rw [bits]
    rfl

end Digits

/-! ### Laws -/

/-- **The laws of digit strings,** for the directive string that is a letter with this count.  Faults
name a character that is no digit in the way of `reason`, and `written` is the character that a digit
has when it is read back. -/
structure DigitLaws (radix : Radix) (order : DigitOrder) (letter : Char)
    (reason : UInt8 → ValueReason) (written : UInt8 → UInt8) (count : Count) : Prop where
  /-- A text is packed iff the characters that are asked for are digits, as far as there are any. -/
  accepted_iff : ∀ text, (∃ bs, pack (countedLetter letter count) [.bytes text] = .ok bs) ↔
    ∀ c ∈ text.take (count.resolve text.length), radix.value? c ≠ none
  /-- If one of them is no digit, then the first such is rejected. -/
  rejected_iff : ∀ text fault, pack (countedLetter letter count) [.bytes text] = .error fault ↔
    ∃ before bad after, text.take (count.resolve text.length) = before ++ bad :: after ∧
      (∀ c ∈ before, radix.value? c ≠ none) ∧ radix.value? bad = none ∧
      fault = .unencodable letter (reason bad)
  /-- There are as many bytes as the digits need that are asked for. -/
  length_packed : ∀ text bs, pack (countedLetter letter count) [.bytes text] = .ok bs →
    bs.length = (count.resolve text.length + (radix.perByte - 1)) / radix.perByte
  /-- Each digit of the bytes is the value of its character, and zero where that is missing or not
  asked for. -/
  digit_packed : ∀ text bs, pack (countedLetter letter count) [.bytes text] = .ok bs →
    ∀ i < radix.perByte * bs.length, radix.digitAt? order bs i =
      (text.take (count.resolve text.length))[i]?.elim (some 0) radix.value?
  /-- Without a star the text is read back, cut off or extended by zeros to the digits that are asked
  for, whatever comes behind its bytes. -/
  read_back : count ≠ .all → ∀ text bs tail,
    pack (countedLetter letter count) [.bytes text] = .ok bs →
    unpack (countedLetter letter count) (bs ++ tail) =
      .ok [.bytes ((text.take (count.resolve text.length)).map written ++
        List.replicate (count.resolve text.length - text.length) 0x30)]
  /-- Any bytes are unpacked to the characters of their first digits, as many as are asked for or as
  there are. -/
  unpacked : ∀ data, ∃ text, unpack (countedLetter letter count) data = .ok [.bytes text] ∧
    text.length = min (count.resolve (radix.perByte * data.length)) (radix.perByte * data.length) ∧
    ∀ i < text.length, ∃ digit < radix.base, radix.digitAt? order data i = some digit ∧
      text[i]? = radix.characters[digit]?
  /-- With a star the text of any bytes is packed to these bytes. -/
  restored : count = .all → ∀ data, ∃ text,
    unpack (countedLetter letter count) data = .ok [.bytes text] ∧
      pack (countedLetter letter count) [.bytes text] = .ok data

/-- **The letters of digit directives obey the laws of digit strings.** -/
theorem StandsForDigits.laws {radix : Radix} {order : DigitOrder} {letter : Char}
    {reason : UInt8 → ValueReason} {written : UInt8 → UInt8}
    (stands : StandsForDigits radix order letter reason)
    (is_written : ∀ c digit, radix.value? c = some digit → digitChar digit = written c)
    {count : Count} (count_le : ∀ k, count = .times k → k ≤ Count.greatest) :
    DigitLaws radix order letter reason written count := by
  have pack_eq := pack_digits stands count_le
  have unpack_eq := unpack_digits stands count_le
  have packed_iff := @pack_digits_eq_ok_iff _ _ _ _ stands _ count_le
  constructor
  case accepted_iff =>
    intro text
    simp only [packed_iff, Radix.pack?_eq_ok_iff, exists_and_left, exists_eq, and_true]
  case rejected_iff =>
    intro text fault
    rw [pack_eq, mapError_eq_error_iff]
    simp only [Radix.pack?_eq_error_iff]
    constructor
    · rintro ⟨bad, ⟨before, after, split, all, refused⟩, rfl⟩
      exact ⟨before, bad, after, split, all, refused, rfl⟩
    · rintro ⟨before, bad, after, split, all, refused, rfl⟩
      exact ⟨bad, ⟨before, after, split, all, refused⟩, rfl⟩
  case length_packed =>
    intro text bs packed
    rw [Radix.length_of_pack? (packed_iff.mp packed), Radix.byteCount,
      Nat.add_sub_assoc radix.perByte_pos]
  case digit_packed =>
    intro text bs packed i inside
    exact Radix.digitAt?_pack? (packed_iff.mp packed) inside
  case read_back =>
    intro starless text bs tail packed
    have packed := packed_iff.mp packed
    have all := (Radix.pack?_eq_ok_iff.mp packed).1
    rw [unpack_eq, Count.resolve_eq starless _ text.length, Radix.unpack_pack?_append packed,
      map_digitChar_digitsOf is_written all]
  case unpacked =>
    intro data
    refine ⟨_, unpack_eq data, radix.length_unpack .., ?_⟩
    intro i inside
    rw [radix.length_unpack] at inside
    obtain ⟨asked, there⟩ := Nat.lt_min.mp inside
    obtain ⟨digit, small, found⟩ := radix.exists_digitAt? order there
    refine ⟨digit, small, found, ?_⟩
    rw [radix.getElem?_unpack, if_pos asked, found, Option.map_some, Radix.getElem?_characters small]
  case restored =>
    rintro rfl data
    refine ⟨_, unpack_eq data, packed_iff.mpr ?_⟩
    rw [Count.resolve, Count.resolve, radix.length_unpack, Nat.min_self]
    obtain ⟨d, -, -, digits, -⟩ := stands
    exact Radix.pack?_unpack_all (Encoding.legible_of_digits? digits) order data

/-! ### Hexadecimal digits -/

/-- **Hexadecimal strings.** The digits are `0` to `9` and `a` to `f`, with letters in either case,
and are read back in lowercase.  Under every count both orders obey the laws of digit strings, and the
low nibble first gives the bytes that the high nibble first gives, with the nibbles of each byte
exchanged. -/
theorem hex_strings :
    Radix.hex.characters = "0123456789abcdef".toList.map (fun c => UInt8.ofNat c.toNat) ∧
    (∀ c d, Radix.hex.value? c = some d ↔ Radix.hex.characters[d]? = some (lowercase c)) ∧
    ∀ count : Count, (∀ k, count = .times k → k ≤ Count.greatest) →
      (∀ order : DigitOrder, DigitLaws .hex order order.hexLetter .badHexDigit lowercase count) ∧
      ∀ text bs, pack (countedLetter 'H' count) [.bytes text] = .ok bs →
        pack (countedLetter 'h' count) [.bytes text] = .ok (bs.map swapNibbles) := by
  refine ⟨by decide, fun c d => value?_eq_some_iff_getElem?_characters (by decide), ?_⟩
  intro count count_le
  constructor
  · intro order
    exact (hexLetter_standsForDigits order).laws (fun _ _ => digitChar_of_value?_hex) count_le
  · intro text bs packed
    have high := (pack_digits_eq_ok_iff (hexLetter_standsForDigits .highFirst) count_le).mp packed
    exact (pack_digits_eq_ok_iff (hexLetter_standsForDigits .lowFirst) count_le).mpr
      (pack?_swapNibbles high)

/-- Two digits where three are asked for, of which one is a capital letter, and a text with a
character that is no digit. -/
theorem hex_strings_of_two_digits :
    Radix.hex.value? 0x41 = some 10 ∧
      pack "H3" [.bytes [0x41, 0x37]] = .ok [0xA7, 0x00] ∧
      Radix.hex.digitAt? .highFirst [0xA7, 0x00] 1 = some 7 ∧
      unpack "H3" [0xA7, 0x00, 0xFF] = .ok [.bytes [0x61, 0x37, 0x30]] ∧
      pack "h3" [.bytes [0x41, 0x37]] = .ok [0x7A, 0x00] ∧
      pack "h*" [.bytes [0x37, 0x67]] = .error (.unencodable 'h' (.badHexDigit 0x67)) := by
  obtain ⟨-, value_iff, strings⟩ := hex_strings
  have three_le : ∀ k, Count.times 3 = .times k → k ≤ Count.greatest := by
    rintro k ⟨⟩
    decide
  have star_le : ∀ k, Count.all = .times k → k ≤ Count.greatest := by
    rintro k ⟨⟩
  obtain ⟨laws, swapped⟩ := strings (.times 3) three_le
  obtain ⟨star_laws, -⟩ := strings .all star_le
  have bytes : [0xA7, 0x00] = Radix.hex.toBytes .highFirst [10, 7, 0] :=
    (Radix.hex.eq_toBytes_iff (by decide)).mpr ⟨rfl, 1, rfl⟩
  have digits : Radix.hex.pack? .highFirst 3 [0x41, 0x37] = .ok [0xA7, 0x00] := by
    rw [bytes]
    rfl
  have packed : pack "H3" [.bytes [0x41, 0x37]] = .ok [0xA7, 0x00] :=
    (pack_digits_eq_ok_iff (hexLetter_standsForDigits .highFirst) three_le).mpr digits
  refine ⟨(value_iff ..).mpr rfl, packed, ?_, ?_, swapped _ _ packed, ?_⟩
  · exact (laws .highFirst).digit_packed _ _ packed 1 (by decide)
  · exact (laws .highFirst).read_back (by decide) _ _ [0xFF] packed
  · exact ((star_laws .lowFirst).rejected_iff _ _).mpr
      ⟨[0x37], 0x67, [], rfl, List.forall_mem_singleton.mpr (by decide), rfl, rfl⟩

/-! ### Bits -/

/-- **Bit strings.** The digits are `0` and `1`, and are read back as they are.  Under every count both
orders obey the laws of digit strings.  Hexadecimal digits are packed to the bytes that their bits are
packed to, four bits for each digit in the same order. -/
theorem bit_strings :
    Radix.bits.characters = [0x30, 0x31] ∧
    (∀ c, Radix.bits.value? c = if c = 0x30 ∨ c = 0x31 then some (c.toNat - 0x30) else none) ∧
    (∀ count : Count, (∀ k, count = .times k → k ≤ Count.greatest) →
      ∀ order : DigitOrder, DigitLaws .bits order order.bitLetter .badBitDigit id count) ∧
    (∀ d, Radix.bits.spell .highFirst 4 d = [d / 8 % 2, d / 4 % 2, d / 2 % 2, d % 2] ∧
      Radix.bits.spell .lowFirst 4 d = [d % 2, d / 2 % 2, d / 4 % 2, d / 8 % 2]) ∧
    ∀ (order : DigitOrder) (n : Nat) (text : Bytes), 4 * n ≤ Count.greatest →
      (∀ c ∈ text, Radix.hex.value? c ≠ none) →
      ∃ bs, pack (countedLetter order.hexLetter (.times n)) [.bytes text] = .ok bs ∧
        pack (countedLetter order.bitLetter (.times (4 * n)))
          [.bytes (Radix.bits.spelled .hex order 4 text)] = .ok bs := by
  refine ⟨rfl, value?_bits, ?_, ?_, ?_⟩
  · intro count count_le order
    exact (bitLetter_standsForDigits order).laws (fun _ _ => digitChar_of_value?_bits) count_le
  · intro d
    have two : Radix.bits.base = 2 := rfl
    simp [Radix.spell, DigitOrder.arrange, Radix.decompose, two, Nat.div_div_eq_div_mul]
  · intro order n text bits_le all
    have hex_le : ∀ k, Count.times n = .times k → k ≤ Count.greatest := by
      rintro k ⟨⟩
      omega
    have count_le : ∀ k, Count.times (4 * n) = .times k → k ≤ Count.greatest := by
      rintro k ⟨⟩
      exact bits_le
    have packed : Radix.hex.pack? order n text =
        .ok (Radix.hex.toBytes order (Radix.hex.digitsOf n text)) :=
      Radix.pack?_eq_ok_iff.mpr ⟨fun c member => all c (List.mem_of_mem_take member), rfl⟩
    refine ⟨_, (pack_digits_eq_ok_iff (hexLetter_standsForDigits order) hex_le).mpr packed, ?_⟩
    rw [← Radix.bits_refines_hex.pack?_spelled (by decide) order n all] at packed
    exact (pack_digits_eq_ok_iff (bitLetter_standsForDigits order) count_le).mpr packed

/-- Four bits where nine are asked for, and two hexadecimal digits as eight bits. -/
theorem bit_strings_of_nine_bits :
    pack "b9" [.bytes [0x31, 0x30, 0x31, 0x31]] = .ok [0x0D, 0x00] ∧
      unpack "b9" [0x0D, 0x00, 0xFF] =
        .ok [.bytes [0x31, 0x30, 0x31, 0x31, 0x30, 0x30, 0x30, 0x30, 0x30]] ∧
      pack "B2" [.bytes [0x31, 0x61]] = .error (.unencodable 'B' (.badBitDigit 0x61)) ∧
      ∃ bs, pack "h2" [.bytes [0x61, 0x31]] = .ok bs ∧
        pack "b8" [.bytes [0x30, 0x31, 0x30, 0x31, 0x31, 0x30, 0x30, 0x30]] = .ok bs := by
  obtain ⟨-, -, strings, -, agree⟩ := bit_strings
  have nine_le : ∀ k, Count.times 9 = .times k → k ≤ Count.greatest := by
    rintro k ⟨⟩
    decide
  have two_le : ∀ k, Count.times 2 = .times k → k ≤ Count.greatest := by
    rintro k ⟨⟩
    decide
  have bytes : [0x0D, 0x00] = Radix.bits.toBytes .lowFirst [1, 0, 1, 1, 0, 0, 0, 0, 0] :=
    (Radix.bits.eq_toBytes_iff (by decide)).mpr ⟨rfl, 7, rfl⟩
  have digits : Radix.bits.pack? .lowFirst 9 [0x31, 0x30, 0x31, 0x31] = .ok [0x0D, 0x00] := by
    rw [bytes]
    rfl
  have packed : pack "b9" [.bytes [0x31, 0x30, 0x31, 0x31]] = .ok [0x0D, 0x00] :=
    (pack_digits_eq_ok_iff (bitLetter_standsForDigits .lowFirst) nine_le).mpr digits
  refine ⟨packed, ?_, ?_, ?_⟩
  · exact (strings (.times 9) nine_le .lowFirst).read_back (by decide) _ _ [0xFF] packed
  · exact ((strings (.times 2) two_le .highFirst).rejected_iff _ _).mpr
      ⟨[0x31], 0x61, [], rfl, List.forall_mem_singleton.mpr (by decide), rfl, rfl⟩
  · exact agree .lowFirst 2 [0x61, 0x31] (by decide)
      (List.forall_mem_cons.mpr ⟨by decide, List.forall_mem_singleton.mpr (by decide)⟩)

end DirectivePack
