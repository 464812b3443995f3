import DirectivePack.Proofs.Field.Padded
import DirectivePack.Proofs.Program.Repetition

/-!
Byte strings under their directives.

A field has as many bytes as its count says, whatever the value.  What comes back is the part of the
value that the field keeps and its style can tell from padding; a second time nothing more is lost.

* `pack_raw`, `unpackFront_raw`: the directives for byte strings pack and unpack by their style.
* `raw_strings_normalise`: what comes back of a value, and what is read from any bytes.
-/

namespace DirectivePack

/-- The letter of the directive in this style. -/
def RawStyle.letter : RawStyle → Char
  | .nullPadded => 'a'
  | .spacePadded => 'A'
  | .nullTerminated => 'Z'

/-- The letter and a count make a single operation. -/
theorem RawStyle.exists_operation (style : RawStyle) {count : Count}
    (count_le : ∀ k, count = .times k → k ≤ Count.greatest) :
    ∃ op, Program.parse (countedLetter style.letter count) = .ok [op] ∧
      op.directive.encoding = .raw style ∧ op.count = count := by
  have in_table : ∃ d ∈ Directive.table, d.letter = style.letter ∧ d.encoding = .raw style := by
    cases style with
    | nullPadded =>
      exact ⟨.unsized 'a' (.raw .nullPadded) "byte string, null padded", by decide, rfl, rfl⟩
    | spacePadded =>
      exact ⟨.unsized 'A' (.raw .spacePadded) "byte string, space padded", by decide, rfl, rfl⟩
    | nullTerminated =>
      exact ⟨.unsized 'Z' (.raw .nullTerminated) "null-terminated byte string", by decide, rfl, rfl⟩
  obtain ⟨d, in_table, letter, encoding⟩ := in_table
  rw [← letter]
  exact ⟨_, parse_token in_table (.nil _) count count_le, encoding, rfl⟩

section Raw

variable (style : RawStyle) {count : Count}
  (count_le : ∀ k, count = .times k → k ≤ Count.greatest)

include count_le

theorem pack_raw (bs : Bytes) :
    pack (countedLetter style.letter count) [.bytes bs] =
      .ok (Operation.encodeRaw style count bs) := by
  obtain ⟨op, parsed, encoding, rfl⟩ := style.exists_operation count_le
  have single : ∀ available, op.arity available = 1 := by
    intro available
    rw [Operation.arity, encoding]
  rw [pack_of_parse_singleton parsed single, Operation.encodeValue_raw encoding]

theorem unpackFront_raw (bs : Bytes) :
    unpackFront (countedLetter style.letter count) bs =
      .ok ([.bytes (Operation.readRaw style count bs).1],
        (Operation.readRaw style count bs).2) := by
  obtain ⟨op, parsed, encoding, rfl⟩ := style.exists_operation count_le
  rw [unpackFront_of_parse_singleton parsed, Operation.unpack, encoding]

end Raw

/-- **Byte strings.** A value is packed to a field of so many bytes as the count says.  Whatever
comes behind it, the field is unpacked to what it keeps of the value and its style can tell from
padding: for `a` the first bytes, filled up with NULs, for `A` the first bytes without the spaces and
NULs at their end, for `Z` the first bytes up to a NUL.  That value comes back as it is.

From any bytes, as many are taken as the count says or as there are, and unpacked to what they stand
for.  `Z*` takes the bytes through the first NUL, and all of them if there is none. -/
theorem raw_strings_normalise :
    (∀ (style : RawStyle) (count : Count), count ≠ .all →
      (∀ k, count = .times k → k ≤ Count.greatest) →
      (∀ v, ∃ field value, pack (countedLetter style.letter count) [.bytes v] = .ok field ∧
        field.length = count.resolve 0 ∧
        style.StandsFor (style.kept (count.resolve 0) v) value ∧
        (∀ tail, unpackFront (countedLetter style.letter count) (field ++ tail) =
          .ok ([.bytes value], tail)) ∧
        ∃ again, pack (countedLetter style.letter count) [.bytes value] = .ok again ∧
          ∀ tail, unpackFront (countedLetter style.letter count) (again ++ tail) =
            .ok ([.bytes value], tail)) ∧
      ∀ data, ∃ value, style.StandsFor (data.take (count.resolve 0)) value ∧
        unpackFront (countedLetter style.letter count) data =
          .ok ([.bytes value], data.drop (count.resolve 0))) ∧
    ∀ data, ∃ value rest, unpackFront "Z*" data = .ok ([.bytes value], rest) ∧ 0x00 ∉ value ∧
      (data = value ++ 0x00 :: rest ∨ data = value ∧ rest = []) := by
  constructor
  · intro style count starless count_le
    have packed := pack_raw style count_le
    have read := unpackFront_raw style count_le
    simp only [Operation.encodeRaw_of_counted starless] at packed
    simp only [Operation.readRaw_of_counted starless] at read
    constructor
    · intro v
      have stands := style.standsFor_trim (style.kept (count.resolve 0) v)
      refine ⟨_, _, packed v, style.length_putField .., stands, ?_, _, packed _, ?_⟩
      · intro tail
        rw [read, RawStyle.getField_putField_append, RawStyle.trim_putField_eq_trim_kept]
      · intro tail
        rw [read, RawStyle.getField_putField_append, RawStyle.trim_putField stands.shows]
    · intro data
      exact ⟨_, style.standsFor_trim _, read data⟩
  · intro data
    obtain ⟨value, rest, found, free, split⟩ := RawStyle.getAll_cases data
    have star_le : ∀ k, Count.all = .times k → k ≤ Count.greatest := nofun
    have read := unpackFront_raw .nullTerminated star_le data
    rw [Operation.readRaw, found] at read
    exact ⟨value, rest, read, free, split⟩

/-- A value of which the field keeps a letter and blanks, and bytes with a NUL among them. -/
theorem raw_strings_normalise_of_blanks :
    pack "A3" [.bytes [0x61, 0x20, 0x00, 0x62]] = .ok [0x61, 0x20, 0x00] ∧
      unpackFront "A3" [0x61, 0x20, 0x00, 0xFF] = .ok ([.bytes [0x61]], [0xFF]) ∧
      pack "A3" [.bytes [0x61]] = .ok [0x61, 0x20, 0x20] ∧
      unpackFront "A3" [0x61, 0x20, 0x20, 0xFF] = .ok ([.bytes [0x61]], [0xFF]) ∧
      ∃ value rest, unpackFront "Z*" [0x61, 0x00, 0x62] = .ok ([.bytes value], rest) ∧
        0x00 ∉ value := by
  have three_le : ∀ k, Count.times 3 = .times k → k ≤ Count.greatest := by
    rintro k ⟨⟩
    decide
  have written : pack "A3" [.bytes [0x61, 0x20, 0x00, 0x62]] = .ok [0x61, 0x20, 0x00] := rfl
  have rewritten : pack "A3" [.bytes [0x61]] = .ok [0x61, 0x20, 0x20] := rfl
  obtain ⟨fields, terminated⟩ := raw_strings_normalise
  obtain ⟨field, value, packed, -, stands, back, again, packed_again, back_again⟩ :=
    (fields .spacePadded (.times 3) nofun three_le).1 [0x61, 0x20, 0x00, 0x62]
  have shown : value = [0x61] := stands.eq_trim
  subst shown
  cases written.symm.trans packed
  cases rewritten.symm.trans packed_again
  obtain ⟨value, rest, read, free, -⟩ := terminated [0x61, 0x00, 0x62]
  exact ⟨written, back [0xFF], rewritten, back_again [0xFF], value, rest, read, free⟩

end DirectivePack
