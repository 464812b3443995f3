import DirectivePack.Proofs.Base64.Decoding
import DirectivePack.Proofs.Base64.Segments
import DirectivePack.Proofs.Program.Repetition

/-!
Base64 under its directive.

A count of zero asks for one text, which is read as a whole and strictly.  Every other count asks
for lines, and a segment is read leniently from the front, whatever that count is.

* `pack_base64_eq_ok_iff`, `unpackFront_base64`: what the directive packs, and what it reads.
* `base64_in_lines`: lines are the one text with line feeds in it, and both are read back under
  every count that asks for lines.
* `base64_segments`: what is read from any bytes, and how far.
* `base64_unbroken`: the strict reader accepts just what is packed, and the lenient one agrees.
-/

namespace DirectivePack

open Base64

section Base64

variable {count : Count} (count_le : ∀ k, count = .times k → k ≤ Count.greatest)

include count_le

/-- The letter and a count make a single operation. -/
theorem exists_base64_operation :
    ∃ op, Program.parse (countedLetter 'm' count) = .ok [op] ∧
      op.directive.encoding = .base64 ∧ op.letter = 'm' ∧ op.count = count := by
  have in_table : Directive.unsized 'm' .base64 "base64 encoded string" ∈ Directive.table := by
    decide
  exact ⟨_, parse_token in_table (.nil _) count count_le, rfl, rfl, rfl⟩

/-- A byte string is packed, and nothing else. -/
theorem pack_base64_eq_ok_iff {v : Value} {written : Bytes} :
    pack (countedLetter 'm' count) [v] = .ok written ↔
      ∃ bs, v = .bytes bs ∧ written = Operation.encodeBase64 count bs := by
  obtain ⟨op, parsed, encoding, -, rfl⟩ := exists_base64_operation count_le
  have single : ∀ available, op.arity available = 1 := by
    intro available
    rw [Operation.arity, encoding]
  rw [pack_of_parse_singleton parsed single]
  cases v with
  | integer | float => simp [Operation.encodeValue, encoding, Operation.withBytes, Value.asBytes?]
  | bytes bs => simp [Operation.encodeValue_base64 encoding, eq_comm]

theorem unpackFront_base64 (data : Bytes) :
    unpackFront (countedLetter 'm' count) data =
      match Operation.readBase64 count data with
      | (.ok bs, rest) => .ok ([.bytes bs], rest)
      | (.error fault, _) => .error (.malformed 'm' (.base64 fault)) := by
  obtain ⟨op, parsed, encoding, letter, rfl⟩ := exists_base64_operation count_le
  rw [unpackFront_of_parse_singleton parsed]
  rcases read : Operation.readBase64 op.count data with ⟨_ | _, rest⟩
  · simp only [Operation.unpack, encoding, read, letter]
  · simp only [Operation.unpack, encoding, read]

/-- Under a count for lines the symbols of the segment in front are read, and the bytes behind it
are left. -/
theorem unpackFront_segment (lined : count ≠ .times 0) (data : Bytes) :
    unpackFront (countedLetter 'm' count) data =
      match decodeSymbols (segment data).1 with
      | .ok bs => .ok ([.bytes bs], (segment data).2)
      | .error fault => .error (.malformed 'm' (.base64 fault)) := by
  rw [unpackFront_base64 count_le, Operation.readBase64_of_lined lined]
  cases decodeSymbols (segment data).1 <;> rfl

/-- A segment of the symbols of bytes is read as these bytes. -/
theorem unpack_of_segment (lined : count ≠ .times 0) {data bs : Bytes}
    (split : segment data = ((sextets bs).map symbol, [])) :
    unpack (countedLetter 'm' count) data = .ok [.bytes bs] := by
  rw [unpack_eq_map_unpackFront, unpackFront_segment count_le lined, split, decodeSymbols_sextets]
  rfl

end Base64

/-! ### Lines -/

theorem zero_le_greatest : ∀ k, Count.times 0 = .times k → k ≤ Count.greatest := by
  rintro k ⟨⟩
  exact Nat.zero_le _

theorem once_lined : Count.once ≠ .times 0 :=
  nofun

theorem once_le_greatest : ∀ k, Count.once = .times k → k ≤ Count.greatest :=
  nofun

/-- **Base64 in lines.** Under a count for lines a byte string is packed to the text that `m0` packs
it to, with line feeds in it.  These end as many lines as cover the bytes, all of them but the last
full of symbols and free of padding.  Both texts are read back under every count for lines. -/
theorem base64_in_lines (count : Count) (lined : count ≠ .times 0)
    (count_le : ∀ k, count = .times k → k ≤ Count.greatest) (v : Bytes) :
    ∃ written, pack (countedLetter 'm' count) [.bytes v] = .ok written ∧
      pack "m0" [.bytes v] = .ok (written.filter (· != 0x0A)) ∧
      (∃ lines, written = lines.flatMap (· ++ [0x0A]) ∧
        InLines count.lineBytes v lines) ∧
      written.length =
        4 * ((v.length + 2) / 3) + (v.length + (count.lineBytes - 1)) / count.lineBytes ∧
      ∀ other : Count, other ≠ .times 0 → (∀ k, other = .times k → k ≤ Count.greatest) →
        unpack (countedLetter 'm' other) written = .ok [.bytes v] ∧
        unpack (countedLetter 'm' other) (written.filter (· != 0x0A)) = .ok [.bytes v] := by
  have some_byte := count.lineBytes_pos
  have whole_lines := count.lineBytes_whole
  refine ⟨encodeLines count.lineBytes v, ?_, ?_, ?_, ?_, ?_⟩
  · rw [pack_base64_eq_ok_iff count_le]
    exact ⟨v, rfl, (Operation.encodeBase64_of_lined lined v).symm⟩
  · rw [filter_encodeLines some_byte whole_lines]
    exact (pack_base64_eq_ok_iff zero_le_greatest).mpr ⟨v, rfl, rfl⟩
  · exact inLines_encodeLines some_byte whole_lines v
  · exact length_encodeLines some_byte whole_lines v
  · intro other other_lined other_le
    rw [filter_encodeLines some_byte whole_lines]
    constructor
    · exact unpack_of_segment other_le other_lined
        (segment_encodeLines some_byte whole_lines v)
    · exact unpack_of_segment other_le other_lined (segment_encode v)

/-- Four bytes in two lines, read back without a count. -/
theorem base64_in_lines_of_two_lines :
    pack "m3" [.bytes [0x61, 0x62, 0x63, 0x64]] =
        .ok [0x59, 0x57, 0x4A, 0x6A, 0x0A, 0x5A, 0x41, 0x3D, 0x3D, 0x0A] ∧
      pack "m0" [.bytes [0x61, 0x62, 0x63, 0x64]] =
        .ok [0x59, 0x57, 0x4A, 0x6A, 0x5A, 0x41, 0x3D, 0x3D] ∧
      unpack "m" [0x59, 0x57, 0x4A, 0x6A, 0x0A, 0x5A, 0x41, 0x3D, 0x3D, 0x0A] =
        .ok [.bytes [0x61, 0x62, 0x63, 0x64]] := by
  have three_lined : Count.times 3 ≠ .times 0 := by decide
  have three_le : ∀ k, Count.times 3 = .times k → k ≤ Count.greatest := by
    rintro k ⟨⟩
    decide
  have written : pack "m3" [.bytes [0x61, 0x62, 0x63, 0x64]] =
      .ok [0x59, 0x57, 0x4A, 0x6A, 0x0A, 0x5A, 0x41, 0x3D, 0x3D, 0x0A] := by
    have size : Count.lineBytes (.times 3) = 3 := rfl
    have pieces : chunks (3 - 1) ([0x61, 0x62, 0x63, 0x64] : Bytes) =
        [[0x61, 0x62, 0x63], [0x64]] := by
      simp [chunks_cons, chunks_nil]
    refine (pack_base64_eq_ok_iff three_le).mpr ⟨_, rfl, ?_⟩
    rw [Operation.encodeBase64_of_lined three_lined, encodeLines, size, pieces]
    decide
  obtain ⟨lines, packed, unbroken, -, -, back⟩ :=
    base64_in_lines (.times 3) three_lined three_le [0x61, 0x62, 0x63, 0x64]
  cases written.symm.trans packed
  exact ⟨written, unbroken, (back .once once_lined once_le_greatest).1⟩

/-! ### Segments -/

/-- **Segments of base64.** Any bytes divide into a segment in front of the first padding, and a
rest.  Under a count for lines the symbols of the segment are read, and the rest is left.  One symbol
behind groups of four is malformed; otherwise the value is the whole bytes in the bits of the
symbols, each of which is worth its place in the alphabet.  Bytes that are neither symbols nor
padding can be put in anywhere in the segment. -/
theorem base64_segments (count : Count) (lined : count ≠ .times 0)
    (count_le : ∀ k, count = .times k → k ≤ Count.greatest) :
    (∀ data, ∃ front rest, Divides data front rest) ∧
    (∀ data front rest, Divides data front rest →
      (unpackFront (countedLetter 'm' count) data = .error (.malformed 'm' (.base64 .leftover)) ↔
        (symbolsIn front).length % 4 = 1) ∧
      ((symbolsIn front).length % 4 ≠ 1 → ∃ value,
        unpackFront (countedLetter 'm' count) data = .ok ([.bytes value], rest) ∧
          value.length = 6 * (symbolsIn front).length / 8 ∧
          Radix.bits.ofBytes .highFirst value =
            (sextetBits ((symbolsIn front).map alphabet.idxOf)).take (8 * value.length))) ∧
    ∀ front skipped behind, pad ∉ front → (∀ b ∈ skipped, b ∉ alphabet ∧ b ≠ pad) →
      unpackFront (countedLetter 'm' count) (front ++ (skipped ++ behind)) =
        unpackFront (countedLetter 'm' count) (front ++ behind) := by
  have read := unpackFront_segment count_le lined
  refine ⟨exists_divides, ?_, ?_⟩
  · intro data front rest divides
    rw [read, divides.segment_eq, filter_isSymbol]
    by_cases leftover : (symbolsIn front).length % 4 = 1
    · rw [decodeSymbols_of_leftover leftover]
      exact ⟨iff_of_true rfl leftover, absurd leftover⟩
    · obtain ⟨value, decoded, length, bits⟩ :=
        decodeSymbols_of_bytes isSymbol_of_mem_symbolsIn leftover
      rw [decoded]
      exact ⟨iff_of_false nofun leftover, fun _ => ⟨value, rfl, length, bits⟩⟩
  · intro front skipped behind free no_symbols
    have skips : ∀ b ∈ skipped, isSymbol b = false ∧ b ≠ pad := by
      intro b member
      obtain ⟨no_symbol, no_pad⟩ := no_symbols b member
      rw [← isSymbol_iff_mem_alphabet, Bool.not_eq_true] at no_symbol
      exact ⟨no_symbol, no_pad⟩
    rw [read, read, segment_skip free skips]

/-- Two symbols with a dot between them, a run of padding that is too long, a line break, and a byte
that is left; and a single symbol. -/
theorem base64_segments_of_two_symbols :
    unpackFront "m" [0x59, 0x2E, 0x51, 0x3D, 0x3D, 0x3D, 0x0D, 0x0A, 0x21] =
        .ok ([.bytes [0x61]], [0x21]) ∧
      unpackFront "m" ([0x59] ++ ([0x2E] ++ [0x51, 0x3D])) = unpackFront "m" [0x59, 0x51, 0x3D] ∧
      unpackFront "m" [0x59, 0x3D] = .error (.malformed 'm' (.base64 .leftover)) := by
  obtain ⟨-, reads, skips⟩ := base64_segments .once once_lined once_le_greatest
  have long : Divides ([0x59, 0x2E, 0x51] ++ (List.replicate 3 pad ++ [0x0D, 0x0A, 0x21]))
      [0x59, 0x2E, 0x51] [0x21] :=
    .padded (by decide) (by decide) (by decide) (.crlf [0x21])
  have short : Divides ([0x59] ++ (List.replicate 1 pad ++ [])) [0x59] [] :=
    .padded (by decide) (by decide) nofun (.none (by decide) (by decide))
  obtain ⟨value, read, length, bits⟩ := (reads _ _ _ long).2 (by decide)
  have shown : value = [0x61] := by
    rw [length] at bits
    have same : _ = Radix.bits.ofBytes .highFirst [0x61] := bits.trans (by decide)
    exact Radix.bits.eq_of_ofBytes_eq .highFirst same
  have dot : ∀ b ∈ [0x2E], b ∉ alphabet ∧ b ≠ pad := List.forall_mem_singleton.mpr (by decide)
  rw [shown] at read
  exact ⟨read, skips [0x59] [0x2E] [0x51, 0x3D] (by decide) dot,
    (reads _ _ _ short).1.mpr (by decide)⟩

/-! ### Texts without lines -/

theorem unpack_unbroken (data : Bytes) :
    unpack "m0" data =
      match decode data with
      | .ok bs => .ok [.bytes bs]
      | .error fault => .error (.malformed 'm' (.base64 fault)) := by
  have read := unpackFront_base64 zero_le_greatest data
  rw [unpack_eq_map_unpackFront]
  refine (congrArg (Except.map Prod.fst) read).trans ?_
  rw [Operation.readBase64]
  cases decode data <;> rfl

theorem unpack_unbroken_eq_ok_iff {data : Bytes} {v : Value} :
    unpack "m0" data = .ok [v] ↔ ∃ bs, v = .bytes bs ∧ data = encode bs := by
  rw [unpack_unbroken]
  constructor
  · intro read
    cases decoded : decode data with
    | error fault => simp [decoded] at read
    | ok bs =>
      simp only [decoded, Except.ok.injEq, List.cons.injEq, and_true] at read
      exact ⟨bs, read.symm, decode_eq_ok_iff.mp decoded⟩
  · rintro ⟨bs, rfl, written⟩
    rw [decode_eq_ok_iff.mpr written]

/-- **Base64 in one text.** Under `m0` a byte string is packed to its text.  A value is read from just
the bytes that it is packed to, and all other bytes are malformed.  What is read under `m0` is read
under every count for lines as well. -/
theorem base64_unbroken :
    (∀ bs text, pack "m0" [.bytes bs] = .ok text ↔ IsTextOf bs text) ∧
    (∀ data v, unpack "m0" data = .ok [v] ↔ pack "m0" [v] = .ok data) ∧
    (∀ data, (∀ v, pack "m0" [v] ≠ .ok data) →
      ∃ fault, unpack "m0" data = .error (.malformed 'm' (.base64 fault))) ∧
    ∀ data v, unpack "m0" data = .ok [v] → ∀ count : Count, count ≠ .times 0 →
      (∀ k, count = .times k → k ≤ Count.greatest) →
      unpack (countedLetter 'm' count) data = .ok [v] := by
  have packed : ∀ v data, pack "m0" [v] = .ok data ↔ ∃ bs, v = .bytes bs ∧ data = encode bs :=
    fun _ _ => pack_base64_eq_ok_iff zero_le_greatest
  refine ⟨?_, ?_, ?_, ?_⟩
  · intro bs text
    rw [packed, isTextOf_iff]
    simp
  · intro data v
    rw [unpack_unbroken_eq_ok_iff, packed]
  · intro data not_packed
    rw [unpack_unbroken]
    cases decoded : decode data with
    | error fault => exact ⟨fault, rfl⟩
    | ok bs =>
      have written := (packed (.bytes bs) data).mpr ⟨bs, rfl, decode_eq_ok_iff.mp decoded⟩
      exact absurd written (not_packed _)
  · intro data v read count lined count_le
    obtain ⟨bs, rfl, rfl⟩ := unpack_unbroken_eq_ok_iff.mp read
    exact unpack_of_segment count_le lined (segment_encode bs)

/-- One byte, and a text with a bit that belongs to no byte, to which no value is packed. -/
theorem base64_unbroken_of_one_byte :
    pack "m0" [.bytes [0x61]] = .ok [0x59, 0x51, 0x3D, 0x3D] ∧
      unpack "m0" [0x59, 0x51, 0x3D, 0x3D] = .ok [.bytes [0x61]] ∧
      unpack "m" [0x59, 0x51, 0x3D, 0x3D] = .ok [.bytes [0x61]] ∧
      (∀ v, pack "m0" [v] ≠ .ok [0x59, 0x52, 0x3D, 0x3D]) ∧
      ∃ fault, unpack "m0" [0x59, 0x52, 0x3D, 0x3D] = .error (.malformed 'm' (.base64 fault)) := by
  obtain ⟨-, read_iff, malformed, agrees⟩ := base64_unbroken
  have written : pack "m0" [.bytes [0x61]] = .ok [0x59, 0x51, 0x3D, 0x3D] := rfl
  have read := (read_iff _ _).mpr written
  have not_packed : ∀ v, pack "m0" [v] ≠ .ok [0x59, 0x52, 0x3D, 0x3D] := by
    intro v packed
    have accepted := (read_iff _ _).mpr packed
    rw [unpack_unbroken] at accepted
    cases accepted
  exact ⟨written, read, agrees _ _ read .once once_lined once_le_greatest, not_packed,
    malformed _ not_packed⟩

end DirectivePack
