import DirectivePack.Proofs.Base64.Bounds
import Mathlib.Data.List.Basic

/-!
Base64 in lines agrees with base64 in one text.

Writing goes through the six-bit values of the bytes (`sextets`).  Lines of whole groups put line
feeds between the symbols of these values and change nothing else; the padding behind the last
symbol is the only one, and there the segment ends.

* `encode_eq`: the padded form is the symbols of the sextets, and padding.
* `octets_sextets`: the whole bytes in the sextets of some bytes are these bytes.
* `encodeLines_eq`: lines hold the symbols of the sextets, and end with the padding and a line feed.
* `filter_encodeLines`: without the line feeds they are the text that has none.
* `inLines_encodeLines`, `length_encodeLines`: how many lines there are, and how long.
* `segment_encode`: a text without lines is read as one segment.
* `decodeSymbols_segment_encodeLines`: bytes with a short last group are read back from their lines,
  whatever comes behind them.
-/

namespace DirectivePack.Base64

/-! ### Sextets -/

/-- The six-bit values of bytes, the last one filled up with zero bits. -/
def sextets : Bytes → List Nat
  | a :: b :: c :: rest =>
    let n := a.toNat * 65536 + b.toNat * 256 + c.toNat
    n / 262144 :: n / 4096 % 64 :: n / 64 % 64 :: n % 64 :: sextets rest
  | [a, b] =>
    let n := (a.toNat * 256 + b.toNat) * 4
    [n / 4096, n / 64 % 64, n % 64]
  | [a] =>
    let n := a.toNat * 16
    [n / 64, n % 64]
  | [] => []

/-- How many padding bytes stand behind the symbols of bytes. -/
def padding (bs : Bytes) : Nat :=
  (3 - bs.length % 3) % 3

theorem sextets_lt {bs : Bytes} : ∀ s ∈ sextets bs, s < 64 := by
  fun_induction sextets bs with
  | case1 a b c rest n ih =>
    have := a.toNat_lt
    have := b.toNat_lt
    have := c.toNat_lt
    intro s member
    simp only [List.mem_cons] at member
    rcases member with rfl | rfl | rfl | rfl | member
    · omega
    · omega
    · omega
    · omega
    · exact ih s member
  | case2 a b n =>
    have := a.toNat_lt
    have := b.toNat_lt
    simp
    omega
  | case3 a n =>
    have := a.toNat_lt
    simp
    omega
  | case4 => simp

theorem length_sextets (bs : Bytes) : (sextets bs).length = (4 * bs.length + 2) / 3 := by
  fun_induction sextets bs with
  | case1 a b c rest n ih =>
    simp only [List.length_cons, ih]
    omega
  | case2 | case3 | case4 => simp

/-- The whole bytes in the sextets of some bytes are these bytes. -/
theorem octets_sextets (bs : Bytes) : octets (sextets bs) = bs := by
  fun_induction sextets bs with
  | case1 a b c rest n ih =>
    have := a.toNat_lt
    have := b.toNat_lt
    have := c.toNat_lt
    have whole : n / 262144 * 262144 + n / 4096 % 64 * 4096 + n / 64 % 64 * 64 + n % 64 = n := by
      omega
    have first : n / 65536 = a.toNat := by omega
    have second : n / 256 % 256 = b.toNat := by omega
    have third : n % 256 = c.toNat := by omega
    simp only [octets, whole, first, second, third, ih, UInt8.ofNat_toNat]
  | case2 a b n =>
    have := a.toNat_lt
    have := b.toNat_lt
    have whole : n / 4096 * 4096 + n / 64 % 64 * 64 + n % 64 = n := by omega
    have first : n / 1024 = a.toNat := by omega
    have second : n / 4 % 256 = b.toNat := by omega
    simp only [octets, whole, first, second, UInt8.ofNat_toNat]
  | case3 a n =>
    have := a.toNat_lt
    have whole : (n / 64 * 64 + n % 64) / 16 = a.toNat := by omega
    simp only [octets, whole, UInt8.ofNat_toNat]
  | case4 => rfl

/-- Bytes in whole groups have their sextets in front of those of what comes behind. -/
theorem sextets_append {group : Bytes} (whole : group.length % 3 = 0) (bs : Bytes) :
    sextets (group ++ bs) = sextets group ++ sextets bs := by
  fun_induction sextets group with
  | case1 a b c rest n ih =>
    have rest_whole : rest.length % 3 = 0 := by
      simp only [List.length_cons] at whole
      omega
    simp only [List.cons_append, sextets, ih rest_whole]
    rfl
  | case2 | case3 => simp at whole
  | case4 => rfl

theorem padding_append {group : Bytes} (whole : group.length % 3 = 0) (bs : Bytes) :
    padding (group ++ bs) = padding bs := by
  unfold padding
  rw [List.length_append]
  omega

/-! ### Symbols -/

theorem sextet?_symbol : ∀ n < 64, sextet? (symbol n) = some n := by
  decide

theorem sextet?_pad : sextet? pad = none := by
  decide

theorem isSymbol_symbol {n : Nat} (small : n < 64) : isSymbol (symbol n) = true := by
  rw [isSymbol, sextet?_symbol n small, Option.isSome_some]

theorem filterMap_sextet?_map_symbol {values : List Nat} (small : ∀ n ∈ values, n < 64) :
    (values.map symbol).filterMap sextet? = values := by
  induction values with
  | nil => rfl
  | cons n values ih =>
    rw [List.map_cons, List.filterMap_cons, sextet?_symbol n (small n (.head _))]
    exact congrArg (n :: ·) (ih fun other member => small other (.tail _ member))

theorem isSymbol_of_mem_map_symbol {values : List Nat} (small : ∀ n ∈ values, n < 64) :
    ∀ b ∈ values.map symbol, isSymbol b = true := by
  intro b member
  obtain ⟨n, value, rfl⟩ := List.mem_map.mp member
  exact isSymbol_symbol (small n value)

theorem filter_isSymbol_map_symbol {values : List Nat} (small : ∀ n ∈ values, n < 64) :
    (values.map symbol).filter isSymbol = values.map symbol :=
  List.filter_eq_self.mpr (isSymbol_of_mem_map_symbol small)

theorem pad_not_mem_map_symbol {values : List Nat} (small : ∀ n ∈ values, n < 64) :
    pad ∉ values.map symbol := by
  intro member
  have is_symbol := isSymbol_of_mem_map_symbol small pad member
  rw [isSymbol, sextet?_pad] at is_symbol
  cases is_symbol

/-! ### Writing -/

/-- The padded form: the symbols of the sextets, and padding. -/
theorem encode_eq (bs : Bytes) :
    encode bs = (sextets bs).map symbol ++ List.replicate (padding bs) pad := by
  fun_induction encode bs with
  | case1 a b c rest n ih =>
    have same : padding ([a, b, c] ++ rest) = padding rest :=
      padding_append (by simp) rest
    rw [ih, ← same]
    rfl
  | case2 | case3 | case4 => rfl

/-- Whole groups have no padding. -/
theorem encode_of_whole {bs : Bytes} (whole : bs.length % 3 = 0) :
    encode bs = (sextets bs).map symbol := by
  rw [encode_eq, padding, whole]
  exact List.append_nil _

/-! ### Lines -/

/-- Whole lines in front of bytes have their sextets in front of theirs. -/
theorem sextets_flatten_append {lines : List Bytes} (whole : ∀ line ∈ lines, line.length % 3 = 0)
    (bs : Bytes) : sextets (lines.flatten ++ bs) = lines.flatMap sextets ++ sextets bs := by
  induction lines with
  | nil => rfl
  | cons line lines ih =>
    obtain ⟨line_whole, others⟩ := List.forall_mem_cons.mp whole
    rw [List.flatten_cons, List.append_assoc, sextets_append line_whole, ih others,
      List.flatMap_cons, List.append_assoc]

theorem padding_flatten_append {lines : List Bytes} (whole : ∀ line ∈ lines, line.length % 3 = 0)
    (bs : Bytes) : padding (lines.flatten ++ bs) = padding bs := by
  induction lines with
  | nil => rfl
  | cons line lines ih =>
    obtain ⟨line_whole, others⟩ := List.forall_mem_cons.mp whole
    rw [List.flatten_cons, List.append_assoc, padding_append line_whole, ih others]

theorem flatMap_encode_of_whole {lines : List Bytes}
    (whole : ∀ line ∈ lines, line.length % 3 = 0) :
    lines.flatMap encode = (lines.flatMap sextets).map symbol := by
  rw [List.map_flatMap]
  exact List.flatMap_congr fun line in_lines => encode_of_whole (whole line in_lines)

/-- Lines for bytes, without the line feeds that end them: as many as cover the bytes, and all of
them full of symbols but the last. -/
structure InLines (lineBytes : Nat) (bs : Bytes) (lines : List Bytes) : Prop where
  number : lines.length = (bs.length + (lineBytes - 1)) / lineBytes
  unbroken : ∀ line ∈ lines, 0x0A ∉ line
  full : ∀ line ∈ lines.dropLast,
    line.length = 4 * lineBytes / 3 ∧ ∀ b ∈ line, isSymbol b = true ∧ b ≠ pad

theorem feed_not_mem_encode (bs : Bytes) : 0x0A ∉ encode bs := by
  rw [encode_eq, List.mem_append]
  rintro (in_symbols | in_padding)
  · have is_symbol := isSymbol_of_mem_map_symbol sextets_lt 0x0A in_symbols
    exact absurd is_symbol (by decide)
  · exact absurd (List.eq_of_mem_replicate in_padding) (by decide)

section Lines

variable {lineBytes : Nat} (some_byte : 0 < lineBytes) (whole_lines : lineBytes % 3 = 0)

include some_byte whole_lines

/-- Bytes are cut into whole lines and a last one. -/
theorem exists_lines {bs : Bytes} (nonempty : bs ≠ []) :
    ∃ full last, chunks (lineBytes - 1) bs = full ++ [last] ∧ bs = full.flatten ++ last ∧
      (∀ line ∈ full, line.length = lineBytes) ∧ ∀ line ∈ full, line.length % 3 = 0 := by
  obtain ⟨full, last, pieces, are_full⟩ := exists_chunks_eq (lineBytes - 1) nonempty
  rw [Nat.sub_add_cancel some_byte] at are_full
  have whole := flatten_chunks (lineBytes - 1) bs
  rw [pieces, List.flatten_append, List.flatten_singleton] at whole
  refine ⟨full, last, pieces, whole.symm, are_full, ?_⟩
  intro line in_full
  rw [are_full line in_full, whole_lines]

/-- The texts of the lines make up the text of the bytes. -/
theorem flatMap_encode_chunks (bs : Bytes) :
    (chunks (lineBytes - 1) bs).flatMap encode = encode bs := by
  by_cases empty : bs = []
  · rw [empty, chunks_nil]
    rfl
  · obtain ⟨full, last, pieces, split, -, whole⟩ := exists_lines some_byte whole_lines empty
    have text := encode_eq (full.flatten ++ last)
    rw [sextets_flatten_append whole, padding_flatten_append whole, List.map_append,
      List.append_assoc, ← encode_eq, ← flatMap_encode_of_whole whole] at text
    rw [pieces, List.flatMap_append, List.flatMap_singleton, split, text]

/-- Lines of whole groups: the symbols of the sextets with line feeds between them, then the padding
and a line feed. -/
theorem encodeLines_eq {bs : Bytes} (nonempty : bs ≠ []) :
    ∃ body, encodeLines lineBytes bs = body ++ (List.replicate (padding bs) pad ++ [0x0A]) ∧
      pad ∉ body ∧ body.filter isSymbol = (sextets bs).map symbol := by
  obtain ⟨full, last, pieces, split, -, whole⟩ := exists_lines some_byte whole_lines nonempty
  refine ⟨full.flatMap (fun line => encode line ++ [0x0A]) ++ (sextets last).map symbol, ?_, ?_, ?_⟩
  · rw [encodeLines, pieces, List.flatMap_append, List.flatMap_singleton, encode_eq last, split,
      padding_flatten_append whole]
    simp
  · intro member
    rcases List.mem_append.mp member with in_lines | in_last
    · obtain ⟨line, in_full, in_line⟩ := List.mem_flatMap.mp in_lines
      rw [encode_of_whole (whole line in_full)] at in_line
      rcases List.mem_append.mp in_line with in_symbols | feed
      · exact pad_not_mem_map_symbol sextets_lt in_symbols
      · exact absurd (List.mem_singleton.mp feed) (by decide)
    · exact pad_not_mem_map_symbol sextets_lt in_last
  · have symbols : ∀ line ∈ full, (encode line ++ [0x0A]).filter isSymbol = encode line := by
      intro line in_full
      rw [List.filter_append, encode_of_whole (whole line in_full),
        filter_isSymbol_map_symbol sextets_lt]
      exact List.append_nil _
    have lines : (full.flatMap fun line => encode line ++ [0x0A]).filter isSymbol =
        full.flatMap encode := by
      rw [List.filter_flatMap, List.flatMap_congr symbols]
    rw [List.filter_append, lines, flatMap_encode_of_whole whole,
      filter_isSymbol_map_symbol sextets_lt, split, sextets_flatten_append whole, List.map_append]

/-- Without the line feeds there is one text. -/
theorem filter_encodeLines (bs : Bytes) :
    (encodeLines lineBytes bs).filter (· != 0x0A) = encode bs := by
  have line : ∀ piece ∈ chunks (lineBytes - 1) bs,
      (encode piece ++ [0x0A]).filter (· != 0x0A) = encode piece := by
    intro piece _
    have kept : (encode piece).filter (· != 0x0A) = encode piece := by
      apply List.filter_eq_self.mpr
      intro b member
      have differs : b ≠ 0x0A := fun same => feed_not_mem_encode piece (same ▸ member)
      simpa using differs
    rw [List.filter_append, kept]
    exact List.append_nil _
  rw [encodeLines, List.filter_flatMap, List.flatMap_congr line,
    flatMap_encode_chunks some_byte whole_lines]

/-- **Lines.** There are as many as cover the bytes, and only the last may be short or padded. -/
theorem inLines_encodeLines (bs : Bytes) :
    ∃ lines, encodeLines lineBytes bs = lines.flatMap (· ++ [0x0A]) ∧
      InLines lineBytes bs lines := by
  refine ⟨(chunks (lineBytes - 1) bs).map encode, ?_, ?_, ?_, ?_⟩
  · rw [encodeLines, List.flatMap_map]
  · rw [List.length_map, length_chunks, Nat.sub_add_cancel some_byte]
  · intro line in_lines
    obtain ⟨piece, -, rfl⟩ := List.mem_map.mp in_lines
    exact feed_not_mem_encode piece
  · by_cases empty : bs = []
    · rw [empty, chunks_nil]
      nofun
    · obtain ⟨full, last, pieces, -, are_full, whole⟩ := exists_lines some_byte whole_lines empty
      rw [pieces, List.map_append, List.map_singleton, List.dropLast_concat]
      intro line in_full
      obtain ⟨piece, is_full, rfl⟩ := List.mem_map.mp in_full
      have text := encode_of_whole (whole piece is_full)
      refine ⟨?_, ?_⟩
      · rw [encode_length, are_full piece is_full]
        omega
      · intro b member
        rw [text] at member
        have not_pad : b ≠ pad := fun same => pad_not_mem_map_symbol sextets_lt (same ▸ member)
        exact ⟨isSymbol_of_mem_map_symbol sextets_lt b member, not_pad⟩

theorem length_encodeLines (bs : Bytes) :
    (encodeLines lineBytes bs).length =
      4 * ((bs.length + 2) / 3) + (bs.length + (lineBytes - 1)) / lineBytes := by
  have total : ∀ pieces : List Bytes, (pieces.flatMap fun line => encode line ++ [0x0A]).length =
      (pieces.flatMap encode).length + pieces.length := by
    intro pieces
    induction pieces with
    | nil => rfl
    | cons piece pieces ih =>
      simp only [List.flatMap_cons, List.length_append, List.length_cons, List.length_nil, ih]
      omega
  rw [encodeLines, total, flatMap_encode_chunks some_byte whole_lines, encode_length, length_chunks,
    Nat.sub_add_cancel some_byte]

end Lines

/-! ### Reading back -/

theorem decodeSymbols_sextets (bs : Bytes) :
    decodeSymbols ((sextets bs).map symbol) = .ok bs := by
  have length : ((sextets bs).map symbol).length % 4 ≠ 1 := by
    rw [List.length_map, length_sextets]
    omega
  rw [decodeSymbols, if_neg length, filterMap_sextet?_map_symbol sextets_lt, octets_sextets]

/-- The text of bytes is one segment, and nothing is behind it. -/
theorem segment_encode (bs : Bytes) : segment (encode bs) = ((sextets bs).map symbol, []) := by
  have free : pad ∉ (sextets bs).map symbol := pad_not_mem_map_symbol sextets_lt
  have divides : Divides (encode bs) ((sextets bs).map symbol) [] := by
    by_cases whole : bs.length % 3 = 0
    · rw [encode_of_whole whole]
      exact .whole free
    · have some_pad : 0 < padding bs := by
        unfold padding
        omega
      rw [encode_eq, ← List.append_nil (List.replicate (padding bs) pad)]
      exact .padded free some_pad nofun (.none (by simp) (by simp))
  rw [divides.segment_eq, filter_isSymbol_map_symbol sextets_lt]

/-- **Base64 in lines.** Bytes with a short last group are read back from their lines, whatever
comes behind these. -/
theorem decodeSymbols_segment_encodeLines {lineBytes : Nat} (some_byte : 0 < lineBytes)
    (whole : lineBytes % 3 = 0) {bs : Bytes} (short : bs.length % 3 ≠ 0) (rest : Bytes) :
    ∃ symbols, segment (encodeLines lineBytes bs ++ rest) = (symbols, rest) ∧
      decodeSymbols symbols = .ok bs := by
  have nonempty : bs ≠ [] := by
    rintro rfl
    exact short rfl
  have some_pad : 0 < padding bs := by
    unfold padding
    omega
  obtain ⟨body, written, free, symbols⟩ := encodeLines_eq some_byte whole nonempty
  refine ⟨(sextets bs).map symbol, ?_, decodeSymbols_sextets bs⟩
  have split : encodeLines lineBytes bs ++ rest =
      body ++ (List.replicate (padding bs) pad ++ 0x0A :: rest) := by
    rw [written]
    simp
  rw [split, segment_append free some_pad, symbols]

end DirectivePack.Base64
