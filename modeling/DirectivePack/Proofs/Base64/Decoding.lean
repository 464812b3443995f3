import DirectivePack.Proofs.Base64.Bits

/-!
What the readers of base64 make of symbols.

The strict reader wants the bits that are dropped to be zero, and the padding to fill up the last
group of four symbols; so it accepts nothing but what is written.

* `isSymbol_iff_mem_alphabet`, `filterMap_sextet?_eq`: the symbols are the alphabet, and are worth
  their places in it.
* `decodeSymbols_of_leftover`, `decodeSymbols_of_bytes`: what the lenient reader makes of symbols.
* `decode_eq_ok_iff`: the strict reader accepts just what is written.
* `isTextOf_iff`: what is written is the bits of the bytes, six to a symbol, and padding.
-/

namespace DirectivePack.Base64

/-! ### The alphabet -/

/-- The symbols in the order of their values. -/
def alphabet : Bytes :=
  "ABCDEFGHIJKLMNOPQRSTUVWXYZabcdefghijklmnopqrstuvwxyz0123456789+/".toList.map fun c =>
    UInt8.ofNat c.toNat

theorem alphabet_eq : alphabet = (List.range 64).map symbol := by
  decide

theorem idxOf_symbol : ∀ n < 64, alphabet.idxOf (symbol n) = n := by
  rw [alphabet_eq]
  decide

theorem symbol_of_sextet? {b : UInt8} {n : Nat} (value : sextet? b = some n) :
    n < 64 ∧ symbol n = b := by
  have of_toNat : ∀ m, m = b.toNat → UInt8.ofNat m = b := by
    rintro _ rfl
    exact UInt8.ofNat_toNat
  unfold sextet? at value
  unfold symbol
  dsimp only at value
  split at value
  · obtain rfl := Option.some.inj value
    refine ⟨by omega, of_toNat _ ?_⟩
    rw [if_pos (by omega)]
    omega
  split at value
  · obtain rfl := Option.some.inj value
    refine ⟨by omega, of_toNat _ ?_⟩
    rw [if_neg (by omega), if_pos (by omega)]
    omega
  split at value
  · obtain rfl := Option.some.inj value
    refine ⟨by omega, of_toNat _ ?_⟩
    rw [if_neg (by omega), if_neg (by omega), if_pos (by omega)]
    omega
  split at value
  · rename_i plus
    obtain rfl := Option.some.inj value
    exact ⟨by decide, of_toNat _ plus.symm⟩
  split at value
  · rename_i slash
    obtain rfl := Option.some.inj value
    exact ⟨by decide, of_toNat _ slash.symm⟩
  · cases value

theorem isSymbol_iff_mem_alphabet {b : UInt8} : isSymbol b = true ↔ b ∈ alphabet := by
  rw [isSymbol, Option.isSome_iff_exists, alphabet_eq, List.mem_map]
  constructor
  · rintro ⟨n, value⟩
    obtain ⟨small, written⟩ := symbol_of_sextet? value
    exact ⟨n, List.mem_range.mpr small, written⟩
  · rintro ⟨n, small, rfl⟩
    exact ⟨n, sextet?_symbol n (List.mem_range.mp small)⟩

/-- The symbols among bytes. -/
def symbolsIn (bs : Bytes) : Bytes :=
  bs.filter (· ∈ alphabet)

theorem isSymbol_of_mem_symbolsIn {bs : Bytes} : ∀ b ∈ symbolsIn bs, isSymbol b = true := by
  intro b member
  rw [symbolsIn, List.mem_filter, decide_eq_true_iff] at member
  exact isSymbol_iff_mem_alphabet.mpr member.2

theorem filter_isSymbol (bs : Bytes) : bs.filter isSymbol = symbolsIn bs := by
  apply List.filter_congr
  intro b _
  rw [Bool.eq_iff_iff, isSymbol_iff_mem_alphabet, decide_eq_true_iff]

/-- Symbols are the symbols of their values. -/
theorem exists_values {symbols : Bytes} (all : ∀ b ∈ symbols, isSymbol b = true) :
    ∃ values : List Nat, (∀ s ∈ values, s < 64) ∧ symbols = values.map symbol := by
  induction symbols with
  | nil => exact ⟨[], by simp, rfl⟩
  | cons b symbols ih =>
    obtain ⟨is_symbol, others⟩ := List.forall_mem_cons.mp all
    obtain ⟨values, small, rfl⟩ := ih others
    obtain ⟨s, value⟩ := Option.isSome_iff_exists.mp is_symbol
    obtain ⟨s_small, rfl⟩ := symbol_of_sextet? value
    exact ⟨s :: values, List.forall_mem_cons.mpr ⟨s_small, small⟩, rfl⟩

theorem map_idxOf_map_symbol {values : List Nat} (small : ∀ s ∈ values, s < 64) :
    (values.map symbol).map alphabet.idxOf = values := by
  have places : values.map (alphabet.idxOf ∘ symbol) = values.map id :=
    List.map_congr_left fun n value => idxOf_symbol n (small n value)
  rw [List.map_map, places, List.map_id]

/-- **The alphabet.** Symbols are worth their places. -/
theorem filterMap_sextet?_eq {symbols : Bytes} (all : ∀ b ∈ symbols, isSymbol b = true) :
    symbols.filterMap sextet? = symbols.map alphabet.idxOf := by
  obtain ⟨values, small, rfl⟩ := exists_values all
  rw [filterMap_sextet?_map_symbol small, map_idxOf_map_symbol small]

/-! ### The lenient reader -/

theorem decodeSymbols_of_leftover {symbols : Bytes} (leftover : symbols.length % 4 = 1) :
    decodeSymbols symbols = .error .leftover := by
  rw [decodeSymbols, if_pos leftover]

/-- **The lenient reader** takes the whole bytes in the bits of the symbols. -/
theorem decodeSymbols_of_bytes {symbols : Bytes} (all : ∀ b ∈ symbols, isSymbol b = true)
    (none_left : symbols.length % 4 ≠ 1) :
    ∃ bs, decodeSymbols symbols = .ok bs ∧ bs.length = 6 * symbols.length / 8 ∧
      Radix.bits.ofBytes .highFirst bs =
        (sextetBits (symbols.map alphabet.idxOf)).take (8 * bs.length) := by
  rw [decodeSymbols, if_neg none_left, ← filterMap_sextet?_eq all]
  obtain ⟨values, small, rfl⟩ := exists_values all
  rw [filterMap_sextet?_map_symbol small, List.length_map]
  refine ⟨_, rfl, length_octets values, ?_⟩
  rw [ofBytes_octets small, length_octets]

/-! ### The strict reader -/

theorem droppedBits_sextets (bs : Bytes) : droppedBits (sextets bs) = 0 := by
  fun_induction sextets bs with
  | case1 a b c rest n ih => exact ih
  | case2 a b n =>
    simp only [droppedBits]
    omega
  | case3 a n =>
    simp only [droppedBits]
    omega
  | case4 => rfl

/-- Padding may stand behind two or three symbols of a group, and not beyond that group. -/
theorem isPadding_iff {count : Nat} {bs : Bytes} :
    isPadding count bs = true ↔
      bs = [] ∨ bs = List.replicate bs.length pad ∧ 2 ≤ count % 4 ∧ count % 4 + bs.length ≤ 4 := by
  have pads : bs.all (· == pad) = true ↔ bs = List.replicate bs.length pad := by
    rw [List.all_eq_true, List.eq_replicate_iff]
    simp
  rw [isPadding, Bool.or_eq_true, Bool.and_eq_true, Bool.and_eq_true, pads, List.isEmpty_iff,
    decide_eq_true_eq, decide_eq_true_eq, and_assoc]

/-- The strict reader takes the symbols in front, and what is behind them has to be padding. -/
theorem decode_symbols_append_eq_ok_iff {values : List Nat} (small : ∀ s ∈ values, s < 64)
    {behind : Bytes} (ends : ∀ b, behind.head? = some b → isSymbol b = false) {bs : Bytes} :
    decode (values.map symbol ++ behind) = .ok bs ↔
      isPadding values.length behind = true ∧ (values.length + behind.length) % 4 = 0 ∧
        droppedBits values = 0 ∧ octets values = bs := by
  have symbols := isSymbol_of_mem_map_symbol small
  have taken : behind.takeWhile isSymbol = [] ∧ behind.dropWhile isSymbol = behind := by
    cases behind with
    | nil => exact ⟨rfl, rfl⟩
    | cons b behind => simp [ends b rfl]
  rw [decode, List.takeWhile_append_of_pos symbols, List.dropWhile_append_of_pos symbols, taken.1,
    taken.2, List.append_nil, List.length_append, List.length_map,
    filterMap_sextet?_map_symbol small]
  dsimp only
  by_cases leftover : (values.length + behind.length) % 4 = 1
  · rw [if_pos leftover]
    constructor
    · intro decoded
      split at decoded
      · split at decoded
        · cases decoded
        · cases decoded
      · cases decoded
    · rintro ⟨-, full, -⟩
      omega
  · rw [if_neg leftover]
    by_cases padding : isPadding values.length behind = true
    · by_cases full : (values.length + behind.length) % 4 = 0
      · by_cases clean : droppedBits values = 0
        · simp [padding, full, clean]
        · simp [padding, full, clean]
      · simp [padding, full]
    · simp [padding]

/-- How many sextets the last group is short of. -/
theorem length_sextets_mod (bs : Bytes) :
    (sextets bs).length % 4 ≠ 1 ∧ (4 - (sextets bs).length % 4) % 4 = padding bs := by
  rw [length_sextets, padding]
  have remainders : bs.length % 3 = 0 ∨ bs.length % 3 = 1 ∨ bs.length % 3 = 2 := by omega
  rcases remainders with none_over | one_over | two_over
  · omega
  · omega
  · omega

/-- Padding has to fill up the last group. -/
theorem isPadding_and_full_iff {count : Nat} {bs : Bytes} :
    isPadding count bs = true ∧ (count + bs.length) % 4 = 0 ↔
      count % 4 ≠ 1 ∧ bs = List.replicate ((4 - count % 4) % 4) pad := by
  rw [isPadding_iff]
  constructor
  · rintro ⟨rfl | ⟨pads, some_symbols, within⟩, full⟩
    · rw [List.length_nil, Nat.add_zero] at full
      rw [full]
      exact ⟨nofun, rfl⟩
    · have fills : bs.length = (4 - count % 4) % 4 := by omega
      rw [← fills]
      exact ⟨by omega, pads⟩
  · rintro ⟨none_left, rfl⟩
    rw [List.length_replicate]
    refine ⟨?_, by omega⟩
    by_cases whole : count % 4 = 0
    · left
      rw [whole]
      rfl
    · right
      exact ⟨rfl, by omega, by omega⟩

/-- **The strict reader** accepts just what is written. -/
theorem decode_eq_ok_iff {text bs : Bytes} : decode text = .ok bs ↔ text = encode bs := by
  constructor
  · intro decoded
    have all_symbols : ∀ b ∈ text.takeWhile isSymbol, isSymbol b = true :=
      List.all_eq_true.mp List.all_takeWhile
    obtain ⟨values, small, symbols⟩ := exists_values all_symbols
    have ends : ∀ b, (text.dropWhile isSymbol).head? = some b → isSymbol b = false := by
      intro b head
      have stops := List.head?_dropWhile_not isSymbol text
      rw [head] at stops
      exact stops
    have split := (List.takeWhile_append_dropWhile (p := isSymbol) (l := text)).symm
    rw [symbols] at split
    rw [split, decode_symbols_append_eq_ok_iff small ends, ← and_assoc,
      isPadding_and_full_iff] at decoded
    obtain ⟨⟨none_left, fill⟩, clean, rfl⟩ := decoded
    have written := sextets_octets small none_left clean
    rw [split, fill, encode_eq, written, ← (length_sextets_mod _).2, written]
  · rintro rfl
    obtain ⟨none_left, fill⟩ := length_sextets_mod bs
    have ends : ∀ b, (List.replicate (padding bs) pad).head? = some b → isSymbol b = false := by
      intro b head
      rw [List.eq_of_mem_replicate (List.mem_of_head? head)]
      decide
    rw [encode_eq, decode_symbols_append_eq_ok_iff sextets_lt ends, ← and_assoc,
      isPadding_and_full_iff, fill]
    exact ⟨⟨none_left, rfl⟩, droppedBits_sextets bs, octets_sextets bs⟩

/-! ### Texts -/

/-- What base64 is: the bits of the bytes, six to a symbol, with fewer zeros behind them than a
symbol holds, and padding up to a whole group. -/
inductive IsTextOf (bs : Bytes) : Bytes → Prop
  | intro {symbols : Bytes} {zeros pads : Nat} : (∀ b ∈ symbols, b ∈ alphabet) →
      sextetBits (symbols.map alphabet.idxOf) =
        Radix.bits.ofBytes .highFirst bs ++ List.replicate zeros 0 → zeros < 6 →
      (symbols.length + pads) % 4 = 0 → pads < 4 →
      IsTextOf bs (symbols ++ List.replicate pads pad)

/-- **The text** of bytes is what is written, and no other. -/
theorem isTextOf_iff {bs text : Bytes} : IsTextOf bs text ↔ text = encode bs := by
  obtain ⟨zeros, few, row⟩ := sextetBits_sextets bs
  obtain ⟨none_left, fill⟩ := length_sextets_mod bs
  constructor
  · rintro @⟨symbols, more, pads, are_symbols, bits, more_few, fills, within⟩
    obtain ⟨values, small, rfl⟩ :=
      exists_values fun b member => isSymbol_iff_mem_alphabet.mpr (are_symbols b member)
    rw [map_idxOf_map_symbol small] at bits
    have same_zeros : more = zeros := by
      have lengths := congrArg List.length bits
      have row_lengths := congrArg List.length row
      rw [length_sextetBits, List.length_append, List.length_replicate] at lengths row_lengths
      omega
    rw [same_zeros, ← row] at bits
    obtain rfl := eq_of_sextetBits_eq small sextets_lt bits
    have same_pads : pads = padding bs := by
      rw [List.length_map] at fills
      omega
    rw [encode_eq, same_pads]
  · rintro rfl
    rw [encode_eq]
    refine .intro ?_ ?_ few ?_ ?_
    · intro b member
      exact isSymbol_iff_mem_alphabet.mp (isSymbol_of_mem_map_symbol sextets_lt b member)
    · rw [map_idxOf_map_symbol sextets_lt, row]
    · rw [List.length_map]
      omega
    · omega

end DirectivePack.Base64
