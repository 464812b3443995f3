import Mathlib.Data.Set.List
import DirectivePack.Proofs.RoundTrip.Elements
import DirectivePack.Proofs.Text.WellFormed

/-!
Characters under a star read and write text, and nothing but text.

Where the elements are the members of a family, a star reads a row of members up to the end of the
bytes, and packing writes such a row.  What is read and what is written is therefore told by the same
two equations, one for the values and one for the bytes.

* `encodeEach_eq_ok_iff`: rows of members of a family are written.
* `unpack_characters_iff`, `pack_characters_iff`: rows of characters.
* `characters_iff_wellFormed`: a star on characters reads just the well-formed texts, as their code
  points, and writes just the rows of scalar values; reading and writing undo each other.
-/

namespace DirectivePack

/-! ### Rows of a family -/

/-- If just the members of a family are written, a row of them is written in order. -/
theorem encodeEach_eq_ok_iff {γ : Type} {ofMember : γ → Value} {form : γ → Bytes}
    {encode : Value → Except Fault Bytes}
    (element : ∀ v bs, encode v = .ok bs ↔ ∃ c, v = ofMember c ∧ bs = form c)
    {values : List Value} {bs : Bytes} :
    encodeEach encode values = .ok bs ↔
      ∃ cs : List γ, values = cs.map ofMember ∧ bs = cs.flatMap form := by
  constructor
  · intro encoded
    induction values generalizing bs with
    | nil =>
      cases encoded
      exact ⟨[], rfl, rfl⟩
    | cons v values ih =>
      obtain ⟨piece, more, first, others, rfl⟩ := encodeEach_cons_eq_ok_iff.mp encoded
      obtain ⟨c, rfl, rfl⟩ := (element _ _).mp first
      obtain ⟨cs, rfl, rfl⟩ := ih others
      exact ⟨c :: cs, rfl, List.flatMap_cons.symm⟩
  · rintro ⟨cs, rfl, rfl⟩
    induction cs with
    | nil => rfl
    | cons c cs ih =>
      have first : encode (ofMember c) = .ok (form c) := (element _ _).mpr ⟨c, rfl, rfl⟩
      exact encodeEach_cons_eq_ok_iff.mpr ⟨_, _, first, ih, List.flatMap_cons⟩

/-! ### Rows of characters -/

/-- The number of a character as a value. -/
def Value.ofChar (c : Char) : Value :=
  .integer c.toNat

/-- Under a directive for characters, just the numbers of characters are written. -/
theorem Operation.encodeValue_utf8_eq_ok_iff {op : Operation}
    (encoding : op.directive.encoding = .utf8) (v : Value) (bs : Bytes) :
    op.encodeValue v = .ok bs ↔ ∃ c : Char, v = .ofChar c ∧ bs = Utf8.encodeChar c := by
  constructor
  · intro encoded
    simp only [encodeValue, encoding, withInteger] at encoded
    cases v with
    | float | bytes => simp [Value.asInteger?] at encoded
    | integer n =>
      simp only [Value.asInteger?, encodeChar] at encoded
      by_cases negative : n < 0
      · simp [negative] at encoded
      · cases found : charOfNumber? n.toNat with
        | none => simp [negative, found] at encoded
        | some c =>
          simp only [negative, if_false, found, mapError_ok, Except.ok.injEq] at encoded
          have number := charOfNumber?_eq_some_iff.mp found
          refine ⟨c, ?_, encoded.symm⟩
          rw [Value.ofChar, ← number, Int.toNat_of_nonneg (Int.not_lt.mp negative)]
  · rintro ⟨c, rfl, rfl⟩
    exact encodeValue_utf8 encoding c

namespace Operation

variable {op : Operation} {values left : List Value} {bs rest : Bytes}

/-- A star on characters reads a row of them, up to the end. -/
theorem unpack_utf8_all_eq_ok_iff (encoding : op.directive.encoding = .utf8)
    (all : op.count = .all) :
    op.unpack bs = .ok (values, rest) ↔
      rest = [] ∧
        ∃ cs : List Char, values = cs.map Value.ofChar ∧ bs = cs.flatMap Utf8.encodeChar := by
  have row : readAll op.readChar op.readChar_rest_length_lt bs = .ok values ↔
      ∃ cs : List Char, values = cs.map Value.ofChar ∧ bs = cs.flatMap Utf8.encodeChar :=
    readAll_eq_ok_iff _ fun _ _ _ => readChar_eq_ok_iff
  rw [← row]
  simp only [unpack, encoding, all, map_eq_ok_iff, Prod.mk.injEq]
  constructor
  · rintro ⟨_, read, rfl, rfl⟩
    exact ⟨rfl, read⟩
  · rintro ⟨rfl, read⟩
    exact ⟨values, read, rfl, rfl⟩

/-- A star on characters writes all the values that are left, if they are numbers of characters. -/
theorem pack_utf8_all_eq_ok_iff (encoding : op.directive.encoding = .utf8)
    (all : op.count = .all) :
    op.pack values = .ok (bs, left) ↔
      left = [] ∧
        ∃ cs : List Char, values = cs.map Value.ofChar ∧ bs = cs.flatMap Utf8.encodeChar := by
  have arity : op.arity values.length = values.length := by
    rw [arity, encoding, all]
    rfl
  have valued : op.directive.encoding ≠ .padding := by
    rw [encoding]
    exact nofun
  rw [pack_eq_ok_iff, arity, ← encodeEach_eq_ok_iff (encodeValue_utf8_eq_ok_iff encoding),
    ← encode_eq_encodeEach valued]
  constructor
  · rintro ⟨taken, whole, length, encoded⟩
    have none_left : left = [] := by
      have total := congrArg List.length whole
      rw [List.length_append, length] at total
      exact List.eq_nil_of_length_eq_zero (by omega)
    subst none_left
    rw [List.append_nil] at whole
    exact ⟨rfl, whole ▸ encoded⟩
  · rintro ⟨rfl, encoded⟩
    exact ⟨values, (List.append_nil values).symm, rfl, encoded⟩

end Operation

/-! ### The whole program -/

/-- The program of a star on characters. -/
theorem parse_characters : Program.parse "U*" =
    .ok [⟨Directive.unsized 'U' .utf8 "UTF-8 character", .none, .all⟩] :=
  rfl

theorem unpack_characters_iff {data : Bytes} {values : List Value} :
    unpack "U*" data = .ok values ↔
      ∃ cs : List Char, values = cs.map Value.ofChar ∧ data = cs.flatMap Utf8.encodeChar := by
  rw [unpack, parse_characters]
  simp only [Program.unpack_eq_ok_iff, Program.unpackFront_singleton]
  rw [exists_congr fun _ => Operation.unpack_utf8_all_eq_ok_iff rfl rfl]
  exact exists_eq_left

theorem pack_characters_iff {data : Bytes} {values : List Value} :
    pack "U*" values = .ok data ↔
      ∃ cs : List Char, values = cs.map Value.ofChar ∧ data = cs.flatMap Utf8.encodeChar := by
  rw [pack, parse_characters]
  simp only [Program.pack_eq_ok_iff, Program.packFront_singleton]
  rw [exists_congr fun _ => Operation.pack_utf8_all_eq_ok_iff rfl rfl]
  exact exists_eq_left

/-! ### Well-formed texts and scalar values -/

/-- The values of some code points. -/
theorem map_ofChar (cs : List Char) :
    cs.map Value.ofChar = (cs.map Char.toNat).map fun n : Nat => Value.integer n := by
  rw [List.map_map]
  rfl

/-- The numbers of characters among the integers. -/
theorem exists_char_iff {n : Int} :
    (∃ c : Char, (c.toNat : Int) = n) ↔
      (0 ≤ n ∧ n ≤ 0xD7FF) ∨ (0xE000 ≤ n ∧ n ≤ 0x10FFFF) := by
  constructor
  · rintro ⟨c, rfl⟩
    have scalar := isScalar_toNat c
    unfold IsScalar at scalar
    omega
  · intro scalar
    refine ⟨Char.ofNat n.toNat, ?_⟩
    rw [toNat_ofNat (by unfold IsScalar; omega)]
    omega

theorem exists_chars_iff {ns : List Int} :
    (∃ cs : List Char, cs.map (fun c => (c.toNat : Int)) = ns) ↔
      ∀ n ∈ ns, (0 ≤ n ∧ n ≤ 0xD7FF) ∨ (0xE000 ≤ n ∧ n ≤ 0x10FFFF) := by
  simp only [← exists_char_iff]
  exact Set.ext_iff.mp (Set.range_list_map fun c : Char => (c.toNat : Int)) ns

theorem map_ofChar_eq_iff {cs : List Char} {ns : List Int} :
    ns.map Value.integer = cs.map Value.ofChar ↔ cs.map (fun c => (c.toNat : Int)) = ns := by
  have values : cs.map Value.ofChar = (cs.map fun c => (c.toNat : Int)).map Value.integer := by
    rw [List.map_map]
    rfl
  rw [values, List.map_inj_right fun _ _ => Value.integer.inj, eq_comm]

/-- **Characters under a star.** Just the well-formed texts are read, as their code points in order,
and these are written as that text again.  Of the integers just the rows of scalar values are
written, and what is written for them is read as them again. -/
theorem characters_iff_wellFormed (data : Bytes) (ns : List Int) :
    ((∃ values, unpack "U*" data = .ok values) ↔ Utf8.WellFormed data) ∧
      (∀ codes, Utf8.CodePoints data codes →
        unpack "U*" data = .ok (codes.map fun n : Nat => .integer n) ∧
          pack "U*" (codes.map fun n : Nat => .integer n) = .ok data) ∧
      ((∃ bs, pack "U*" (ns.map .integer) = .ok bs) ↔
        ∀ n ∈ ns, (0 ≤ n ∧ n ≤ 0xD7FF) ∨ (0xE000 ≤ n ∧ n ≤ 0x10FFFF)) ∧
      ∀ bs, pack "U*" (ns.map .integer) = .ok bs → unpack "U*" bs = .ok (ns.map .integer) := by
  refine ⟨?_, ?_, ?_, ?_⟩
  · simp only [unpack_characters_iff, Utf8.WellFormed, Utf8.codePoints_iff]
    constructor
    · rintro ⟨_, cs, -, split⟩
      exact ⟨_, cs, rfl, split⟩
    · rintro ⟨_, cs, -, split⟩
      exact ⟨_, cs, rfl, split⟩
  · intro codes points
    obtain ⟨cs, rfl, split⟩ := Utf8.codePoints_iff.mp points
    rw [← map_ofChar]
    exact ⟨unpack_characters_iff.mpr ⟨cs, rfl, split⟩, pack_characters_iff.mpr ⟨cs, rfl, split⟩⟩
  · rw [← exists_chars_iff]
    simp only [pack_characters_iff, map_ofChar_eq_iff]
    constructor
    · rintro ⟨_, cs, numbers, -⟩
      exact ⟨cs, numbers⟩
    · rintro ⟨cs, numbers⟩
      exact ⟨_, cs, numbers, rfl⟩
  · intro bs packed
    exact unpack_characters_iff.mpr (pack_characters_iff.mp packed)

/-- A letter with an accent and the sign of a currency, in two and three bytes. -/
theorem characters_iff_wellFormed_two_and_three :
    Utf8.CodePoints [0xC3, 0xA9, 0xE2, 0x82, 0xAC] [0xE9, 0x20AC] ∧
      unpack "U*" [0xC3, 0xA9, 0xE2, 0x82, 0xAC] = .ok [.integer 0xE9, .integer 0x20AC] ∧
      pack "U*" [.integer 0xE9, .integer 0x20AC] = .ok [0xC3, 0xA9, 0xE2, 0x82, 0xAC] := by
  have points : Utf8.CodePoints [0xC3, 0xA9, 0xE2, 0x82, 0xAC] [0xE9, 0x20AC] :=
    Utf8.codePoints_iff.mpr ⟨['é', '€'], rfl, rfl⟩
  obtain ⟨-, reads, -, writes⟩ :=
    characters_iff_wellFormed [0xC3, 0xA9, 0xE2, 0x82, 0xAC] [0xE9, 0x20AC]
  obtain ⟨-, written⟩ := reads _ points
  exact ⟨points, writes _ written, written⟩

end DirectivePack
