import Mathlib.Data.List.Forall2
import DirectivePack.Proofs.Field.TwosComplement
import DirectivePack.Proofs.Program.Repetition

/-!
Integers under their directives, in two's complement.

An integer directive of width `w` accepts the signed and the unsigned range of `w` bytes alike, so
two integers may be written to the same bytes.  What is read from these is the one of them that is in
the range of the directive's own sign.

* `Operation.encodeEach_integers_eq_ok_iff`, `Operation.encodeEach_integers_eq_error_iff`: a row of
  integers is written field by field, or the first one out of range is rejected.
* `flatMap_putInteger_eq_iff`: two rows have the same bytes iff they are congruent one by one.
* `Operation.unpack_integers`: each field is read as the integer of the range that has its pattern.
* `integers_in_twos_complement`: all of it, for fields of up to eight bytes and for every integer
  directive with its modifiers and counts.
-/

namespace DirectivePack

open DirectivePack.Field

/-! ### Rows of fields -/

theorem length_flatMap_putInteger (width : Nat) (order : ByteOrder) (ns : List Int) :
    (ns.flatMap (putInteger width order)).length = width * ns.length :=
  length_flatMap_uniform (length_putInteger width order) ns

/-- Two rows of integers have the same bytes iff they have the same patterns one by one. -/
theorem flatMap_putInteger_eq_iff {width : Nat} (positive : 0 < width) (order : ByteOrder)
    {ms ns : List Int} :
    ms.flatMap (putInteger width order) = ns.flatMap (putInteger width order) ↔
      List.Forall₂ (fun m n => m % (Nat.pow 2 (8 * width) : Int) = n % (Nat.pow 2 (8 * width) : Int))
        ms ns := by
  constructor
  · intro same
    have lengths : ms.length = ns.length := by
      have total := congrArg List.length same
      rw [length_flatMap_putInteger, length_flatMap_putInteger] at total
      exact Nat.eq_of_mul_eq_mul_left positive total
    induction ms generalizing ns with
    | nil =>
      rw [List.eq_nil_of_length_eq_zero lengths.symm]
      exact .nil
    | cons m ms ih =>
      cases ns with
      | nil => cases lengths
      | cons n ns =>
        rw [List.flatMap_cons, List.flatMap_cons] at same
        obtain ⟨field, others⟩ := List.append_inj same (by simp)
        exact .cons ((putInteger_eq_iff ..).mp field) (ih others (Nat.succ.inj lengths))
  · intro congruent
    induction congruent with
    | nil => rfl
    | cons first _ ih =>
      rw [List.flatMap_cons, List.flatMap_cons, ih, (putInteger_eq_iff ..).mpr first]

namespace Operation

variable {op : Operation} (encoding : op.directive.encoding = .integer)

include encoding

/-- An integer is written if it fits, and rejected with its range if it does not. -/
theorem encodeValue_integer_eq (n : Int) :
    op.encodeValue (.integer n) =
      if fits op.width n then .ok (putInteger op.width op.order n)
      else .error (.unencodable op.letter (.outOfRange n op.width)) := by
  simp only [encodeValue, encoding, withInteger, Value.asInteger?, encodeInteger]
  split <;> rfl

theorem encodeEach_integers_eq_ok_iff {ns : List Int} {bs : Bytes} :
    encodeEach op.encodeValue (ns.map .integer) = .ok bs ↔
      (∀ n ∈ ns, fits op.width n = true) ∧ bs = ns.flatMap (putInteger op.width op.order) :=
  encodeEach_map_eq_ok_iff (encodeValue_integer_eq encoding)

/-- The first integer that does not fit is rejected. -/
theorem encodeEach_integers_eq_error_iff {ns : List Int} {fault : Fault} :
    encodeEach op.encodeValue (ns.map .integer) = .error fault ↔
      ∃ before n after, ns = before ++ n :: after ∧ (∀ m ∈ before, fits op.width m = true) ∧
        fits op.width n = false ∧ fault = .unencodable op.letter (.outOfRange n op.width) := by
  rw [encodeEach_map_eq_error_iff (encodeValue_integer_eq encoding)]
  simp only [Bool.not_eq_true]

omit encoding in
/-- A field that was written is read as the integer of the range that has its pattern. -/
theorem readInteger_putInteger_append (positive : 0 < op.width) (n : Int) (tail : Bytes) :
    op.readInteger (putInteger op.width op.order n ++ tail) =
      .ok (.integer (wrapped op.signed op.width n), tail) := by
  rw [readInteger_eq_ok_iff]
  refine ⟨_, rfl, length_putInteger .., ?_⟩
  rw [getInteger_putInteger_eq_wrapped op.signed positive]

/-- The bytes of integers are unpacked to as many integers, whether they were counted or not. -/
theorem unpack_integers (positive : 0 < op.width) {ns : List Int}
    (all : op.count.resolve ns.length = ns.length) :
    op.unpack (ns.flatMap (putInteger op.width op.order)) =
      .ok (ns.map fun n => .integer (wrapped op.signed op.width n), []) := by
  have numeric : op.directive.encoding.isFixedWidthNumeric = true := by rw [encoding]; rfl
  rw [unpack_fields numeric (length_putInteger op.width op.order) positive all]
  simp only [numberOf, encoding, reduceCtorEq, if_false,
    getInteger_putInteger_eq_wrapped op.signed positive]

end Operation

theorem map_wrapped_eq_iff {signed : Bool} {width : Nat} (positive : 0 < width) {ns : List Int} :
    (ns.map fun n => Value.integer (wrapped signed width n)) = ns.map .integer ↔
      ∀ n ∈ ns, InRange signed width n := by
  simp only [List.map_inj_left, Value.integer.injEq, wrapped_eq_self_iff signed positive]

/-! ### Directive strings -/

section Token

variable {d : Directive} (in_table : d ∈ Directive.table) (integer : d.encoding = .integer)
  {marks : List Char} (allowed : MarksAllowed d.letter marks) {count : Count}
  (count_le : ∀ k, count = .times k → k ≤ Count.greatest)

include in_table integer allowed count_le

theorem pack_integers {ns : List Int} (all : count.resolve ns.length = ns.length) :
    pack (d.token marks count) (ns.map .integer) =
      encodeEach (d.operation marks .once).encodeValue (ns.map .integer) := by
  have repeats : d.encoding.repeats = true := by rw [integer]; rfl
  apply pack_token in_table allowed count count_le repeats
  rwa [List.length_map]

theorem unpack_packed_integers {ns : List Int} (all : count.resolve ns.length = ns.length) :
    unpack (d.token marks count)
        (ns.flatMap (putInteger (d.operation marks .once).width (d.operation marks .once).order)) =
      .ok (ns.map fun n => .integer (wrapped d.signed (d.operation marks .once).width n)) := by
  have wellFormed : (d.operation marks count).WellFormed :=
    (spells_of_parse (parse_token in_table allowed count count_le)).wellFormed _ (.head _)
  have encoding : (d.operation marks count).directive.encoding = .integer := integer
  have positive := wellFormed.width_pos (by rw [encoding]; rfl)
  exact unpack_token_eq_ok in_table allowed count count_le
    (Operation.unpack_integers encoding positive all)

end Token

/-- **Integers in two's complement.** A field of at most eight bytes holds the base-256 digits of the
pattern of an integer, and these are the low bytes of its word.  It is read as the integer with that
pattern in the range of the sign, and with a sign that is what shifting to the high end of a word and
back gives.

A directive rejects the first integer out of the joint range of both signs.  Two rows of integers
that it accepts have the same bytes iff they are congruent one by one, and a row is unpacked again
iff all of it is in the range of the directive's own sign. -/
theorem integers_in_twos_complement :
    (∀ (width : Nat) (order : ByteOrder) (n : Int), 1 ≤ width → width ≤ 8 →
      (putInteger width order n).length = width ∧
      (∀ i < width, ∃ b, (putInteger width order n)[i]? = some b ∧
        (b.toNat : Int) = n % (Nat.pow 2 (8 * width) : Int) /
          (Nat.pow 256 (exponent order width i) : Int) % 256) ∧
      putInteger width .big n = (putInteger width .little n).reverse ∧
      putInteger width .native n = putInteger width .little n ∧
      putInteger width order n = order.arrange (digits width (BitVec.ofInt 64 n).toNat) ∧
      (fits width n = true ↔
        -(Nat.pow 2 (8 * width - 1) : Int) ≤ n ∧ n ≤ (Nat.pow 2 (8 * width) : Int) - 1) ∧
      (∀ (op : Operation) (tail : Bytes), op.width = width → op.order = order →
        op.readInteger (putInteger width order n ++ tail) =
          .ok (.integer (wrapped op.signed width n), tail)) ∧
      ∀ field : Bytes, field.length = width →
        getInteger true order field =
          ((BitVec.ofNat 64 (value (order.arrange field)) <<< (64 - 8 * width)).sshiftRight
            (64 - 8 * width)).toInt) ∧
    ∀ (d : Directive) (marks : List Char) (count : Count), d ∈ Directive.table →
      d.encoding = .integer → MarksAllowed d.letter marks →
      (∀ k, count = .times k → k ≤ Count.greatest) →
      ∀ (width : Nat) (order : ByteOrder) (ns : List Int), (d.operation marks .once).width = width →
        (d.operation marks .once).order = order → count.resolve ns.length = ns.length →
        (∀ fault, pack (d.token marks count) (ns.map .integer) = .error fault ↔
          ∃ before n after, ns = before ++ n :: after ∧ (∀ m ∈ before, fits width m = true) ∧
            fits width n = false ∧ fault = .unencodable d.letter (.outOfRange n width)) ∧
        ∀ bs, pack (d.token marks count) (ns.map .integer) = .ok bs →
          bs = ns.flatMap (putInteger width order) ∧
          (∀ ms : List Int, count.resolve ms.length = ms.length →
            (pack (d.token marks count) (ms.map .integer) = .ok bs ↔
              (∀ m ∈ ms, fits width m = true) ∧
                List.Forall₂ (fun m n =>
                  m % (Nat.pow 2 (8 * width) : Int) = n % (Nat.pow 2 (8 * width) : Int)) ms ns)) ∧
          (unpack (d.token marks count) bs = .ok (ns.map .integer) ↔
            ∀ n ∈ ns, InRange d.signed width n) := by
  constructor
  · intro width order n positive narrow
    refine ⟨length_putInteger .., fun i inside => getElem?_putInteger order n inside,
      putInteger_big .., rfl, putInteger_eq_word narrow order n, fits_iff width n, ?_, ?_⟩
    · rintro op tail rfl rfl
      exact Operation.readInteger_putInteger_append positive n tail
    · rintro field rfl
      exact getInteger_eq_word order positive narrow
  · intro d marks count in_table integer allowed count_le width order ns is_width is_order all
    subst is_width is_order
    have encoding : (d.operation marks .once).directive.encoding = .integer := integer
    have wellFormed : (d.operation marks .once).WellFormed :=
      (spells_of_parse (parse_token in_table allowed .once nofun)).wellFormed _ (.head _)
    have positive := wellFormed.width_pos (by rw [encoding]; rfl)
    constructor
    · intro fault
      rw [pack_integers in_table integer allowed count_le all]
      exact Operation.encodeEach_integers_eq_error_iff encoding
    · intro bs packed
      rw [pack_integers in_table integer allowed count_le all] at packed
      obtain ⟨-, rfl⟩ := (Operation.encodeEach_integers_eq_ok_iff encoding).mp packed
      refine ⟨rfl, ?_, ?_⟩
      · intro ms all_ms
        rw [pack_integers in_table integer allowed count_le all_ms,
          Operation.encodeEach_integers_eq_ok_iff encoding, ← flatMap_putInteger_eq_iff positive]
        exact and_congr_right fun _ => eq_comm
      · rw [unpack_packed_integers in_table integer allowed count_le all, Except.ok.injEq]
        exact map_wrapped_eq_iff positive

/-- A field of three bytes, and three big-endian shorts of which two have one pattern: the greater of
these is out of the signed range and comes back as the other one. -/
theorem integers_in_twos_complement_of_shorts :
    putInteger 3 .big (-2) = [0xFF, 0xFF, 0xFE] ∧
      (∃ b, (putInteger 3 .big (-2))[0]? = some b ∧ (b.toNat : Int) = -2 % 16777216 / 65536 % 256) ∧
      pack "s>*" [.integer 65535, .integer 7] = .ok [0xFF, 0xFF, 0, 7] ∧
      pack "s>*" [.integer (-1), .integer 7] = .ok [0xFF, 0xFF, 0, 7] ∧
      unpack "s>*" [0xFF, 0xFF, 0, 7] = .ok [.integer (-1), .integer 7] ∧
      unpack "s>*" [0xFF, 0xFF, 0, 7] ≠ .ok [.integer 65535, .integer 7] ∧
      pack "s>*" [.integer 7, .integer 65536] = .error (.unencodable 's' (.outOfRange 65536 2)) := by
  obtain ⟨fields, directives⟩ := integers_in_twos_complement
  have short : Directive.hostInteger 's' 2 2 true "signed 16-bit integer" ∈ Directive.table := by
    decide
  have big : MarksAllowed 's' ['>'] :=
    ⟨by simp [modifierMarks], by simp [markedLetters], by simp⟩
  obtain ⟨-, byte, -⟩ := fields 3 .big (-2) (by decide) (by decide)
  have star_le : ∀ k, Count.all = .times k → k ≤ Count.greatest := by
    rintro k ⟨⟩
  have rows := fun ns => directives _ ['>'] .all short rfl big star_le 2 .big ns rfl rfl rfl
  have packed : pack "s>*" [.integer 65535, .integer 7] = .ok [0xFF, 0xFF, 0, 7] := rfl
  obtain ⟨-, same, read⟩ := (rows [65535, 7]).2 _ packed
  have other : pack "s>*" [.integer (-1), .integer 7] = .ok [0xFF, 0xFF, 0, 7] :=
    (same [-1, 7] rfl).mpr ⟨by decide, .cons (by decide) (.cons rfl .nil)⟩
  refine ⟨rfl, byte 0 (by decide), packed, other, ?_, ?_, ?_⟩
  · obtain ⟨-, -, read_other⟩ := (rows [-1, 7]).2 _ other
    exact read_other.mpr (by simp [InRange, Directive.hostInteger])
  · intro back
    have inRange := read.mp back
    simp [InRange, Directive.hostInteger] at inRange
  · exact ((rows [7, 65536]).1 _).mpr ⟨[7], 65536, [], rfl, by decide, by decide, rfl⟩

end DirectivePack
