import Mathlib.Data.List.Forall2
import DirectivePack.Proofs.Field.Word
import DirectivePack.Proofs.Float.Conversions
import DirectivePack.Proofs.Program.Repetition

/-!
Doubles and integers under the directives for numbers of floating point.

* `putFloat_of_narrow?`, `getFloat_arrange`: a field of four bytes holds the pattern of a single.
* `Operation.encodeEach_floats_eq_ok_iff`, `Operation.encodeEach_floats_eq_error_iff`: a row of
  doubles is written field by field, or the first one out of range is rejected.
* `singles_nearest`: what is written to four bytes is the nearest single.
* `integers_as_floats`: an integer is written as the nearest double, or the single of that.
-/

namespace DirectivePack

open DirectivePack.Field

/-! ### Fields -/

namespace Field

theorem putFloat_of_narrow? (order : ByteOrder) {x : Binary64} {pattern : Nat}
    (narrowed : x.narrow? = some pattern) :
    putFloat 4 order x = order.arrange (digits 4 pattern) := by
  rw [putFloat, if_pos rfl, Binary64.narrow_eq_of_narrow? narrowed]

theorem getFloat_arrange (order : ByteOrder) {pattern : Nat} (small : pattern < 2 ^ 32) :
    getFloat order (order.arrange (digits 4 pattern)) = .widen pattern := by
  have same : pattern % Nat.pow 256 4 = pattern := Nat.mod_eq_of_lt small
  simp [getFloat, value_digits, same]

/-- Doubles in range are written as the fields of the patterns that they become. -/
theorem flatMap_putFloat_of_narrow? (order : ByteOrder) {xs : List Binary64} {patterns : List Nat}
    (narrowed : xs.map Binary64.narrow? = patterns.map some) :
    xs.flatMap (putFloat 4 order) =
      patterns.flatMap fun pattern => order.arrange (digits 4 pattern) := by
  induction xs generalizing patterns with
  | nil =>
    cases patterns with
    | nil => rfl
    | cons pattern patterns => cases narrowed
  | cons x xs ih =>
    cases patterns with
    | nil => cases narrowed
    | cons pattern patterns =>
      rw [List.map_cons, List.map_cons, List.cons.injEq] at narrowed
      rw [List.flatMap_cons, List.flatMap_cons, putFloat_of_narrow? order narrowed.1,
        ih narrowed.2]

end Field

theorem Binary64.map_narrow?_eq_map_some_iff {xs : List Binary64} :
    (∃ patterns : List Nat, xs.map narrow? = patterns.map some) ↔ ∀ x ∈ xs, x.narrow? ≠ none := by
  constructor
  · rintro ⟨patterns, narrowed⟩ x member beyond
    have found := List.mem_map_of_mem (f := narrow?) member
    rw [narrowed, beyond] at found
    simp at found
  · intro inside
    refine ⟨xs.map narrow, ?_⟩
    rw [List.map_map]
    apply List.map_congr_left
    intro x member
    obtain ⟨pattern, narrowed⟩ := Option.ne_none_iff_exists'.mp (inside x member)
    rw [Function.comp_apply, narrow_eq_of_narrow? narrowed, narrowed]

/-! ### Rows of fields -/

namespace Operation

variable {op : Operation} (encoding : op.directive.encoding = .float)

include encoding

/-- Under a directive for numbers of floating point, an integer is the nearest double. -/
theorem encodeValue_integer_eq_float (n : Int) :
    op.encodeValue (.integer n) = op.encodeValue (.float (.ofInt n)) := by
  simp only [encodeValue, encoding, withFloat, Value.asFloat?]

theorem encodeEach_integers_eq_floats (ns : List Int) :
    encodeEach op.encodeValue (ns.map .integer) =
      encodeEach op.encodeValue ((ns.map Binary64.ofInt).map .float) := by
  induction ns with
  | nil => rfl
  | cons n ns ih =>
    rw [List.map_cons, List.map_cons, List.map_cons, encodeEach, encodeEach, ih,
      encodeValue_integer_eq_float encoding]

/-- A double is written, unless it is beyond the range of the singles that are asked for. -/
theorem encodeValue_float_eq (x : Binary64) :
    op.encodeValue (.float x) =
      if op.width = 4 → x.narrow? ≠ none then .ok (putFloat op.width op.order x)
      else .error (.unencodable op.letter (.outOfSingleRange x)) := by
  simp only [encodeValue, encoding, withFloat, Value.asFloat?, encodeFloat]
  by_cases beyond : op.width = 4 ∧ x.narrow? = none
  · rw [if_pos beyond, if_neg (by simpa using beyond)]
    rfl
  · rw [if_neg beyond, if_pos (by simpa using beyond)]
    rfl

theorem encodeEach_floats_eq_ok_iff {xs : List Binary64} {bs : Bytes} :
    encodeEach op.encodeValue (xs.map .float) = .ok bs ↔
      (∀ x ∈ xs, op.width = 4 → x.narrow? ≠ none) ∧ bs = xs.flatMap (putFloat op.width op.order) :=
  encodeEach_map_eq_ok_iff (encodeValue_float_eq encoding)

/-- The first double beyond the range of singles is rejected. -/
theorem encodeEach_floats_eq_error_iff {xs : List Binary64} {fault : Fault} :
    encodeEach op.encodeValue (xs.map .float) = .error fault ↔
      ∃ before x after, xs = before ++ x :: after ∧
        (∀ y ∈ before, op.width = 4 → y.narrow? ≠ none) ∧ (op.width = 4 ∧ x.narrow? = none) ∧
        fault = .unencodable op.letter (.outOfSingleRange x) := by
  rw [encodeEach_map_eq_error_iff (encodeValue_float_eq encoding)]
  simp only [Classical.not_imp, not_not]

/-- Doubles are written as the patterns of singles if all of them are in range. -/
theorem encodeEach_singles_eq_ok_iff (width : op.width = 4) {xs : List Binary64} {bs : Bytes} :
    encodeEach op.encodeValue (xs.map .float) = .ok bs ↔
      ∃ patterns : List Nat, xs.map Binary64.narrow? = patterns.map some ∧
        bs = patterns.flatMap fun pattern => op.order.arrange (digits 4 pattern) := by
  rw [encodeEach_floats_eq_ok_iff encoding]
  simp only [width, true_imp_iff]
  constructor
  · rintro ⟨inside, rfl⟩
    obtain ⟨patterns, narrowed⟩ := Binary64.map_narrow?_eq_map_some_iff.mpr inside
    exact ⟨patterns, narrowed, flatMap_putFloat_of_narrow? op.order narrowed⟩
  · rintro ⟨patterns, narrowed, rfl⟩
    exact ⟨Binary64.map_narrow?_eq_map_some_iff.mp ⟨patterns, narrowed⟩,
      (flatMap_putFloat_of_narrow? op.order narrowed).symm⟩

/-- Fields of patterns are unpacked to the doubles of these singles. -/
theorem unpack_singles (width : op.width = 4) {patterns : List Nat}
    (small : ∀ pattern ∈ patterns, pattern < 2 ^ 32)
    (all : op.count.resolve patterns.length = patterns.length) :
    op.unpack (patterns.flatMap fun pattern => op.order.arrange (digits 4 pattern)) =
      .ok ((patterns.map Binary64.widen).map .float, []) := by
  have numeric : op.directive.encoding.isFixedWidthNumeric = true := by rw [encoding]; rfl
  have uniform (pattern : Nat) : (op.order.arrange (digits 4 pattern)).length = op.width := by
    rw [ByteOrder.length_arrange, digits_length, width]
  rw [unpack_fields numeric uniform (by rw [width]; decide) all, List.map_map]
  have numbers : ∀ pattern ∈ patterns,
      op.numberOf (op.order.arrange (digits 4 pattern)) = .float (.widen pattern) := by
    intro pattern member
    rw [numberOf, if_pos encoding, getFloat_arrange op.order (small pattern member)]
  rw [List.map_congr_left numbers]
  rfl

/-- Fields of doubles are unpacked to these. -/
theorem unpack_doubles (width : op.width = 8) {xs : List Binary64}
    (all : op.count.resolve xs.length = xs.length) :
    op.unpack (xs.flatMap (putFloat 8 op.order)) = .ok (xs.map .float, []) := by
  have numeric : op.directive.encoding.isFixedWidthNumeric = true := by rw [encoding]; rfl
  have uniform (x : Binary64) : (putFloat 8 op.order x).length = op.width := by
    rw [length_putFloat, width]
  rw [unpack_fields numeric uniform (by rw [width]; decide) all]
  simp only [numberOf, encoding, if_true, getFloat_putFloat]

end Operation

/-! ### Directive strings -/

theorem Directive.float_widths : ∀ d ∈ table, d.encoding = .float → d.width = 4 ∨ d.width = 8 := by
  decide

section Token

variable {d : Directive} (in_table : d ∈ Directive.table) (float : d.encoding = .float)
  {count : Count} (count_le : ∀ k, count = .times k → k ≤ Count.greatest)

include in_table float count_le

theorem pack_floats {xs : List Binary64} (all : count.resolve xs.length = xs.length) :
    pack (d.token [] count) (xs.map .float) =
      encodeEach (d.operation [] .once).encodeValue (xs.map .float) := by
  have repeats : d.encoding.repeats = true := by rw [float]; rfl
  apply pack_token in_table (.nil d.letter) count count_le repeats
  rwa [List.length_map]

theorem unpack_packed_singles (width : d.width = 4) {patterns : List Nat}
    (small : ∀ pattern ∈ patterns, pattern < 2 ^ 32)
    (all : count.resolve patterns.length = patterns.length) :
    unpack (d.token [] count) (patterns.flatMap fun pattern => d.order.arrange (digits 4 pattern)) =
      .ok ((patterns.map Binary64.widen).map .float) :=
  unpack_token_eq_ok in_table (.nil d.letter) count count_le
    (@Operation.unpack_singles (d.operation [] count) float width patterns small all)

/-- Doubles in range are written as singles, and read as the doubles of these. -/
theorem pack_and_unpack_singles (width : d.width = 4) {xs : List Binary64}
    (all : count.resolve xs.length = xs.length)
    (inside : ∀ x ∈ xs, x.narrow? = some x.narrow ∧ x.narrow < 2 ^ 32) :
    ∃ bs, pack (d.token [] count) (xs.map .float) = .ok bs ∧
      unpack (d.token [] count) bs = .ok ((xs.map fun x => .widen x.narrow).map .float) := by
  have op_width : (d.operation [] .once).width = 4 := width
  have narrowed : xs.map Binary64.narrow? = (xs.map Binary64.narrow).map some := by
    rw [List.map_map]
    apply List.map_congr_left
    intro x member
    exact (inside x member).1
  have small : ∀ pattern ∈ xs.map Binary64.narrow, pattern < 2 ^ 32 := by
    rw [List.forall_mem_map]
    intro x member
    exact (inside x member).2
  refine ⟨(xs.map Binary64.narrow).flatMap fun pattern => d.order.arrange (digits 4 pattern),
    ?_, ?_⟩
  · rw [pack_floats in_table float count_le all,
      Operation.encodeEach_singles_eq_ok_iff float op_width]
    exact ⟨_, narrowed, rfl⟩
  · rw [unpack_packed_singles in_table float count_le width small (by rwa [List.length_map])]
    simp only [List.map_map]
    rfl

/-- Doubles are written and read as they are. -/
theorem pack_and_unpack_doubles (width : d.width = 8) {xs : List Binary64}
    (all : count.resolve xs.length = xs.length) :
    pack (d.token [] count) (xs.map .float) = .ok (xs.flatMap (putFloat 8 d.order)) ∧
      unpack (d.token [] count) (xs.flatMap (putFloat 8 d.order)) = .ok (xs.map .float) := by
  have op_width : (d.operation [] .once).width = 8 := width
  constructor
  · rw [pack_floats in_table float count_le all,
      Operation.encodeEach_floats_eq_ok_iff float, op_width]
    exact ⟨fun _ _ single => absurd single (by decide), rfl⟩
  · exact unpack_token_eq_ok in_table (.nil d.letter) count count_le
      (@Operation.unpack_doubles (d.operation [] count) float width xs all)

/-- Integers are packed like the doubles nearest to them. -/
theorem pack_integers_eq_pack_floats {ns : List Int} (all : count.resolve ns.length = ns.length) :
    pack (d.token [] count) (ns.map .integer) =
      pack (d.token [] count) ((ns.map Binary64.ofInt).map .float) := by
  have repeats : d.encoding.repeats = true := by rw [float]; rfl
  rw [pack_floats in_table float count_le (by rwa [List.length_map]),
    pack_token in_table (.nil d.letter) count count_le repeats (by rwa [List.length_map]),
    Operation.encodeEach_integers_eq_floats float]

end Token

/-- **Doubles as singles.** A double is beyond the range of singles if it is a number from halfway
between the greatest single and `2 ^ 128` on.  Any other number has one single that is nearest to it
and has its sign, an even one if two are nearest, and an infinite double has the infinite single of
its sign.

A directive of four bytes rejects the first double beyond the range; otherwise it writes each single,
as the pattern that stands for it, in its order.  Patterns of singles that are no NaNs are unpacked to
doubles that are packed to the same bytes. -/
theorem singles_nearest :
    (∀ x : Binary64, x.isNaN = false →
      (x.narrow? = none ↔ ∃ q, x.number? = some q ∧ 2 ^ 128 - 2 ^ 103 ≤ |q|) ∧
      (∀ q, x.number? = some q → |q| < 2 ^ 128 - 2 ^ 103 → ∀ pattern,
        x.narrow? = some pattern ↔ pattern < 2 ^ 32 ∧
          (FloatFormat.binary32.decode pattern).negative = x.datum.negative ∧
          FloatFormat.binary32.IsNearest q pattern) ∧
      ∀ negative, x.datum = .infinite negative → ∀ pattern,
        x.narrow? = some pattern ↔
          pattern < 2 ^ 32 ∧ FloatFormat.binary32.decode pattern = .infinite negative) ∧
    ∀ (d : Directive) (count : Count), d ∈ Directive.table → d.encoding = .float → d.width = 4 →
      (∀ k, count = .times k → k ≤ Count.greatest) →
      (∀ xs : List Binary64, count.resolve xs.length = xs.length →
        (∀ bs, pack (d.token [] count) (xs.map .float) = .ok bs ↔
          ∃ patterns : List Nat, xs.map Binary64.narrow? = patterns.map some ∧
            bs = patterns.flatMap fun pattern => d.order.arrange (digits 4 pattern)) ∧
        ∀ fault, pack (d.token [] count) (xs.map .float) = .error fault ↔
          ∃ before x after, xs = before ++ x :: after ∧ (∀ y ∈ before, y.narrow? ≠ none) ∧
            x.narrow? = none ∧ fault = .unencodable d.letter (.outOfSingleRange x)) ∧
      ∀ patterns : List Nat, count.resolve patterns.length = patterns.length →
        (∀ pattern ∈ patterns, pattern < 2 ^ 32 ∧
          ∀ negative payload, FloatFormat.binary32.decode pattern ≠ .nan negative payload) →
        ∀ bs, bs = patterns.flatMap (fun pattern => d.order.arrange (digits 4 pattern)) →
          ∃ xs : List Binary64, unpack (d.token [] count) bs = .ok (xs.map .float) ∧
            pack (d.token [] count) (xs.map .float) = .ok bs := by
  constructor
  · intro x not_nan
    refine ⟨Binary64.narrow?_eq_none_iff not_nan, ?_, ?_⟩
    · intro q is_number inside pattern
      exact Binary64.narrow?_eq_some_iff is_number inside
    · intro negative infinite pattern
      exact Binary64.narrow?_eq_some_iff_of_infinite infinite
  · intro d count in_table float width count_le
    have op_width : (d.operation [] .once).width = 4 := width
    refine ⟨fun xs all => ⟨fun bs => ?_, fun fault => ?_⟩, ?_⟩
    · rw [pack_floats in_table float count_le all]
      exact Operation.encodeEach_singles_eq_ok_iff float op_width
    · rw [pack_floats in_table float count_le all, Operation.encodeEach_floats_eq_error_iff float]
      simp only [op_width, true_imp_iff, true_and]
      rfl
    · rintro patterns all singles bs rfl
      have small := fun pattern member => (singles pattern member).1
      refine ⟨_, unpack_packed_singles in_table float count_le width small all, ?_⟩
      rw [pack_floats in_table float count_le (by rwa [List.length_map])]
      refine (Operation.encodeEach_singles_eq_ok_iff float op_width).mpr ⟨patterns, ?_, rfl⟩
      rw [List.map_map]
      apply List.map_congr_left
      intro pattern member
      exact Binary64.narrow?_widen (small pattern member) (singles pattern member).2

/-- The least double beyond the range, the greatest one inside it, a tie between two singles, the
negative zero and infinity, and the least positive single. -/
theorem singles_nearest_at_the_edges :
    pack "f" [.float ⟨0x47EFFFFFF0000000⟩] =
        .error (.unencodable 'f' (.outOfSingleRange ⟨0x47EFFFFFF0000000⟩)) ∧
      pack "g*" [.float ⟨0x47EFFFFFEFFFFFFF⟩, .float ⟨0x3FF0000010000000⟩,
          .float ⟨0x8000000000000000⟩, .float ⟨0xFFF0000000000000⟩] =
        .ok [0x7F, 0x7F, 0xFF, 0xFF, 0x3F, 0x80, 0, 0, 0x80, 0, 0, 0, 0xFF, 0x80, 0, 0] ∧
      FloatFormat.binary32.IsNearest (1 + 2 ^ (-24 : Int)) 0x3F800000 ∧
      FloatFormat.binary32.decode 0xFF800000 = .infinite true ∧
      ∃ xs : List Binary64, unpack "e" [1, 0, 0, 0] = .ok (xs.map .float) ∧
        pack "e" (xs.map .float) = .ok [1, 0, 0, 0] := by
  obtain ⟨conversions, directives⟩ := singles_nearest
  have native : Directive.floating 'f' 4 .native "single precision, native order" ∈
      Directive.table := by decide
  have little : Directive.floating 'e' 4 .little "single precision, little-endian" ∈
      Directive.table := by decide
  have big : Directive.floating 'g' 4 .big "single precision, big-endian" ∈ Directive.table := by
    decide
  have star_le : ∀ k, Count.all = .times k → k ≤ Count.greatest := by
    rintro k ⟨⟩
  obtain ⟨rejects, -⟩ := directives _ .once native rfl rfl nofun
  obtain ⟨writes, -⟩ := directives _ .all big rfl rfl star_le
  obtain ⟨-, restores⟩ := directives _ .once little rfl rfl nofun
  refine ⟨?_, ?_, ?_, ?_, ?_⟩
  · exact ((rejects [⟨0x47EFFFFFF0000000⟩] rfl).2 _).mpr ⟨[], _, [], rfl, by simp, by decide, rfl⟩
  · exact ((writes [⟨0x47EFFFFFEFFFFFFF⟩, ⟨0x3FF0000010000000⟩, ⟨0x8000000000000000⟩,
      ⟨0xFFF0000000000000⟩] rfl).1 _).mpr
        ⟨[0x7F7FFFFF, 0x3F800000, 0x80000000, 0xFF800000], by decide, by decide⟩
  · have decoded : Binary64.datum ⟨0x3FF0000010000000⟩ = .finite false 4503599895805952 (-52) := by
      decide
    have number : Binary64.number? ⟨0x3FF0000010000000⟩ = some (1 + 2 ^ (-24 : Int)) := by
      rw [Binary64.number?, decoded, FloatDatum.number?, signed_false]
      norm_num
    have inside : |(1 + 2 ^ (-24 : Int) : ℚ)| < 2 ^ 128 - 2 ^ 103 := by norm_num
    obtain ⟨-, nearest, -⟩ := conversions ⟨0x3FF0000010000000⟩ (by decide)
    exact ((nearest _ number inside _).mp (by decide)).2.2
  · obtain ⟨-, -, infinite⟩ := conversions ⟨0xFFF0000000000000⟩ (by decide)
    exact ((infinite true (by decide) _).mp (by decide)).2
  · have least : FloatFormat.binary32.decode 1 = .finite false 1 (-149) := by decide
    refine restores [1] rfl ?_ _ rfl
    rintro _ (_ | ⟨_, ⟨⟩⟩)
    exact ⟨by decide, fun _ _ is_nan => by cases least.symm.trans is_nan⟩

/-- **Integers under directives for numbers of floating point.** Integers of 128 bits are packed like
the doubles nearest to them, and never rejected.  A directive of eight bytes writes the patterns of
these doubles.  What is unpacked is the integer itself if its significant bits fit into the double, or
into the single under a directive of four bytes. -/
theorem integers_as_floats {d : Directive} (in_table : d ∈ Directive.table)
    (float : d.encoding = .float) {count : Count}
    (count_le : ∀ k, count = .times k → k ≤ Count.greatest) {ns : List Int}
    (all : count.resolve ns.length = ns.length)
    (bounded : ∀ n ∈ ns, -(2 ^ 127) ≤ n ∧ n < 2 ^ 127) :
    ∃ (doubles read : List Binary64) (bs : Bytes),
      List.Forall₂ (fun (n : Int) x => FloatFormat.binary64.IsNearest n x.bits.toNat ∧
        x.datum.negative = decide (n < 0)) ns doubles ∧
      pack (d.token [] count) (ns.map .integer) = .ok bs ∧
      pack (d.token [] count) (doubles.map .float) = .ok bs ∧
      (d.width = 8 → bs = doubles.flatMap fun x => d.order.arrange (digits 8 x.bits.toNat)) ∧
      unpack (d.token [] count) bs = .ok (read.map .float) ∧
      List.Forall₂ (fun (n : Int) x => ∀ m k : Int, (n : ℚ) = m * 2 ^ k →
        m.natAbs ≤ (if d.width = 8 then 2 ^ 53 else 2 ^ 24) → x.number? = some (n : ℚ)) ns read := by
  have bound : ∀ n ∈ ns, n.natAbs ≤ 2 ^ 127 := by
    intro n member
    have := bounded n member
    omega
  have all_doubles :
      count.resolve (ns.map Binary64.ofInt).length = (ns.map Binary64.ofInt).length := by
    rwa [List.length_map]
  have nearest : List.Forall₂ (fun (n : Int) x => FloatFormat.binary64.IsNearest n x.bits.toNat ∧
      x.datum.negative = decide (n < 0)) ns (ns.map Binary64.ofInt) := by
    rw [List.forall₂_map_right_iff, List.forall₂_same]
    intro n member
    exact Binary64.isNearest_ofInt (bound n member)
  rw [pack_integers_eq_pack_floats in_table float count_le all]
  rcases Directive.float_widths d in_table float with width | width
  · have inside : ∀ x ∈ ns.map Binary64.ofInt, x.narrow? = some x.narrow ∧ x.narrow < 2 ^ 32 := by
      rw [List.forall_mem_map]
      intro n member
      exact Binary64.narrow?_ofInt (bound n member)
    obtain ⟨bs, packed, unpacked⟩ :=
      pack_and_unpack_singles in_table float count_le width all_doubles inside
    have single : d.width ≠ 8 := by rw [width]; decide
    refine ⟨_, _, bs, nearest, packed, packed, fun double => absurd double single, unpacked, ?_⟩
    rw [List.map_map, List.forall₂_map_right_iff, List.forall₂_same, if_neg single]
    intro n member m k multiple few
    exact Binary64.number?_widen_narrow_ofInt (bound n member) multiple few
  · obtain ⟨packed, unpacked⟩ := pack_and_unpack_doubles in_table float count_le width all_doubles
    refine ⟨_, _, _, nearest, packed, packed, fun _ => rfl, unpacked, ?_⟩
    rw [List.forall₂_map_right_iff, List.forall₂_same, if_pos width]
    intro n member m k multiple few
    exact Binary64.number?_ofInt (bound n member) multiple few

/-- The least and the greatest integer: the greatest one is rounded up, and the least one is a power of
two, which comes back. -/
theorem integers_as_floats_of_the_extremes :
    pack "G" [.integer (2 ^ 127 - 1)] = .ok [0x47, 0xE0, 0, 0, 0, 0, 0, 0] ∧
      (∃ x : Binary64, FloatFormat.binary64.IsNearest ((2 ^ 127 - 1 : Int) : ℚ) x.bits.toNat ∧
        pack "G" [.float x] = .ok [0x47, 0xE0, 0, 0, 0, 0, 0, 0]) ∧
      pack "g" [.integer (-(2 ^ 127))] = .ok [0xFF, 0, 0, 0] ∧
      ∃ x : Binary64, unpack "g" [0xFF, 0, 0, 0] = .ok [.float x] ∧
        x.number? = some ((-(2 ^ 127) : Int) : ℚ) := by
  have double : Directive.floating 'G' 8 .big "double precision, big-endian" ∈ Directive.table := by
    decide
  have single : Directive.floating 'g' 4 .big "single precision, big-endian" ∈ Directive.table := by
    decide
  have greatest_packed :
      pack "G" [.integer (2 ^ 127 - 1)] = .ok [0x47, 0xE0, 0, 0, 0, 0, 0, 0] := rfl
  have least_packed : pack "g" [.integer (-(2 ^ 127))] = .ok [0xFF, 0, 0, 0] := rfl
  obtain ⟨doubles, -, bs, nearest, packed, packed_doubles, -, -, -⟩ :=
    @integers_as_floats _ double rfl .once nofun [2 ^ 127 - 1] rfl (by simp)
  obtain ⟨-, read, written, -, packed_least, -, -, unpacked, exactly⟩ :=
    @integers_as_floats _ single rfl .once nofun [-(2 ^ 127)] rfl (by simp)
  refine ⟨greatest_packed, ?_, least_packed, ?_⟩
  · obtain rfl := Except.ok.inj (packed.symm.trans greatest_packed)
    rcases nearest with - | ⟨⟨is_nearest, -⟩, ⟨⟩⟩
    exact ⟨_, is_nearest, packed_doubles⟩
  · obtain rfl := Except.ok.inj (packed_least.symm.trans least_packed)
    rcases exactly with - | ⟨number, ⟨⟩⟩
    exact ⟨_, unpacked, number (-1) 127 (by norm_num) (by decide)⟩

end DirectivePack
