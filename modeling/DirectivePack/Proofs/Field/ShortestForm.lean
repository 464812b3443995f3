import DirectivePack.Proofs.Field.Compressed
import DirectivePack.Unpack

/-!
The compressed forms of numbers, told by their digits.

A form is a row of base-128 digits, all of them marked but the last.  A number has many forms, which
differ in the idle digits at their front.

* `getBerFrom_eq_ok_iff`, `getBerFrom_eq_overflow_iff`: what is read is the form at the front if its
  number has 128 bits, and digits that already make a greater number are an overflow.
* `IsForm.exists_idle`: every form is the written one behind idle digits.
* `length_putBer_le`: numbers of 128 bits take no more than 19 digits.
* `putBer_shortest_and_getBer_iff`: all of it in one statement, and what it means for unpacking.
-/

namespace DirectivePack.Field

/-! ### Forms -/

/-- The number that base-128 digits make behind the number `sofar`.  Marks do not count. -/
def numeralFrom (sofar : Nat) (bs : Bytes) : Nat :=
  bs.foldl (fun n b => 128 * n + b.toNat % 128) sofar

/-- The number that base-128 digits make, the most significant one first. -/
def numeral (bs : Bytes) : Nat :=
  numeralFrom 0 bs

/-- The digits of one number: marked ones, then one without a mark. -/
inductive Delimited : Bytes → Prop where
  | last {b : UInt8} : b.toNat < 128 → Delimited [b]
  | marked {b : UInt8} {bs : Bytes} : 128 ≤ b.toNat → Delimited bs → Delimited (b :: bs)

/-- A compressed form of a number. -/
structure IsForm (n : Nat) (form : Bytes) : Prop where
  delimited : Delimited form
  value : numeral form = n

/-- Digits at the front of some bytes, none of them behind one without a mark. -/
def Opens (digits bs : Bytes) : Prop :=
  digits <+: bs ∧ ∀ b ∈ digits.dropLast, 128 ≤ b.toNat

theorem numeralFrom_cons (sofar : Nat) (b : UInt8) (bs : Bytes) :
    numeralFrom sofar (b :: bs) = numeralFrom (128 * sofar + b.toNat % 128) bs :=
  rfl

theorem le_numeralFrom (sofar : Nat) (bs : Bytes) : sofar ≤ numeralFrom sofar bs := by
  induction bs generalizing sofar with
  | nil => exact Nat.le_refl _
  | cons b bs ih =>
    have := ih (128 * sofar + b.toNat % 128)
    rw [numeralFrom_cons]
    omega

theorem Delimited.ne_nil {form : Bytes} (delimited : Delimited form) : form ≠ [] := by
  rintro rfl
  cases delimited

/-- A form at the front is a digit without a mark, or a marked digit and a form behind it. -/
theorem exists_delimited_cons_iff {holds : Bytes → Prop} {b : UInt8} {bs rest : Bytes} :
    (∃ form, b :: bs = form ++ rest ∧ Delimited form ∧ holds form) ↔
      (b.toNat < 128 ∧ rest = bs ∧ holds [b]) ∨
        (128 ≤ b.toNat ∧ ∃ form, bs = form ++ rest ∧ Delimited form ∧ holds (b :: form)) := by
  constructor
  · rintro ⟨form, split, delimited, held⟩
    cases delimited with
    | last small =>
      obtain ⟨rfl, rfl⟩ := List.cons.inj split
      exact .inl ⟨small, rfl, held⟩
    | @marked _ form marked delimited =>
      obtain ⟨rfl, rfl⟩ := List.cons.inj split
      exact .inr ⟨marked, form, rfl, delimited, held⟩
  · rintro (⟨small, rfl, held⟩ | ⟨marked, form, rfl, delimited, held⟩)
    · exact ⟨[b], rfl, .last small, held⟩
    · exact ⟨b :: form, rfl, .marked marked delimited, held⟩

/-- Some digits at the front are the first one alone, or it is marked and others follow. -/
theorem exists_opens_cons_iff {holds : Bytes → Prop} (not_none : ¬ holds []) {b : UInt8}
    {bs : Bytes} :
    (∃ digits, Opens digits (b :: bs) ∧ holds digits) ↔
      holds [b] ∨ (128 ≤ b.toNat ∧ ∃ digits, Opens digits bs ∧ holds (b :: digits)) := by
  constructor
  · rintro ⟨digits, ⟨front, marked⟩, held⟩
    match digits with
    | [] => exact absurd held not_none
    | [a] =>
      obtain ⟨rfl, -⟩ := List.cons_prefix_cons.mp front
      exact .inl held
    | a :: d :: digits =>
      obtain ⟨rfl, behind⟩ := List.cons_prefix_cons.mp front
      obtain ⟨first, others⟩ := List.forall_mem_cons.mp marked
      exact .inr ⟨first, d :: digits, ⟨behind, others⟩, held⟩
  · rintro (held | ⟨first, digits, ⟨front, marked⟩, held⟩)
    · exact ⟨[b], ⟨List.cons_prefix_cons.mpr ⟨rfl, List.nil_prefix⟩, fun _ member => nomatch member⟩,
        held⟩
    · refine ⟨b :: digits, ⟨List.cons_prefix_cons.mpr ⟨rfl, front⟩, ?_⟩, held⟩
      cases digits with
      | nil => exact fun _ member => nomatch member
      | cons d digits => exact List.forall_mem_cons.mpr ⟨first, marked⟩

/-- Digits at the front make a number beyond 128 bits, none of them behind one without a mark. -/
def Exceeds (bs : Bytes) : Prop :=
  ∃ digits, Opens digits bs ∧ Nat.pow 2 128 ≤ numeral digits

/-- A form of a number of 128 bits stands at the front. -/
def StartsWithForm (bs : Bytes) : Prop :=
  ∃ n form rest, bs = form ++ rest ∧ IsForm n form ∧ n < Nat.pow 2 128

/-! ### Reading -/

/-- Seven bits more than `121` are `128`. -/
theorem pow_128_eq : Nat.pow 2 128 = 128 * Nat.pow 2 121 := by
  decide

/-- One more digit leaves 128 bits iff there were 121 before. -/
theorem digit_lt_iff {sofar digit : Nat} (small : digit < 128) :
    128 * sofar + digit < Nat.pow 2 128 ↔ sofar < Nat.pow 2 121 := by
  rw [pow_128_eq]
  omega

/-- What is read is the form at the front, if its number has 128 bits. -/
theorem getBerFrom_eq_ok_iff {sofar n : Nat} {bs rest : Bytes} :
    getBerFrom sofar bs = (.ok n, rest) ↔
      ∃ form, bs = form ++ rest ∧ Delimited form ∧ numeralFrom sofar form = n ∧
        n < Nat.pow 2 128 := by
  induction bs generalizing sofar with
  | nil =>
    constructor
    · intro read
      simp [getBerFrom] at read
    · rintro ⟨form, split, delimited, -⟩
      exact absurd (List.append_eq_nil_iff.mp split.symm).1 delimited.ne_nil
  | cons b bs ih =>
    have room := @digit_lt_iff sofar _ (Nat.mod_lt b.toNat (by decide))
    rw [getBerFrom, exists_delimited_cons_iff]
    dsimp only
    by_cases great : Nat.pow 2 121 ≤ sofar
    · have too_great (form : Bytes) : ¬ numeralFrom sofar (b :: form) < Nat.pow 2 128 := by
        intro bound
        have := Nat.lt_of_le_of_lt (le_numeralFrom (128 * sofar + b.toNat % 128) form) bound
        exact absurd (room.mp this) (Nat.not_lt.mpr great)
      rw [if_pos great]
      constructor
      · intro read
        simp at read
      · rintro (⟨-, -, rfl, bound⟩ | ⟨-, form, -, -, rfl, bound⟩)
        · exact absurd bound (too_great [])
        · exact absurd bound (too_great form)
    · rw [if_neg great]
      by_cases unmarked : b.toNat < 128
      · rw [if_pos unmarked]
        constructor
        · intro read
          simp only [Prod.mk.injEq, Except.ok.injEq] at read
          obtain ⟨rfl, rfl⟩ := read
          exact .inl ⟨unmarked, rfl, rfl, room.mpr (Nat.lt_of_not_le great)⟩
        · rintro (⟨-, rfl, rfl, -⟩ | ⟨marked, -⟩)
          · rfl
          · exact absurd unmarked (Nat.not_lt.mpr marked)
      · rw [if_neg unmarked, ih]
        constructor
        · intro behind
          exact .inr ⟨Nat.le_of_not_lt unmarked, behind⟩
        · rintro (⟨small, -⟩ | ⟨-, behind⟩)
          · exact absurd small unmarked
          · exact behind

/-- Reading overflows iff digits up to the end of the form at the front, or up to the end of the
bytes, make a number beyond 128 bits. -/
theorem getBerFrom_eq_overflow_iff {sofar : Nat} {bs : Bytes} (bound : sofar < Nat.pow 2 128) :
    (getBerFrom sofar bs).1 = .error .overflow ↔
      ∃ digits, Opens digits bs ∧ Nat.pow 2 128 ≤ numeralFrom sofar digits := by
  have not_none : ¬ Nat.pow 2 128 ≤ numeralFrom sofar [] := Nat.not_le.mpr bound
  induction bs generalizing sofar with
  | nil =>
    constructor
    · intro overflow
      simp [getBerFrom] at overflow
    · rintro ⟨digits, ⟨front, -⟩, great⟩
      rw [List.prefix_nil.mp front] at great
      exact absurd great not_none
  | cons b bs ih =>
    have room := @digit_lt_iff sofar _ (Nat.mod_lt b.toNat (by decide))
    rw [getBerFrom, exists_opens_cons_iff not_none]
    dsimp only
    by_cases great : Nat.pow 2 121 ≤ sofar
    · rw [if_pos great]
      have beyond : Nat.pow 2 128 ≤ numeralFrom sofar [b] :=
        Nat.le_of_not_lt fun within => absurd (room.mp within) (Nat.not_lt.mpr great)
      exact ⟨fun _ => .inl beyond, fun _ => rfl⟩
    · have within : 128 * sofar + b.toNat % 128 < Nat.pow 2 128 :=
        room.mpr (Nat.lt_of_not_le great)
      rw [if_neg great]
      by_cases unmarked : b.toNat < 128
      · rw [if_pos unmarked]
        constructor
        · intro overflow
          cases overflow
        · rintro (beyond | ⟨marked, -⟩)
          · exact absurd beyond (Nat.not_le.mpr within)
          · exact absurd unmarked (Nat.not_lt.mpr marked)
      · rw [if_neg unmarked]
        refine (ih within (Nat.not_le.mpr within)).trans ?_
        constructor
        · intro behind
          exact .inr ⟨Nat.le_of_not_lt unmarked, behind⟩
        · rintro (beyond | ⟨-, behind⟩)
          · exact absurd beyond (Nat.not_le.mpr within)
          · exact behind

/-- A compressed integer is read iff a form of a number of 128 bits stands at the front. -/
theorem getBer_eq_ok_iff {n : Nat} {bs rest : Bytes} :
    getBer bs = (.ok n, rest) ↔
      ∃ form, bs = form ++ rest ∧ IsForm n form ∧ n < Nat.pow 2 128 := by
  rw [getBer, getBerFrom_eq_ok_iff]
  constructor
  · rintro ⟨form, split, delimited, value, bound⟩
    exact ⟨form, split, ⟨delimited, value⟩, bound⟩
  · rintro ⟨form, split, ⟨delimited, value⟩, bound⟩
    exact ⟨form, split, delimited, value, bound⟩

theorem getBer_eq_overflow_iff {bs : Bytes} :
    (getBer bs).1 = .error .overflow ↔ Exceeds bs :=
  getBerFrom_eq_overflow_iff (by decide)

/-- Where there is neither a form nor an overflow, the bytes end too early. -/
theorem getBer_eq_incomplete_iff {bs : Bytes} :
    (getBer bs).1 = .error .incomplete ↔ ¬ StartsWithForm bs ∧ ¬ Exceeds bs := by
  have whole : StartsWithForm bs ↔ ∃ n rest, getBer bs = (.ok n, rest) := by
    simp only [getBer_eq_ok_iff, StartsWithForm]
    exact exists_congr fun _ => exists_comm
  rw [whole, ← getBer_eq_overflow_iff]
  rcases getBer bs with ⟨(_ | _) | n, rest⟩ <;> simp

theorem IsForm.getBer_eq {n : Nat} {form : Bytes} (isForm : IsForm n form)
    (bound : n < Nat.pow 2 128) : getBer form = (.ok n, []) :=
  getBer_eq_ok_iff.mpr ⟨form, (List.append_nil form).symm, isForm, bound⟩

/-! ### The written form -/

theorem isForm_putBer {n : Nat} (bound : n < Nat.pow 2 128) : IsForm n (putBer n) := by
  have read := getBer_putBer_append bound []
  rw [List.append_nil] at read
  obtain ⟨form, split, isForm, -⟩ := getBer_eq_ok_iff.mp read
  rw [List.append_nil] at split
  exact split ▸ isForm

/-- A byte that is not `128` in front of others is no idle digit. -/
theorem head?_ofNat_cons_ne {m : Nat} (busy : m % 256 ≠ 128) (tail : Bytes) :
    (UInt8.ofNat m :: tail).head? ≠ some idleDigit := by
  intro idle
  have byte := congrArg UInt8.toNat (Option.some.inj idle)
  rw [UInt8.toNat_ofNat'] at byte
  exact busy byte

/-- The marked bytes of a number start with a digit other than zero. -/
theorem head?_berMarked {n : Nat} (nonzero : n ≠ 0) (tail : Bytes) :
    (berMarked n tail).head? ≠ some idleDigit := by
  fun_induction berMarked n tail with
  | case1 => exact absurd rfl nonzero
  | case2 n tail _ ih =>
    by_cases last : n / 128 = 0
    · rw [last, berMarked_zero]
      exact head?_ofNat_cons_ne (by omega) tail
    · exact ih last

theorem head?_putBer (n : Nat) : (putBer n).head? ≠ some idleDigit := by
  rw [putBer]
  by_cases last : n / 128 = 0
  · rw [last, berMarked_zero]
    exact head?_ofNat_cons_ne (by omega) []
  · exact head?_berMarked last _

/-- A form is the written one iff it has no idle digit at its front. -/
theorem IsForm.putBer_eq_iff {n : Nat} {form : Bytes} (isForm : IsForm n form)
    (bound : n < Nat.pow 2 128) : putBer n = form ↔ form.head? ≠ some idleDigit := by
  constructor
  · rintro rfl
    exact head?_putBer n
  · intro busy
    have written := putBer_of_getBer (isForm.getBer_eq bound) busy
    rw [written, List.append_nil]

/-- Every form of a number is the written one behind idle digits. -/
theorem IsForm.exists_idle {n : Nat} {form : Bytes} (isForm : IsForm n form)
    (bound : n < Nat.pow 2 128) :
    ∃ idle, form = List.replicate idle idleDigit ++ putBer n := by
  obtain ⟨delimited, value⟩ := isForm
  induction delimited with
  | @last b small =>
    refine ⟨0, ((IsForm.putBer_eq_iff ⟨.last small, value⟩ bound).mpr ?_).symm⟩
    intro idle
    rw [Option.some.inj idle] at small
    exact absurd small (by decide)
  | @marked b form marked delimited ih =>
    by_cases idle : b = idleDigit
    · subst idle
      obtain ⟨more, rfl⟩ := ih value
      exact ⟨more + 1, rfl⟩
    · refine ⟨0, ((IsForm.putBer_eq_iff ⟨.marked marked delimited, value⟩ bound).mpr ?_).symm⟩
      exact fun same => idle (Option.some.inj same)

/-- A number below the power of `128` takes so many marked digits at most. -/
theorem length_berMarked_le {count n : Nat} (bound : n < Nat.pow 128 count) (tail : Bytes) :
    (berMarked n tail).length ≤ count + tail.length := by
  induction count generalizing n tail with
  | zero =>
    have zero : n = 0 := Nat.lt_one_iff.mp bound
    rw [zero, berMarked_zero]
    omega
  | succ count ih =>
    by_cases zero : n = 0
    · rw [zero, berMarked_zero]
      omega
    · have quotient : n / 128 < Nat.pow 128 count :=
        Nat.div_lt_of_lt_mul (by rwa [Nat.mul_comm])
      have shorter := ih quotient (UInt8.ofNat (128 + n % 128) :: tail)
      rw [berMarked, if_neg zero]
      rw [List.length_cons] at shorter
      omega

/-- Nineteen digits are enough for 128 bits. -/
theorem length_putBer_le {n : Nat} (bound : n < Nat.pow 2 128) : (putBer n).length ≤ 19 := by
  have enough : Nat.pow 2 128 ≤ Nat.pow 128 18 * 128 := by decide
  have quotient : n / 128 < Nat.pow 128 18 := Nat.div_lt_of_lt_mul (by omega)
  exact length_berMarked_le quotient [UInt8.ofNat (n % 128)]

/-- **The written form** is the shortest one of its number, and the only one so short. -/
theorem length_putBer_lt {n : Nat} {form : Bytes} (isForm : IsForm n form)
    (bound : n < Nat.pow 2 128) (other : form ≠ putBer n) :
    (putBer n).length < form.length := by
  obtain ⟨idle, rfl⟩ := isForm.exists_idle bound
  cases idle with
  | zero => exact absurd rfl other
  | succ idle =>
    simp only [List.length_append, List.length_replicate]
    omega

/-! ### Values -/

/-- What a directive for compressed integers makes of the bytes at the front: a value and the bytes
behind its form, or a fault. -/
inductive ReadsAs (letter : Char) (bs : Bytes) : Except Fault (Value × Bytes) → Prop where
  | value {n : Nat} {form rest : Bytes} :
      bs = form ++ rest → IsForm n form → n < Nat.pow 2 127 →
      ReadsAs letter bs (.ok (.integer n, rest))
  | beyondSigned {n : Nat} {form rest : Bytes} :
      bs = form ++ rest → IsForm n form → Nat.pow 2 127 ≤ n → n < Nat.pow 2 128 →
      ReadsAs letter bs (.error (.malformed letter .beyondSigned128Bits))
  | beyond : Exceeds bs → ReadsAs letter bs (.error (.malformed letter .beyond128Bits))
  | incomplete :
      ¬ StartsWithForm bs → ¬ Exceeds bs →
      ReadsAs letter bs (.error (.truncated letter (bs.length + 1) bs.length))

/-- Every directive for compressed integers reads them so, wherever it stands in a program. -/
theorem readBer_eq_iff_readsAs {op : Operation} {bs : Bytes}
    {outcome : Except Fault (Value × Bytes)} :
    op.readBer bs = outcome ↔ ReadsAs op.letter bs outcome := by
  constructor
  · rintro rfl
    unfold Operation.readBer
    rcases got : getBer bs with ⟨(_ | _) | n, rest⟩
    · obtain ⟨no_form, within⟩ := getBer_eq_incomplete_iff.mp (congrArg Prod.fst got)
      exact .incomplete no_form within
    · exact .beyond (getBer_eq_overflow_iff.mp (congrArg Prod.fst got))
    · obtain ⟨form, split, isForm, bound⟩ := getBer_eq_ok_iff.mp got
      dsimp only
      split
      · rename_i small
        exact .value split isForm small
      · rename_i great
        exact .beyondSigned split isForm (Nat.le_of_not_lt great) bound
  · intro reads
    unfold Operation.readBer
    cases reads with
    | @value n form rest split isForm small =>
      have bound : n < Nat.pow 2 128 := Nat.lt_trans small (by decide)
      rw [getBer_eq_ok_iff.mpr ⟨form, split, isForm, bound⟩]
      exact if_pos small
    | @beyondSigned n form rest split isForm great bound =>
      rw [getBer_eq_ok_iff.mpr ⟨form, split, isForm, bound⟩]
      exact if_neg (Nat.not_lt.mpr great)
    | beyond exceeds =>
      have overflow := getBer_eq_overflow_iff.mpr exceeds
      rcases got : getBer bs with ⟨failure, rest⟩
      rw [got] at overflow
      rw [show failure = .error .overflow from overflow]
    | incomplete no_form within =>
      have incomplete := getBer_eq_incomplete_iff.mpr ⟨no_form, within⟩
      rcases got : getBer bs with ⟨failure, rest⟩
      rw [got] at incomplete
      rw [show failure = .error .incomplete from incomplete]

/-- One compressed integer is unpacked as the one value that is read. -/
theorem unpack_ber {bs : Bytes} {outcome : Except Fault (Value × Bytes)}
    (reads : ReadsAs 'w' bs outcome) :
    unpack "w" bs = outcome.map fun read => [read.1] := by
  have parsed : Program.parse "w" =
      .ok [⟨Directive.unsized 'w' .ber "BER compressed integer", .none, .once⟩] := rfl
  have read : Operation.readBer
      ⟨Directive.unsized 'w' .ber "BER compressed integer", .none, .once⟩ bs = outcome :=
    readBer_eq_iff_readsAs.mpr reads
  rw [unpack, parsed]
  simp only [Program.unpack, Program.unpackFront, Operation.unpack, Directive.unsized,
    Count.resolve, readTimes] at read ⊢
  rw [read]
  cases outcome <;> rfl

/-- **Compressed integers.** Of the forms of a number of 128 bits, the shortest one is written, in
19 bytes at most, and it is read again whatever comes behind it.  Reading finds just the form at the
front, tells a number that is too great from one that does not end, and its number is written as it
was read unless idle digits came first.  A directive makes a value of the numbers below
`2 ^ 127`. -/
theorem putBer_shortest_and_getBer_iff :
    (∀ n, n < Nat.pow 2 128 → ∀ tail,
      (putBer n).length ≤ 19 ∧ IsForm n (putBer n) ∧ (putBer n).head? ≠ some idleDigit ∧
        (∀ form, IsForm n form → form ≠ putBer n → (putBer n).length < form.length) ∧
        getBer (putBer n ++ tail) = (.ok n, tail)) ∧
      ∀ data,
        (∀ n rest, getBer data = (.ok n, rest) ↔
          ∃ form, data = form ++ rest ∧ IsForm n form ∧ n < Nat.pow 2 128) ∧
        ((getBer data).1 = .error .overflow ↔ Exceeds data) ∧
        ((getBer data).1 = .error .incomplete ↔ ¬ StartsWithForm data ∧ ¬ Exceeds data) ∧
        (∀ n form rest, data = form ++ rest → IsForm n form → n < Nat.pow 2 128 →
          (putBer n = form ↔ form.head? ≠ some idleDigit)) ∧
        (∀ (op : Operation) outcome,
          op.readBer data = outcome ↔ ReadsAs op.letter data outcome) ∧
        ∀ outcome, ReadsAs 'w' data outcome →
          unpack "w" data = outcome.map fun read => [read.1] := by
  refine ⟨fun n bound tail => ⟨?_, ?_, ?_, ?_, ?_⟩, fun data => ⟨?_, ?_, ?_, ?_, ?_, ?_⟩⟩
  · exact length_putBer_le bound
  · exact isForm_putBer bound
  · exact head?_putBer n
  · exact fun form isForm other => length_putBer_lt isForm bound other
  · exact getBer_putBer_append bound tail
  · exact fun n rest => getBer_eq_ok_iff
  · exact getBer_eq_overflow_iff
  · exact getBer_eq_incomplete_iff
  · exact fun n form rest _ isForm bound => isForm.putBer_eq_iff bound
  · exact fun op outcome => readBer_eq_iff_readsAs
  · exact fun outcome reads => unpack_ber reads

/-- The greatest number of 128 bits, and a number behind an idle digit. -/
theorem putBer_shortest_and_getBer_iff_greatest :
    getBer (putBer (Nat.pow 2 128 - 1) ++ [0x07]) = (.ok (Nat.pow 2 128 - 1), [0x07]) ∧
      IsForm 300 [0x80, 0x82, 0x2C] ∧ (putBer 300).length < 3 ∧ putBer 300 ≠ [0x80, 0x82, 0x2C] ∧
      unpack "w" [0x80, 0x82, 0x2C, 0x07] = .ok [.integer 300] := by
  obtain ⟨written, read⟩ := putBer_shortest_and_getBer_iff
  have isForm : IsForm 300 [0x80, 0x82, 0x2C] :=
    ⟨.marked (by decide) (.marked (by decide) (.last (by decide))), by decide⟩
  obtain ⟨-, -, -, -, greatest⟩ := written (Nat.pow 2 128 - 1) (by decide) [0x07]
  obtain ⟨-, -, -, shortest, -⟩ := written 300 (by decide) []
  obtain ⟨-, -, -, restores, -, unpacks⟩ := read [0x80, 0x82, 0x2C, 0x07]
  have idle : putBer 300 ≠ [0x80, 0x82, 0x2C] := fun same =>
    (restores 300 _ [0x07] rfl isForm (by decide)).mp same rfl
  exact ⟨greatest, isForm, shortest _ isForm idle.symm, idle,
    unpacks _ (.value rfl isForm (by decide))⟩

end DirectivePack.Field
