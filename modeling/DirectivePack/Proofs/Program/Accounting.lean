import DirectivePack.Proofs.Program.Faults

/-!
Accounting for values.

Without stars, a program alone says how many values it stands for.  Unpacking returns so many, and
packing takes so many: with more of them the others do not matter, and with fewer it fails.

* `Operation.arity_eq_need`, `Operation.length_of_unpack`: both directions count alike.
* `Program.need_add_length_of_packFront`: what a program needs and what it leaves are all the
  values.
* `Program.packFront_append_extra`: values behind those that are needed are left as they are.
* `Program.missingValues_of_packFront`: the operation for which values are missing.
* `values_accounted`: the accounting of a directive string.
-/

namespace DirectivePack

/-- How many values an operation without a star stands for: none if it is padding, one if it is a
byte string, and as many as its count says otherwise. -/
def Operation.need (op : Operation) : Nat :=
  op.valuesTaken 0

/-- How many values the operations of a program stand for. -/
def Program.need : Program → Nat
  | [] => 0
  | op :: program => op.need + need program

/-! ### One operation -/

namespace Operation

variable {op : Operation} (wellFormed : op.WellFormed) (starless : op.count ≠ .all)

include wellFormed starless

theorem arity_eq_need (available : Nat) : op.arity available = op.need := by
  rw [arity_eq (counted_of_ne_all starless), wellFormed.arity_eq, need]

/-- So many values are read. -/
theorem length_of_unpack {bs rest : Bytes} {values : List Value}
    (unpacked : op.unpack bs = .ok (values, rest)) : values.length = op.need := by
  rw [← arity_eq_need wellFormed starless 0]
  by_cases padding : op.directive.encoding = .padding
  · simp only [unpack, padding, Except.ok.injEq, Prod.mk.injEq] at unpacked
    rw [← unpacked.1, arity, padding]
    rfl
  · rw [unpack_eq_readTimes (counted_of_ne_all starless) padding] at unpacked
    exact readTimes_length unpacked

/-- So many values are taken. -/
theorem need_add_length_of_pack {values left : List Value} {bs : Bytes}
    (packed : op.pack values = .ok (bs, left)) : op.need + left.length = values.length := by
  obtain ⟨taken, whole, length, -⟩ := pack_eq_ok_iff.mp packed
  rw [whole, List.length_append, length, arity_eq_need wellFormed starless]

/-- Values behind those that are needed are left as they are. -/
theorem pack_append_extra {values : List Value} (enough : op.need ≤ values.length)
    (extra : List Value) :
    op.pack (values ++ extra) = (op.pack values).map fun (bs, left) => (bs, left ++ extra) := by
  have taken : (values.take op.need).length = op.need := List.length_take_of_le enough
  have whole : values = values.take op.need ++ values.drop op.need :=
    (List.take_append_drop ..).symm
  have split : front? op.need values = some (values.take op.need, values.drop op.need) :=
    front?_eq_some_iff.mpr ⟨whole, taken⟩
  have split_extra : front? op.need (values ++ extra) =
      some (values.take op.need, values.drop op.need ++ extra) :=
    front?_eq_some_iff.mpr ⟨by rw [← List.append_assoc, ← whole], taken⟩
  rw [pack, pack, arity_eq_need wellFormed starless, arity_eq_need wellFormed starless, split,
    split_extra]
  dsimp only
  cases op.encode (values.take op.need) <;> rfl

/-- If values are missing, they are those that the operation needs. -/
theorem missingValues_of_pack {values : List Value} {letter : Char} {needed available : Nat}
    (failed : op.pack values = .error (.missingValues letter needed available)) :
    values.length < op.need ∧ letter = op.letter ∧ needed = op.need ∧
      available = values.length := by
  rcases pack_eq_error_iff.mp failed with ⟨missing, same⟩ | ⟨taken, left, -, -, fails⟩
  · rw [arity_eq_need wellFormed starless] at missing same
    cases same
    exact ⟨missing, rfl, rfl, rfl⟩
  · obtain ⟨-, ⟨_, _, wrong⟩ | ⟨-, _, refused⟩⟩ := fault_of_encode wellFormed fails
    · cases wrong
    · cases refused

end Operation

/-! ### Programs -/

namespace Program

theorem need_append (first second : Program) :
    need (first ++ second) = need first + need second := by
  induction first with
  | nil => exact (Nat.zero_add _).symm
  | cons op first ih => rw [List.cons_append, need, need, ih, Nat.add_assoc]

variable {program : Program} (wellFormed : ∀ op ∈ program, op.WellFormed)
  (starless : ∀ op ∈ program, op.count ≠ .all)

include wellFormed starless

/-- A program reads as many values as it needs. -/
theorem length_of_unpackFront {data rest : Bytes} {values : List Value}
    (unpacked : program.unpackFront data = .ok (values, rest)) :
    values.length = program.need := by
  induction program generalizing data values with
  | nil =>
    cases unpacked
    rfl
  | cons op program ih =>
    obtain ⟨op_wellFormed, others_wellFormed⟩ := List.forall_mem_cons.mp wellFormed
    obtain ⟨op_starless, others_starless⟩ := List.forall_mem_cons.mp starless
    obtain ⟨read, behind, more, first, others, rfl⟩ := unpackFront_cons_eq_ok_iff.mp unpacked
    rw [List.length_append, Operation.length_of_unpack op_wellFormed op_starless first,
      ih others_wellFormed others_starless others, need]

/-- What a program needs and what it leaves are all the values. -/
theorem need_add_length_of_packFront {values left : List Value} {bs : Bytes}
    (packed : program.packFront values = .ok (bs, left)) :
    program.need + left.length = values.length := by
  induction program generalizing values bs with
  | nil =>
    cases packed
    exact Nat.zero_add _
  | cons op program ih =>
    obtain ⟨op_wellFormed, others_wellFormed⟩ := List.forall_mem_cons.mp wellFormed
    obtain ⟨op_starless, others_starless⟩ := List.forall_mem_cons.mp starless
    obtain ⟨piece, behind, more, first, others, -⟩ := packFront_cons_eq_ok_iff.mp packed
    rw [← Operation.need_add_length_of_pack op_wellFormed op_starless first,
      ← ih others_wellFormed others_starless others, need, Nat.add_assoc]

/-- Values behind those that are needed are left as they are. -/
theorem packFront_append_extra {values : List Value} (enough : program.need ≤ values.length)
    (extra : List Value) :
    program.packFront (values ++ extra) =
      (program.packFront values).map fun (bs, left) => (bs, left ++ extra) := by
  induction program generalizing values with
  | nil => rfl
  | cons op program ih =>
    obtain ⟨op_wellFormed, others_wellFormed⟩ := List.forall_mem_cons.mp wellFormed
    obtain ⟨op_starless, others_starless⟩ := List.forall_mem_cons.mp starless
    rw [need] at enough
    rw [packFront, packFront,
      Operation.pack_append_extra op_wellFormed op_starless (Nat.le_of_add_right_le enough)]
    cases first : op.pack values with
    | error fault => rfl
    | ok packed =>
      obtain ⟨piece, behind⟩ := packed
      have taken := Operation.need_add_length_of_pack op_wellFormed op_starless first
      dsimp only [Except.map]
      rw [ih others_wellFormed others_starless (by omega)]
      cases packFront program behind <;> rfl

/-- If values are missing, it is for the first operation that needs more than are left. -/
theorem missingValues_of_packFront {values : List Value} {letter : Char} {needed available : Nat}
    (failed : program.packFront values = .error (.missingValues letter needed available)) :
    ∃ (before : Program) (op : Operation) (after : Program), program = before ++ op :: after ∧
      before.need ≤ values.length ∧ values.length < before.need + op.need ∧
      letter = op.letter ∧ needed = op.need ∧ available = values.length - before.need := by
  obtain ⟨before, op, after, bs, left, rfl, packed, fails⟩ := packFront_eq_error_iff.mp failed
  obtain ⟨before_wellFormed, others_wellFormed⟩ := List.forall_mem_append.mp wellFormed
  obtain ⟨before_starless, others_starless⟩ := List.forall_mem_append.mp starless
  have taken := need_add_length_of_packFront before_wellFormed before_starless packed
  obtain ⟨missing, rfl, rfl, rfl⟩ := Operation.missingValues_of_pack
    (others_wellFormed op (.head _)) (others_starless op (.head _)) fails
  exact ⟨before, op, after, rfl, by omega, by omega, rfl, rfl, by omega⟩

/-- With all the values that it needs, a program misses none. -/
theorem pack_ne_missingValues {values : List Value} (enough : program.need ≤ values.length)
    (letter : Char) (needed available : Nat) :
    program.pack values ≠ .error (.missingValues letter needed available) := by
  intro failed
  obtain ⟨before, op, after, rfl, -, missing, -⟩ :=
    missingValues_of_packFront wellFormed starless (pack_eq_error_iff.mp failed)
  rw [need_append, need] at enough
  omega

theorem pack_append_extra {values : List Value} (enough : program.need ≤ values.length)
    (extra : List Value) : program.pack (values ++ extra) = program.pack values := by
  rw [pack, pack, packFront_append_extra wellFormed starless enough]
  cases program.packFront values <;> rfl

/-- With fewer values than it needs, a program fails. -/
theorem exists_fault_of_length_lt_need {values : List Value}
    (missing : values.length < program.need) : ∃ fault, program.pack values = .error fault := by
  cases front : program.packFront values with
  | error fault => exact ⟨fault, pack_eq_error_iff.mpr front⟩
  | ok packed =>
    have taken := need_add_length_of_packFront wellFormed starless front
    omega

end Program

/-- **Accounting for values.** A directive string without stars needs a number of values that it
alone determines.  Whatever it unpacks are so many values.  Given so many or more, packing by it
misses none and takes no notice of the others.  Given fewer, packing fails; and if it fails since
values are missing, it is for the first operation that needs more than are left, and the fault says
how many that operation needs and how many the ones before it left. -/
theorem values_accounted {text : String} {program : Program}
    (parsed : Program.parse text = .ok program) (starless : ∀ op ∈ program, op.count ≠ .all) :
    (∀ data values, unpack text data = .ok values → values.length = program.need) ∧
    (∀ values : List Value, program.need ≤ values.length →
      (∀ letter needed available,
        pack text values ≠ .error (.missingValues letter needed available)) ∧
      ∀ extra, pack text (values ++ extra) = pack text values) ∧
    ∀ values : List Value, values.length < program.need →
      (∃ fault, pack text values = .error fault) ∧
      ∀ letter needed available,
        pack text values = .error (.missingValues letter needed available) →
        ∃ (before : Program) (op : Operation) (after : Program),
          program = before ++ op :: after ∧
            before.need ≤ values.length ∧ values.length < before.need + op.need ∧
            letter = op.letter ∧ needed = op.need ∧
            available = values.length - before.need := by
  have wellFormed := (spells_of_parse parsed).wellFormed
  have packed (values : List Value) : pack text values = program.pack values := by
    rw [pack, parsed]
  have unpacked (data : Bytes) : unpack text data = program.unpack data := by rw [unpack, parsed]
  simp only [packed, unpacked]
  refine ⟨?_, ?_, ?_⟩
  · intro data values read
    obtain ⟨rest, front⟩ := Program.unpack_eq_ok_iff.mp read
    exact Program.length_of_unpackFront wellFormed starless front
  · exact fun values enough => ⟨Program.pack_ne_missingValues wellFormed starless enough,
      Program.pack_append_extra wellFormed starless enough⟩
  · intro values missing
    refine ⟨Program.exists_fault_of_length_lt_need wellFormed starless missing, ?_⟩
    intro letter needed available failed
    exact Program.missingValues_of_packFront wellFormed starless
      (Program.pack_eq_error_iff.mp failed)

/-- Two characters and a byte string are three values, whatever the width of the byte string.  A
fourth value is ignored, and one value is too few. -/
theorem values_accounted_of_characters_and_bytes :
    ∃ program, Program.parse "xU2a9" = .ok program ∧ (∀ op ∈ program, op.count ≠ .all) ∧
      program.need = 3 ∧
      pack "xU2a9" [.integer 65, .integer 66, .bytes [67], .integer 5] =
        pack "xU2a9" [.integer 65, .integer 66, .bytes [67]] ∧
      ∃ fault, pack "xU2a9" [.integer 65] = .error fault := by
  have parsed : Program.parse "xU2a9" = .ok
      [⟨⟨'x', .padding, 1, false, .native, none, "null byte"⟩, .none, .once⟩,
        ⟨Directive.unsized 'U' .utf8 "UTF-8 character", .none, .times 2⟩,
        ⟨Directive.unsized 'a' (.raw .nullPadded) "byte string, null padded", .none,
          .times 9⟩] := rfl
  obtain ⟨-, enough, few⟩ := values_accounted parsed (by decide)
  refine ⟨_, parsed, by decide, by decide, ?_, (few [.integer 65] (by decide)).1⟩
  exact (enough [.integer 65, .integer 66, .bytes [67]] (by decide)).2 [.integer 5]

end DirectivePack
