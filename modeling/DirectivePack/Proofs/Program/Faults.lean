import DirectivePack.Proofs.Format.FaultPlaces
import DirectivePack.Proofs.Program.Joined
import DirectivePack.Proofs.Program.Places

/-!
Faults by their causes.

A directive string that has no program is to blame for everything done by it, and its fault tells
the place.  One that has a program is never to blame; packing and unpacking then fail for reasons of
their own, and the fault names the operation that failed.

* `Program.blamesPlace_of_parse`: the faults of directive strings.
* `Program.packFront_eq_error_iff`, `Program.unpackFront_eq_error_iff`: a program fails where one of
  its operations does, behind others that do not.
* `Operation.packFault_of_pack`, `Operation.unpackFault_of_unpack`: the faults of one operation.
* `faults_by_cause`: both together, over all directive strings, values and bytes.
-/

namespace DirectivePack

/-! ### Directive strings -/

/-- The faults that blame a place in the directive string. -/
inductive Fault.BlamesPlace : Fault → Prop where
  | format (position : Nat) (reason : FormatReason) : BlamesPlace (.format position reason)
  | unknownDirective (letter : Char) (position : Nat) :
      BlamesPlace (.unknownDirective letter (some position))

theorem Fault.BlamesPlace.blamesFormat {fault : Fault} (blames : fault.BlamesPlace) :
    fault.blamesFormat = true := by
  cases blames <;> rfl

/-- **Directive strings.** A directive string without a program is to blame at some place. -/
theorem Program.blamesPlace_of_parse {text : String} {fault : Fault}
    (failed : parse text = .error fault) : fault.BlamesPlace := by
  obtain ⟨_, _, _, -, rejects, -⟩ := Program.rejects_of_parse failed
  cases rejects with
  | stray | modifierNotAllowed | bothOrders | countTooLarge => exact .format ..
  | unknownDirective => exact .unknownDirective ..

/-! ### The operation that fails -/

namespace Program

variable {program : Program} {fault : Fault}

/-- A program fails to pack iff one of its operations does, behind others that do not. -/
theorem packFront_eq_error_iff {values : List Value} :
    program.packFront values = .error fault ↔
      ∃ (before : Program) (op : Operation) (after : Program) (bs : Bytes) (left : List Value),
        program = before ++ op :: after ∧ before.packFront values = .ok (bs, left) ∧
          op.pack left = .error fault := by
  constructor
  · intro failed
    -- each operation is packed from the values that the ones before it left
    induction program generalizing values with
    | nil => cases failed
    | cons op program ih =>
      rw [packFront] at failed
      cases first : op.pack values with
      | error e =>
        simp only [first, Except.error.injEq] at failed
        exact ⟨[], op, program, [], values, rfl, rfl, failed ▸ first⟩
      | ok found =>
        obtain ⟨piece, behind⟩ := found
        cases others : packFront program behind with
        | error e =>
          simp only [first, others, Except.error.injEq] at failed
          obtain ⟨before, op', after, more, left, rfl, packed, fails⟩ := ih (failed ▸ others)
          exact ⟨op :: before, op', after, piece ++ more, left, rfl,
            packFront_cons_eq_ok_iff.mpr ⟨piece, behind, more, first, packed, rfl⟩, fails⟩
        | ok found => simp [first, others] at failed
  · rintro ⟨before, op, after, bs, left, rfl, packed, fails⟩
    rw [packFront_append, packed]
    simp only [packFront, fails]
    rfl

/-- A program fails to unpack iff one of its operations does, behind others that do not. -/
theorem unpackFront_eq_error_iff {data : Bytes} :
    program.unpackFront data = .error fault ↔
      ∃ (before : Program) (op : Operation) (after : Program) (values : List Value) (rest : Bytes),
        program = before ++ op :: after ∧ before.unpackFront data = .ok (values, rest) ∧
          op.unpack rest = .error fault := by
  constructor
  · intro failed
    induction program generalizing data with
    | nil => cases failed
    | cons op program ih =>
      rw [unpackFront] at failed
      cases first : op.unpack data with
      | error e =>
        simp only [first, Except.error.injEq] at failed
        exact ⟨[], op, program, [], data, rfl, rfl, failed ▸ first⟩
      | ok found =>
        obtain ⟨read, behind⟩ := found
        cases others : unpackFront program behind with
        | error e =>
          simp only [first, others, Except.error.injEq] at failed
          obtain ⟨before, op', after, more, rest, rfl, unpacked, fails⟩ := ih (failed ▸ others)
          exact ⟨op :: before, op', after, read ++ more, rest, rfl,
            unpackFront_cons_eq_ok_iff.mpr ⟨read, behind, more, first, unpacked, rfl⟩, fails⟩
        | ok found => simp [first, others] at failed
  · rintro ⟨before, op, after, values, rest, rfl, unpacked, fails⟩
    rw [unpackFront_append, unpacked]
    simp only [unpackFront, fails]
    rfl

theorem pack_eq_error_iff {values : List Value} :
    program.pack values = .error fault ↔ program.packFront values = .error fault := by
  unfold pack
  cases program.packFront values <;> simp

theorem unpack_eq_error_iff {data : Bytes} :
    program.unpack data = .error fault ↔ program.unpackFront data = .error fault := by
  unfold unpack
  cases program.unpackFront data <;> simp

end Program

/-! ### What an operation fails with -/

/-- The letters of the directives that write every value of their kind. -/
def acceptingLetters : List Char := ['x', 'a', 'A', 'Z', 'm', 'd', 'D', 'E', 'G']

/-- The letters of the directives whose bytes can be wrong. -/
def strictLetters : List Char := ['U', 'w', 'm']

/-- The letters of the directives that take what is there. -/
def lenientLetters : List Char := ['x', 'a', 'A', 'Z', 'H', 'h', 'B', 'b']

namespace Operation

/-- The operations that take what is there: also numbers of fixed width under a star. -/
def IsLenient (op : Operation) : Prop :=
  op.letter ∈ lenientLetters ∨
    (op.directive.encoding.isFixedWidthNumeric = true ∧ op.count = .all)

instance (op : Operation) : Decidable op.IsLenient :=
  inferInstanceAs (Decidable (_ ∨ _))

/-- The faults of an operation in packing.  All of them name it, and none names padding. -/
inductive PackFault (op : Operation) : Fault → Prop where
  | missingValues {needed available : Nat} : op.letter ≠ 'x' → available < needed →
      op.PackFault (.missingValues op.letter needed available)
  | wrongKind {expected actual : ValueKind} : op.letter ≠ 'x' →
      op.PackFault (.wrongKind op.letter expected actual)
  | unencodable {reason : ValueReason} : op.letter ∉ acceptingLetters →
      op.PackFault (.unencodable op.letter reason)

/-- The faults of an operation in unpacking.  All of them name it. -/
inductive UnpackFault (op : Operation) : Fault → Prop where
  | truncated {needed available : Nat} :
      (op.directive.encoding.isFixedWidthNumeric = true ∧ op.count ≠ .all) ∨
        op.letter = 'U' ∨ op.letter = 'w' →
      available < needed → op.UnpackFault (.truncated op.letter needed available)
  | malformed {reason : DataReason} : op.letter ∈ strictLetters →
      op.UnpackFault (.malformed op.letter reason)

end Operation

/-- Whether the directive writes every value of its kind. -/
def Directive.writesEveryValue (d : Directive) : Bool :=
  match d.encoding with
  | .raw _ | .base64 | .padding => true
  | .float => d.width = 8 ∧ d.nativeWidth = none
  | .integer | .hexString _ | .bitString _ | .utf8 | .ber => false

theorem Directive.writesEveryValue_of_mem_table : ∀ d ∈ Directive.table,
    d.letter ∈ acceptingLetters → d.writesEveryValue = true := by
  decide

theorem Directive.lenient_letters : ∀ d ∈ Directive.table,
    (d.letter ∈ lenientLetters →
      d.encoding.isFixedWidthNumeric = false ∧ d.letter ∉ strictLetters) ∧
    (d.encoding.isFixedWidthNumeric = true → d.letter ∉ strictLetters) := by
  decide

theorem Directive.strict_letters : ∀ d ∈ Directive.table,
    (d.encoding = .utf8 → d.letter = 'U') ∧ (d.encoding = .ber → d.letter = 'w') ∧
      (d.encoding = .base64 → d.letter = 'm') := by
  decide

/-! ### Packing by one operation -/

namespace Operation

variable {op : Operation} {fault : Fault}

/-- An operation fails to pack iff values are missing or those that it takes cannot be written. -/
theorem pack_eq_error_iff {values : List Value} :
    op.pack values = .error fault ↔
      (values.length < op.arity values.length ∧
        fault = .missingValues op.letter (op.arity values.length) values.length) ∨
      ∃ taken left, values = taken ++ left ∧ taken.length = op.arity values.length ∧
        op.encode taken = .error fault := by
  unfold pack
  cases split : front? (op.arity values.length) values with
  | none =>
    have missing := front?_eq_none_iff.mp split
    simp only [Except.error.injEq]
    constructor
    · rintro rfl
      exact .inl ⟨missing, rfl⟩
    · rintro (⟨-, rfl⟩ | ⟨taken, left, whole, length, -⟩)
      · rfl
      · rw [front?_eq_some_iff.mpr ⟨whole, length⟩] at split
        cases split
  | some found =>
    obtain ⟨taken, left⟩ := found
    have enough : ¬ values.length < op.arity values.length := by
      rw [← front?_eq_none_iff, split]
      nofun
    simp only [enough, false_and, false_or]
    constructor
    · intro failed
      obtain ⟨whole, length⟩ := front?_eq_some_iff.mp split
      cases encoded : op.encode taken with
      | error e =>
        simp only [encoded, Except.error.injEq] at failed
        exact ⟨taken, left, whole, length, failed ▸ encoded⟩
      | ok bs => simp [encoded] at failed
    · rintro ⟨taken', left', whole, length, encoded⟩
      rw [front?_eq_some_iff.mpr ⟨whole, length⟩] at split
      cases split
      simp only [encoded]

/-- What is written for what a value is, if it is of the kind that is expected. -/
def withKind {γ : Type} (op : Operation) (expected actual : ValueKind)
    (encode : γ → Except ValueReason Bytes) : Option γ → Except Fault Bytes
  | none => .error (.wrongKind op.letter expected actual)
  | some x => (encode x).mapError (.unencodable op.letter)

theorem withInteger_eq_withKind (v : Value) (encode : Int → Except ValueReason Bytes) :
    op.withInteger v encode = op.withKind .integer v.kind encode v.asInteger? := by
  unfold withInteger
  cases v.asInteger? <;> rfl

theorem withFloat_eq_withKind (v : Value) (encode : Binary64 → Except ValueReason Bytes) :
    op.withFloat v encode = op.withKind .float v.kind encode v.asFloat? := by
  unfold withFloat
  cases v.asFloat? <;> rfl

theorem withBytes_eq_withKind (v : Value) (encode : Bytes → Except ValueReason Bytes) :
    op.withBytes v encode = op.withKind .bytes v.kind encode v.asBytes? := by
  unfold withBytes
  cases v.asBytes? <;> rfl

/-- A value is of the wrong kind, or it cannot be written. -/
theorem fault_of_withKind {γ : Type} {expected actual : ValueKind}
    {encode : γ → Except ValueReason Bytes} {found : Option γ}
    (failed : op.withKind expected actual encode found = .error fault) :
    fault = .wrongKind op.letter expected actual ∨
      ∃ x reason, encode x = .error reason ∧ fault = .unencodable op.letter reason := by
  cases found with
  | none =>
    cases failed
    exact .inl rfl
  | some x =>
    cases encoded : encode x with
    | error reason =>
      simp only [withKind, encoded, mapError_error, Except.error.injEq] at failed
      exact .inr ⟨x, reason, encoded, failed.symm⟩
    | ok bs => simp [withKind, encoded] at failed

/-- A value that is not written is of the wrong kind, or the directive cannot represent it. -/
theorem fault_of_encodeValue (wellFormed : op.WellFormed)
    (valued : op.directive.encoding ≠ .padding) {v : Value}
    (failed : op.encodeValue v = .error fault) :
    (∃ expected, fault = .wrongKind op.letter expected v.kind) ∨
      op.letter ∉ acceptingLetters ∧ ∃ reason, fault = .unencodable op.letter reason := by
  have accepts : op.letter ∈ acceptingLetters → op.directive.writesEveryValue = true :=
    Directive.writesEveryValue_of_mem_table _ wellFormed.in_table
  unfold Directive.writesEveryValue at accepts
  unfold encodeValue at failed
  cases encoding : op.directive.encoding with
  | padding => exact absurd encoding valued
  | raw | base64 =>
    simp only [encoding, withBytes_eq_withKind] at failed
    obtain wrong | ⟨bs, reason, encoded, -⟩ := fault_of_withKind failed
    · exact .inl ⟨_, wrong⟩
    · cases encoded
  | float =>
    simp only [encoding, withFloat_eq_withKind] at failed accepts
    obtain wrong | ⟨x, reason, encoded, refused⟩ := fault_of_withKind failed
    · exact .inl ⟨_, wrong⟩
    · refine .inr ⟨fun accepting => ?_, reason, refused⟩
      obtain ⟨width, native⟩ := of_decide_eq_true (accepts accepting)
      have eight : op.width = 8 := by simp [Operation.width, width, native]
      simp [encodeFloat, eight] at encoded
  | integer | utf8 | ber =>
    simp only [encoding, withInteger_eq_withKind, Bool.false_eq_true, imp_false] at failed accepts
    obtain wrong | ⟨n, reason, -, refused⟩ := fault_of_withKind failed
    · exact .inl ⟨_, wrong⟩
    · exact .inr ⟨accepts, reason, refused⟩
  | hexString | bitString =>
    simp only [encoding, withBytes_eq_withKind, Bool.false_eq_true, imp_false] at failed accepts
    obtain wrong | ⟨bs, reason, -, refused⟩ := fault_of_withKind failed
    · exact .inl ⟨_, wrong⟩
    · exact .inr ⟨accepts, reason, refused⟩

/-- The same of all the values that an operation takes.  Padding takes none. -/
theorem fault_of_encode (wellFormed : op.WellFormed) {taken : List Value}
    (failed : op.encode taken = .error fault) :
    op.directive.encoding ≠ .padding ∧
      ((∃ expected actual, fault = .wrongKind op.letter expected actual) ∨
        op.letter ∉ acceptingLetters ∧ ∃ reason, fault = .unencodable op.letter reason) := by
  have valued : op.directive.encoding ≠ .padding := by
    intro padding
    simp [encode, padding] at failed
  rw [encode_eq_encodeEach valued] at failed
  obtain ⟨_, v, _, _, -, -, fails⟩ := encodeEach_eq_error_iff.mp failed
  refine ⟨valued, (fault_of_encodeValue wellFormed valued fails).imp_left ?_⟩
  rintro ⟨expected, wrong⟩
  exact ⟨expected, v.kind, wrong⟩

/-- **One operation** fails to pack for one of the causes of packing. -/
theorem packFault_of_pack (wellFormed : op.WellFormed) {values : List Value}
    (failed : op.pack values = .error fault) : op.PackFault fault := by
  have not_padding (valued : op.directive.encoding ≠ .padding) : op.letter ≠ 'x' :=
    fun padding => valued ((Directive.letter_of_mem_table _ wellFormed.in_table).1.mp padding)
  rcases pack_eq_error_iff.mp failed with ⟨missing, rfl⟩ | ⟨taken, left, -, -, fails⟩
  · refine .missingValues (not_padding fun padding => ?_) missing
    simp [arity, padding] at missing
  · obtain ⟨valued, ⟨expected, actual, rfl⟩ | ⟨refuses, reason, rfl⟩⟩ :=
      fault_of_encode wellFormed fails
    · exact .wrongKind (not_padding valued)
    · exact .unencodable refuses

/-! ### Unpacking by one operation -/

theorem unpackFault_of_readChar (letter : op.letter = 'U') {bs : Bytes}
    (failed : op.readChar bs = .error fault) : op.UnpackFault fault := by
  have strict : op.letter ∈ strictLetters := by simp [letter, strictLetters]
  unfold readChar at failed
  split at failed
  · cases failed
    exact .truncated (.inr (.inl letter)) Nat.zero_lt_one
  · split at failed
    · cases failed
      exact .malformed strict
    · split at failed
      · rename_i required
        cases failed
        obtain ⟨missing, rfl⟩ := require_eq_error_iff.mp required
        exact .truncated (.inr (.inl letter)) missing
      · split at failed
        · cases failed
        · cases failed
          exact .malformed strict

theorem unpackFault_of_readBer (letter : op.letter = 'w') {bs : Bytes}
    (failed : op.readBer bs = .error fault) : op.UnpackFault fault := by
  have strict : op.letter ∈ strictLetters := by simp [letter, strictLetters]
  unfold readBer at failed
  split at failed
  · split at failed
    · cases failed
    · cases failed
      exact .malformed strict
  · cases failed
    exact .truncated (.inr (.inr letter)) (Nat.lt_succ_self _)
  · cases failed
    exact .malformed strict

/-- A star on numbers of fixed width reads as many as are there, and never fails. -/
theorem exists_unpack_of_star (wellFormed : op.WellFormed)
    (numeric : op.directive.encoding.isFixedWidthNumeric = true) (all : op.count = .all)
    (bs : Bytes) : ∃ found, op.unpack bs = .ok found := by
  obtain ⟨values, rest, -, -, read⟩ := exists_readTimes numeric (wellFormed.width_pos numeric)
    (Nat.div_mul_le_self bs.length op.width)
  rw [unpack_eq_readTimes_of_numeric numeric, all]
  exact ⟨_, read⟩

/-- **One operation** fails to unpack for one of the causes of unpacking. -/
theorem unpackFault_of_unpack (wellFormed : op.WellFormed) {bs : Bytes}
    (failed : op.unpack bs = .error fault) : op.UnpackFault fault := by
  obtain ⟨character, compressed, base64⟩ :=
    Directive.strict_letters op.directive wellFormed.in_table
  -- a star takes only the numbers whose bytes are there, so that a count is to blame
  have starless (numeric : op.directive.encoding.isFixedWidthNumeric = true) :
      op.count ≠ .all := by
    intro all
    obtain ⟨found, unpacked⟩ := exists_unpack_of_star wellFormed numeric all bs
    rw [unpacked] at failed
    cases failed
  unfold unpack at failed
  cases encoding : op.directive.encoding with
  | padding | raw | hexString | bitString => simp [encoding] at failed
  | integer | float =>
    have numeric : op.directive.encoding.isFixedWidthNumeric = true := by rw [encoding]; rfl
    simp only [encoding] at failed
    obtain ⟨rest, fails⟩ := exists_of_readTimes_eq_error failed
    obtain ⟨missing, rfl⟩ := readField_eq_error_iff.mp fails
    exact .truncated (.inl ⟨numeric, starless numeric⟩) missing
  | utf8 =>
    simp only [encoding] at failed
    split at failed
    · obtain ⟨-, -, rest, -, -, fails⟩ :=
        (readAll_eq_error_iff_readTimes _).mp (map_eq_error_iff.mp failed)
      exact unpackFault_of_readChar (character encoding) fails
    · obtain ⟨rest, fails⟩ := exists_of_readTimes_eq_error failed
      exact unpackFault_of_readChar (character encoding) fails
  | ber =>
    simp only [encoding] at failed
    split at failed
    · obtain ⟨-, -, rest, -, -, fails⟩ :=
        (readAll_eq_error_iff_readTimes _).mp (map_eq_error_iff.mp failed)
      exact unpackFault_of_readBer (compressed encoding) fails
    · obtain ⟨rest, fails⟩ := exists_of_readTimes_eq_error failed
      exact unpackFault_of_readBer (compressed encoding) fails
  | base64 =>
    have strict : op.letter ∈ strictLetters := by
      simp [Operation.letter, base64 encoding, strictLetters]
    rcases read : readBase64 op.count bs with ⟨_ | _, rest⟩
    · simp only [encoding, read, Except.error.injEq] at failed
      exact failed ▸ .malformed strict
    · simp [encoding, read] at failed

/-- Padding never fails. -/
theorem pack_and_unpack_padding (wellFormed : op.WellFormed) (padding : op.letter = 'x')
    (values : List Value) (bs : Bytes) :
    (∃ written, op.pack values = .ok (written, values)) ∧
      ∃ rest, op.unpack bs = .ok ([], rest) := by
  have encoding : op.directive.encoding = .padding :=
    (Directive.letter_of_mem_table _ wellFormed.in_table).1.mp padding
  refine ⟨⟨List.replicate (op.count.resolve 0) 0, ?_⟩, bs.drop (op.count.resolve bs.length), ?_⟩
  · simp [pack, arity, encode, encoding, front?]
  · simp [unpack, encoding]

theorem UnpackFault.cause (is_fault : op.UnpackFault fault) :
    (op.directive.encoding.isFixedWidthNumeric = true ∧ op.count ≠ .all) ∨
      op.letter ∈ strictLetters := by
  cases is_fault with
  | malformed strict => exact .inr strict
  | truncated cause _ =>
    obtain numeric | character | compressed := cause
    · exact .inl numeric
    · exact .inr (by simp [character, strictLetters])
    · exact .inr (by simp [compressed, strictLetters])

/-- A lenient operation never fails to unpack. -/
theorem IsLenient.not_unpackFault (lenient : op.IsLenient) (wellFormed : op.WellFormed) :
    ¬ op.UnpackFault fault := by
  intro is_fault
  obtain ⟨letters, numbers⟩ := Directive.lenient_letters op.directive wellFormed.in_table
  obtain letter | ⟨numeric, all⟩ := lenient
  · obtain ⟨not_numeric, not_strict⟩ := letters letter
    obtain ⟨numeric, -⟩ | strict := is_fault.cause
    · exact absurd numeric (Bool.eq_false_iff.mp not_numeric)
    · exact not_strict strict
  · obtain ⟨-, starless⟩ | strict := is_fault.cause
    · exact starless all
    · exact numbers numeric strict

end Operation

/-! ### Whole programs -/

namespace Program

variable {program : Program} (wellFormed : ∀ op ∈ program, op.WellFormed) {fault : Fault}

include wellFormed

theorem packFault_of_pack {values : List Value} (failed : program.pack values = .error fault) :
    ∃ op ∈ program, op.PackFault fault := by
  obtain ⟨before, op, after, -, left, rfl, -, fails⟩ :=
    packFront_eq_error_iff.mp (pack_eq_error_iff.mp failed)
  have member : op ∈ before ++ op :: after := List.mem_append_right _ (.head _)
  exact ⟨op, member, Operation.packFault_of_pack (wellFormed op member) fails⟩

theorem unpackFault_of_unpack {data : Bytes} (failed : program.unpack data = .error fault) :
    ∃ op ∈ program, op.UnpackFault fault := by
  obtain ⟨before, op, after, -, rest, rfl, -, fails⟩ :=
    unpackFront_eq_error_iff.mp (unpack_eq_error_iff.mp failed)
  have member : op ∈ before ++ op :: after := List.mem_append_right _ (.head _)
  exact ⟨op, member, Operation.unpackFault_of_unpack (wellFormed op member) fails⟩

/-- A program of lenient operations never fails to unpack. -/
theorem exists_unpack_of_lenient (lenient : ∀ op ∈ program, op.IsLenient) (data : Bytes) :
    ∃ values, program.unpack data = .ok values := by
  cases unpacked : program.unpack data with
  | ok values => exact ⟨values, rfl⟩
  | error fault =>
    obtain ⟨op, member, is_fault⟩ := unpackFault_of_unpack wellFormed unpacked
    exact absurd is_fault ((lenient op member).not_unpackFault (wellFormed op member))

end Program

theorem Operation.PackFault.blamesFormat {op : Operation} {fault : Fault}
    (is_fault : op.PackFault fault) : fault.blamesFormat = false := by
  cases is_fault <;> rfl

theorem Operation.UnpackFault.blamesFormat {op : Operation} {fault : Fault}
    (is_fault : op.UnpackFault fault) : fault.blamesFormat = false := by
  cases is_fault <;> rfl

/-- **Faults by their causes.** If a directive string has no program, packing and unpacking by it
fail as reading it does, whatever the values and the bytes, and the fault blames a place in the
directive string.

If it has one, the directive string is never to blame.  Packing then fails with a fault of packing
of one of the operations, and unpacking with a fault of unpacking of one of them.  Padding never
fails, and a program of lenient operations unpacks all bytes. -/
theorem faults_by_cause (format : String) (values : List Value) (data : Bytes) :
    (∀ fault, Program.parse format = .error fault →
      fault.BlamesPlace ∧ fault.blamesFormat = true ∧
        pack format values = .error fault ∧ unpack format data = .error fault) ∧
    ∀ program, Program.parse format = .ok program →
      (∀ fault, pack format values = .error fault →
        fault.blamesFormat = false ∧ ∃ op ∈ program, op.PackFault fault) ∧
      (∀ fault, unpack format data = .error fault →
        fault.blamesFormat = false ∧ ∃ op ∈ program, op.UnpackFault fault) ∧
      (∀ op ∈ program, op.letter = 'x' →
        (∃ written, op.pack values = .ok (written, values)) ∧
          ∃ rest, op.unpack data = .ok ([], rest)) ∧
      ((∀ op ∈ program, op.IsLenient) → ∃ read, unpack format data = .ok read) := by
  constructor
  · intro fault failed
    have blames := Program.blamesPlace_of_parse failed
    exact ⟨blames, blames.blamesFormat, by rw [pack, failed], by rw [unpack, failed]⟩
  · intro program parsed
    have wellFormed := (spells_of_parse parsed).wellFormed
    have packed : pack format values = program.pack values := by rw [pack, parsed]
    have unpacked : unpack format data = program.unpack data := by rw [unpack, parsed]
    rw [packed, unpacked]
    refine ⟨?_, ?_, ?_, ?_⟩
    · intro fault failed
      obtain ⟨op, member, is_fault⟩ := Program.packFault_of_pack wellFormed failed
      exact ⟨is_fault.blamesFormat, op, member, is_fault⟩
    · intro fault failed
      obtain ⟨op, member, is_fault⟩ := Program.unpackFault_of_unpack wellFormed failed
      exact ⟨is_fault.blamesFormat, op, member, is_fault⟩
    · exact fun op member padding =>
        Operation.pack_and_unpack_padding (wellFormed op member) padding values data
    · exact fun lenient => Program.exists_unpack_of_lenient wellFormed lenient data

/-- A character that is no directive is to blame in both calls; too large a number is one of packing
alone, and a program of lenient operations reads three bytes although it asks for more. -/
theorem faults_by_cause_of_short_strings :
    (pack "a9 ?" [] = .error (.unknownDirective '?' (some 3)) ∧
      unpack "a9 ?" [1, 2, 3] = .error (.unknownDirective '?' (some 3))) ∧
    (∃ program, Program.parse "xC" = .ok program ∧
      ∃ op ∈ program, op.PackFault (.unencodable 'C' (.outOfRange 999 1))) ∧
    ∃ read, unpack "a9xN*" [1, 2, 3] = .ok read := by
  obtain ⟨-, -, packed, unpacked⟩ := (faults_by_cause "a9 ?" [] [1, 2, 3]).1 _ rfl
  obtain ⟨fails, -⟩ := (faults_by_cause "xC" [.integer 999] []).2 _ rfl
  obtain ⟨-, -, -, reads⟩ := (faults_by_cause "a9xN*" [] [1, 2, 3]).2 _ rfl
  exact ⟨⟨packed, unpacked⟩, ⟨_, rfl, (fails _ rfl).2⟩, reads (by decide)⟩

end DirectivePack
