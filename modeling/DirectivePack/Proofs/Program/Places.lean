import DirectivePack.Proofs.RoundTrip.Elements

/-!
Numbers of fixed width and padding, by their places.

Where all counts are given, the program alone says how many bytes stand in front of each element.
Padding that is cut off at the end of the bytes does not change these places, since whatever is
behind it is missing anyway.

* `Operation.IsPlaced.unpack_drop`: an operation reads its elements at their places.
* `Program.unpackFront_drop`: hence so does a program.
* `Program.unpack_numbers`: it succeeds iff the bytes of all elements are there, and otherwise
  blames the first element whose bytes are not.
-/

namespace DirectivePack

/-! ### Elements at their places -/

/-- The number that the bytes of an element stand for. -/
def Operation.numberOf (op : Operation) (field : Bytes) : Value :=
  if op.directive.encoding = .float then .float (Field.getFloat op.order field)
  else .integer (Field.getInteger op.signed op.order field)

/-- An element of an operation, and how many bytes stand in front of it. -/
structure Element where
  op : Operation
  offset : Nat

namespace Element

/-- The bytes of the element. -/
def field (data : Bytes) (e : Element) : Bytes :=
  (data.drop e.offset).take e.op.width

/-- The number in the bytes of the element. -/
def number (data : Bytes) (e : Element) : Value :=
  e.op.numberOf (e.field data)

/-- Whether the bytes of the element are all there. -/
def isThere (data : Bytes) (e : Element) : Bool :=
  e.offset + e.op.width ≤ data.length

/-- The fault of an element whose bytes are not all there.  Behind the end no byte is there. -/
def fault (data : Bytes) (e : Element) : Fault :=
  .truncated e.op.letter e.op.width (data.length - e.offset)

/-- The numbers of all elements, or the fault of the first one that is not there. -/
def numbers (data : Bytes) (elements : List Element) : Except Fault (List Value) :=
  match elements.find? fun e => ! e.isThere data with
  | some e => .error (e.fault data)
  | none => .ok (elements.map (number data))

end Element

namespace Operation

/-- Numbers of fixed width or padding, with a count that does not depend on the bytes. -/
def IsPlaced (op : Operation) : Prop :=
  op.count ≠ .all ∧
    (op.directive.encoding.isFixedWidthNumeric = true ∨ op.directive.encoding = .padding)

instance (op : Operation) : Decidable op.IsPlaced :=
  inferInstanceAs (Decidable (_ ∧ _))

/-- So many elements one behind the other, from an offset on. -/
def elementsFrom (op : Operation) : Nat → Nat → List Element
  | 0, _ => []
  | count + 1, offset => ⟨op, offset⟩ :: op.elementsFrom count (offset + op.width)

/-- The elements of an operation at an offset.  Padding has none. -/
def elements (op : Operation) (offset : Nat) : List Element :=
  if op.directive.encoding = .padding then [] else op.elementsFrom (op.count.resolve 0) offset

/-- How many bytes an operation stands for. -/
def extent (op : Operation) : Nat :=
  if op.directive.encoding = .padding then op.count.resolve 0 else op.count.resolve 0 * op.width

end Operation

namespace Program

/-- The elements of a program at an offset, in order. -/
def elements : Program → Nat → List Element
  | [], _ => []
  | op :: program, offset => op.elements offset ++ elements program (offset + op.extent)

/-- How many bytes a program stands for. -/
def extent : Program → Nat
  | [] => 0
  | op :: program => op.extent + extent program

end Program

/-! ### Rows of elements -/

namespace Element

variable {data : Bytes}

theorem numbers_nil : numbers data [] = .ok [] :=
  rfl

theorem numbers_cons_of_there {e : Element} (there : e.isThere data = true)
    (elements : List Element) :
    numbers data (e :: elements) = (numbers data elements).map (e.number data :: ·) := by
  unfold numbers
  rw [List.find?_cons_of_neg (by simp [there])]
  cases elements.find? fun e => ! e.isThere data <;> rfl

theorem numbers_cons_of_missing {e : Element} (missing : e.isThere data = false)
    (elements : List Element) : numbers data (e :: elements) = .error (e.fault data) := by
  unfold numbers
  rw [List.find?_cons_of_pos (by simp [missing])]

theorem numbers_append (first second : List Element) :
    numbers data (first ++ second) =
      match numbers data first with
      | .error fault => .error fault
      | .ok values => (numbers data second).map (values ++ ·) := by
  induction first with
  | nil =>
    rw [List.nil_append, numbers_nil]
    cases numbers data second <;> rfl
  | cons e first ih =>
    rw [List.cons_append]
    cases there : e.isThere data with
    | false => rw [numbers_cons_of_missing there, numbers_cons_of_missing there]
    | true =>
      rw [numbers_cons_of_there there, numbers_cons_of_there there, ih]
      cases numbers data first with
      | error fault => rfl
      | ok values => cases numbers data second <;> rfl

theorem numbers_eq_ok_iff {elements : List Element} {values : List Value} :
    numbers data elements = .ok values ↔
      (∀ e ∈ elements, e.offset + e.op.width ≤ data.length) ∧
        values = elements.map (number data) := by
  unfold numbers
  cases found : elements.find? fun e => ! e.isThere data with
  | none =>
    have there : ∀ e ∈ elements, e.offset + e.op.width ≤ data.length := by
      simpa [isThere] using List.find?_eq_none.mp found
    constructor
    · rintro ⟨⟩
      exact ⟨there, rfl⟩
    · rintro ⟨-, rfl⟩
      rfl
  | some e =>
    have missing : data.length < e.offset + e.op.width := by
      simpa [isThere] using List.find?_some found
    simp only [reduceCtorEq, false_iff, not_and]
    intro there
    exact absurd (there e (List.mem_of_find?_eq_some found)) (Nat.not_le.mpr missing)

/-- The first element that is not there is to blame. -/
theorem numbers_append_of_missing {before after : List Element} {e : Element}
    (there : ∀ earlier ∈ before, earlier.offset + earlier.op.width ≤ data.length)
    (missing : data.length < e.offset + e.op.width) :
    numbers data (before ++ e :: after) = .error (e.fault data) := by
  have is_missing : e.isThere data = false := by simpa [isThere] using missing
  rw [numbers_append, numbers_eq_ok_iff.mpr ⟨there, rfl⟩, numbers_cons_of_missing is_missing]
  rfl

end Element

/-! ### Reading -/

namespace Operation

variable {op : Operation}

theorem mem_elementsFrom {count offset : Nat} {e : Element}
    (member : e ∈ op.elementsFrom count offset) :
    e.op = op ∧ e.offset + op.width ≤ offset + count * op.width := by
  induction count generalizing offset with
  | zero => cases member
  | succ count ih =>
    rw [Nat.succ_mul]
    rcases List.mem_cons.mp member with rfl | later
    · exact ⟨rfl, by dsimp only; omega⟩
    · obtain ⟨same, bound⟩ := ih later
      exact ⟨same, by omega⟩

section Numeric

variable (numeric : op.directive.encoding.isFixedWidthNumeric = true)

include numeric

/-- A number needs all its bytes. -/
theorem readElement_of_numeric (bs : Bytes) :
    op.readElement bs =
      match op.require op.width bs with
      | .error fault => .error fault
      | .ok (field, rest) => .ok (op.numberOf field, rest) := by
  rcases Encoding.eq_of_isFixedWidthNumeric numeric with encoding | encoding
  · cases required : op.require op.width bs <;>
      simp [readElement, numberOf, encoding, readInteger, required]
  · cases required : op.require op.width bs <;>
      simp [readElement, numberOf, encoding, readFloat, required]

section Fields

variable {γ : Type} {form : γ → Bytes} (uniform : ∀ c, (form c).length = op.width)

include uniform

/-- Fields one behind the other are read as their numbers. -/
theorem readTimes_fields (cs : List γ) (tail : Bytes) :
    readTimes op.readElement cs.length (cs.flatMap form ++ tail) =
      .ok (cs.map fun c => op.numberOf (form c), tail) := by
  induction cs with
  | nil => rfl
  | cons c cs ih =>
    rw [List.length_cons, readTimes_succ_eq_ok_iff]
    refine ⟨_, _, _, ?_, ih, rfl⟩
    rw [List.flatMap_cons, List.append_assoc, readElement_of_numeric numeric,
      require_eq_ok_iff.mpr ⟨rfl, uniform c⟩]

/-- Bytes that are as many fields as are asked for are read to the end. -/
theorem unpack_fields (positive : 0 < op.width) {cs : List γ}
    (all : op.count.resolve cs.length = cs.length) :
    op.unpack (cs.flatMap form) = .ok (cs.map fun c => op.numberOf (form c), []) := by
  have count : (cs.flatMap form).length / op.width = cs.length := by
    rw [length_flatMap_uniform uniform, Nat.mul_div_cancel_left _ positive]
  have read := readTimes_fields numeric uniform cs []
  rw [List.append_nil] at read
  rw [unpack_eq_readTimes_of_numeric numeric, count, all, read]

end Fields

variable {data : Bytes} {offset : Nat}

/-- An element whose bytes are there is read as its number. -/
theorem readElement_of_there (there : Element.isThere data ⟨op, offset⟩ = true) :
    op.readElement (data.drop offset) =
      .ok (Element.number data ⟨op, offset⟩, data.drop (offset + op.width)) := by
  have enough : op.width ≤ (data.drop offset).length := by
    simp only [Element.isThere, decide_eq_true_eq] at there
    rw [List.length_drop]
    omega
  have required : op.require op.width (data.drop offset) =
      .ok ((data.drop offset).take op.width, (data.drop offset).drop op.width) :=
    require_eq_ok_iff.mpr ⟨(List.take_append_drop ..).symm, List.length_take_of_le enough⟩
  rw [readElement_of_numeric numeric, required, List.drop_drop]
  rfl

/-- An element whose bytes are not all there is to blame.  Some byte of it is missing, as it has a
width. -/
theorem readElement_of_missing (positive : 0 < op.width)
    (missing : Element.isThere data ⟨op, offset⟩ = false) :
    op.readElement (data.drop offset) = .error (Element.fault data ⟨op, offset⟩) := by
  have short : (data.drop offset).length < op.width := by
    simp only [Element.isThere, decide_eq_false_iff_not] at missing
    rw [List.length_drop]
    omega
  rw [readElement_of_numeric numeric, require_eq_error_iff.mpr ⟨short, rfl⟩, List.length_drop]
  rfl

/-- Elements one behind the other are read at their places. -/
theorem readTimes_drop (positive : 0 < op.width) (count offset : Nat) (data : Bytes) :
    readTimes op.readElement count (data.drop offset) =
      (Element.numbers data (op.elementsFrom count offset)).map
        (·, data.drop (offset + count * op.width)) := by
  induction count generalizing offset with
  | zero =>
    rw [Nat.zero_mul]
    rfl
  | succ count ih =>
    rw [readTimes, elementsFrom]
    cases there : Element.isThere data ⟨op, offset⟩ with
    | false =>
      rw [readElement_of_missing numeric positive there, Element.numbers_cons_of_missing there]
      rfl
    | true =>
      have further : offset + op.width + count * op.width = offset + (count + 1) * op.width := by
        rw [Nat.succ_mul]
        omega
      rw [readElement_of_there numeric there, Element.numbers_cons_of_there there]
      dsimp only
      rw [ih, further]
      cases Element.numbers data (op.elementsFrom count (offset + op.width)) <;> rfl

/-- Numbers of fixed width are read as long as their bytes are there. -/
theorem exists_readTimes (positive : 0 < op.width) {count : Nat} {data : Bytes}
    (enough : count * op.width ≤ data.length) :
    ∃ values rest, rest <:+ data ∧ rest.length = data.length - count * op.width ∧
      readTimes op.readElement count data = .ok (values, rest) := by
  have there : ∀ e ∈ op.elementsFrom count 0, e.offset + e.op.width ≤ data.length := by
    intro e member
    obtain ⟨rfl, bound⟩ := mem_elementsFrom member
    omega
  have read := readTimes_drop numeric positive count 0 data
  rw [Element.numbers_eq_ok_iff.mpr ⟨there, rfl⟩, List.drop_zero, Nat.zero_add] at read
  exact ⟨_, _, List.drop_suffix .., List.length_drop, read⟩

end Numeric

/-- **One operation** reads its elements at their places. -/
theorem IsPlaced.unpack_drop (placed : op.IsPlaced) (wellFormed : op.WellFormed) (offset : Nat)
    (data : Bytes) :
    op.unpack (data.drop offset) =
      (Element.numbers data (op.elements offset)).map (·, data.drop (offset + op.extent)) := by
  obtain ⟨counted, numeric | padding⟩ := placed
  · have valued : op.directive.encoding ≠ .padding := by
      intro padding
      rw [padding] at numeric
      exact absurd numeric (by decide)
    rw [unpack_eq_readTimes_of_numeric numeric, Count.resolve_eq counted _ 0, elements, extent,
      if_neg valued, if_neg valued]
    exact readTimes_drop numeric (wellFormed.width_pos numeric) _ offset data
  · rw [elements, extent, if_pos padding, if_pos padding]
    simp only [unpack, padding, Count.resolve_eq counted _ 0, List.drop_drop]
    rfl

end Operation

namespace Program

/-- **A program** reads its elements at their places. -/
theorem unpackFront_drop {program : Program} (wellFormed : ∀ op ∈ program, op.WellFormed)
    (placed : ∀ op ∈ program, op.IsPlaced) (offset : Nat) (data : Bytes) :
    program.unpackFront (data.drop offset) =
      (Element.numbers data (program.elements offset)).map
        (·, data.drop (offset + program.extent)) := by
  induction program generalizing offset with
  | nil => rfl
  | cons op program ih =>
    obtain ⟨op_wellFormed, others_wellFormed⟩ := List.forall_mem_cons.mp wellFormed
    obtain ⟨op_placed, others_placed⟩ := List.forall_mem_cons.mp placed
    have behind : offset + extent (op :: program) = offset + op.extent + extent program := by
      rw [extent, Nat.add_assoc]
    rw [unpackFront, op_placed.unpack_drop op_wellFormed, elements, Element.numbers_append, behind]
    cases Element.numbers data (op.elements offset) with
    | error fault => rfl
    | ok values =>
      simp only [Except.map]
      rw [ih others_wellFormed others_placed]
      cases Element.numbers data (elements program (offset + op.extent)) <;> rfl

theorem unpack_eq_numbers {program : Program} (wellFormed : ∀ op ∈ program, op.WellFormed)
    (placed : ∀ op ∈ program, op.IsPlaced) (data : Bytes) :
    program.unpack data = Element.numbers data (program.elements 0) := by
  have front := unpackFront_drop wellFormed placed 0 data
  rw [List.drop_zero] at front
  rw [unpack, front]
  cases Element.numbers data (program.elements 0) <;> rfl

/-- **Numbers.** A program of numbers of fixed width and padding unpacks bytes iff these hold all of
its elements, and then each number is the one in the bytes of its element.  Otherwise the first
element that is not all there is to blame. -/
theorem unpack_numbers {text : String} {program : Program}
    (parsed : Program.parse text = .ok program) (placed : ∀ op ∈ program, op.IsPlaced)
    (data : Bytes) :
    ((∃ values, program.unpack data = .ok values) ↔
        ∀ e ∈ program.elements 0, e.offset + e.op.width ≤ data.length) ∧
      (∀ values, program.unpack data = .ok values →
        values = (program.elements 0).map (Element.number data)) ∧
      ∀ before e after, program.elements 0 = before ++ e :: after →
        (∀ earlier ∈ before, earlier.offset + earlier.op.width ≤ data.length) →
        data.length < e.offset + e.op.width →
        program.unpack data =
          .error (.truncated e.op.letter e.op.width (data.length - e.offset)) := by
  rw [unpack_eq_numbers (spells_of_parse parsed).wellFormed placed]
  refine ⟨?_, ?_, ?_⟩
  · simp only [Element.numbers_eq_ok_iff, exists_and_left, exists_eq, and_true]
  · exact fun values read => (Element.numbers_eq_ok_iff.mp read).2
  · intro before e after split there missing
    rw [split]
    exact Element.numbers_append_of_missing there missing

/-- The padding skips its bytes where these are there.  Where only one of them is, the number behind
it is missing all of its own bytes. -/
theorem unpack_numbers_behind_padding :
    ∃ program, Program.parse "s>x3N" = .ok program ∧ (∀ op ∈ program, op.IsPlaced) ∧
      program.unpack [1, 2, 0, 0, 0, 0, 0, 0, 7] = .ok [.integer 258, .integer 7] ∧
      program.unpack [1, 2, 0] = .error (.truncated 'N' 4 0) := by
  have parsed : Program.parse "s>x3N" = .ok
      [⟨Directive.hostInteger 's' 2 2 true "signed 16-bit integer", ⟨false, some .big⟩, .once⟩,
        ⟨⟨'x', .padding, 1, false, .native, none, "null byte"⟩, .none, .times 3⟩,
        ⟨Directive.fixedInteger 'N' 4 false .big "32-bit network order", .none, .once⟩] := rfl
  refine ⟨_, parsed, by decide, ?_, ?_⟩
  · obtain ⟨succeeds, numbers, -⟩ :=
      unpack_numbers parsed (by decide) [1, 2, 0, 0, 0, 0, 0, 0, 7]
    obtain ⟨values, read⟩ := succeeds.mpr (by decide)
    rw [read, numbers values read]
    rfl
  · obtain ⟨-, -, blames⟩ := unpack_numbers parsed (by decide) [1, 2, 0]
    exact blames [_] _ [] rfl (by decide) (by decide)

end Program

end DirectivePack
