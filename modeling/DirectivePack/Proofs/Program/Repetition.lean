import DirectivePack.Proofs.Format.CanonicalText
import DirectivePack.Proofs.Program.Places

/-!
A star is a repetition.

Integers, numbers of floating point, characters and compressed integers can be repeated by a count,
by a star, or by writing their directive again and again.  Packing takes the three for the same, and
a star reads what is read by the directive without it, written often enough.

* `readWithin_of_length_le`: reading until nothing is left takes at most as many reads as there are
  elements to use up.
* `parse_token`, `parse_repeated`: the programs of a directive with a count and of one written again
  and again.
* `Operation.packFront_replicate`, `Operation.unpackFront_replicate`: what such programs do.
* `star_eq_repetition`: a star is a repetition.
-/

namespace DirectivePack

/-! ### Reading until nothing is left -/

section Rows

variable {α β ε : Type} {read : List α → Except ε (β × List α)}

/-- Reads until nothing is left, and gives up after so many reads. -/
def readWithin (read : List α → Except ε (β × List α)) :
    Nat → List α → Option (Except ε (List β))
  | _, [] => some (.ok [])
  | 0, _ :: _ => none
  | budget + 1, x :: xs =>
    match read (x :: xs) with
    | .error e => some (.error e)
    | .ok (value, rest) => (readWithin read budget rest).map (Except.map (value :: ·))

/-- Reading to the end takes at most as many reads as there are elements to use up. -/
theorem readWithin_of_length_le
    (progress : ∀ xs value rest, read xs = .ok (value, rest) → rest.length < xs.length)
    {budget : Nat} {xs : List α} (enough : xs.length ≤ budget) :
    readWithin read budget xs = some (readAll read progress xs) := by
  induction budget generalizing xs with
  | zero =>
    rw [List.eq_nil_of_length_eq_zero (Nat.le_zero.mp enough), readWithin, readAll_nil]
  | succ budget ih =>
    cases xs with
    | nil => rw [readWithin, readAll_nil]
    | cons x xs =>
      rw [readWithin]
      cases first : read (x :: xs) with
      | error e => rw [readAll_of_error progress (List.cons_ne_nil _ _) first]
      | ok found =>
        obtain ⟨value, rest⟩ := found
        have shorter := progress _ _ _ first
        rw [readAll_of_ok progress first]
        dsimp only
        rw [ih (by omega)]
        rfl

end Rows

/-! ### Directives written again and again -/

/-- Whether a count says how often an element is repeated. -/
def Encoding.repeats : Encoding → Bool
  | .integer | .float | .utf8 | .ber => true
  | _ => false

namespace Directive

/-- The directive with modifiers, asked for by marks, and a count. -/
def operation (d : Directive) (marks : List Char) (count : Count) : Operation :=
  ⟨d, .ofMarks marks, count⟩

/-- The letter, marks and a count. -/
def token (d : Directive) (marks : List Char) (count : Count) : String :=
  String.ofList (d.letter :: marks) ++ count.text

end Directive

/-- A letter with a count. -/
def countedLetter (letter : Char) (count : Count) : String :=
  String.ofList [letter] ++ count.text

/-- A text written again and again, with nothing in between. -/
def repeated (n : Nat) (text : String) : String :=
  String.join (List.replicate n text)

section Parse

variable {d : Directive} {marks : List Char} (in_table : d ∈ Directive.table)
  (allowed : MarksAllowed d.letter marks)

include in_table allowed

theorem spells_token (count : Count) (count_le : ∀ n, count = .times n → n ≤ Count.greatest)
    {rest : List Char} {program : Program} (spells : Spells rest program) :
    Spells ((d.token marks count).toList ++ rest) (d.operation marks count :: program) := by
  have token := Spells.token in_table allowed (Count.countText_text count_le)
    (spells.maximal count) spells
  simpa [Directive.token, Directive.operation] using token

theorem parse_token (count : Count) (count_le : ∀ n, count = .times n → n ≤ Count.greatest) :
    Program.parse (d.token marks count) = .ok [d.operation marks count] := by
  have token := spells_token in_table allowed count count_le .nil
  rw [List.append_nil] at token
  exact parse_of_spells token

theorem parse_repeated (n : Nat) :
    Program.parse (repeated n (d.token marks .once)) =
      .ok (List.replicate n (d.operation marks .once)) := by
  apply parse_of_spells
  induction n with
  | zero => exact .nil
  | succ n ih =>
    have token := spells_token in_table allowed .once nofun ih
    simpa [repeated, List.replicate_succ] using token

end Parse

/-! ### Elements whatever the count -/

namespace Operation

variable {d : Directive} (repeats : d.encoding.repeats = true) (marks : List Char)

include repeats

theorem encoding_ne_padding : d.encoding ≠ .padding := by
  intro padding
  rw [padding] at repeats
  exact absurd repeats (by decide)

theorem arity_operation (count : Count) (available : Nat) :
    (d.operation marks count).arity available = count.resolve available := by
  obtain ⟨letter, encoding, width, signed, order, native, summary⟩ := d
  cases encoding with
  | integer | float | utf8 | ber => rfl
  | raw | padding | hexString | bitString | base64 => cases repeats

theorem encodeValue_operation (count : Count) :
    (d.operation marks count).encodeValue = (d.operation marks .once).encodeValue := by
  obtain ⟨letter, encoding, width, signed, order, native, summary⟩ := d
  cases encoding with
  | integer | float | utf8 | ber => rfl
  | raw | padding | hexString | bitString | base64 => cases repeats

theorem readElement_operation (count : Count) :
    (d.operation marks count).readElement = (d.operation marks .once).readElement := by
  obtain ⟨letter, encoding, width, signed, order, native, summary⟩ := d
  cases encoding with
  | integer | float | utf8 | ber => rfl
  | raw | padding | hexString | bitString | base64 => cases repeats

/-! ### Packing -/

theorem encode_operation (count : Count) (taken : List Value) :
    (d.operation marks count).encode taken =
      encodeEach (d.operation marks .once).encodeValue taken := by
  rw [encode_eq_encodeEach (encoding_ne_padding repeats), encodeValue_operation repeats]

/-- An operation for all values writes them one after the other. -/
theorem pack_operation {count : Count} {values : List Value}
    (all : count.resolve values.length = values.length) :
    (d.operation marks count).pack values =
      (encodeEach (d.operation marks .once).encodeValue values).map (·, []) := by
  have split : front? values.length values = some (values, []) :=
    front?_eq_some_iff.mpr ⟨(List.append_nil values).symm, rfl⟩
  rw [pack, arity_operation repeats, all, split]
  dsimp only
  rw [encode_operation repeats]
  cases encodeEach (d.operation marks .once).encodeValue values <;> rfl

/-- An operation without a count writes one value. -/
theorem pack_operation_once (v : Value) (values : List Value) :
    (d.operation marks .once).pack (v :: values) =
      ((d.operation marks .once).encodeValue v).map (·, values) := by
  rw [pack, arity_operation repeats]
  simp only [Count.resolve, front?, Option.map_some, encode_operation repeats, encodeEach]
  cases (d.operation marks .once).encodeValue v with
  | error fault => rfl
  | ok bs => simp [Except.map]

/-- As many operations as there are values write them one after the other. -/
theorem packFront_replicate (values : List Value) :
    Program.packFront (List.replicate values.length (d.operation marks .once)) values =
      (encodeEach (d.operation marks .once).encodeValue values).map (·, []) := by
  induction values with
  | nil => rfl
  | cons v values ih =>
    rw [List.length_cons, List.replicate_succ, Program.packFront, pack_operation_once repeats,
      encodeEach]
    cases (d.operation marks .once).encodeValue v with
    | error fault => rfl
    | ok bs =>
      dsimp only [Except.map]
      rw [ih]
      cases encodeEach (d.operation marks .once).encodeValue values <;> rfl

/-! ### Unpacking -/

/-- An operation with a count reads so many elements. -/
theorem unpack_operation {count : Count} (counted : count ≠ .all) (bs : Bytes) :
    (d.operation marks count).unpack bs =
      readTimes (d.operation marks .once).readElement (count.resolve 0) bs := by
  rw [unpack_eq_readTimes (counted_of_ne_all counted) (encoding_ne_padding repeats),
    arity_operation repeats, readElement_operation repeats]

/-- So many operations without a count read so many elements. -/
theorem unpackFront_replicate (n : Nat) (bs : Bytes) :
    Program.unpackFront (List.replicate n (d.operation marks .once)) bs =
      readTimes (d.operation marks .once).readElement n bs := by
  induction n generalizing bs with
  | zero => rfl
  | succ n ih =>
    have starless : Count.once ≠ .all := nofun
    rw [List.replicate_succ, Program.unpackFront, unpack_operation repeats marks starless,
      readTimes]
    simp only [Count.resolve, readTimes]
    cases (d.operation marks .once).readElement bs with
    | error fault => rfl
    | ok found =>
      obtain ⟨v, rest⟩ := found
      dsimp only
      rw [ih]
      cases readTimes (d.operation marks .once).readElement n rest <;> rfl

/-- Each element without a fixed width uses something up. -/
theorem readElement_rest_length_lt (varies : d.encoding.isFixedWidthNumeric = false) (bs : Bytes)
    (v : Value) (rest : Bytes) (read : (d.operation marks .once).readElement bs = .ok (v, rest)) :
    rest.length < bs.length := by
  obtain ⟨letter, encoding, width, signed, order, native, summary⟩ := d
  cases encoding with
  | utf8 => exact readChar_rest_length_lt _ _ _ _ read
  | ber => exact readBer_rest_length_lt _ _ _ _ read
  | integer | float => cases varies
  | raw | padding | hexString | bitString | base64 => cases repeats

/-- A star on elements without a fixed width reads until nothing is left. -/
theorem unpack_operation_all_of_varies (varies : d.encoding.isFixedWidthNumeric = false)
    (bs : Bytes) :
    (d.operation marks .all).unpack bs =
      (readAll (d.operation marks .once).readElement
        (readElement_rest_length_lt repeats marks varies) bs).map (·, []) := by
  obtain ⟨letter, encoding, width, signed, order, native, summary⟩ := d
  cases encoding with
  | utf8 | ber => rfl
  | integer | float => cases varies
  | raw | padding | hexString | bitString | base64 => cases repeats

end Operation

/-! ### Directive strings -/

/-- Unpacks bytes by a directive string, and tells which bytes are left. -/
def unpackFront (format : String) (bs : Bytes) : Except Fault (List Value × Bytes) :=
  match Program.parse format with
  | .error fault => .error fault
  | .ok program => program.unpackFront bs

theorem unpack_eq_map_unpackFront (format : String) (bs : Bytes) :
    unpack format bs = (unpackFront format bs).map Prod.fst := by
  unfold unpack unpackFront
  cases Program.parse format with
  | error fault => rfl
  | ok program =>
    dsimp only [Program.unpack]
    cases program.unpackFront bs <;> rfl

/-- A single operation for one value writes that value. -/
theorem pack_of_parse_singleton {format : String} {op : Operation}
    (parsed : Program.parse format = .ok [op]) (single : ∀ available, op.arity available = 1)
    (v : Value) : pack format [v] = op.encodeValue v := by
  have valued : op.directive.encoding ≠ .padding := by
    intro padding
    have none_taken : op.arity 0 = 0 := by rw [Operation.arity, padding]
    rw [single] at none_taken
    cases none_taken
  rw [pack, parsed]
  dsimp only [Program.pack]
  rw [Program.packFront_singleton, Operation.pack, single]
  simp only [front?, Option.map_some, Operation.encode_eq_encodeEach valued, encodeEach]
  cases op.encodeValue v with
  | error fault => rfl
  | ok bs => simp only [List.append_nil]

theorem unpackFront_of_parse_singleton {format : String} {op : Operation}
    (parsed : Program.parse format = .ok [op]) (bs : Bytes) :
    unpackFront format bs = op.unpack bs := by
  rw [unpackFront, parsed]
  exact Program.unpackFront_singleton op bs

section Star

variable {d : Directive} {marks : List Char} (in_table : d ∈ Directive.table)
  (allowed : MarksAllowed d.letter marks)

include in_table allowed

theorem pack_token (count : Count) (count_le : ∀ n, count = .times n → n ≤ Count.greatest)
    (repeats : d.encoding.repeats = true) {values : List Value}
    (all : count.resolve values.length = values.length) :
    pack (d.token marks count) values =
      encodeEach (d.operation marks .once).encodeValue values := by
  rw [pack, parse_token in_table allowed count count_le]
  dsimp only [Program.pack]
  rw [Program.packFront_singleton, Operation.pack_operation repeats marks all]
  cases encodeEach (d.operation marks .once).encodeValue values <;> rfl

theorem pack_repeated (repeats : d.encoding.repeats = true) (values : List Value) :
    pack (repeated values.length (d.token marks .once)) values =
      encodeEach (d.operation marks .once).encodeValue values := by
  rw [pack, parse_repeated in_table allowed]
  dsimp only [Program.pack]
  rw [Operation.packFront_replicate repeats]
  cases encodeEach (d.operation marks .once).encodeValue values <;> rfl

theorem unpackFront_token (count : Count)
    (count_le : ∀ n, count = .times n → n ≤ Count.greatest) (bs : Bytes) :
    unpackFront (d.token marks count) bs = (d.operation marks count).unpack bs :=
  unpackFront_of_parse_singleton (parse_token in_table allowed count count_le) bs

theorem unpack_token_eq_ok (count : Count) (count_le : ∀ n, count = .times n → n ≤ Count.greatest)
    {bs rest : Bytes} {values : List Value}
    (unpacked : (d.operation marks count).unpack bs = .ok (values, rest)) :
    unpack (d.token marks count) bs = .ok values := by
  rw [unpack_eq_map_unpackFront, unpackFront_token in_table allowed count count_le, unpacked]
  rfl

theorem unpackFront_repeated (repeats : d.encoding.repeats = true) (n : Nat) (bs : Bytes) :
    unpackFront (repeated n (d.token marks .once)) bs =
      readTimes (d.operation marks .once).readElement n bs := by
  rw [unpackFront, parse_repeated in_table allowed]
  exact Operation.unpackFront_replicate repeats marks n bs

theorem unpackFront_token_once (repeats : d.encoding.repeats = true) (bs : Bytes) :
    unpackFront (d.token marks .once) bs =
      ((d.operation marks .once).readElement bs).map fun (v, rest) => ([v], rest) := by
  have starless : Count.once ≠ .all := nofun
  rw [unpackFront_token in_table allowed .once nofun,
    Operation.unpack_operation repeats marks starless]
  simp only [Count.resolve, readTimes]
  cases (d.operation marks .once).readElement bs <;> rfl

/-- A star on numbers of fixed width reads as many as are there, and what does not suffice for one
more is left. -/
theorem unpackFront_star_of_fixedWidth (repeats : d.encoding.repeats = true)
    (fixedWidth : d.encoding.isFixedWidthNumeric = true) {data : Bytes} {k width : Nat}
    (width_eq : (d.operation marks .all).width = width) (k_eq : data.length / width = k) :
    ∃ values rest, rest <:+ data ∧ rest.length = data.length % width ∧
      unpackFront (d.token marks .all) data = .ok (values, rest) ∧
      unpackFront (repeated k (d.token marks .once)) data = .ok (values, rest) ∧
      (k ≤ Count.greatest →
        unpackFront (d.token marks (.times k)) data = .ok (values, rest)) := by
  subst width_eq k_eq
  have wellFormed : (d.operation marks .once).WellFormed :=
    (spells_of_parse (parse_token in_table allowed .once nofun)).wellFormed _ (.head _)
  obtain ⟨values, rest, suffix, length, read⟩ :=
    Operation.exists_readTimes fixedWidth (wellFormed.width_pos fixedWidth)
      (Nat.div_mul_le_self data.length (d.operation marks .once).width)
  rw [← Nat.mod_eq_sub_div_mul] at length
  refine ⟨values, rest, suffix, length, ?_, ?_, fun k_le => ?_⟩
  · have all : (d.operation marks .all).directive.encoding.isFixedWidthNumeric = true := fixedWidth
    rw [unpackFront_token in_table allowed .all nofun,
      Operation.unpack_eq_readTimes_of_numeric all, Operation.readElement_operation repeats]
    exact read
  · rw [unpackFront_repeated in_table allowed repeats]
    exact read
  · have starless : Count.times (data.length / (d.operation marks .all).width) ≠ .all := nofun
    rw [unpackFront_token in_table allowed _ (by rintro _ ⟨⟩; exact k_le),
      Operation.unpack_operation repeats marks starless]
    exact read

/-- A star on elements without a fixed width reads until nothing is left. -/
theorem unpack_star_of_varies (repeats : d.encoding.repeats = true)
    (varies : d.encoding.isFixedWidthNumeric = false) (data : Bytes) :
    unpack (d.token marks .all) data = readAll (d.operation marks .once).readElement
      (Operation.readElement_rest_length_lt repeats marks varies) data := by
  rw [unpack_eq_map_unpackFront, unpackFront_token in_table allowed .all nofun,
    Operation.unpack_operation_all_of_varies repeats marks varies]
  cases readAll (d.operation marks .once).readElement
    (Operation.readElement_rest_length_lt repeats marks varies) data <;> rfl

end Star

/-- **A star is a repetition.** Let `d` be a directive for integers, numbers of floating point,
characters or compressed integers, with any modifiers that it takes.

Values are packed the same by a star, by a count that says how many they are, and by a directive for
each of them.

A star on numbers of fixed width reads as many as there are bytes for, as do that count and so many
directives; all three leave the bytes that do not suffice for one more.

A star on elements without a fixed width ends after at most as many reads as there are bytes.  It
succeeds iff so many directives read all the bytes, with the same values, and fails iff after some
directives bytes are left from which one more fails, with the same fault. -/
theorem star_eq_repetition {d : Directive} {marks : List Char} (in_table : d ∈ Directive.table)
    (allowed : MarksAllowed d.letter marks) (repeats : d.encoding.repeats = true) :
    (∀ values,
      pack (repeated values.length (d.token marks .once)) values =
          pack (d.token marks .all) values ∧
        (values.length ≤ Count.greatest →
          pack (d.token marks (.times values.length)) values =
            pack (d.token marks .all) values)) ∧
    (d.encoding.isFixedWidthNumeric = true →
      ∀ (data : Bytes) (k width : Nat), (d.operation marks .all).width = width →
        data.length / width = k →
        ∃ values rest, rest <:+ data ∧ rest.length = data.length % width ∧
          unpackFront (d.token marks .all) data = .ok (values, rest) ∧
          unpackFront (repeated k (d.token marks .once)) data = .ok (values, rest) ∧
          (k ≤ Count.greatest →
            unpackFront (d.token marks (.times k)) data = .ok (values, rest))) ∧
    (d.encoding.isFixedWidthNumeric = false → ∀ data : Bytes,
      readWithin (d.operation marks .once).readElement data.length data =
          some (unpack (d.token marks .all) data) ∧
        (∀ values, unpack (d.token marks .all) data = .ok values ↔
          unpackFront (repeated values.length (d.token marks .once)) data = .ok (values, [])) ∧
        ∀ fault, unpack (d.token marks .all) data = .error fault ↔
          ∃ m values rest, m < data.length ∧
            unpackFront (repeated m (d.token marks .once)) data = .ok (values, rest) ∧
            rest ≠ [] ∧ unpack (d.token marks .once) rest = .error fault) := by
  refine ⟨?_, ?_, ?_⟩
  · intro values
    have all : pack (d.token marks .all) values =
        encodeEach (d.operation marks .once).encodeValue values :=
      pack_token in_table allowed .all nofun repeats rfl
    rw [all]
    constructor
    · exact pack_repeated in_table allowed repeats values
    · intro few
      exact pack_token in_table allowed _ (by rintro _ ⟨⟩; exact few) repeats rfl
  · intro fixedWidth data k width width_eq k_eq
    exact unpackFront_star_of_fixedWidth in_table allowed repeats fixedWidth width_eq k_eq
  · intro varies data
    have progress := Operation.readElement_rest_length_lt repeats marks varies
    rw [unpack_star_of_varies in_table allowed repeats varies]
    simp only [unpackFront_repeated in_table allowed repeats]
    refine ⟨readWithin_of_length_le progress (Nat.le_refl _), ?_, ?_⟩
    · intro values
      exact readAll_eq_ok_iff_readTimes progress
    · intro fault
      simp only [unpack_eq_map_unpackFront, unpackFront_token_once in_table allowed repeats,
        map_eq_error_iff, readAll_eq_error_iff_readTimes]
      constructor
      · rintro ⟨m, values, rest, read_times, nonempty, fails⟩
        have used := readTimes_rest_length progress read_times
        have some_left := List.length_pos_iff.mpr nonempty
        exact ⟨m, values, rest, by omega, read_times, nonempty, fails⟩
      · rintro ⟨m, values, rest, -, read_times, nonempty, fails⟩
        exact ⟨m, values, rest, read_times, nonempty, fails⟩

/-- Two big-endian shorts, five bytes of which the last one is left, and a character in front of a
byte that starts none. -/
theorem star_eq_repetition_of_shorts_and_characters :
    (pack "s>s>" [.integer 1, .integer 2] = pack "s>*" [.integer 1, .integer 2] ∧
      pack "s>2" [.integer 1, .integer 2] = pack "s>*" [.integer 1, .integer 2]) ∧
    (∃ values rest, rest.length = 1 ∧
      unpackFront "s>*" [0, 1, 0, 2, 3] = .ok (values, rest) ∧
      unpackFront "s>s>" [0, 1, 0, 2, 3] = .ok (values, rest) ∧
      unpackFront "s>2" [0, 1, 0, 2, 3] = .ok (values, rest)) ∧
    unpack "U*" [0x41, 0xFF] = .error (.malformed 'U' (.badLeadByte 0xFF)) := by
  have short : Directive.hostInteger 's' 2 2 true "signed 16-bit integer" ∈ Directive.table := by
    decide
  have big : MarksAllowed 's' ['>'] :=
    ⟨by simp [modifierMarks], by simp [markedLetters], by simp⟩
  have character : Directive.unsized 'U' .utf8 "UTF-8 character" ∈ Directive.table := by decide
  obtain ⟨packed, fixedWidth, -⟩ := star_eq_repetition short big rfl
  obtain ⟨-, -, varies⟩ := star_eq_repetition character (.nil 'U') rfl
  refine ⟨⟨(packed [.integer 1, .integer 2]).1, (packed [.integer 1, .integer 2]).2 (by decide)⟩,
    ?_, ?_⟩
  · obtain ⟨values, rest, -, left, all, written, counted⟩ :=
      fixedWidth rfl [0, 1, 0, 2, 3] 2 2 rfl rfl
    exact ⟨values, rest, left, all, written, counted (by decide)⟩
  · obtain ⟨-, -, fails⟩ := varies rfl [0x41, 0xFF]
    exact (fails _).mpr ⟨1, [.integer 65], [0xFF], by decide, rfl, by decide, rfl⟩

end DirectivePack
