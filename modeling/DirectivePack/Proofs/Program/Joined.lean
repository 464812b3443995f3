import DirectivePack.Proofs.Field.ShortestForm
import DirectivePack.Proofs.Format.Joined
import DirectivePack.Proofs.RoundTrip.Elements

/-!
Programs one behind the other.

A program hands to the next one the values that it did not take, or the bytes that it did not read,
and nothing else.  Which values these are follows from the operations and from how many values there
are; the bytes are the end of all the bytes.

* `Program.packFront_append`, `Program.unpackFront_append`: the second program goes on where the
  first one stopped.
* `Program.left_eq_drop`: the values that are left.
* `Operation.unpack_suffix`: the bytes that are left.
* `pack_and_unpack_append_newline`: directive strings on consecutive lines.
-/

namespace DirectivePack

/-! ### One behind the other -/

namespace Program

theorem packFront_append (first second : Program) (values : List Value) :
    packFront (first ++ second) values =
      match packFront first values with
      | .error fault => .error fault
      | .ok (bs, left) => (packFront second left).map fun (more, left) => (bs ++ more, left) := by
  induction first generalizing values with
  | nil =>
    simp only [List.nil_append, packFront]
    cases packFront second values <;> rfl
  | cons op first ih =>
    simp only [List.cons_append, packFront]
    cases op.pack values with
    | error fault => rfl
    | ok packed =>
      obtain ⟨bs, left⟩ := packed
      simp only [ih]
      cases packFront first left with
      | error fault => rfl
      | ok packed =>
        obtain ⟨more, left⟩ := packed
        dsimp only
        cases packFront second left <;> simp [Except.map]

theorem unpackFront_append (first second : Program) (data : Bytes) :
    unpackFront (first ++ second) data =
      match unpackFront first data with
      | .error fault => .error fault
      | .ok (values, rest) =>
        (unpackFront second rest).map fun (more, rest) => (values ++ more, rest) := by
  induction first generalizing data with
  | nil =>
    simp only [List.nil_append, unpackFront]
    cases unpackFront second data <;> rfl
  | cons op first ih =>
    simp only [List.cons_append, unpackFront]
    cases op.unpack data with
    | error fault => rfl
    | ok unpacked =>
      obtain ⟨values, rest⟩ := unpacked
      simp only [ih]
      cases unpackFront first rest with
      | error fault => rfl
      | ok unpacked =>
        obtain ⟨more, rest⟩ := unpacked
        dsimp only
        cases unpackFront second rest <;> simp [Except.map]

end Program

/-! ### Values that are left -/

/-- The letters that take one byte string, whatever the count. -/
def byteStringLetters : List Char := ['a', 'A', 'Z', 'H', 'h', 'B', 'b', 'm']

/-- How many of the values that are left an operation takes: none for padding, one for a byte string,
and for the others as many as the count says, all of them under a star. -/
def Operation.valuesTaken (op : Operation) (left : Nat) : Nat :=
  if op.letter = 'x' then 0
  else if op.letter ∈ byteStringLetters then 1
  else
    match op.count with
    | .once => 1
    | .times n => n
    | .all => left

/-- How many of the values that are left the operations of a program take, one after the other. -/
def Program.valuesTaken : Program → Nat → Nat
  | [], _ => 0
  | op :: program, left =>
    op.valuesTaken left + valuesTaken program (left - op.valuesTaken left)

/-- Whether a value is one byte string. -/
def Encoding.isByteString : Encoding → Bool
  | .raw _ | .hexString _ | .bitString _ | .base64 => true
  | _ => false

theorem Directive.letter_of_mem_table : ∀ d ∈ Directive.table,
    (d.letter = 'x' ↔ d.encoding = .padding) ∧
      (d.letter ∈ byteStringLetters ↔ d.encoding.isByteString = true) := by
  decide

theorem Operation.WellFormed.arity_eq {op : Operation} (wellFormed : op.WellFormed) (left : Nat) :
    op.arity left = op.valuesTaken left := by
  obtain ⟨padding, byteString⟩ := Directive.letter_of_mem_table op.directive wellFormed.in_table
  simp only [arity, valuesTaken, Operation.letter, padding, byteString]
  cases op.directive.encoding with
  | padding | raw | hexString | bitString | base64 => rfl
  | integer | float | utf8 | ber => cases op.count <;> rfl

/-- What an operation leaves are the values behind those that it takes. -/
theorem Operation.left_eq_drop {op : Operation} {values left : List Value} {bs : Bytes}
    (packed : op.pack values = .ok (bs, left)) : left = values.drop (op.arity values.length) := by
  obtain ⟨taken, whole, length, -⟩ := pack_eq_ok_iff.mp packed
  calc
    left = (taken ++ left).drop taken.length := List.drop_left.symm
    _ = values.drop (op.arity values.length) := by rw [← whole, length]

/-- What a program leaves are the values behind those that its operations take. -/
theorem Program.left_eq_drop {program : Program} (wellFormed : ∀ op ∈ program, op.WellFormed)
    {values left : List Value} {bs : Bytes} (packed : program.packFront values = .ok (bs, left)) :
    left = values.drop (program.valuesTaken values.length) := by
  induction program generalizing values bs with
  | nil =>
    simp only [packFront, Except.ok.injEq, Prod.mk.injEq] at packed
    exact packed.2.symm
  | cons op program ih =>
    obtain ⟨op_wellFormed, others⟩ := List.forall_mem_cons.mp wellFormed
    obtain ⟨piece, behind, more, first, packed_more, -⟩ := packFront_cons_eq_ok_iff.mp packed
    have behind_eq := Operation.left_eq_drop first
    rw [op_wellFormed.arity_eq] at behind_eq
    rw [ih others packed_more, behind_eq, List.length_drop, List.drop_drop, valuesTaken]

/-! ### Bytes that are left -/

theorem readTimes_suffix {β ε : Type} {read : Bytes → Except ε (β × Bytes)}
    (element : ∀ bs value rest, read bs = .ok (value, rest) → rest <:+ bs) {n : Nat}
    {bs rest : Bytes} {values : List β} (read_all : readTimes read n bs = .ok (values, rest)) :
    rest <:+ bs := by
  induction n generalizing bs values with
  | zero =>
    simp only [readTimes, Except.ok.injEq, Prod.mk.injEq] at read_all
    exact read_all.2 ▸ List.suffix_rfl
  | succ n ih =>
    obtain ⟨value, behind, more, first, others, -⟩ := readTimes_succ_eq_ok_iff.mp read_all
    exact (ih others).trans (element _ _ _ first)

theorem Base64.segment_suffix (bs : Bytes) : (segment bs).2 <:+ bs := by
  have behind : (bs.dropWhile (· != pad)).dropWhile (· == pad) <:+ bs :=
    (List.dropWhile_suffix _).trans (List.dropWhile_suffix _)
  unfold segment
  dsimp only
  split
  · rename_i rest same
    exact ((List.suffix_cons _ _).trans (List.suffix_cons _ _)).trans (same ▸ behind)
  · rename_i rest same
    exact (List.suffix_cons _ _).trans (same ▸ behind)
  · exact behind

theorem RawStyle.getAll_suffix (style : RawStyle) (bs : Bytes) : (style.getAll bs).2 <:+ bs := by
  cases style with
  | nullTerminated => exact (List.drop_suffix _ _).trans (List.dropWhile_suffix _)
  | nullPadded | spacePadded => exact List.nil_suffix

namespace Operation

variable {op : Operation} {bs rest : Bytes}

theorem readRaw_suffix (style : RawStyle) (count : Count) (bs : Bytes) :
    (readRaw style count bs).2 <:+ bs := by
  cases count with
  | all => exact style.getAll_suffix bs
  | once | times => exact List.drop_suffix _ _

theorem readBase64_suffix (count : Count) (bs : Bytes) : (readBase64 count bs).2 <:+ bs := by
  unfold readBase64
  split
  · exact List.nil_suffix
  · exact Base64.segment_suffix bs

theorem readBer_suffix {v : Value} (read : op.readBer bs = .ok (v, rest)) : rest <:+ bs := by
  obtain ⟨n, -, -, got⟩ := readBer_eq_ok_iff.mp read
  obtain ⟨form, rfl, -⟩ := Field.getBer_eq_ok_iff.mp got
  exact List.suffix_append _ _

theorem readChar_suffix {v : Value} (read : op.readChar bs = .ok (v, rest)) : rest <:+ bs := by
  obtain ⟨c, -, rfl⟩ := readChar_eq_ok_iff.mp read
  exact List.suffix_append _ _

theorem readInteger_suffix {v : Value} (read : op.readInteger bs = .ok (v, rest)) :
    rest <:+ bs := by
  obtain ⟨field, rfl, -⟩ := readInteger_eq_ok_iff.mp read
  exact List.suffix_append _ _

theorem readFloat_suffix {v : Value} (read : op.readFloat bs = .ok (v, rest)) : rest <:+ bs := by
  obtain ⟨field, rfl, -⟩ := readFloat_eq_ok_iff.mp read
  exact List.suffix_append _ _

/-- Reading to the end leaves nothing. -/
theorem rest_of_map_readAll {outcome : Except Fault (List Value)} {values : List Value}
    (read : outcome.map (·, ([] : Bytes)) = .ok (values, rest)) : rest = [] := by
  obtain ⟨_, -, same⟩ := map_eq_ok_iff.mp read
  exact (Prod.mk.inj same).2.symm

/-- **One operation** leaves an end of the bytes. -/
theorem unpack_suffix {values : List Value} (unpacked : op.unpack bs = .ok (values, rest)) :
    rest <:+ bs := by
  unfold unpack at unpacked
  cases encoding : op.directive.encoding with
  | padding =>
    simp only [encoding, Except.ok.injEq, Prod.mk.injEq] at unpacked
    exact unpacked.2 ▸ List.drop_suffix _ _
  | integer =>
    simp only [encoding] at unpacked
    exact readTimes_suffix (fun _ _ _ => readInteger_suffix) unpacked
  | float =>
    simp only [encoding] at unpacked
    exact readTimes_suffix (fun _ _ _ => readFloat_suffix) unpacked
  | raw style =>
    simp only [encoding, Except.ok.injEq, Prod.mk.injEq] at unpacked
    exact unpacked.2 ▸ readRaw_suffix style op.count bs
  | hexString order | bitString order =>
    simp only [encoding, Except.ok.injEq, Prod.mk.injEq] at unpacked
    exact unpacked.2 ▸ List.drop_suffix _ _
  | utf8 =>
    simp only [encoding] at unpacked
    split at unpacked
    · exact rest_of_map_readAll unpacked ▸ List.nil_suffix
    · exact readTimes_suffix (fun _ _ _ => readChar_suffix) unpacked
  | ber =>
    simp only [encoding] at unpacked
    split at unpacked
    · exact rest_of_map_readAll unpacked ▸ List.nil_suffix
    · exact readTimes_suffix (fun _ _ _ => readBer_suffix) unpacked
  | base64 =>
    have left := readBase64_suffix op.count bs
    rcases read : readBase64 op.count bs with ⟨fault | value, behind⟩
    · simp [encoding, read] at unpacked
    · simp only [encoding, read, Except.ok.injEq, Prod.mk.injEq] at unpacked
      rw [read] at left
      exact unpacked.2 ▸ left

end Operation

/-- A program leaves an end of the bytes. -/
theorem Program.unpackFront_suffix {program : Program} {data rest : Bytes} {values : List Value}
    (unpacked : program.unpackFront data = .ok (values, rest)) : rest <:+ data := by
  induction program generalizing data values with
  | nil =>
    simp only [unpackFront, Except.ok.injEq, Prod.mk.injEq] at unpacked
    exact unpacked.2 ▸ List.suffix_rfl
  | cons op program ih =>
    obtain ⟨read, behind, more, first, others, -⟩ := unpackFront_cons_eq_ok_iff.mp unpacked
    exact (ih others).trans (Operation.unpack_suffix first)

/-! ### Consecutive lines -/

namespace Program

theorem pack_append {first : Program} (wellFormed : ∀ op ∈ first, op.WellFormed)
    (second : Program) (values : List Value) :
    pack (first ++ second) values =
      match pack first values with
      | .error fault => .error fault
      | .ok bs => (pack second (values.drop (first.valuesTaken values.length))).map (bs ++ ·) := by
  unfold pack
  rw [packFront_append]
  cases front : packFront first values with
  | error fault => rfl
  | ok found =>
    obtain ⟨bs, left⟩ := found
    dsimp only
    rw [← left_eq_drop wellFormed front]
    cases packFront second left <;> rfl

theorem unpack_append (first second : Program) (data : Bytes) :
    match unpack first data with
    | .error fault => unpack (first ++ second) data = .error fault
    | .ok values =>
      ∃ rest, rest <:+ data ∧ unpackFront first data = .ok (values, rest) ∧
        unpack (first ++ second) data = (unpack second rest).map (values ++ ·) := by
  unfold unpack
  rw [unpackFront_append]
  cases front : unpackFront first data with
  | error fault => rfl
  | ok found =>
    obtain ⟨values, rest⟩ := found
    refine ⟨rest, unpackFront_suffix front, rfl, ?_⟩
    dsimp only
    cases unpackFront second rest <;> rfl

end Program

/-- **Directive strings compose.** A directive string and behind it, on the next line, another one.
Both lines parse to the first program and behind it the second one, with the faults of the second
line found further back.  The second program packs the values that the first one did not take, and
unpacks the bytes that the first one did not read, which are an end of all the bytes; it goes about
these as it does on its own. -/
theorem pack_and_unpack_append_newline {first : String} {program : Program}
    (parsed : Program.parse first = .ok program) (second : String) :
    Program.parse (first ++ "\n" ++ second) =
        ((Program.parse second).map (program ++ ·)).mapError
          (Fault.moved (first.utf8ByteSize + 1)) ∧
      ∀ other, Program.parse second = .ok other →
        (∀ values, pack (first ++ "\n" ++ second) values =
          match pack first values with
          | .error fault => .error fault
          | .ok bs =>
            (pack second (values.drop (program.valuesTaken values.length))).map (bs ++ ·)) ∧
        ∀ data,
          match unpack first data with
          | .error fault => unpack (first ++ "\n" ++ second) data = .error fault
          | .ok values =>
            ∃ rest, rest <:+ data ∧ program.unpackFront data = .ok (values, rest) ∧
              unpack (first ++ "\n" ++ second) data =
                (unpack second rest).map (values ++ ·) := by
  have both := Program.parse_append_newline parsed second
  refine ⟨both, fun other parsed_other => ?_⟩
  rw [parsed_other] at both
  replace both : Program.parse (first ++ "\n" ++ second) = .ok (program ++ other) := both
  simp only [pack, unpack, both, parsed, parsed_other]
  exact ⟨Program.pack_append (spells_of_parse parsed).wellFormed other,
    Program.unpack_append program other⟩

/-- The line feed ends a comment, and the star takes what the first line leaves. -/
theorem pack_and_unpack_append_newline_comment :
    ∃ program other, Program.parse "n # port" = .ok program ∧ Program.parse "C*" = .ok other ∧
      Program.parse "n # port\nC*" = .ok (program ++ other) ∧
      Program.parse "n # port\nC?" = .error (.unknownDirective '?' (some 10)) ∧
      pack "n # port\nC*" [.integer 80, .integer 1, .integer 2] = .ok [0, 80, 1, 2] ∧
      unpack "n # port\nC*" [0, 80, 1, 2] = .ok [.integer 80, .integer 1, .integer 2] := by
  have parsed : Program.parse "n # port" = .ok
      [⟨Directive.fixedInteger 'n' 2 false .big "16-bit network order", .none, .once⟩] := rfl
  have parsed_other : Program.parse "C*" = .ok
      [⟨Directive.fixedInteger 'C' 1 false .native "unsigned 8-bit integer", .none, .all⟩] := rfl
  obtain ⟨both, further⟩ := pack_and_unpack_append_newline parsed "C*"
  obtain ⟨packed, unpacked⟩ := further _ parsed_other
  obtain ⟨rest, -, left, read⟩ := unpacked [0, 80, 1, 2]
  have rest_eq : rest = [1, 2] := (congrArg Prod.snd (Except.ok.inj left)).symm
  refine ⟨_, _, parsed, parsed_other, both, (pack_and_unpack_append_newline parsed "C?").1,
    packed _, ?_⟩
  rw [rest_eq] at read
  exact read

end DirectivePack
