import Mathlib.Data.List.Forall2
import Mathlib.Logic.Relation
import DirectivePack.Proofs.Format.CanonicalText
import DirectivePack.Proofs.Program.Faults

/-!
Synonyms: letters that mean the same.

What an operation does depends on its meaning, which is what it encodes, the width, the byte order
and the sign in force, and on its count.  Its letter is seen in faults only.  Packing does not even
depend on the sign, since a field accepts the signed and the unsigned numbers of its width.

* `Operation.WritesLike.pack_eq`, `Operation.ReadsLike.unpack_eq`: operations with the same meaning
  and count do the same, up to the letter in a fault.
* `Program.packFront_sameOutcome`, `Program.unpackFront_sameOutcome`: so do programs, place by
  place.
* `synonyms_interchangeable`: hence letters may be exchanged for their synonyms.
-/

namespace DirectivePack

/-! ### Meanings -/

/-- What the letter and the modifiers of an operation say about its elements. -/
structure Meaning where
  encoding : Encoding
  width : Nat
  /-- The order in force, after that of the host is resolved. -/
  order : ByteOrder
  signed : Bool
deriving DecidableEq, Repr

/-- The meaning without the sign. -/
def Meaning.unsigned (m : Meaning) : Meaning :=
  { m with signed := false }

def Operation.meaning (op : Operation) : Meaning :=
  ⟨op.directive.encoding, op.width, op.order.resolve, op.signed⟩

/-- A letter with modifiers. -/
structure Head where
  letter : Char
  modifiers : Modifiers
deriving DecidableEq, Repr

def Operation.head (op : Operation) : Head :=
  ⟨op.letter, op.modifiers⟩

namespace Head

def meaning? (h : Head) : Option Meaning :=
  (Directive.find? h.letter).map fun d => Operation.meaning ⟨d, h.modifiers, .once⟩

/-- Whether the modifiers may stand behind the letter. -/
def IsAllowed (h : Head) : Prop :=
  (h.modifiers ≠ .none → h.letter ∈ markedLetters) ∧ h.modifiers.order ≠ some .native

/-- The same meaning, on a little-endian host of 64 bits. -/
inductive Synonym : Head → Head → Prop where
  | big16 : Synonym ⟨'n', .none⟩ ⟨'S', ⟨false, some .big⟩⟩
  | big32 : Synonym ⟨'N', .none⟩ ⟨'L', ⟨false, some .big⟩⟩
  | little16 : Synonym ⟨'v', .none⟩ ⟨'S', ⟨false, some .little⟩⟩
  | little32 : Synonym ⟨'V', .none⟩ ⟨'L', ⟨false, some .little⟩⟩
  | single : Synonym ⟨'f', .none⟩ ⟨'F', .none⟩
  | double : Synonym ⟨'d', .none⟩ ⟨'D', .none⟩
  | hostOrder {letter : Char} (native : Bool) : letter ∈ markedLetters →
      Synonym ⟨letter, ⟨native, none⟩⟩ ⟨letter, ⟨native, some .little⟩⟩
  | pointer (m : Modifiers) : Synonym ⟨'q', m⟩ ⟨'j', m⟩
  | unsignedPointer (m : Modifiers) : Synonym ⟨'Q', m⟩ ⟨'J', m⟩
  | long (order : Option ByteOrder) : Synonym ⟨'l', ⟨true, order⟩⟩ ⟨'q', ⟨false, order⟩⟩
  | unsignedLong (order : Option ByteOrder) : Synonym ⟨'L', ⟨true, order⟩⟩ ⟨'Q', ⟨false, order⟩⟩

/-- The same meaning but for the sign. -/
inductive OtherSign : Head → Head → Prop where
  | byte : OtherSign ⟨'c', .none⟩ ⟨'C', .none⟩
  | marked {signed unsigned : Char} (m : Modifiers) :
      (signed, unsigned) ∈ [('s', 'S'), ('i', 'I'), ('l', 'L'), ('q', 'Q'), ('j', 'J')] →
      OtherSign ⟨signed, m⟩ ⟨unsigned, m⟩

def WrittenAlike (h other : Head) : Prop :=
  Synonym h other ∨ OtherSign h other

theorem meaning?_hostOrder {letter : Char} (takes_marks : letter ∈ markedLetters) (native : Bool) :
    meaning? ⟨letter, ⟨native, none⟩⟩ = meaning? ⟨letter, ⟨native, some .little⟩⟩ := by
  simp only [markedLetters, List.mem_cons, List.not_mem_nil, or_false] at takes_marks
  rcases takes_marks with rfl | rfl | rfl | rfl | rfl | rfl | rfl | rfl | rfl | rfl <;>
    cases native <;> rfl

theorem Synonym.meaning?_eq {h other : Head} (synonym : Synonym h other) :
    h.meaning? = other.meaning? := by
  cases synonym with
  | big16 | big32 | little16 | little32 | single | double => decide
  | hostOrder native takes_marks => exact meaning?_hostOrder takes_marks native
  | pointer m | unsignedPointer m =>
    obtain ⟨native, order⟩ := m
    cases native <;> rfl
  | long order | unsignedLong order => rfl

theorem Synonym.isAllowed_iff {h other : Head} (synonym : Synonym h other) :
    h.IsAllowed ↔ other.IsAllowed := by
  cases synonym with
  | big16 | big32 | little16 | little32 | single | double =>
    simp [IsAllowed, markedLetters, Modifiers.none]
  | hostOrder native takes_marks => simp [IsAllowed, takes_marks]
  | pointer | unsignedPointer | long | unsignedLong => simp [IsAllowed, markedLetters]

theorem OtherSign.unsigned_eq {h other : Head} (otherSign : OtherSign h other) :
    h.meaning?.map Meaning.unsigned = other.meaning?.map Meaning.unsigned := by
  cases otherSign with
  | byte => decide
  | marked m pair =>
    obtain ⟨native, order⟩ := m
    simp only [List.mem_cons, Prod.mk.injEq, List.not_mem_nil, or_false] at pair
    rcases pair with ⟨rfl, rfl⟩ | ⟨rfl, rfl⟩ | ⟨rfl, rfl⟩ | ⟨rfl, rfl⟩ | ⟨rfl, rfl⟩ <;>
      cases native <;> rfl

theorem OtherSign.isAllowed_iff {h other : Head} (otherSign : OtherSign h other) :
    h.IsAllowed ↔ other.IsAllowed := by
  cases otherSign with
  | byte => simp [IsAllowed, Modifiers.none]
  | marked m pair =>
    simp only [List.mem_cons, Prod.mk.injEq, List.not_mem_nil, or_false] at pair
    rcases pair with ⟨rfl, rfl⟩ | ⟨rfl, rfl⟩ | ⟨rfl, rfl⟩ | ⟨rfl, rfl⟩ | ⟨rfl, rfl⟩ <;>
      simp [IsAllowed, markedLetters]

theorem WrittenAlike.unsigned_eq {h other : Head} (alike : WrittenAlike h other) :
    h.meaning?.map Meaning.unsigned = other.meaning?.map Meaning.unsigned :=
  alike.elim (fun synonym => congrArg _ synonym.meaning?_eq) OtherSign.unsigned_eq

theorem WrittenAlike.isAllowed_iff {h other : Head} (alike : WrittenAlike h other) :
    h.IsAllowed ↔ other.IsAllowed :=
  alike.elim Synonym.isAllowed_iff OtherSign.isAllowed_iff

/-- What related heads share is shared by all heads that come from one another. -/
theorem eq_of_eqvGen {Related : Head → Head → Prop} {α : Type} (shared : Head → α)
    (shares : ∀ h other, Related h other → shared h = shared other) {h other : Head}
    (joined : Relation.EqvGen Related h other) : shared h = shared other :=
  (eq_equivalence.comap shared).eqvGen_iff.mp (joined.mono shares)

end Head

/-! ### Faults -/

/-- The fault with another operation to blame.  One of the directive string blames none. -/
def Fault.naming (letter : Char) : Fault → Fault
  | .missingValues _ needed available => .missingValues letter needed available
  | .wrongKind _ expected actual => .wrongKind letter expected actual
  | .unencodable _ reason => .unencodable letter reason
  | .truncated _ needed available => .truncated letter needed available
  | .malformed _ reason => .malformed letter reason
  | fault => fault

/-- The same result, or faults that only differ in their letter: it is that of the operation at the
same place. -/
inductive SameOutcome {α : Type} (program other : Program) :
    Except Fault α → Except Fault α → Prop where
  | ok (a : α) : SameOutcome program other (.ok a) (.ok a)
  | error {op op' : Operation} (fault : Fault) : (op, op') ∈ program.zip other →
      SameOutcome program other (.error (fault.naming op.letter)) (.error (fault.naming op'.letter))

/-! ### One operation -/

theorem ByteOrder.arrange_congr {α : Type} {order order' : ByteOrder}
    (same_order : order.resolve = order'.resolve) (digits : List α) :
    order.arrange digits = order'.arrange digits := by
  rw [ByteOrder.arrange, ByteOrder.arrange, same_order]

theorem encodeEach_mapError {encode encode' : Value → Except Fault Bytes} {f : Fault → Fault}
    (mapped : ∀ v, encode' v = (encode v).mapError f) (values : List Value) :
    encodeEach encode' values = (encodeEach encode values).mapError f := by
  induction values with
  | nil => rfl
  | cons v values ih =>
    rw [encodeEach, encodeEach, mapped, ih]
    cases encode v with
    | error fault => rfl
    | ok bs => cases encodeEach encode values <;> rfl

namespace Operation

theorem meaning?_head {op : Operation} (in_table : op.directive ∈ Directive.table) :
    op.head.meaning? = some op.meaning := by
  rw [Head.meaning?, head, letter, Directive.find?_letter _ in_table]
  rfl

theorem wellFormed_iff {op : Operation} :
    op.WellFormed ↔ op.directive ∈ Directive.table ∧ op.head.IsAllowed ∧
      ∀ n, op.count = .times n → n ≤ 2147483647 := by
  constructor
  · rintro ⟨in_table, takes_marks, order_explicit, count_le⟩
    exact ⟨in_table, ⟨takes_marks, order_explicit⟩, count_le⟩
  · rintro ⟨in_table, ⟨takes_marks, order_explicit⟩, count_le⟩
    exact ⟨in_table, takes_marks, order_explicit, count_le⟩

/-- The same meaning but for the sign, and the same count. -/
structure WritesLike (op other : Operation) : Prop where
  count : other.count = op.count
  unsigned : other.meaning.unsigned = op.meaning.unsigned

/-- The same meaning and count. -/
structure ReadsLike (op other : Operation) : Prop where
  count : other.count = op.count
  meaning : other.meaning = op.meaning

variable {op other : Operation}

theorem ReadsLike.refl (op : Operation) : op.ReadsLike op :=
  ⟨rfl, rfl⟩

theorem ReadsLike.writesLike (same : op.ReadsLike other) : op.WritesLike other :=
  ⟨same.count, congrArg _ same.meaning⟩

theorem WritesLike.parts (same : op.WritesLike other) :
    other.directive.encoding = op.directive.encoding ∧ other.width = op.width ∧
      other.order.resolve = op.order.resolve := by
  simpa [Operation.meaning, Meaning.unsigned] using same.unsigned

theorem ReadsLike.signed (same : op.ReadsLike other) : other.signed = op.signed :=
  congrArg Meaning.signed same.meaning

theorem withKind_eq_mapError_naming {γ : Type} (expected actual : ValueKind)
    (encode : γ → Except ValueReason Bytes) (found : Option γ) :
    other.withKind expected actual encode found =
      (op.withKind expected actual encode found).mapError (.naming other.letter) := by
  cases found with
  | none => rfl
  | some x => cases encoded : encode x <;> simp [withKind, encoded, Fault.naming]

theorem WritesLike.encodeValue_eq (same : op.WritesLike other) (v : Value) :
    other.encodeValue v = (op.encodeValue v).mapError (.naming other.letter) := by
  obtain ⟨encoding, width, order⟩ := same.parts
  unfold encodeValue
  rw [encoding, same.count]
  cases op.directive.encoding with
  | integer =>
    have encode : other.encodeInteger = op.encodeInteger := by
      funext n
      simp only [encodeInteger, Field.putInteger, width, ByteOrder.arrange_congr order]
    simp only [withInteger_eq_withKind, encode]
    exact withKind_eq_mapError_naming ..
  | float =>
    have encode : other.encodeFloat = op.encodeFloat := by
      funext x
      simp only [encodeFloat, Field.putFloat, width, ByteOrder.arrange_congr order]
    simp only [withFloat_eq_withKind, encode]
    exact withKind_eq_mapError_naming ..
  | utf8 | ber =>
    simp only [withInteger_eq_withKind]
    exact withKind_eq_mapError_naming ..
  | raw | hexString | bitString | base64 =>
    simp only [withBytes_eq_withKind]
    exact withKind_eq_mapError_naming ..
  | padding => rfl

/-- Operations that mean the same but for the sign pack alike, up to the letter in a fault. -/
theorem WritesLike.pack_eq (same : op.WritesLike other) (values : List Value) :
    other.pack values = (op.pack values).mapError (.naming other.letter) := by
  obtain ⟨encoding, -, -⟩ := same.parts
  have arity_eq : other.arity values.length = op.arity values.length := by
    rw [arity, arity, encoding, same.count]
  have encode_eq (taken : List Value) :
      other.encode taken = (op.encode taken).mapError (.naming other.letter) := by
    have each := encodeEach_mapError same.encodeValue_eq taken
    rw [encode, encode, encoding, same.count]
    cases op.directive.encoding with
    | padding => rfl
    | integer | float | utf8 | ber | raw | hexString | bitString | base64 => exact each
  rw [pack, pack, arity_eq]
  cases front? (op.arity values.length) values with
  | none => rfl
  | some split =>
    obtain ⟨taken, rest⟩ := split
    simp only [encode_eq]
    cases op.encode taken <;> rfl

theorem require_eq_mapError_naming (op other : Operation) (needed : Nat) (bs : Bytes) :
    other.require needed bs = (op.require needed bs).mapError (.naming other.letter) := by
  rw [require, require]
  cases front? needed bs <;> rfl

theorem readChar_eq_mapError_naming (bs : Bytes) :
    other.readChar bs = (op.readChar bs).mapError (.naming other.letter) := by
  cases bs with
  | nil => rfl
  | cons lead bs =>
    simp only [readChar]
    cases announcedLength? lead with
    | none => rfl
    | some length =>
      simp only [require_eq_mapError_naming op other]
      cases op.require length (lead :: bs) with
      | error fault => rfl
      | ok split =>
        simp only [mapError_ok]
        cases Utf8.readChar split.1 <;> rfl

theorem readBer_eq_mapError_naming (bs : Bytes) :
    other.readBer bs = (op.readBer bs).mapError (.naming other.letter) := by
  simp only [readBer]
  rcases Field.getBer bs with ⟨fault | n, rest⟩
  · cases fault <;> rfl
  · dsimp only
    split <;> rfl

theorem ReadsLike.readInteger_eq (same : op.ReadsLike other) (bs : Bytes) :
    other.readInteger bs = (op.readInteger bs).mapError (.naming other.letter) := by
  obtain ⟨-, width, order⟩ := same.writesLike.parts
  rw [readInteger, readInteger, width, require_eq_mapError_naming op other]
  cases op.require op.width bs with
  | error fault => rfl
  | ok split =>
    simp only [mapError_ok, Field.getInteger, same.signed, ByteOrder.arrange_congr order]

theorem ReadsLike.readFloat_eq (same : op.ReadsLike other) (bs : Bytes) :
    other.readFloat bs = (op.readFloat bs).mapError (.naming other.letter) := by
  obtain ⟨-, width, order⟩ := same.writesLike.parts
  rw [readFloat, readFloat, width, require_eq_mapError_naming op other]
  cases op.require op.width bs with
  | error fault => rfl
  | ok split => simp only [mapError_ok, Field.getFloat, ByteOrder.arrange_congr order]

/-- Operations that mean the same unpack alike, up to the letter in a fault. -/
theorem ReadsLike.unpack_eq (same : op.ReadsLike other) (bs : Bytes) :
    other.unpack bs = (op.unpack bs).mapError (.naming other.letter) := by
  obtain ⟨encoding, width, -⟩ := same.writesLike.parts
  unfold unpack
  rw [encoding, same.count, width]
  cases op.directive.encoding with
  | padding | raw | hexString | bitString => rfl
  | integer => exact readTimes_mapError same.readInteger_eq ..
  | float => exact readTimes_mapError same.readFloat_eq ..
  | utf8 =>
    cases op.count with
    | all =>
      simp only [readAll_mapError op.readChar_rest_length_lt other.readChar_rest_length_lt
        readChar_eq_mapError_naming]
      cases readAll op.readChar op.readChar_rest_length_lt bs <;> rfl
    | once | times n => exact readTimes_mapError readChar_eq_mapError_naming ..
  | ber =>
    cases op.count with
    | all =>
      simp only [readAll_mapError op.readBer_rest_length_lt other.readBer_rest_length_lt
        readBer_eq_mapError_naming]
      cases readAll op.readBer op.readBer_rest_length_lt bs <;> rfl
    | once | times n => exact readTimes_mapError readBer_eq_mapError_naming ..
  | base64 =>
    rcases readBase64 op.count bs with ⟨fault | value, rest⟩ <;> rfl

end Operation

/-! ### Programs -/

namespace SameOutcome

variable {α β : Type} {program other : Program} {op op' : Operation}

/-- What differs in the letter only where it fails, if both letters are those of operations. -/
theorem of_mapError {outcome outcome' : Except Fault α} (pair : (op, op') ∈ program.zip other)
    (own : outcome = outcome.mapError (.naming op.letter))
    (renamed : outcome' = outcome.mapError (.naming op'.letter)) :
    SameOutcome program other outcome outcome' := by
  subst renamed
  cases outcome with
  | ok a => exact .ok a
  | error fault =>
    have same := SameOutcome.error (α := α) fault pair
    rw [mapError_error, Except.error.injEq] at own
    rwa [← own] at same

theorem cons (op op' : Operation) {outcome outcome' : Except Fault α}
    (same : SameOutcome program other outcome outcome') :
    SameOutcome (op :: program) (op' :: other) outcome outcome' := by
  cases same with
  | ok a => exact .ok a
  | error fault pair => exact .error fault (List.mem_cons_of_mem _ pair)

theorem bind {f f' : α → Except Fault β} {outcome outcome' : Except Fault α}
    (same : SameOutcome program other outcome outcome')
    (others : ∀ a, SameOutcome program other (f a) (f' a)) :
    SameOutcome program other (outcome.bind f) (outcome'.bind f') := by
  cases same with
  | ok a => exact others a
  | error fault pair => exact .error fault pair

theorem map (f : α → β) {outcome outcome' : Except Fault α}
    (same : SameOutcome program other outcome outcome') :
    SameOutcome program other (outcome.map f) (outcome'.map f) := by
  cases same with
  | ok a => exact .ok (f a)
  | error fault pair => exact .error fault pair

end SameOutcome

namespace Program

theorem packFront_cons (op : Operation) (program : Program) (values : List Value) :
    packFront (op :: program) values = (op.pack values).bind fun first =>
      (packFront program first.2).map fun others => (first.1 ++ others.1, others.2) := by
  rw [packFront]
  cases op.pack values with
  | error fault => rfl
  | ok first => cases others : packFront program first.2 <;> simp [Except.bind, Except.map, others]

theorem unpackFront_cons (op : Operation) (program : Program) (bs : Bytes) :
    unpackFront (op :: program) bs = (op.unpack bs).bind fun first =>
      (unpackFront program first.2).map fun others => (first.1 ++ others.1, others.2) := by
  rw [unpackFront]
  cases op.unpack bs with
  | error fault => rfl
  | ok first =>
    cases others : unpackFront program first.2 <;> simp [Except.bind, Except.map, others]

theorem pack_eq_map (program : Program) (values : List Value) :
    program.pack values = (program.packFront values).map Prod.fst := by
  rw [pack]
  cases program.packFront values <;> rfl

theorem unpack_eq_map (program : Program) (bs : Bytes) :
    program.unpack bs = (program.unpackFront bs).map Prod.fst := by
  rw [unpack]
  cases program.unpackFront bs <;> rfl

variable {program other : Program}

/-- Programs that mean the same but for signs pack alike, place by place. -/
theorem packFront_sameOutcome (same : List.Forall₂ Operation.WritesLike program other)
    (values : List Value) :
    SameOutcome program other (program.packFront values) (other.packFront values) := by
  induction same generalizing values with
  | nil => exact .ok _
  | @cons op op' program other first _ ih =>
    have step : SameOutcome (op :: program) (op' :: other) (op.pack values) (op'.pack values) :=
      .of_mapError List.mem_cons_self ((Operation.ReadsLike.refl op).writesLike.pack_eq values)
        (first.pack_eq values)
    rw [packFront_cons, packFront_cons]
    exact step.bind fun found => ((ih found.2).map _).cons op op'

/-- Programs that mean the same unpack alike, place by place. -/
theorem unpackFront_sameOutcome (same : List.Forall₂ Operation.ReadsLike program other)
    (bs : Bytes) :
    SameOutcome program other (program.unpackFront bs) (other.unpackFront bs) := by
  induction same generalizing bs with
  | nil => exact .ok _
  | @cons op op' program other first _ ih =>
    have step : SameOutcome (op :: program) (op' :: other) (op.unpack bs) (op'.unpack bs) :=
      .of_mapError List.mem_cons_self ((Operation.ReadsLike.refl op).unpack_eq bs)
        (first.unpack_eq bs)
    rw [unpackFront_cons, unpackFront_cons]
    exact step.bind fun found => ((ih found.2).map _).cons op op'

end Program

/-! ### Exchanged letters -/

/-- One operation stands for the other one.  It has the same count, and its letter and modifiers
come from those of the other by replacing related ones, either way round and any number of times. -/
structure Operation.Exchanged (Related : Head → Head → Prop) (op other : Operation) : Prop where
  in_table : other.directive ∈ Directive.table
  count : other.count = op.count
  head : Relation.EqvGen Related op.head other.head

namespace Operation.Exchanged

variable {Related : Head → Head → Prop} {op other : Operation}

theorem wellFormed (exchanged : Exchanged Related op other) (op_wellFormed : op.WellFormed)
    (allowed : ∀ h other, Related h other → (h.IsAllowed ↔ other.IsAllowed)) :
    other.WellFormed := by
  obtain ⟨-, op_allowed, count_le⟩ := wellFormed_iff.mp op_wellFormed
  have same := Head.eq_of_eqvGen Head.IsAllowed (fun h h' related => propext (allowed h h' related))
    exchanged.head
  exact wellFormed_iff.mpr ⟨exchanged.in_table, same ▸ op_allowed, exchanged.count ▸ count_le⟩

theorem readsLike (exchanged : Exchanged Head.Synonym op other) (op_wellFormed : op.WellFormed) :
    op.ReadsLike other := by
  have same := Head.eq_of_eqvGen Head.meaning? (fun _ _ => Head.Synonym.meaning?_eq) exchanged.head
  rw [meaning?_head op_wellFormed.in_table, meaning?_head exchanged.in_table] at same
  exact ⟨exchanged.count, (Option.some.inj same).symm⟩

theorem writesLike (exchanged : Exchanged Head.WrittenAlike op other)
    (op_wellFormed : op.WellFormed) : op.WritesLike other := by
  have same := Head.eq_of_eqvGen (fun h => h.meaning?.map Meaning.unsigned)
    (fun _ _ => Head.WrittenAlike.unsigned_eq) exchanged.head
  rw [meaning?_head op_wellFormed.in_table, meaning?_head exchanged.in_table] at same
  exact ⟨exchanged.count, (Option.some.inj same).symm⟩

end Operation.Exchanged

namespace Program

variable {text : String} {program other : Program}

/-- What comes from a program by exchanging letters is a program. -/
theorem wellFormed_of_exchanged {Related : Head → Head → Prop}
    (wellFormed : ∀ op ∈ program, op.WellFormed)
    (exchanged : List.Forall₂ (Operation.Exchanged Related) program other)
    (allowed : ∀ h h', Related h h' → (h.IsAllowed ↔ h'.IsAllowed)) :
    ∀ op ∈ other, op.WellFormed := by
  induction exchanged with
  | nil => exact wellFormed
  | cons first _ ih =>
    obtain ⟨op_wellFormed, others_wellFormed⟩ := List.forall_mem_cons.mp wellFormed
    exact List.forall_mem_cons.mpr ⟨first.wellFormed op_wellFormed allowed, ih others_wellFormed⟩

theorem forall₂_of_exchanged {Related : Head → Head → Prop} {R : Operation → Operation → Prop}
    (wellFormed : ∀ op ∈ program, op.WellFormed)
    (exchanged : List.Forall₂ (Operation.Exchanged Related) program other)
    (related : ∀ op op', Operation.Exchanged Related op op' → op.WellFormed → R op op') :
    List.Forall₂ R program other := by
  induction exchanged with
  | nil => exact .nil
  | cons first _ ih =>
    obtain ⟨op_wellFormed, others_wellFormed⟩ := List.forall_mem_cons.mp wellFormed
    exact .cons (related _ _ first op_wellFormed) (ih others_wellFormed)

end Program

/-- **Synonyms.** Letters may be exchanged for others that mean the same, at any places of a
directive string.  What comes of it is a directive string again, and it packs and unpacks the same:
only a fault names the letter that stands there now.  Packing alone does not see either whether the
letters of integers are those of signed or of unsigned ones. -/
theorem synonyms_interchangeable {text : String} {program : Program}
    (parsed : Program.parse text = .ok program) :
    (∀ other : Program, List.Forall₂ (Operation.Exchanged Head.Synonym) program other →
        Program.parse other.text = .ok other ∧
        ∀ text', Program.parse text' = .ok other →
          (∀ values, SameOutcome program other (pack text values) (pack text' values)) ∧
          ∀ data, SameOutcome program other (unpack text data) (unpack text' data)) ∧
      ∀ other : Program, List.Forall₂ (Operation.Exchanged Head.WrittenAlike) program other →
        Program.parse other.text = .ok other ∧
        ∀ text', Program.parse text' = .ok other →
          ∀ values, SameOutcome program other (pack text values) (pack text' values) := by
  have wellFormed := (spells_of_parse parsed).wellFormed
  refine ⟨fun other exchanged => ⟨?_, fun text' parsed' => ?_⟩,
    fun other exchanged => ⟨?_, fun text' parsed' => ?_⟩⟩
  · exact parse_of_spells <| spells_text <|
      Program.wellFormed_of_exchanged wellFormed exchanged fun _ _ => Head.Synonym.isAllowed_iff
  · have same := Program.forall₂_of_exchanged wellFormed exchanged
      fun _ _ => Operation.Exchanged.readsLike
    simp only [pack, unpack, parsed, parsed', Program.pack_eq_map, Program.unpack_eq_map]
    exact ⟨fun values => (Program.packFront_sameOutcome
        (same.imp fun _ _ => Operation.ReadsLike.writesLike) values).map _,
      fun data => (Program.unpackFront_sameOutcome same data).map _⟩
  · exact parse_of_spells <| spells_text <|
      Program.wellFormed_of_exchanged wellFormed exchanged
        fun _ _ => Head.WrittenAlike.isAllowed_iff
  · have same := Program.forall₂_of_exchanged wellFormed exchanged
      fun _ _ => Operation.Exchanged.writesLike
    simp only [pack, parsed, parsed', Program.pack_eq_map]
    exact fun values => (Program.packFront_sameOutcome same values).map _

/-- Two letters are exchanged, and keep their counts.  The second number is not all there, which is
blamed on the letter that stands there.  Signed letters in place of unsigned ones pack alike. -/
theorem synonyms_interchangeable_of_shorts :
    ∃ program other signed, Program.parse "n2s" = .ok program ∧
      Program.parse "S>2 s<" = .ok other ∧ Program.parse "s>2 S" = .ok signed ∧
      (∀ values, SameOutcome program other (pack "n2s" values) (pack "S>2 s<" values)) ∧
      SameOutcome program other (unpack "n2s" [1, 2, 3]) (unpack "S>2 s<" [1, 2, 3]) ∧
      unpack "n2s" [1, 2, 3] = .error (.truncated 'n' 2 1) ∧
      unpack "S>2 s<" [1, 2, 3] = .error (.truncated 'S' 2 1) ∧
      ∀ values, SameOutcome program signed (pack "n2s" values) (pack "s>2 S" values) := by
  have parsed : Program.parse "n2s" = .ok
      [⟨Directive.fixedInteger 'n' 2 false .big "16-bit network order", .none, .times 2⟩,
        ⟨Directive.hostInteger 's' 2 2 true "signed 16-bit integer", .none, .once⟩] := rfl
  have parsed_other : Program.parse "S>2 s<" = .ok
      [⟨Directive.hostInteger 'S' 2 2 false "unsigned 16-bit integer", ⟨false, some .big⟩,
          .times 2⟩,
        ⟨Directive.hostInteger 's' 2 2 true "signed 16-bit integer", ⟨false, some .little⟩,
          .once⟩] := rfl
  have parsed_signed : Program.parse "s>2 S" = .ok
      [⟨Directive.hostInteger 's' 2 2 true "signed 16-bit integer", ⟨false, some .big⟩, .times 2⟩,
        ⟨Directive.hostInteger 'S' 2 2 false "unsigned 16-bit integer", .none, .once⟩] := rfl
  obtain ⟨exchange, exchange_written⟩ := synonyms_interchangeable parsed
  have same := fun exchanged => (exchange _ exchanged).2 "S>2 s<" parsed_other
  have written := fun exchanged => (exchange_written _ exchanged).2 "s>2 S" parsed_signed
  obtain ⟨packs, unpacks⟩ := same <|
    .cons ⟨by decide, rfl, .rel _ _ .big16⟩ <|
    .cons ⟨by decide, rfl, .rel _ _ (.hostOrder false (by decide))⟩ .nil
  have signed_big : Relation.EqvGen Head.WrittenAlike ⟨'n', .none⟩ ⟨'s', ⟨false, some .big⟩⟩ :=
    .trans _ _ _ (.rel _ _ (.inl .big16)) (.symm _ _ (.rel _ _ (.inr (.marked _ (by decide)))))
  have packs_written := written <|
    .cons ⟨by decide, rfl, signed_big⟩ <|
    .cons ⟨by decide, rfl, .rel _ _ (.inr (.marked _ (by decide)))⟩ .nil
  exact ⟨_, _, _, parsed, parsed_other, parsed_signed, packs, unpacks _, rfl, rfl, packs_written⟩

end DirectivePack
