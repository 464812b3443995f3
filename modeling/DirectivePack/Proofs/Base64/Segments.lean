import DirectivePack.Proofs.Base64.Lines
import DirectivePack.Proofs.RoundTrip.Elements

/-!
Several texts in base64, one behind the other.

A segment ends with padding and with nothing else.  A value in whole groups of three bytes has no
padding, so that its segment runs on into the values behind it.  What is read off the texts of some
values is told here by `joined`.

* `segment_texts`: the first segment of the texts of some values is that of the values up to the
  first one with a short last group.
* `unpack_segments`: as many directives as there are values read them joined in this way.
* `unpack_pack_segments_iff`: the values come back iff each of them is in front of empty values only,
  or has a short last group.
-/

namespace DirectivePack

namespace Base64

/-! ### Values that run on -/

/-- Whether the text of a value ends with padding. -/
def IsPadded (v : Bytes) : Prop :=
  v.length % 3 ≠ 0

instance (v : Bytes) : Decidable (IsPadded v) :=
  inferInstanceAs (Decidable (v.length % 3 ≠ 0))

/-- The values up to the first one with padding, run together, and the values behind that one. -/
def firstSegment : List Bytes → Bytes × List Bytes
  | [] => ([], [])
  | v :: vs => if IsPadded v then (v, vs) else (v ++ (firstSegment vs).1, (firstSegment vs).2)

/-- What `count` segments hold. -/
def joined : Nat → List Bytes → List Bytes
  | 0, _ => []
  | count + 1, vs => (firstSegment vs).1 :: joined count (firstSegment vs).2

/-- The texts of some values, one behind the other. -/
def texts (lineBytes : Nat) (vs : List Bytes) : Bytes :=
  vs.flatMap (encodeLines lineBytes)

/-! ### Reading segments -/

/-- The lines of whole groups are free of padding and hold the symbols of their sextets. -/
theorem encodeLines_of_whole {lineBytes : Nat} (some_byte : 0 < lineBytes)
    (whole_lines : lineBytes % 3 = 0) {v : Bytes} (whole : v.length % 3 = 0) :
    pad ∉ encodeLines lineBytes v ∧
      (encodeLines lineBytes v).filter isSymbol = (sextets v).map symbol := by
  by_cases empty : v = []
  · subst empty
    rw [encodeLines, chunks_nil]
    exact ⟨List.not_mem_nil, rfl⟩
  · obtain ⟨body, written, free, symbols⟩ := encodeLines_eq some_byte whole_lines empty
    have no_padding : padding v = 0 := by
      rw [padding, whole]
    have feed : isSymbol 0x0A = false := by decide
    rw [no_padding] at written
    rw [written]
    constructor
    · intro member
      rcases List.mem_append.mp member with in_body | behind
      · exact free in_body
      · exact absurd behind (by decide)
    · rw [List.filter_append, symbols]
      exact List.append_nil _

/-- The first segment of the texts of some values holds the values up to the first one with
padding. -/
theorem segment_texts {lineBytes : Nat} (some_byte : 0 < lineBytes)
    (whole_lines : lineBytes % 3 = 0) (vs : List Bytes) :
    segment (texts lineBytes vs) =
      ((sextets (firstSegment vs).1).map symbol, texts lineBytes (firstSegment vs).2) := by
  induction vs with
  | nil => rfl
  | cons v vs ih =>
    have split : texts lineBytes (v :: vs) = encodeLines lineBytes v ++ texts lineBytes vs :=
      List.flatMap_cons
    by_cases padded : IsPadded v
    · have nonempty : v ≠ [] := by
        rintro rfl
        exact padded rfl
      have some_pad : 0 < padding v := by
        unfold IsPadded at padded
        unfold padding
        omega
      obtain ⟨body, written, free, symbols⟩ := encodeLines_eq some_byte whole_lines nonempty
      have ends : texts lineBytes (v :: vs) =
          body ++ (List.replicate (padding v) pad ++ 0x0A :: texts lineBytes vs) := by
        rw [split, written]
        simp
      rw [ends, segment_append free some_pad, symbols, firstSegment, if_pos padded]
    · have whole : v.length % 3 = 0 := Decidable.not_not.mp padded
      obtain ⟨free, symbols⟩ := encodeLines_of_whole some_byte whole_lines whole
      rw [split, segment_append_of_free free, ih, symbols, firstSegment, if_neg padded,
        sextets_append whole, List.map_append]

/-- The lines of a single value are one segment, and nothing is behind it. -/
theorem segment_encodeLines {lineBytes : Nat} (some_byte : 0 < lineBytes)
    (whole_lines : lineBytes % 3 = 0) (v : Bytes) :
    segment (encodeLines lineBytes v) = ((sextets v).map symbol, []) := by
  have alone : firstSegment [v] = (v, []) := by
    rw [firstSegment]
    split
    · rfl
    · rw [firstSegment, List.append_nil]
  have split := segment_texts some_byte whole_lines [v]
  rw [alone, texts, List.flatMap_singleton] at split
  exact split

/-! ### Values that come back -/

theorem firstSegment_fst_eq_nil_iff {vs : List Bytes} :
    (firstSegment vs).1 = [] ↔ ∀ v ∈ vs, v = [] := by
  induction vs with
  | nil => simp [firstSegment]
  | cons v vs ih =>
    rw [firstSegment, List.forall_mem_cons, ← ih]
    by_cases padded : IsPadded v
    · have nonempty : v ≠ [] := by
        rintro rfl
        exact padded rfl
      simp [padded, nonempty]
    · rw [if_neg padded, List.append_eq_nil_iff]

/-- Empty values leave nothing behind their segment. -/
theorem firstSegment_of_empty {vs : List Bytes} (empty : ∀ v ∈ vs, v = []) :
    firstSegment vs = ([], []) := by
  induction vs with
  | nil => rfl
  | cons v vs ih =>
    obtain ⟨rfl, others⟩ := List.forall_mem_cons.mp empty
    rw [firstSegment, ih others]
    rfl

theorem joined_of_empty (count : Nat) {vs : List Bytes} (empty : ∀ v ∈ vs, v = []) :
    joined count vs = List.replicate count [] := by
  induction count generalizing vs with
  | zero => rfl
  | succ count ih =>
    rw [joined, firstSegment_of_empty empty, List.replicate_succ]
    exact congrArg ([] :: ·) (ih nofun)

/-- The values come back iff none without padding is in front of one that is not empty. -/
theorem joined_eq_self_iff {vs : List Bytes} :
    joined vs.length vs = vs ↔ vs.Pairwise fun v w => w ≠ [] → IsPadded v := by
  induction vs with
  | nil => simp [joined]
  | cons v vs ih =>
    rw [List.length_cons, joined, firstSegment, List.pairwise_cons, ← ih]
    by_cases padded : IsPadded v
    · simp [padded]
    · rw [if_neg padded]
      -- the segment of `v` is `v` iff nothing ran on into it
      have run_on : (∀ w ∈ vs, w ≠ [] → IsPadded v) ↔ ∀ w ∈ vs, w = [] := by
        constructor
        · intro each w member
          exact Decidable.not_not.mp fun nonempty => padded (each w member nonempty)
        · intro empty w member nonempty
          exact absurd (empty w member) nonempty
      rw [run_on, List.cons.injEq, List.append_right_eq_self, firstSegment_fst_eq_nil_iff]
      refine and_congr_right fun empty => ?_
      rw [firstSegment_of_empty empty, joined_of_empty _ empty, joined_of_empty _ (by simp)]

end Base64

/-! ### Packing and unpacking -/

/-- A directive for base64 without a count. -/
def Operation.base64 : Operation :=
  ⟨Directive.unsized 'm' .base64 "base64 encoded string", .none, .once⟩

/-- So many directives for base64, without counts. -/
def segmentsFormat (count : Nat) : String :=
  String.ofList (List.replicate count 'm')

theorem parse_segmentsFormat (count : Nat) :
    Program.parse (segmentsFormat count) = .ok (List.replicate count Operation.base64) := by
  apply parse_of_spells
  have letter : Directive.unsized 'm' .base64 "base64 encoded string" ∈ Directive.table := by
    decide
  rw [segmentsFormat, String.toList_ofList]
  induction count with
  | zero => exact .nil
  | succ count ih =>
    have token : Spells ('m' :: ([] ++ ([] ++ List.replicate count 'm')))
        (⟨Directive.unsized 'm' .base64 "base64 encoded string", .ofMarks [], .once⟩ ::
          List.replicate count Operation.base64) :=
      .token letter (.nil 'm') .once nofun ih
    rw [Modifiers.ofMarks_nil] at token
    exact token

namespace Operation

/-- A value is packed as its lines. -/
theorem pack_base64 (v : Bytes) (values : List Value) :
    base64.pack (.bytes v :: values) = .ok (Base64.encodeLines base64LineBytes v, values) := by
  have encoded : base64.encode [.bytes v] = .ok (Base64.encodeLines base64LineBytes v) := by
    rw [encode_eq_encodeEach (by decide), encodeEach, encodeValue_base64 rfl]
    exact congrArg Except.ok (List.append_nil _)
  have counted : base64.Counted := trivial
  exact pack_append counted rfl encoded values

/-- The first segment is unpacked as the values that run together in it. -/
theorem unpack_base64_texts (vs : List Bytes) :
    base64.unpack (Base64.texts base64LineBytes vs) =
      .ok ([.bytes (Base64.firstSegment vs).1],
        Base64.texts base64LineBytes (Base64.firstSegment vs).2) := by
  have split := Base64.segment_texts (by decide) (by decide : base64LineBytes % 3 = 0) vs
  simp only [unpack, base64, Directive.unsized, readBase64, split, Base64.decodeSymbols_sextets]

end Operation

namespace Program

theorem packFront_segments (vs : List Bytes) :
    packFront (List.replicate vs.length Operation.base64) (vs.map .bytes) =
      .ok (Base64.texts base64LineBytes vs, []) := by
  induction vs with
  | nil => rfl
  | cons v vs ih =>
    simp only [List.length_cons, List.replicate_succ, List.map_cons, packFront,
      Operation.pack_base64, ih]
    rfl

theorem unpackFront_segments (count : Nat) (vs : List Bytes) :
    ∃ rest, unpackFront (List.replicate count Operation.base64)
      (Base64.texts base64LineBytes vs) = .ok ((Base64.joined count vs).map .bytes, rest) := by
  induction count generalizing vs with
  | zero => exact ⟨_, rfl⟩
  | succ count ih =>
    obtain ⟨rest, others⟩ := ih (Base64.firstSegment vs).2
    refine ⟨rest, ?_⟩
    simp only [List.replicate_succ, unpackFront, Operation.unpack_base64_texts, others,
      Base64.joined, List.map_cons, List.singleton_append]

end Program

/-- As many directives as there are values write their texts. -/
theorem pack_segments (vs : List Bytes) :
    pack (segmentsFormat vs.length) (vs.map .bytes) = .ok (Base64.texts base64LineBytes vs) := by
  rw [pack, parse_segmentsFormat]
  exact Program.pack_eq_ok_iff.mpr ⟨[], Program.packFront_segments vs⟩

/-- Some directives read what their segments hold. -/
theorem unpack_segments (count : Nat) (vs : List Bytes) :
    unpack (segmentsFormat count) (Base64.texts base64LineBytes vs) =
      .ok ((Base64.joined count vs).map .bytes) := by
  rw [unpack, parse_segmentsFormat]
  exact Program.unpack_eq_ok_iff.mpr (Program.unpackFront_segments count vs)

/-- **Segments.** Byte strings that are packed by as many directives come back iff none that is in
whole groups of three bytes is in front of one that is not empty. -/
theorem unpack_pack_segments_iff (vs : List Bytes) :
    ∃ bs, pack (segmentsFormat vs.length) (vs.map .bytes) = .ok bs ∧
      (unpack (segmentsFormat vs.length) bs = .ok (vs.map .bytes) ↔
        vs.Pairwise fun v w => w ≠ [] → v.length % 3 ≠ 0) := by
  refine ⟨_, pack_segments vs, ?_⟩
  have injective : ∀ v w : Bytes, Value.bytes v = .bytes w → v = w := fun _ _ => Value.bytes.inj
  rw [unpack_segments, Except.ok.injEq, List.map_inj_right injective]
  exact Base64.joined_eq_self_iff

/-- Three bytes and one more come back as four bytes and none. -/
theorem unpack_pack_segments_run_on :
    ∃ bs, pack "mm" [.bytes [0x61, 0x62, 0x63], .bytes [0x64]] = .ok bs ∧
      unpack "mm" bs = .ok [.bytes [0x61, 0x62, 0x63, 0x64], .bytes []] ∧
      unpack "mm" bs ≠ .ok [.bytes [0x61, 0x62, 0x63], .bytes [0x64]] := by
  have read : unpack "mm" _ = _ := unpack_segments 2 [[0x61, 0x62, 0x63], [0x64]]
  refine ⟨_, pack_segments [[0x61, 0x62, 0x63], [0x64]], read, ?_⟩
  rw [read]
  intro same
  exact absurd (Except.ok.inj same) (by decide)

end DirectivePack
