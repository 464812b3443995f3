import DirectivePack.Proofs.Program.Faults
import DirectivePack.Proofs.RoundTrip.Characters
import DirectivePack.Proofs.Text.Incomplete

/-!
Characters under a star, where the bytes are no well-formed text.

A character is read by the length that its lead byte announces, and whether the bytes for it are there
is asked before anything else.  So truncated data is reported where the bytes break off within a
piece (`Utf8.BreaksOffIn`), whatever that piece holds, and malformed data in all other cases.  A reader
that waits for more bytes waits in vain where the piece is no opening of a code point.

* `Operation.readChar_of_isCutOff`, `Operation.readChar_fault_cases`: what goes wrong with one
  character.
* `truncated_iff_breaksOffIn`: what is reported, and where that tells whether more bytes would help.
-/

namespace DirectivePack

namespace Operation

variable {op : Operation}

theorem announcedLength?_eq_some_iff {lead : UInt8} {length : Nat} :
    announcedLength? lead = some length ↔
      lead.toNat < 0x80 ∧ length = 1 ∨ Utf8.Announces lead length := by
  unfold announcedLength?
  constructor
  · intro announced
    split_ifs at announced with one stray two three four
    · cases announced
      exact .inl ⟨one, rfl⟩
    · cases announced
      exact .inr (.two (by omega) two)
    · cases announced
      exact .inr (.three (by omega) three)
    · cases announced
      exact .inr (.four (by omega) four)
  · rintro (⟨one, rfl⟩ | announced)
    · rw [if_pos one]
    · cases announced with
      | two least greatest =>
        rw [if_neg (by omega), if_neg (by omega), if_pos greatest]
      | three least greatest =>
        rw [if_neg (by omega), if_neg (by omega), if_neg (by omega), if_pos greatest]
      | four least greatest =>
        rw [if_neg (by omega), if_neg (by omega), if_neg (by omega), if_neg (by omega),
          if_pos greatest]

theorem readChar_of_isCutOff {bs : Bytes} {length : Nat} (cut : Utf8.IsCutOff length bs) :
    op.readChar bs = .error (.truncated op.letter length bs.length) := by
  obtain ⟨lead, rest, rfl, announced, shorter⟩ := cut
  have missing : op.require length (lead :: rest) =
      .error (.truncated op.letter length (lead :: rest).length) :=
    require_eq_error_iff.mpr ⟨shorter, rfl⟩
  simp only [readChar, announcedLength?_eq_some_iff.mpr (.inr announced), missing]

/-- A character cannot be read where bytes are missing, or because of the bytes that are there. -/
theorem readChar_fault_cases {bs : Bytes} (nonempty : bs ≠ []) {fault : Fault}
    (failed : op.readChar bs = .error fault) :
    (∃ length, Utf8.IsCutOff length bs) ∨ ∃ reason, fault = .malformed op.letter reason := by
  unfold readChar at failed
  split at failed
  · exact absurd rfl nonempty
  · rename_i lead rest
    split at failed
    · cases failed
      exact .inr ⟨_, rfl⟩
    · rename_i length announced
      split at failed
      · rename_i missing
        obtain ⟨shorter, -⟩ := require_eq_error_iff.mp missing
        rcases announcedLength?_eq_some_iff.mp announced with ⟨-, rfl⟩ | announces
        · exact absurd (List.eq_nil_of_length_eq_zero (Nat.lt_one_iff.mp shorter)) nonempty
        · exact .inl ⟨length, lead, rest, rfl, announces, shorter⟩
      · split at failed
        · cases failed
        · cases failed
          exact .inr ⟨_, rfl⟩

/-! ### A star on characters -/

section Star

variable (encoding : op.directive.encoding = .utf8) (all : op.count = .all) {bs : Bytes}

include encoding all

/-- A star on characters fails iff behind well-formed text no character can be read. -/
theorem unpack_utf8_all_eq_error_iff {fault : Fault} :
    op.unpack bs = .error fault ↔
      ∃ text rest, bs = text ++ rest ∧ Utf8.WellFormed text ∧ rest ≠ [] ∧
        op.readChar rest = .error fault := by
  simp only [unpack, encoding, all, map_eq_error_iff]
  rw [readAll_eq_error_iff _ fun _ _ _ => readChar_eq_ok_iff]
  constructor
  · rintro ⟨cs, rest, rfl, nonempty, fails⟩
    exact ⟨_, rest, rfl, Utf8.wellFormed_iff.mpr ⟨cs, rfl⟩, nonempty, fails⟩
  · rintro ⟨text, rest, rfl, well, nonempty, fails⟩
    obtain ⟨cs, rfl⟩ := Utf8.wellFormed_iff.mp well
    exact ⟨cs, rest, rfl, nonempty, fails⟩

theorem unpack_of_breaksOffIn {length : Nat} {piece : Bytes}
    (breaks : Utf8.BreaksOffIn bs length piece) :
    op.unpack bs = .error (.truncated op.letter length piece.length) := by
  obtain ⟨text, rfl, well, cut⟩ := breaks
  exact (unpack_utf8_all_eq_error_iff encoding all).mpr
    ⟨text, piece, rfl, well, cut.ne_nil, readChar_of_isCutOff cut⟩

/-- **Truncated data** is reported iff the bytes break off, with what the piece announces and has. -/
theorem unpack_eq_truncated_iff {needed available : Nat} :
    op.unpack bs = .error (.truncated op.letter needed available) ↔
      ∃ piece, Utf8.BreaksOffIn bs needed piece ∧ piece.length = available := by
  constructor
  · intro failed
    obtain ⟨text, rest, rfl, well, nonempty, fails⟩ :=
      (unpack_utf8_all_eq_error_iff encoding all).mp failed
    rcases readChar_fault_cases nonempty fails with ⟨length, cut⟩ | ⟨reason, malformed⟩
    · rw [readChar_of_isCutOff cut] at fails
      cases fails
      exact ⟨rest, ⟨text, rfl, well, cut⟩, rfl⟩
    · cases malformed
  · rintro ⟨piece, breaks, rfl⟩
    exact unpack_of_breaksOffIn encoding all breaks

/-- **Malformed data** is reported iff the bytes are no well-formed text and do not break off. -/
theorem exists_unpack_eq_malformed_iff (ill : ¬ Utf8.WellFormed bs) :
    (∃ reason, op.unpack bs = .error (.malformed op.letter reason)) ↔
      ∀ length piece, ¬ Utf8.BreaksOffIn bs length piece := by
  constructor
  · rintro ⟨reason, failed⟩ length piece breaks
    rw [unpack_of_breaksOffIn encoding all breaks] at failed
    cases failed
  · intro unbroken
    cases unpacked : op.unpack bs with
    | ok found =>
      obtain ⟨-, cs, -, written⟩ := (unpack_utf8_all_eq_ok_iff encoding all).mp unpacked
      exact absurd (Utf8.wellFormed_iff.mpr ⟨cs, written⟩) ill
    | error fault =>
      obtain ⟨text, rest, rfl, well, nonempty, fails⟩ :=
        (unpack_utf8_all_eq_error_iff encoding all).mp unpacked
      rcases readChar_fault_cases nonempty fails with ⟨length, cut⟩ | ⟨reason, rfl⟩
      · exact absurd ⟨text, rfl, well, cut⟩ (unbroken length rest)
      · exact ⟨reason, rfl⟩

end Star

end Operation

/-! ### The whole program -/

theorem unpack_characters_eq_error_iff {data : Bytes} {fault : Fault} :
    unpack "U*" data = .error fault ↔
      Operation.unpack ⟨Directive.unsized 'U' .utf8 "UTF-8 character", .none, .all⟩ data =
        .error fault := by
  rw [unpack, parse_characters]
  simp only [Program.unpack_eq_error_iff, Program.unpackFront_singleton]

/-- **Truncated or malformed.** Of bytes that are no well-formed text, those are reported as truncated
that break off within a piece, with the number of bytes that its first byte announces and of those
that are there, and all others as malformed.  Incomplete are just those that break off in the
opening of a code point, so that they are always reported as truncated.  What is reported tells
whether the bytes are incomplete iff no other piece is cut off at their end: one that starts
with a byte that starts no code point, or goes on with one that no code point goes on with. -/
theorem truncated_iff_breaksOffIn {data : Bytes} (ill : ¬ Utf8.WellFormed data) :
    (∀ needed available, unpack "U*" data = .error (.truncated 'U' needed available) ↔
        ∃ piece, Utf8.BreaksOffIn data needed piece ∧ piece.length = available) ∧
      ((∃ reason, unpack "U*" data = .error (.malformed 'U' reason)) ↔
        ∀ needed piece, ¬ Utf8.BreaksOffIn data needed piece) ∧
      (Utf8.Incomplete data ↔
        ∃ needed piece, Utf8.BreaksOffIn data needed piece ∧ Utf8.IsOpening piece) ∧
      (((∃ needed available, unpack "U*" data = .error (.truncated 'U' needed available)) ↔
          Utf8.Incomplete data) ↔
        ∀ needed piece, Utf8.BreaksOffIn data needed piece → Utf8.IsOpening piece) := by
  have truncated (needed available : Nat) :
      unpack "U*" data = .error (.truncated 'U' needed available) ↔
        ∃ piece, Utf8.BreaksOffIn data needed piece ∧ piece.length = available :=
    unpack_characters_eq_error_iff.trans (Operation.unpack_eq_truncated_iff rfl rfl)
  have malformed : (∃ reason, unpack "U*" data = .error (.malformed 'U' reason)) ↔
      ∀ needed piece, ¬ Utf8.BreaksOffIn data needed piece :=
    (exists_congr fun _ => unpack_characters_eq_error_iff).trans
      (Operation.exists_unpack_eq_malformed_iff rfl rfl ill)
  have incomplete := Utf8.incomplete_iff_breaksOffIn ill
  refine ⟨truncated, malformed, incomplete, ?_⟩
  constructor
  · intro told needed piece breaks
    have reported := (truncated needed piece.length).mpr ⟨piece, breaks, rfl⟩
    exact breaks.incomplete_iff.mp (told.mp ⟨needed, _, reported⟩)
  · intro all_openings
    constructor
    · rintro ⟨needed, available, reported⟩
      obtain ⟨piece, breaks, -⟩ := (truncated needed available).mp reported
      exact incomplete.mpr ⟨needed, piece, breaks, all_openings needed piece breaks⟩
    · intro more_helps
      obtain ⟨needed, piece, breaks, -⟩ := incomplete.mp more_helps
      exact ⟨needed, _, (truncated needed piece.length).mpr ⟨piece, breaks, rfl⟩⟩

/-- Behind a letter, the sign of a currency without its last byte. -/
theorem truncated_iff_breaksOffIn_of_currency :
    ¬ Utf8.WellFormed [0x61, 0xE2, 0x82] ∧
      unpack "U*" [0x61, 0xE2, 0x82] = .error (.truncated 'U' 3 2) ∧
      Utf8.Incomplete [0x61, 0xE2, 0x82] := by
  have letter : Utf8.WellFormed [0x61] := Utf8.wellFormed_iff.mpr ⟨['a'], rfl⟩
  have breaks : Utf8.BreaksOffIn [0x61, 0xE2, 0x82] 3 [0xE2, 0x82] :=
    ⟨[0x61], rfl, letter, 0xE2, [0x82], rfl, .three (by decide) (by decide), by decide⟩
  have opening : Utf8.IsOpening [0xE2, 0x82] :=
    .second (by decide) (by decide) ⟨⟨by decide, by decide⟩, by decide⟩
  obtain ⟨truncated, -, incomplete, -⟩ := truncated_iff_breaksOffIn breaks.not_wellFormed
  exact ⟨breaks.not_wellFormed, (truncated 3 2).mpr ⟨_, breaks, rfl⟩,
    incomplete.mpr ⟨3, _, breaks, opening⟩⟩

/-- The byte `0xC0` starts no code point, and no bytes behind it make one of it.  It is reported as
truncated, since its leading bits announce two bytes. -/
theorem truncated_not_incomplete :
    ¬ Utf8.WellFormed [0xC0] ∧ ¬ Utf8.Incomplete [0xC0] ∧
      unpack "U*" [0xC0] = .error (.truncated 'U' 2 1) := by
  have breaks : Utf8.BreaksOffIn [0xC0] 2 [0xC0] :=
    ⟨[], rfl, Utf8.wellFormed_iff.mpr ⟨[], rfl⟩, 0xC0, [], rfl, .two (by decide) (by decide),
      by decide⟩
  refine ⟨breaks.not_wellFormed, ?_, ?_⟩
  · rw [breaks.incomplete_iff]
    rintro (⟨least, -⟩)
    exact absurd least (by decide)
  · exact unpack_characters_eq_error_iff.mpr (Operation.unpack_of_breaksOffIn rfl rfl breaks)

end DirectivePack
