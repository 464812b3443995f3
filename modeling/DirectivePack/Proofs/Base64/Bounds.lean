import DirectivePack.Base64

/-!
Where a segment of base64 ends.

The lenient reader looks for padding and for nothing else.  Bytes divide into a segment that is free
of padding, a run of padding with one line break behind it, and a rest that is not read; or the
segment is all there is.

* `exists_divides`: all bytes divide in this way.
* `Divides.segment_eq`: the reader takes the symbols of the segment, and leaves the rest.
* `segment_append_of_free`: what has no padding is a part of the segment behind it.
* `segment_skip`: bytes that are neither symbols nor padding do not count.
-/

namespace DirectivePack.Base64

/-- What bytes are without the line break in front of them, if there is one. -/
inductive BreaksOff : Bytes → Bytes → Prop
  | crlf (rest : Bytes) : BreaksOff (0x0D :: 0x0A :: rest) rest
  | feed (rest : Bytes) : BreaksOff (0x0A :: rest) rest
  | none {rest : Bytes} : ¬ [0x0D, 0x0A] <+: rest → ¬ [0x0A] <+: rest → BreaksOff rest rest

/-- The segment at the front of bytes, and the rest behind it. -/
inductive Divides : Bytes → Bytes → Bytes → Prop
  /-- Without padding all bytes are the segment. -/
  | whole {bs : Bytes} : pad ∉ bs → Divides bs bs []
  /-- A run of padding ends the segment, and a line break goes with it. -/
  | padded {front behind rest : Bytes} {pads : Nat} : pad ∉ front → 0 < pads →
      behind.head? ≠ some pad → BreaksOff behind rest →
      Divides (front ++ (List.replicate pads pad ++ behind)) front rest

theorem exists_breaksOff (bs : Bytes) : ∃ rest, BreaksOff bs rest := by
  by_cases crlf : [0x0D, 0x0A] <+: bs
  · obtain ⟨rest, rfl⟩ := crlf
    exact ⟨rest, .crlf rest⟩
  · by_cases feed : [0x0A] <+: bs
    · obtain ⟨rest, rfl⟩ := feed
      exact ⟨rest, .feed rest⟩
    · exact ⟨bs, .none crlf feed⟩

/-- Bytes start with a run of padding, which may be empty. -/
theorem exists_run (bs : Bytes) :
    ∃ pads behind, bs = List.replicate pads pad ++ behind ∧ behind.head? ≠ some pad := by
  induction bs with
  | nil => exact ⟨0, [], rfl, nofun⟩
  | cons b bs ih =>
    by_cases padding : b = pad
    · obtain ⟨pads, behind, rfl, run_ends⟩ := ih
      exact ⟨pads + 1, behind, by rw [padding, List.replicate_succ, List.cons_append], run_ends⟩
    · refine ⟨0, b :: bs, rfl, ?_⟩
      rw [List.head?_cons]
      exact fun same => padding (Option.some.inj same)

/-- All bytes divide, at their first padding if they have any. -/
theorem exists_divides (bs : Bytes) : ∃ front rest, Divides bs front rest := by
  by_cases padded : pad ∈ bs
  · obtain ⟨front, others, rfl, free⟩ := List.eq_append_cons_of_mem padded
    obtain ⟨pads, behind, rfl, run_ends⟩ := exists_run others
    obtain ⟨rest, breaks⟩ := exists_breaksOff behind
    have division : Divides (front ++ (List.replicate (pads + 1) pad ++ behind)) front rest :=
      .padded free (Nat.succ_pos pads) run_ends breaks
    exact ⟨front, rest, division⟩
  · exact ⟨bs, [], .whole padded⟩

/-! ### Reading segments -/

theorem ne_pad {front : Bytes} (free : pad ∉ front) : ∀ b ∈ front, (b != pad) = true := by
  intro b member
  have differs : b ≠ pad := fun same => free (same ▸ member)
  simpa using differs

/-- What has no padding is a part of the segment behind it. -/
theorem segment_append_of_free {front : Bytes} (free : pad ∉ front) (rest : Bytes) :
    segment (front ++ rest) = (front.filter isSymbol ++ (segment rest).1, (segment rest).2) := by
  rw [segment, List.takeWhile_append_of_pos (ne_pad free),
    List.dropWhile_append_of_pos (ne_pad free), List.filter_append]
  unfold segment
  dsimp only
  split <;> rfl

/-- Bytes that are neither symbols nor padding do not count in a segment. -/
theorem segment_skip {front skipped : Bytes} (free : pad ∉ front)
    (no_symbols : ∀ b ∈ skipped, isSymbol b = false ∧ b ≠ pad) (behind : Bytes) :
    segment (front ++ (skipped ++ behind)) = segment (front ++ behind) := by
  have skipped_free : pad ∉ skipped := fun member => (no_symbols pad member).2 rfl
  have none_left : skipped.filter isSymbol = [] := by
    apply List.filter_eq_nil_iff.mpr
    intro b member
    rw [(no_symbols b member).1]
    exact Bool.false_ne_true
  rw [segment_append_of_free free, segment_append_of_free skipped_free, segment_append_of_free free,
    none_left, List.nil_append]

/-- Padding in front ends the segment. -/
theorem segment_of_pads {pads : Nat} (some_pad : 0 < pads) {behind rest : Bytes}
    (run_ends : behind.head? ≠ some pad) (breaks : BreaksOff behind rest) :
    segment (List.replicate pads pad ++ behind) = ([], rest) := by
  obtain ⟨more, rfl⟩ : ∃ more, pads = more + 1 := ⟨pads - 1, by omega⟩
  have stop : (List.replicate (more + 1) pad ++ behind).takeWhile (· != pad) = [] := by
    simp [List.replicate_succ]
  have go : (List.replicate (more + 1) pad ++ behind).dropWhile (· != pad) =
      List.replicate (more + 1) pad ++ behind := by
    simp [List.replicate_succ]
  have run : ∀ b ∈ List.replicate (more + 1) pad, (b == pad) = true := by
    intro b member
    simpa using List.eq_of_mem_replicate member
  have left : behind.dropWhile (· == pad) = behind := by
    cases behind with
    | nil => rfl
    | cons b behind =>
      have differs : b ≠ pad := fun same => run_ends (congrArg some same)
      rw [List.dropWhile_cons_of_neg (by simpa using differs)]
  rw [segment, stop, go, List.dropWhile_append_of_pos run, left]
  cases breaks with
  | crlf | feed => rfl
  | none no_crlf no_feed =>
    split
    · exact absurd (List.prefix_append [0x0D, 0x0A] _) no_crlf
    · exact absurd (List.prefix_append [0x0A] _) no_feed
    · rfl

/-- **Segments.** The reader takes the symbols in front of the first padding, and leaves what is
behind the run of padding and a line break. -/
theorem Divides.segment_eq {bs front rest : Bytes} (divides : Divides bs front rest) :
    segment bs = (front.filter isSymbol, rest) := by
  cases divides with
  | whole free =>
    have alone := segment_append_of_free free []
    rwa [List.append_nil, show segment [] = ([], []) from rfl, List.append_nil] at alone
  | padded free some_pad run_ends breaks =>
    rw [segment_append_of_free free, segment_of_pads some_pad run_ends breaks, List.append_nil]

/-- A segment that ends with padding and a line feed gives its symbols and leaves what is behind. -/
theorem segment_append {body : Bytes} (free : pad ∉ body) {pads : Nat} (some_pad : 0 < pads)
    (rest : Bytes) :
    segment (body ++ (List.replicate pads pad ++ 0x0A :: rest)) = (body.filter isSymbol, rest) :=
  (Divides.padded free some_pad (by simp [pad]) (.feed rest)).segment_eq

end DirectivePack.Base64
