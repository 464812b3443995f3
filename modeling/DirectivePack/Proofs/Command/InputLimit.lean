import DirectivePack.Proofs.Command.FilterIndependence

/-!
Input is taken whole, or refused for its size.

Digits are measured when they are decoded and a file as it is.  Of the standard input no more is read
than shows that it is beyond the limit, so that the size in the fault is the limit and one more,
whatever there is behind.  A size beyond the greatest one cannot be told: under the greatest limit, the
input is taken to have a size.

* `readInput_of_holds`: what is read of a source, by what it holds.
* `input_whole_or_refused`: the same, and what becomes of it when it is unpacked.
* `Invocation.run_take_input`: no more of the standard input need be there than the run asks for.
-/

namespace DirectivePack

/-- The bytes that a source holds. -/
inductive Surroundings.Holds (s : Surroundings) : InputSource → Bytes → Prop where
  | digits {text : String} {bs : Bytes} : Hex.decodeSpaced text = .ok bs → s.Holds (.digits text) bs
  | file {path : String} {bs : Bytes} : s.files path = .ok bs → s.Holds (.file path) bs
  | standard : s.Holds .standard s.input

/-- The size that is reported of input beyond a limit. -/
def InputSource.reportedSize (limit size : Nat) : InputSource → Nat
  | .digits _ | .file _ => size
  | .standard => limit + 1

theorem InputSource.limit_lt_reportedSize {limit size : Nat} (beyond : limit < size)
    (source : InputSource) : limit < source.reportedSize limit size := by
  cases source with
  | digits | file => exact beyond
  | standard => exact Nat.lt_succ_self limit

theorem withinLimit_of_lt {limit size : Nat} {bs : Bytes} (beyond : limit < size) :
    withinLimit limit size bs = .error (.inputTooLarge size limit) :=
  if_neg (Nat.not_le_of_lt beyond)

section Holds

variable {s : Surroundings} {limit : Nat} {source : InputSource} {bs : Bytes}
  (holds : s.Holds source bs) (told : limit < greatestSize ∨ bs.length ≤ greatestSize)

include holds told

theorem readInput_of_le (within : bs.length ≤ limit) : readInput s limit source = .ok bs := by
  cases holds with
  | digits decoded =>
    rw [readInput, decoded]
    exact withinLimit_eq_ok_iff.mpr ⟨within, rfl⟩
  | file found =>
    rw [readInput, found]
    exact withinLimit_eq_ok_iff.mpr ⟨within, rfl⟩
  | standard =>
    have enough : s.input.length ≤ min (limit + 1) greatestSize := by omega
    rw [readInput, List.take_of_length_le enough]
    exact withinLimit_eq_ok_iff.mpr ⟨within, rfl⟩

theorem readInput_of_lt (beyond : limit < bs.length) :
    readInput s limit source =
      .error (.inputTooLarge (source.reportedSize limit bs.length) limit) := by
  cases holds with
  | digits decoded =>
    rw [readInput, decoded]
    exact withinLimit_of_lt beyond
  | file found =>
    rw [readInput, found]
    exact withinLimit_of_lt beyond
  | standard =>
    -- one byte beyond the limit is still there to be read
    have one_more : min (limit + 1) greatestSize = limit + 1 := by omega
    have read : (s.input.take (limit + 1)).length = limit + 1 :=
      List.length_take_of_le beyond
    rw [readInput, one_more, read]
    exact withinLimit_of_lt (Nat.lt_succ_self limit)

/-- **Input** is read whole or refused for its size. -/
theorem readInput_of_holds :
    readInput s limit source =
      if bs.length ≤ limit then .ok bs
      else .error (.inputTooLarge (source.reportedSize limit bs.length) limit) := by
  split
  · rename_i within
    exact readInput_of_le holds told within
  · rename_i beyond
    exact readInput_of_lt holds told (Nat.lt_of_not_le beyond)

/-- **The limit on input.** Input of no more bytes than the limit is read whole.  Other input is
refused, with the limit and a size beyond it: the size of the input, or of the standard input the
limit and one more.  So a run either unpacks all of its input or fails for its size. -/
theorem input_whole_or_refused :
    (bs.length ≤ limit → readInput s limit source = .ok bs) ∧
      (limit < bs.length →
        limit < source.reportedSize limit bs.length ∧
          readInput s limit source =
            .error (.inputTooLarge (source.reportedSize limit bs.length) limit)) ∧
      ∀ arguments i format c filter, Invocation.parse arguments = .ok i →
        i.task = .unpack format source → i.Starts s c filter → c.maxInputBytes = limit →
          run arguments s =
            if bs.length ≤ limit then
              match unpack format bs with
              | .ok values =>
                .succeeded (i.written s c filter) (Utf8.encode (valuesText c.output values))
              | .error fault =>
                .failed (i.written s c filter) (.unpacking bs.length format fault)
            else
              .failed (i.written s c filter)
                (.inputTooLarge (source.reportedSize limit bs.length) limit) := by
  refine ⟨readInput_of_le holds told, ?_, ?_⟩
  · intro beyond
    exact ⟨source.limit_lt_reportedSize beyond, readInput_of_lt holds told beyond⟩
  · intro arguments i format c filter parsed is_unpack starts configured
    rw [run, parsed]
    dsimp only
    rw [i.run_of_starts starts, is_unpack, Task.perform, configured, readInput_of_holds holds told]
    by_cases within : bs.length ≤ limit
    · rw [if_pos within, if_pos within]
      dsimp only
      cases unpack format bs <;> rfl
    · rw [if_neg within, if_neg within]

end Holds

/-! ### What is asked for -/

theorem Invocation.Starts.inputWanted_eq {i : Invocation} {s : Surroundings} {c : Configuration}
    {filter : LogFilter} (starts : i.Starts s c filter) {format : String}
    (unpacks : i.task = .unpack format .standard) :
    i.inputWanted s = min (c.maxInputBytes + 1) greatestSize := by
  rw [inputWanted, unpacks, starts.1]
  dsimp only
  rw [starts.2]

/-- No run sees more of the standard input than it asks for. -/
theorem Invocation.run_take_input (i : Invocation) (s : Surroundings) :
    i.run { s with input := s.input.take (i.inputWanted s) } = i.run s := by
  rcases i.starts_or_isRefused s with ⟨c, filter, starts⟩ | ⟨fault, refused⟩
  · have starts' : i.Starts { s with input := s.input.take (i.inputWanted s) } c filter := starts
    rw [run_of_starts starts, run_of_starts starts', written, written]
    cases task : i.task with
    | pack format arguments => rfl
    | unpack format source =>
      have read : readInput { s with input := s.input.take (i.inputWanted s) } c.maxInputBytes
          source = readInput s c.maxInputBytes source := by
        cases source with
        | digits | file => rfl
        | standard =>
          rw [readInput, readInput, starts.inputWanted_eq task]
          simp only [List.take_take, Nat.min_self]
      rw [Task.events, Task.events, Task.perform, Task.perform, read]
    | list => rfl
  · have refused' : i.IsRefused { s with input := s.input.take (i.inputWanted s) } fault := refused
    rw [run_of_isRefused refused, run_of_isRefused refused']

/-- Some bytes on the standard input, and nothing else. -/
def Surroundings.ofInput (bs : Bytes) : Surroundings :=
  ⟨[], fun _ => .error .missing, bs⟩

/-- Three bytes on the standard input, under a limit of two bytes and under the greatest one, and a
run under the limit that holds where nothing else is said. -/
theorem input_whole_or_refused_of_three_bytes :
    readInput (.ofInput [1, 2, 3]) 2 .standard = .error (.inputTooLarge 3 2) ∧
      readInput (.ofInput [1, 2, 3]) greatestSize .standard = .ok [1, 2, 3] ∧
      (run ["unpack", "C*"] (.ofInput [1, 2, 3])).output = Utf8.encode "[1,2,3]\n" := by
  have holds : (Surroundings.ofInput [1, 2, 3]).Holds .standard [1, 2, 3] := .standard
  have warn : LogFilter.parse "warn" = .ok ⟨[⟨none, none, [], 2⟩]⟩ :=
    LogFilter.parse_of_notMem (by decide) (by decide) rfl
  obtain ⟨-, refused, -⟩ := @input_whole_or_refused _ 2 _ _ holds (.inl (by decide))
  obtain ⟨whole, -, -⟩ := @input_whole_or_refused _ greatestSize _ _ holds (.inr (by decide))
  obtain ⟨-, -, runs⟩ := @input_whole_or_refused _ (16 * 1024 * 1024) _ _ holds
    (.inl (by decide))
  have ran := runs ["unpack", "C*"] ⟨none, none, none, false, .unpack "C*" .standard⟩ "C*"
    ⟨"warn", .hex, 16 * 1024 * 1024⟩ _ rfl rfl ⟨rfl, chooseFilter_of_configured rfl warn⟩ rfl
  refine ⟨(refused (by decide)).2, whole (by decide), ?_⟩
  rw [ran]
  rfl

end DirectivePack
