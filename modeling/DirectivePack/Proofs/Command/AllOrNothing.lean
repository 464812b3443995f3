import Mathlib.Data.List.Forall2
import DirectivePack.Command.Run

/-!
All or nothing: the output of a run is that of its task, whole or not at all.

* `Invocation.run_cases`: what a run can do.
* `Task.perform_pack_eq_ok_iff`, `Task.perform_unpack_eq_ok_iff`: what a task has to get right, one
  thing after the other, before it has any output.
* `output_all_or_nothing`: a run has the output of its task if all of that goes right, and fails
  with no output otherwise.
-/

namespace DirectivePack

/-! ### Arguments -/

theorem Value.ofArguments_eq_ok_iff {arguments : List String} {values : List Value} :
    Value.ofArguments arguments = .ok values ↔
      List.Forall₂ (fun argument v => Value.ofArgument argument = .ok v) arguments values := by
  induction arguments generalizing values with
  | nil => cases values <;> simp [Value.ofArguments]
  | cons argument arguments ih =>
    rw [Value.ofArguments]
    cases first : Value.ofArgument argument with
    | error bad => cases values <;> simp [first]
    | ok v =>
      cases others : Value.ofArguments arguments with
      | error bad => cases values <;> simp [first, ← ih, others]
      | ok vs => cases values <;> simp [first, ← ih, others]

/-- One argument without a value is enough. -/
theorem Value.exists_ofArguments_eq_error {arguments : List String} {argument : String}
    (member : argument ∈ arguments) {bad : BadArgument}
    (refused : Value.ofArgument argument = .error bad) :
    ∃ first, Value.ofArguments arguments = .error first := by
  induction arguments with
  | nil => cases member
  | cons head arguments ih =>
    rw [Value.ofArguments]
    rcases List.mem_cons.mp member with rfl | behind
    · exact ⟨bad, by rw [refused]⟩
    · obtain ⟨first, others⟩ := ih behind
      cases Value.ofArgument head with
      | error bad => exact ⟨bad, rfl⟩
      | ok v => exact ⟨first, by rw [others]⟩

/-! ### Tasks -/

namespace Task

variable {s : Surroundings} {c : Configuration} {colored : Bool} {format : String}

theorem perform_pack_eq_ok_iff {arguments : List String} {output : Bytes} :
    (pack format arguments).perform s c colored = .ok output ↔
      ∃ values bs,
        List.Forall₂ (fun argument v => Value.ofArgument argument = .ok v) arguments values ∧
        DirectivePack.pack format values = .ok bs ∧ output = c.output.render bs := by
  simp only [← Value.ofArguments_eq_ok_iff]
  rw [perform]
  cases Value.ofArguments arguments with
  | error bad => simp
  | ok values => cases packed : DirectivePack.pack format values <;> simp [packed, eq_comm]

theorem perform_unpack_eq_ok_iff {source : InputSource} {output : Bytes} :
    (unpack format source).perform s c colored = .ok output ↔
      ∃ bs values, readInput s c.maxInputBytes source = .ok bs ∧
        DirectivePack.unpack format bs = .ok values ∧
        output = Utf8.encode (valuesText c.output values) := by
  rw [perform]
  cases readInput s c.maxInputBytes source with
  | error fault => simp
  | ok bs => cases unpacked : DirectivePack.unpack format bs <;> simp [unpacked, eq_comm]

theorem perform_unpack_eq_error_iff {source : InputSource} {fault : CommandFault} :
    (unpack format source).perform s c colored = .error fault ↔
      readInput s c.maxInputBytes source = .error fault ∨
      ∃ bs cause, readInput s c.maxInputBytes source = .ok bs ∧
        DirectivePack.unpack format bs = .error cause ∧
        fault = .unpacking bs.length format cause := by
  rw [perform]
  cases readInput s c.maxInputBytes source with
  | error fault => simp
  | ok bs => cases unpacked : DirectivePack.unpack format bs <;> simp [unpacked, eq_comm]

end Task

/-! ### Runs -/

namespace Invocation

/-- The run gets as far as its task, with a configuration and a log filter. -/
def Starts (i : Invocation) (s : Surroundings) (c : Configuration) (filter : LogFilter) : Prop :=
  i.configuration s = .ok c ∧ chooseFilter s c = .ok filter

/-- The run has no configuration, or no log filter. -/
def IsRefused (i : Invocation) (s : Surroundings) (fault : CommandFault) : Prop :=
  i.configuration s = .error fault ∨
    ∃ c, i.configuration s = .ok c ∧ chooseFilter s c = .error fault

/-- The events that a run writes if it gets as far as its task. -/
def written (i : Invocation) (s : Surroundings) (c : Configuration) (filter : LogFilter) :
    List Event :=
  filter.written (.configured c :: i.task.events s c)

variable {i : Invocation} {s : Surroundings} {c : Configuration} {filter : LogFilter}
  {fault : CommandFault}

theorem starts_or_isRefused (i : Invocation) (s : Surroundings) :
    (∃ c filter, i.Starts s c filter) ∨ ∃ fault, i.IsRefused s fault := by
  cases configured : i.configuration s with
  | error fault => exact .inr ⟨fault, .inl configured⟩
  | ok c =>
    cases chosen : chooseFilter s c with
    | error fault => exact .inr ⟨fault, .inr ⟨c, configured, chosen⟩⟩
    | ok filter => exact .inl ⟨c, filter, configured, chosen⟩

theorem run_of_isRefused (refused : i.IsRefused s fault) : i.run s = .failed [] fault := by
  rcases refused with unconfigured | ⟨c, configured, unfiltered⟩
  · rw [run, unconfigured]
  · rw [run, configured]
    dsimp only
    rw [unfiltered]

theorem run_of_starts (starts : i.Starts s c filter) :
    i.run s = match i.task.perform s c (colors s i.noColor) with
      | .error fault => .failed (i.written s c filter) fault
      | .ok output => .succeeded (i.written s c filter) output := by
  rw [run, starts.1]
  dsimp only
  rw [starts.2]
  rfl

theorem Starts.not_isRefused (starts : i.Starts s c filter) (fault : CommandFault) :
    ¬ i.IsRefused s fault := by
  obtain ⟨configured, chosen⟩ := starts
  rintro (unconfigured | ⟨c', configured', unfiltered⟩)
  · rw [configured] at unconfigured
    cases unconfigured
  · rw [configured] at configured'
    cases configured'
    rw [chosen] at unfiltered
    cases unfiltered

/-- What a run can do: it succeeds with all the output of its task, or it fails with none. -/
theorem run_cases (i : Invocation) (s : Surroundings) :
    ((i.run s).exit = 0 ∧ ∃ c filter, i.Starts s c filter ∧
        i.task.perform s c (colors s i.noColor) = .ok (i.run s).output) ∨
      ((i.run s).exit = 1 ∧ (i.run s).output = [] ∧
        ((∃ fault, i.IsRefused s fault) ∨ ∃ c filter fault, i.Starts s c filter ∧
          i.task.perform s c (colors s i.noColor) = .error fault)) := by
  rcases starts_or_isRefused i s with ⟨c, filter, starts⟩ | ⟨fault, refused⟩
  · rw [run_of_starts starts]
    cases performed : i.task.perform s c (colors s i.noColor) with
    | error fault => exact .inr ⟨rfl, rfl, .inr ⟨c, filter, fault, starts, performed⟩⟩
    | ok output => exact .inl ⟨rfl, c, filter, starts, performed⟩
  · rw [run_of_isRefused refused]
    exact .inr ⟨rfl, rfl, .inl ⟨fault, refused⟩⟩

end Invocation

/-- **All or nothing.** A run that does not succeed has no output.  Packing succeeds with the packed
values of all its arguments, and fails if one of them is no value, if they cannot be packed, or if
there is no configuration or no log filter.  Unpacking succeeds with the array of all values, and
fails only for one of the last two reasons, for input that cannot be read or is beyond the limit, or
for input that cannot be unpacked. -/
theorem output_all_or_nothing {arguments : List String} {i : Invocation}
    (parsed : Invocation.parse arguments = .ok i) (s : Surroundings) :
    ((run arguments s).exit ≠ 0 → (run arguments s).output = []) ∧
      (∀ format texts, i.task = .pack format texts →
        ((run arguments s).exit = 0 → ∃ c filter values bs, i.Starts s c filter ∧
          List.Forall₂ (fun text v => Value.ofArgument text = .ok v) texts values ∧
          pack format values = .ok bs ∧ (run arguments s).output = c.output.render bs) ∧
        ((∃ fault, i.IsRefused s fault) ∨
            (∃ text ∈ texts, ∃ bad, Value.ofArgument text = .error bad) ∨
            (∃ values fault,
              List.Forall₂ (fun text v => Value.ofArgument text = .ok v) texts values ∧
              pack format values = .error fault) →
          (run arguments s).exit = 1)) ∧
      ∀ format source, i.task = .unpack format source →
        ((run arguments s).exit = 0 → ∃ c filter bs values, i.Starts s c filter ∧
          readInput s c.maxInputBytes source = .ok bs ∧ unpack format bs = .ok values ∧
          (run arguments s).output = Utf8.encode (valuesText c.output values)) ∧
        ((run arguments s).exit ≠ 0 → (run arguments s).exit = 1 ∧
          ((∃ fault, i.IsRefused s fault) ∨ ∃ c filter, i.Starts s c filter ∧
            ((∃ fault, readInput s c.maxInputBytes source = .error fault) ∨
              ∃ bs fault, readInput s c.maxInputBytes source = .ok bs ∧
                unpack format bs = .error fault))) := by
  have ran : run arguments s = i.run s := by rw [run, parsed]
  rw [ran]
  have outcome := i.run_cases s
  refine ⟨?_, ?_, ?_⟩
  · intro failed
    rcases outcome with ⟨succeeded, -⟩ | ⟨-, empty, -⟩
    · exact absurd succeeded failed
    · exact empty
  · intro format texts is_pack
    rw [is_pack] at outcome
    rcases outcome with ⟨succeeded, c, filter, starts, performed⟩ | ⟨failed, -, -⟩
    · obtain ⟨values, bs, read, packed, output⟩ := Task.perform_pack_eq_ok_iff.mp performed
      refine ⟨fun _ => ⟨c, filter, values, bs, starts, read, packed, output⟩, ?_⟩
      have all_read := Value.ofArguments_eq_ok_iff.mpr read
      rintro (⟨fault, refused⟩ | ⟨text, member, bad, no_value⟩ |
        ⟨values', fault, read', not_packed⟩)
      · exact absurd refused (starts.not_isRefused fault)
      · obtain ⟨first, no_values⟩ := Value.exists_ofArguments_eq_error member no_value
        rw [all_read] at no_values
        cases no_values
      · rw [← Value.ofArguments_eq_ok_iff, all_read] at read'
        cases read'
        rw [packed] at not_packed
        cases not_packed
    · exact ⟨fun succeeded => absurd (failed.symm.trans succeeded) Nat.one_ne_zero, fun _ => failed⟩
  · intro format source is_unpack
    rw [is_unpack] at outcome
    rcases outcome with ⟨succeeded, c, filter, starts, performed⟩ | ⟨failed, -, why⟩
    · obtain ⟨bs, values, read, unpacked, output⟩ := Task.perform_unpack_eq_ok_iff.mp performed
      exact ⟨fun _ => ⟨c, filter, bs, values, starts, read, unpacked, output⟩,
        fun not_succeeded => absurd succeeded not_succeeded⟩
    · refine ⟨fun succeeded => absurd (failed.symm.trans succeeded) Nat.one_ne_zero,
        fun _ => ⟨failed, why.imp_right ?_⟩⟩
      rintro ⟨c, filter, fault, starts, performed⟩
      refine ⟨c, filter, starts, (Task.perform_unpack_eq_error_iff.mp performed).imp ?_ ?_⟩
      · intro unread
        exact ⟨fault, unread⟩
      · rintro ⟨bs, cause, read, not_unpacked, -⟩
        exact ⟨bs, cause, read, not_unpacked⟩

/-- Some variables, no files and no input. -/
def Surroundings.ofVariables (environment : Environment) : Surroundings :=
  ⟨environment, fun _ => .error .missing, []⟩

/-- A text is no number, which is found out when the number in front of it is already packed. -/
theorem output_all_or_nothing_of_text :
    Invocation.parse ["pack", "n2", "258", "x"] =
        .ok ⟨none, none, none, false, .pack "n2" ["258", "x"]⟩ ∧
      pack "n2" [.integer 258, .text "x"] = .error (.wrongKind 'n' .integer .bytes) ∧
      (run ["pack", "n2", "258", "x"] (.ofVariables [])).exit = 1 ∧
      (run ["pack", "n2", "258", "x"] (.ofVariables [])).output = [] := by
  have parsed : Invocation.parse ["pack", "n2", "258", "x"] =
      .ok ⟨none, none, none, false, .pack "n2" ["258", "x"]⟩ := rfl
  have not_packed : pack "n2" [.integer 258, .text "x"] = .error (.wrongKind 'n' .integer .bytes) :=
    rfl
  obtain ⟨no_output, packs, -⟩ := output_all_or_nothing parsed (.ofVariables [])
  have failed := (packs "n2" ["258", "x"] rfl).2
    (.inr (.inr ⟨_, _, .cons rfl (.cons rfl .nil), not_packed⟩))
  exact ⟨parsed, not_packed, failed, no_output (by rw [failed]; exact Nat.one_ne_zero)⟩

/-- Without the configuration that is asked for, nothing is unpacked, although the input can be read
within any limit and can be unpacked. -/
theorem not_unpacked_without_configuration :
    Invocation.parse ["--config", "absent.toml", "unpack", "C", "--hex", "01"] =
        .ok ⟨some "absent.toml", none, none, false, .unpack "C" (.digits "01")⟩ ∧
      (∀ limit, 1 ≤ limit → readInput (.ofVariables []) limit (.digits "01") = .ok [1]) ∧
      unpack "C" [1] = .ok [.integer 1] ∧
      (run ["--config", "absent.toml", "unpack", "C", "--hex", "01"] (.ofVariables [])).exit =
        1 := by
  have parsed : Invocation.parse ["--config", "absent.toml", "unpack", "C", "--hex", "01"] =
      .ok ⟨some "absent.toml", none, none, false, .unpack "C" (.digits "01")⟩ := rfl
  refine ⟨parsed, fun limit enough => ?_, rfl, ?_⟩
  · have decoded : Hex.decodeSpaced "01" = .ok [1] := rfl
    rw [readInput, decoded]
    exact withinLimit_eq_ok_iff.mpr ⟨enough, rfl⟩
  · rw [run, parsed]
    rfl

end DirectivePack
