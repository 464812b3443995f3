import DirectivePack.Proofs.Command.AllOrNothing
import DirectivePack.Proofs.Config.BesideLevel
import DirectivePack.Proofs.Config.Variables

/-!
The log filter chooses what is reported, and nothing else.

Two runs are compared that see the same but for the log filter, which may come from the arguments,
from a configuration file or from two variables.  Unless one of them fails for its filter, they end
alike.  A run without a configuration never looks at its filter, so such runs are among them; what
they report is compared in whatever words the reason is put.

* `variableLayer_sameBesideLevel`: the variables for the filter are no setting but the log level.
* `Surroundings.SameBesideFilter.starts_cases`: both runs get as far as the task, or both are
  refused for the same fault.
* `Surroundings.SameBesideFilter.perform_eq`: a task sees no more of its surroundings than what the
  runs share.
* `ends_independent_of_filter`: hence exit code, output and report are the same.
-/

namespace DirectivePack

/-! ### Variables -/

/-- The variables that a log filter may come from. -/
def filterVariables : List String :=
  ["RUST_LOG", "VPACK_LOG_LEVEL"]

/-- All variables but those. -/
def Environment.besideFilter (environment : Environment) : Environment :=
  environment.filter fun entry => entry.1 ∉ filterVariables

theorem variableSetting?_logLevel (value : String) :
    variableSetting? "VPACK_LOG_LEVEL" value = some [("log_level", Variable.read value)] :=
  variableSetting?_of_key (by decide) ⟨by decide, by decide⟩ value

/-- The variables for the log filter are no setting but the log level. -/
theorem variableItem?_of_filterVariable {entry : String × String} {key : String}
    (is_filter : entry.1 ∈ filterVariables) (other_key : key ≠ "log_level") :
    variableItem? key entry = none := by
  obtain ⟨name, value⟩ := entry
  simp only [filterVariables, List.mem_cons, List.not_mem_nil, or_false] at is_filter
  rcases is_filter with rfl | rfl
  · have no_key : variableKey? "RUST_LOG" = none := by decide
    rw [variableItem?, variableSetting?_of_none no_key, Option.bind_none]
  · rw [variableItem?, variableSetting?_logLevel]
    simp [Json.field?, other_key.symm]

theorem variableLayer_sameBesideLevel {environment other : Environment}
    (same : environment.besideFilter = other.besideFilter) :
    Layer.SameBesideLevel (variableLayer environment) (variableLayer other) := by
  intro key other_key
  have said (environment : Environment) : Json.field? key (variableLayer environment) =
      (environment.besideFilter.filterMap (variableItem? key)).foldl Layer.lay none := by
    rw [field?_variableLayer_eq_foldl, Environment.besideFilter, List.filterMap_filter]
    congr
    funext entry
    by_cases is_filter : entry.1 ∈ filterVariables
    · simp [is_filter, variableItem?_of_filterVariable is_filter other_key]
    · simp [is_filter]
  rw [said, said, same]

theorem Surroundings.valueOf?_eq {s t : Surroundings}
    (same : s.environment.besideFilter = t.environment.besideFilter) {name : String}
    (other_name : name ∉ filterVariables) : s.valueOf? name = t.valueOf? name := by
  have beside (environment : Environment) :
      environment.find? (fun entry => entry.1 == name) =
        environment.besideFilter.find? fun entry => entry.1 == name := by
    rw [Environment.besideFilter, List.find?_filter]
    congr
    funext entry
    by_cases is_name : entry.1 = name
    · simp [is_name, other_name]
    · simp [is_name]
  rw [valueOf?, valueOf?, beside s.environment, beside t.environment, same]

/-! ### Surroundings -/

/-- Arguments that ask for the same but for the log filter. -/
structure Invocation.SameBesideFilter (i j : Invocation) : Prop where
  config : i.config = j.config
  output : i.output = j.output
  noColor : i.noColor = j.noColor
  task : i.task = j.task

/-- Surroundings in which a run sees the same but for the log filter.  Configuration files may say
something else under the key of the log level. -/
structure Surroundings.SameBesideFilter (i : Invocation) (s t : Surroundings) : Prop where
  input : s.input = t.input
  environment : s.environment.besideFilter = t.environment.besideFilter
  config : s.files.SameBesideLevel i.config t.files
  data : ∀ format path, i.task = .unpack format (.file path) → s.files path = t.files path

theorem Surroundings.SameBesideFilter.of_variables {i : Invocation}
    {environment other : Environment} (same : environment.besideFilter = other.besideFilter)
    (files : Files) (input : Bytes) :
    SameBesideFilter i ⟨environment, files, input⟩ ⟨other, files, input⟩ :=
  ⟨rfl, same, .refl _ _, fun _ _ _ => rfl⟩

/-! ### Filters that are refused -/

/-- What is wrong is the log filter: the log level is no text, or the text is no filter. -/
inductive CommandFault.BlamesFilter : CommandFault → Prop where
  | level (found : List (Origin × Json)) :
      BlamesFilter (.configuration (.unusable (.unfit "log_level" found)))
  | variable (text : String) (fault : FilterFault) : BlamesFilter (.variableFilter text fault)
  | configured (text : String) (fault : FilterFault) : BlamesFilter (.configuredFilter text fault)

/-- The run fails for its log filter.  A run that has no configuration for another reason does not,
since it never looks at its filter. -/
def Invocation.RefusesFilter (i : Invocation) (s : Surroundings) : Prop :=
  ∃ fault, i.IsRefused s fault ∧ fault.BlamesFilter

theorem blamesFilter_of_chooseFilter {s : Surroundings} {c : Configuration} {fault : CommandFault}
    (refused : chooseFilter s c = .error fault) : fault.BlamesFilter := by
  have configured : ∀ fault, (LogFilter.parse c.logLevel).mapError
      (CommandFault.configuredFilter c.logLevel) = .error fault → fault.BlamesFilter := by
    intro fault no_filter
    obtain ⟨reason, -, rfl⟩ := mapError_eq_error_iff.mp no_filter
    exact .configured _ reason
  unfold chooseFilter at refused
  split at refused
  · rename_i text _
    split at refused
    · exact configured fault refused
    · obtain ⟨reason, -, rfl⟩ := mapError_eq_error_iff.mp refused
      exact .variable text reason
  · exact configured fault refused

/-- A filter that is accepted is not refused. -/
theorem Invocation.Starts.not_refusesFilter {i : Invocation} {s : Surroundings} {c : Configuration}
    {filter : LogFilter} (starts : i.Starts s c filter) : ¬ i.RefusesFilter s := by
  rintro ⟨fault, refused, -⟩
  exact starts.not_isRefused fault refused

/-- A run without a configuration fails for that alone. -/
theorem Invocation.not_refusesFilter_of_configuration {i : Invocation} {s : Surroundings}
    {fault : CommandFault} (failed : i.configuration s = .error fault)
    (spared : ¬ fault.BlamesFilter) : ¬ i.RefusesFilter s := by
  rintro ⟨other, refused, blames⟩
  rcases refused with unconfigured | ⟨c, configured, -⟩
  · cases failed.symm.trans unconfigured
    exact spared blames
  · cases failed.symm.trans configured

theorem Invocation.isRefused_of_load {i : Invocation} {s : Surroundings} {fault : ConfigFault}
    (failed : Configuration.load s.files s.environment i.config = .error fault) :
    i.IsRefused s (.configuration fault) :=
  .inl (by rw [configuration, failed])

theorem Invocation.starts_of_load {i : Invocation} {s : Surroundings} {c : Configuration}
    (loaded : Configuration.load s.files s.environment i.config = .ok c)
    (kept : ¬ i.RefusesFilter s) :
    ∃ filter, i.Starts s (c.override i.logLevel i.output) filter := by
  have configured : i.configuration s = .ok (c.override i.logLevel i.output) := by
    rw [configuration, loaded]
  cases chosen : chooseFilter s (c.override i.logLevel i.output) with
  | ok filter => exact ⟨filter, configured, chosen⟩
  | error fault =>
    exact absurd ⟨fault, .inr ⟨_, configured, chosen⟩, blamesFilter_of_chooseFilter chosen⟩ kept

namespace Surroundings.SameBesideFilter

variable {i j : Invocation} {s t : Surroundings} (around : SameBesideFilter i s t)

include around

/-- Both runs have no configuration, for the same reason, or both get as far as the task, with
configurations that differ in the log level only. -/
theorem starts_cases (same : i.SameBesideFilter j) (kept : ¬ i.RefusesFilter s)
    (kept' : ¬ j.RefusesFilter t) :
    (∃ fault, i.IsRefused s fault ∧ j.IsRefused t fault) ∨
      ∃ c d filter filter', i.Starts s c filter ∧ j.Starts t d filter' ∧ c.output = d.output ∧
        c.maxInputBytes = d.maxInputBytes := by
  have alike := Configuration.load_alike around.config
    (variableLayer_sameBesideLevel around.environment)
  generalize loading : Configuration.load s.files s.environment i.config = one at alike
  generalize loading' : Configuration.load t.files t.environment i.config = other at alike
  rw [same.config] at loading'
  cases alike with
  | loaded level level' output bytes =>
    obtain ⟨filter, starts⟩ := Invocation.starts_of_load loading kept
    obtain ⟨filter', starts'⟩ := Invocation.starts_of_load loading' kept'
    refine .inr ⟨_, _, filter, filter', starts, starts', ?_, rfl⟩
    rw [Configuration.override, Configuration.override, same.output]
  | failed fault =>
    exact .inl ⟨_, Invocation.isRefused_of_load loading, Invocation.isRefused_of_load loading'⟩
  | left found => exact absurd ⟨_, Invocation.isRefused_of_load loading, .level found⟩ kept
  | right _ found => exact absurd ⟨_, Invocation.isRefused_of_load loading', .level found⟩ kept'

/-! ### Tasks -/

/-- A task sees no more of its surroundings than what both runs share. -/
theorem perform_eq {c d : Configuration} (output : c.output = d.output)
    (limit : c.maxInputBytes = d.maxInputBytes) (colored : Bool) :
    i.task.perform s c colored = i.task.perform t d colored := by
  cases task : i.task with
  | pack format arguments => rw [Task.perform, Task.perform, output]
  | unpack format source =>
    have read : readInput s c.maxInputBytes source = readInput t d.maxInputBytes source := by
      rw [limit]
      cases source with
      | digits text => rfl
      | file path => rw [readInput, readInput, around.data format path task]
      | standard => rw [readInput, readInput, around.input]
    rw [Task.perform, Task.perform, read, output]
  | list => rw [Task.perform, Task.perform, output]

theorem colors_eq (noColor : Bool) : colors s noColor = colors t noColor := by
  rw [colors, colors, Surroundings.valueOf?_eq around.environment (by decide)]

end Surroundings.SameBesideFilter

/-! ### Runs -/

/-- The report of a fault is the last line. -/
theorem Outcome.exists_lines_failed (events : List Event) (fault : CommandFault)
    (words : LoadFault → String) (time : String) :
    ∃ logged, (Outcome.failed events fault).lines time words = logged ++ [fault.report words] :=
  ⟨_, rfl⟩

/-- **Logging.** Two runs that only differ in the log filter end alike unless one of them fails for its
filter: they have the same exit code and the same output, and if they fail, the lines beside the output
end with the same report.  The words for the reason why layers make no configuration are any function
of the reason. -/
theorem ends_independent_of_filter {arguments others : List String} {i j : Invocation}
    (parsed : Invocation.parse arguments = .ok i) (parsed' : Invocation.parse others = .ok j)
    (same : i.SameBesideFilter j) {s t : Surroundings}
    (around : Surroundings.SameBesideFilter i s t) (kept : ¬ i.RefusesFilter s)
    (kept' : ¬ j.RefusesFilter t) :
    (run arguments s).exit = (run others t).exit ∧
      (run arguments s).output = (run others t).output ∧
      ((run arguments s).exit = 1 → ∀ words, ∃ report, ∀ time time',
        (∃ logged, (run arguments s).lines time words = logged ++ [report]) ∧
          ∃ logged, (run others t).lines time' words = logged ++ [report]) := by
  have ran : run arguments s = i.run s := by rw [run, parsed]
  have ran' : run others t = j.run t := by rw [run, parsed']
  rw [ran, ran']
  rcases around.starts_cases same kept kept' with ⟨fault, refused, refused'⟩ |
    ⟨c, d, filter, filter', starts, starts', output, limit⟩
  · rw [Invocation.run_of_isRefused refused, Invocation.run_of_isRefused refused']
    exact ⟨rfl, rfl, fun _ words => ⟨fault.report words, fun _ _ =>
      ⟨Outcome.exists_lines_failed .., Outcome.exists_lines_failed ..⟩⟩⟩
  · rw [Invocation.run_of_starts starts, Invocation.run_of_starts starts', ← same.task,
      ← same.noColor, ← around.colors_eq, ← around.perform_eq output limit]
    cases i.task.perform s c (colors s i.noColor) with
    | error fault =>
      exact ⟨rfl, rfl, fun _ words => ⟨fault.report words, fun _ _ =>
        ⟨Outcome.exists_lines_failed .., Outcome.exists_lines_failed ..⟩⟩⟩
    | ok output => exact ⟨rfl, rfl, fun failed => absurd failed Nat.zero_ne_one⟩

/-! ### Accepted filters -/

/-- A text without commas is one directive. -/
theorem LogFilter.parse_of_notMem {text : String} (undivided : ',' ∉ text.toList)
    (nonempty : text.isEmpty = false) {d : FilterDirective}
    (parsed : FilterDirective.parse text.toList = .ok d) : LogFilter.parse text = .ok ⟨[d]⟩ := by
  have piece : text.splitOn "," = [text] := splitOn_of_notMem ',' undivided
  rw [LogFilter.parse, piece]
  simp [nonempty, LogFilter.parseAll, parsed]

theorem chooseFilter_of_variable {s : Surroundings} {text : String} {filter : LogFilter}
    (found : s.valueOf? "RUST_LOG" = some text) (not_blank : text.toList.all isWhiteSpace = false)
    (parsed : LogFilter.parse text = .ok filter) (c : Configuration) :
    chooseFilter s c = .ok filter := by
  simp [chooseFilter, found, not_blank, parsed]

theorem chooseFilter_of_configured {s : Surroundings} {c : Configuration} {filter : LogFilter}
    (absent : s.valueOf? "RUST_LOG" = none) (parsed : LogFilter.parse c.logLevel = .ok filter) :
    chooseFilter s c = .ok filter := by
  simp [chooseFilter, absent, parsed]

/-- Packs a number and a text where two numbers are asked for. -/
def mismatched : Invocation :=
  ⟨none, none, none, false, .pack "n2" ["258", "x"]⟩

/-- Some variables, and a file `vpack.toml` that must not be read. -/
def Surroundings.ofLockedFile (environment : Environment) : Surroundings where
  environment := environment
  files path := .error (if path = "vpack.toml" then .other "Permission denied" else .missing)
  input := []

/-- The filter comes from one variable or another.  The same arguments fail at the task, and where
`vpack.toml` must not be read for lack of a configuration; both times with the same report. -/
theorem ends_independent_of_filter_of_variables :
    Invocation.parse ["pack", "n2", "258", "x"] = .ok mismatched ∧
      (∀ words, ∃ report, ∀ time time',
        (∃ logged, (run ["pack", "n2", "258", "x"]
            (.ofVariables [("RUST_LOG", "trace")])).lines time words = logged ++ [report]) ∧
          ∃ logged, (run ["pack", "n2", "258", "x"]
            (.ofVariables [("VPACK_LOG_LEVEL", "debug")])).lines time' words = logged ++ [report]) ∧
      ∀ words, ∃ report, ∀ time time',
        (∃ logged, (run ["pack", "n2", "258", "x"]
            (.ofLockedFile [("RUST_LOG", "trace")])).lines time words = logged ++ [report]) ∧
          ∃ logged, (run ["pack", "n2", "258", "x"]
            (.ofLockedFile [("VPACK_LOG_LEVEL", "debug")])).lines time' words =
              logged ++ [report] := by
  have parsed : Invocation.parse ["pack", "n2", "258", "x"] = .ok mismatched := rfl
  have variables_same : Environment.besideFilter [("RUST_LOG", "trace")] =
      Environment.besideFilter [("VPACK_LOG_LEVEL", "debug")] := by
    decide
  refine ⟨parsed, ?_, ?_⟩
  · have trace : LogFilter.parse "trace" = .ok ⟨[⟨none, none, [], 5⟩]⟩ :=
      LogFilter.parse_of_notMem (by decide) (by decide) rfl
    have debug : LogFilter.parse "debug" = .ok ⟨[⟨none, none, [], 4⟩]⟩ :=
      LogFilter.parse_of_notMem (by decide) (by decide) rfl
    have starts : mismatched.Starts (.ofVariables [("RUST_LOG", "trace")])
        ⟨"warn", .hex, 16 * 1024 * 1024⟩ ⟨[⟨none, none, [], 5⟩]⟩ :=
      ⟨rfl, chooseFilter_of_variable rfl (by decide) trace _⟩
    have starts' : mismatched.Starts (.ofVariables [("VPACK_LOG_LEVEL", "debug")])
        ⟨"debug", .hex, 16 * 1024 * 1024⟩ ⟨[⟨none, none, [], 4⟩]⟩ := by
      refine ⟨?_, chooseFilter_of_configured rfl debug⟩
      have variables_say : variableLayer [("VPACK_LOG_LEVEL", "debug")] =
          Layer.stack [[("log_level", .string "debug")]] := by
        simp only [variableLayer, List.filterMap_cons, variableSetting?_logLevel]
        rfl
      rw [Invocation.configuration, Configuration.load, Surroundings.ofVariables, variables_say]
      rfl
    obtain ⟨-, -, fails⟩ := ends_independent_of_filter parsed parsed ⟨rfl, rfl, rfl, rfl⟩
      (.of_variables variables_same _ _) starts.not_refusesFilter starts'.not_refusesFilter
    have failed : (run ["pack", "n2", "258", "x"]
        (.ofVariables [("RUST_LOG", "trace")])).exit = 1 := by
      rw [run, parsed]
      dsimp only
      rw [Invocation.run_of_starts starts]
      rfl
    exact fails failed
  · have unconfigured : ∀ environment, mismatched.configuration (.ofLockedFile environment) =
        .error (.configuration (.unusable (.unreadable
          [(⟨.toml, "vpack.toml"⟩, .error (.other "Permission denied"))]))) :=
      fun _ => rfl
    have kept : ∀ environment, ¬ mismatched.RefusesFilter (.ofLockedFile environment) := by
      intro environment
      refine Invocation.not_refusesFilter_of_configuration (unconfigured environment) ?_
      intro blames
      cases blames
    obtain ⟨-, -, fails⟩ := ends_independent_of_filter parsed parsed ⟨rfl, rfl, rfl, rfl⟩
      (.of_variables variables_same _ _) (kept _) (kept _)
    have failed : (run ["pack", "n2", "258", "x"]
        (.ofLockedFile [("RUST_LOG", "trace")])).exit = 1 := by
      rw [run, parsed]
      dsimp only
      rw [Invocation.run_of_isRefused (.inl (unconfigured _))]
      rfl
    exact fails failed

end DirectivePack
