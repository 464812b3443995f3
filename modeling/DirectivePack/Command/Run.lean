import DirectivePack.Command.Invocation
import DirectivePack.Command.Listing
import DirectivePack.Log.Filter

/-!
Runs of the command, as a function of its arguments and surroundings.

A task yields all its output or a fault (`Task.perform`); what it reports on the way is computed
apart (`Task.events`), and the log filter only chooses among those events.  The order of a run is:
the configuration, the log filter, the task; the first that fails ends it.

* `withinLimit_eq_ok_iff`: input within the limit is taken whole, and all other input is refused.
-/

namespace DirectivePack

/-- All that a run sees beside its arguments. -/
structure Surroundings where
  environment : Environment
  files : Files
  input : Bytes

namespace Surroundings

/-- The value of a variable. -/
def valueOf? (s : Surroundings) (name : String) : Option String :=
  (s.environment.find? fun entry => entry.1 == name).map Prod.snd

end Surroundings

/-! ### Faults -/

/-- Why a run fails, once its arguments make sense. -/
inductive CommandFault where
  | configuration (fault : ConfigFault)
  /-- The filter in the environment is none. -/
  | variableFilter (text : String) (fault : FilterFault)
  /-- The filter of the configuration is none. -/
  | configuredFilter (text : String) (fault : FilterFault)
  | argument (bad : BadArgument)
  | packing (format : String) (fault : Fault)
  | reading (path : String) (fault : FileFault)
  | inputTooLarge (size limit : Nat)
  | unpacking (size : Nat) (format : String) (fault : Fault)

def BadArgument.message (bad : BadArgument) : String :=
  "Invalid value '" ++ bad.argument ++ "': " ++ bad.reason.message

namespace CommandFault

def message (fault : CommandFault) (words : LoadFault → String := LoadFault.message) : String :=
  match fault with
  | .configuration fault => fault.message words
  | .variableFilter text fault =>
    let reason := fault.message
    s!"Logging error: Invalid RUST_LOG '{text}': {reason}"
  | .configuredFilter text fault =>
    let reason := fault.message
    s!"Logging error: Invalid log level '{text}': {reason}"
  | .argument bad => bad.message
  | .packing format _ => s!"Failed to pack values with '{format}'"
  | .reading path _ => s!"Failed to read {path}"
  | .inputTooLarge size limit => s!"Input of {size} bytes exceeds the {limit} byte limit"
  | .unpacking size format _ => s!"Failed to unpack {size} bytes with '{format}'"

/-- What lies behind a fault. -/
def cause? : CommandFault → Option String
  | .packing _ fault | .unpacking _ _ fault => some fault.message
  | .reading _ fault => some fault.message
  | .configuration _ | .variableFilter .. | .configuredFilter .. | .argument _ |
    .inputTooLarge .. => none

/-- The fault and its cause, which is indented by four blanks. -/
def report (fault : CommandFault) (words : LoadFault → String := LoadFault.message) : String :=
  "Error: " ++ fault.message words ++
    match fault.cause? with
    | none => ""
    | some cause =>
      "\n\nCaused by:\n    " ++ "\n    ".intercalate (cause.splitOn "\n")

end CommandFault

/-! ### Input -/

/-- Input that has a size within the limit. -/
def withinLimit (limit size : Nat) (bs : Bytes) : Except CommandFault Bytes :=
  if size ≤ limit then .ok bs else .error (.inputTooLarge size limit)

/-- The greatest size that can be told: sizes are unsigned words of 64 bits. -/
def greatestSize : Nat :=
  Nat.pow 2 64 - 1

/-- All bytes of the input, if they are no more than the limit.  Of the standard input, no more than
one byte beyond the limit is ever read, nor more than the greatest size. -/
def readInput (s : Surroundings) (limit : Nat) : InputSource → Except CommandFault Bytes
  | .digits text =>
    match Hex.decodeSpaced text with
    | .error bad => .error (.argument bad)
    | .ok bs => withinLimit limit bs.length bs
  | .file path =>
    match s.files path with
    | .error fault => .error (.reading path fault)
    | .ok bs => withinLimit limit bs.length bs
  | .standard =>
    let bs := s.input.take (min (limit + 1) greatestSize)
    withinLimit limit bs.length bs

theorem withinLimit_eq_ok_iff {limit size : Nat} {bs read : Bytes} :
    withinLimit limit size bs = .ok read ↔ size ≤ limit ∧ read = bs := by
  unfold withinLimit
  split
  · rename_i within
    simp [within, eq_comm]
  · rename_i beyond
    simp [beyond]

/-! ### Tasks -/

/-- The text of unpacked values: a line, or an element a line for documents. -/
def valuesText (output : OutputForm) (values : List Value) : String :=
  let document := Json.array (values.map Value.toJson)
  (match output with
    | .json => document.pretty
    | .hex | .raw => document.compact) ++ "\n"

/-- Whether output is colored: it has to be forced, and not forbidden. -/
def colors (s : Surroundings) (noColor : Bool) : Bool :=
  ! noColor &&
    match s.valueOf? "CLICOLOR_FORCE" with
    | some value => value != "0"
    | none => false

namespace Task

/-- The output of a task, all of it or none. -/
def perform (s : Surroundings) (c : Configuration) (colored : Bool) :
    Task → Except CommandFault Bytes
  | .pack format arguments =>
    match Value.ofArguments arguments with
    | .error bad => .error (.argument bad)
    | .ok values =>
      match DirectivePack.pack format values with
      | .error fault => .error (.packing format fault)
      | .ok bs => .ok (c.output.render bs)
  | .unpack format source =>
    match readInput s c.maxInputBytes source with
    | .error fault => .error fault
    | .ok bs =>
      match DirectivePack.unpack format bs with
      | .error fault => .error (.unpacking bs.length format fault)
      | .ok values => .ok (Utf8.encode (valuesText c.output values))
  | .list => .ok (Utf8.encode (Listing.text colored c.output))

/-- What a task reports. -/
def events (s : Surroundings) (c : Configuration) : Task → List Event
  | .pack format arguments =>
    match Value.ofArguments arguments with
    | .error _ => []
    | .ok values =>
      packEvents format values ++
        match DirectivePack.pack format values with
        | .error _ => []
        | .ok bs => [.packed values.length bs.length]
  | .unpack format source =>
    match readInput s c.maxInputBytes source with
    | .error _ => []
    | .ok bs =>
      .inputRead bs.length :: unpackEvents format bs ++
        match DirectivePack.unpack format bs with
        | .error _ => []
        | .ok values => [.unpacked values.length bs.length]
  | .list => []

end Task

/-! ### Runs -/

/-- Why a run fails. -/
inductive Failure where
  /-- The arguments make no sense. -/
  | usage
  | fault (fault : CommandFault)

def Failure.report (failure : Failure) (words : LoadFault → String := LoadFault.message) : String :=
  match failure with
  | .usage => "error: the arguments make no sense; try --help"
  | .fault cause => cause.report words

/-- What a run leaves: the exit code, the output, the events that the filter lets through, and why
it fails if it does. -/
structure Outcome where
  exit : Nat
  output : Bytes
  events : List Event
  failure? : Option Failure

namespace Outcome

def failed (events : List Event) (fault : CommandFault) : Outcome :=
  ⟨1, [], events, some (.fault fault)⟩

def succeeded (events : List Event) (output : Bytes) : Outcome :=
  ⟨0, output, events, none⟩

end Outcome

/-- The filter of a run: the one in the environment, unless it is blank, and else the one of the
configuration. -/
def chooseFilter (s : Surroundings) (c : Configuration) : Except CommandFault LogFilter :=
  let configured := (LogFilter.parse c.logLevel).mapError (.configuredFilter c.logLevel)
  match s.valueOf? "RUST_LOG" with
  | some text =>
    if text.toList.all isWhiteSpace then configured
    else (LogFilter.parse text).mapError (.variableFilter text)
  | none => configured

/-- The configuration of a run: what is loaded, with the options over it. -/
def Invocation.configuration (i : Invocation) (s : Surroundings) :
    Except CommandFault Configuration :=
  match Configuration.load s.files s.environment i.config with
  | .error fault => .error (.configuration fault)
  | .ok c => .ok (c.override i.logLevel i.output)

/-- How much of the standard input a run asks for: nothing before it has a configuration and a log
filter, and then as much as shows whether the input is within the limit. -/
def Invocation.inputWanted (i : Invocation) (s : Surroundings) : Nat :=
  match i.task, i.configuration s with
  | .unpack _ .standard, .ok c =>
    match chooseFilter s c with
    | .ok _ => min (c.maxInputBytes + 1) greatestSize
    | .error _ => 0
  | _, _ => 0

/-- A run of arguments that make sense. -/
def Invocation.run (i : Invocation) (s : Surroundings) : Outcome :=
  match i.configuration s with
  | .error fault => .failed [] fault
  | .ok c =>
    match chooseFilter s c with
    | .error fault => .failed [] fault
    | .ok filter =>
      let events := filter.written (.configured c :: i.task.events s c)
      match i.task.perform s c (colors s i.noColor) with
      | .error fault => .failed events fault
      | .ok output => .succeeded events output

/-- What the command says of itself, in words of its own: they are not the ones that a parser of
arguments puts together from the options, and neither is the report of `Failure.usage`. -/
def helpText : String :=
  "\n".intercalate [
    "Pack and unpack binary data with directive strings",
    "",
    "Usage: vpack [OPTIONS] pack <FORMAT> [VALUES]...",
    "       vpack [OPTIONS] unpack <FORMAT> [--hex <HEX> | --file <FILE>]",
    "       vpack [OPTIONS] directives",
    "",
    "Options:",
    "  -c, --config <CONFIG>        Configuration file (toml, yaml or json)",
    "  -l, --log-level <LOG_LEVEL>  Log filter (overridden by RUST_LOG)",
    "  -o, --output <OUTPUT>        Output format [possible values: hex, raw, json]",
    "      --no-color               Disable colored output",
    "  -h, --help                   Print help",
    "  -V, --version                Print version",
    ""]

def versionText : String :=
  "vpack 0.1.0\n"

/-- What a refusal leaves. -/
def Refusal.outcome : Refusal → Outcome
  | .usage => ⟨2, [], [], some .usage⟩
  | .help => .succeeded [] (Utf8.encode helpText)
  | .version => .succeeded [] (Utf8.encode versionText)

/-- A run of the command. -/
def run (arguments : List String) (s : Surroundings) : Outcome :=
  match Invocation.parse arguments with
  | .error refusal => refusal.outcome
  | .ok invocation => invocation.run s

/-- What is written beside the output: the events, with the time that every one carries, and the
report. -/
def Outcome.lines (time : String) (outcome : Outcome)
    (words : LoadFault → String := LoadFault.message) : List String :=
  outcome.events.map (Event.line time) ++
    (outcome.failure?.map fun failure => failure.report words).toList

end DirectivePack
