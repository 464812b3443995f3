import DirectivePack.Argument

/-!
What the arguments of the command ask for.

Options may stand before the name of the task or behind it; one behind it counts more.  Every option
is given once at most on either side.  Behind the name of the task `pack`, the first argument that
is no option is the directive string and the next one the first value; from there on every argument
is a value, whatever it looks like.  In the place of the first value, what looks like an option and
is none is a value too.

* `parse_values`: what follows the first value is taken as it stands.
-/

namespace DirectivePack

/-- Where the bytes to unpack come from. -/
inductive InputSource where
  | digits (text : String)
  | file (path : String)
  | standard
deriving DecidableEq, Repr

inductive Task where
  | pack (format : String) (arguments : List String)
  | unpack (format : String) (source : InputSource)
  /-- Lists the directives. -/
  | list
deriving DecidableEq, Repr

/-- A task with the options that all tasks share. -/
structure Invocation where
  config : Option String
  logLevel : Option String
  output : Option OutputForm
  noColor : Bool
  task : Task
deriving DecidableEq, Repr

/-- Why there is nothing to do: the arguments make no sense, or they ask for words about the
command. -/
inductive Refusal where
  | usage
  | help
  | version
deriving DecidableEq, Repr

namespace Invocation

/-! ### Options -/

/-- The place in the arguments: in front of the name of a task, or behind one. -/
inductive Side where
  | front
  | pack
  | unpack
  | list
deriving DecidableEq, Repr

inductive Flag where
  | config
  | logLevel
  | output
  | noColor
  | digits
  | file
  | help
  | version
deriving DecidableEq, Repr

namespace Flag

def takesValue : Flag → Bool
  | .config | .logLevel | .output | .digits | .file => true
  | .noColor | .help | .version => false

/-- The option of a name behind two dashes. -/
def ofName? (side : Side) (name : String) : Option Flag :=
  match side, name with
  | _, "config" => some .config
  | _, "log-level" => some .logLevel
  | _, "output" => some .output
  | _, "no-color" => some .noColor
  | _, "help" => some .help
  | .front, "version" => some .version
  | .unpack, "hex" => some .digits
  | .unpack, "file" => some .file
  | _, _ => none

/-- The option of a letter behind one dash. -/
def ofLetter? (side : Side) (letter : Char) : Option Flag :=
  match side, letter with
  | _, 'c' => some .config
  | _, 'l' => some .logLevel
  | _, 'o' => some .output
  | _, 'h' => some .help
  | .front, 'V' => some .version
  | .unpack, 'f' => some .file
  | _, _ => none

end Flag

/-- What is given so far on one side of the name of the task. -/
structure Given where
  config : Option String
  logLevel : Option String
  output : Option OutputForm
  noColor : Bool
  digits : Option String
  file : Option String
deriving DecidableEq, Repr

namespace Given

def nothing : Given :=
  ⟨none, none, none, false, none, none⟩

/-- A path, which is not empty, where none is given yet. -/
def path? (sofar : Option String) (path : String) : Option (Option String) :=
  if sofar.isSome || path.isEmpty then none else some (some path)

/-- Gives an option its value. -/
def setValue (given : Given) (flag : Flag) (value : String) : Except Refusal Given :=
  let set? : Option Given := match flag with
    | .config => (path? given.config value).map fun config => { given with config }
    | .file => (path? given.file value).map fun file => { given with file }
    | .logLevel => if given.logLevel.isSome then none else some { given with logLevel := some value }
    | .digits => if given.digits.isSome then none else some { given with digits := some value }
    | .output =>
      if given.output.isSome then none
      else (OutputForm.ofName? value).map fun form => { given with output := some form }
    | .noColor | .help | .version => none
  match set? with
  | some given => .ok given
  | none => .error .usage

/-- Sets an option without a value. -/
def set (given : Given) (flag : Flag) : Except Refusal Given :=
  match flag with
  | .noColor => if given.noColor then .error .usage else .ok { given with noColor := true }
  | .help => .error .help
  | .version => .error .version
  | _ => .error .usage

end Given

/-! ### Arguments -/

/-- What an argument looks like. -/
inductive Shape where
  /-- Two dashes alone: no option follows. -/
  | divider
  /-- A name behind two dashes, with a value behind an equals sign or without. -/
  | name (name : String) (value? : Option String)
  /-- Letters behind one dash. -/
  | letters (letters : List Char)
  | plain
deriving DecidableEq, Repr

def shapeOf (argument : String) : Shape :=
  match argument.toList with
  | ['-', '-'] => .divider
  | '-' :: '-' :: rest =>
    let name := String.ofList (rest.takeWhile (· != '='))
    match rest.dropWhile (· != '=') with
    | [] => .name name none
    | _ :: value => .name name (some (String.ofList value))
  | ['-'] => .plain
  | '-' :: letters => .letters letters
  | _ => .plain

/-- Letters behind one dash, from the left: options without a value, up to one with a value, which is
what follows it if anything does.  Otherwise the option still waits for its value. -/
def takeLetters (side : Side) : List Char → Given → Except Refusal (Given × Option Flag)
  | [], given => .ok (given, none)
  | letter :: letters, given =>
    match Flag.ofLetter? side letter with
    | none => .error .usage
    | some flag =>
      if flag.takesValue then
        match letters with
        | [] => .ok (given, some flag)
        | '=' :: value => (given.setValue flag (String.ofList value)).map (·, none)
        | value => (given.setValue flag (String.ofList value)).map (·, none)
      else
        match given.set flag with
        | .error refusal => .error refusal
        | .ok given => takeLetters side letters given

/-- A name behind two dashes: sets an option, or leaves it waiting for its value. -/
def takeName (flag : Flag) (value? : Option String) (given : Given) :
    Except Refusal (Given × Option Flag) :=
  match flag.takesValue, value? with
  | true, some value => (given.setValue flag value).map (·, none)
  | true, none => .ok (given, some flag)
  | false, some _ => .error .usage
  | false, none => (given.set flag).map (·, none)

/-- What an argument is, in the place where it stands. -/
inductive Reading where
  | divider
  /-- Options, the last of which may wait for its value. -/
  | options (taken : Except Refusal (Given × Option Flag))
  | word

/-- Reads an argument.  Where the first value is expected (`lenient`), what looks like an option and
is none is a word. -/
def read (side : Side) (lenient : Bool) (given : Given) (argument : String) : Reading :=
  match shapeOf argument with
  | .plain => .word
  | .divider => .divider
  | .name name value? =>
    match Flag.ofName? side name with
    | some flag => .options (takeName flag value? given)
    | none => if lenient then .word else .options (.error .usage)
  | .letters letters =>
    if lenient && letters.any fun letter => (Flag.ofLetter? side letter).isNone then .word
    else .options (takeLetters side letters given)

/-! ### Behind the name of a task -/

/-- The arguments of a task: the options given, and the words in order.  `format?` is the first
word once it is there, and `waiting?` the option that waits for its value. -/
def scan (side : Side) (given : Given) (format? : Option String) (waiting? : Option Flag) :
    List String → Except Refusal (Given × Option String × List String)
  | [] =>
    match waiting? with
    | some _ => .error .usage
    | none => .ok (given, format?, [])
  | argument :: arguments =>
    match read side (side == .pack && format?.isSome) given argument, waiting? with
    | .options (.error refusal), none => .error refusal
    | .options (.ok (given, waiting?)), none => scan side given format? waiting? arguments
    | .options _, some _ => .error .usage
    | .word, some flag =>
      match given.setValue flag argument with
      | .error refusal => .error refusal
      | .ok given => scan side given format? none arguments
    | .divider, some _ => .error .usage
    | .divider, none =>
      match format?, arguments with
      | some format, words => .ok (given, some format, words)
      | none, [] => .ok (given, none, [])
      | none, format :: words => .ok (given, some format, words)
    | .word, none =>
      match format?, side with
      | none, .list => .error .usage
      | none, _ => scan side given (some argument) none arguments
      | some format, .pack => .ok (given, some format, argument :: arguments)
      | some _, _ => .error .usage

/-- The task that scanned arguments make, if they are enough and not too many. -/
def taskOf? (side : Side) (given : Given) (format? : Option String) (words : List String) :
    Option Task :=
  match side, format?, words with
  | .pack, some format, words => some (.pack format words)
  | .unpack, some format, [] =>
    match given.digits, given.file with
    | some text, none => some (.unpack format (.digits text))
    | none, some path => some (.unpack format (.file path))
    | none, none => some (.unpack format .standard)
    | some _, some _ => none
  | .list, none, [] => some .list
  | _, _, _ => none

/-- Options from both sides of the name of the task. -/
def join (front behind : Given) (task : Task) : Invocation where
  config := behind.config.or front.config
  logLevel := behind.logLevel.or front.logLevel
  output := behind.output.or front.output
  noColor := front.noColor || behind.noColor
  task := task

/-- The arguments behind the name of a task. -/
def parseTask (side : Side) (front : Given) (arguments : List String) :
    Except Refusal Invocation :=
  match scan side .nothing none none arguments with
  | .error refusal => .error refusal
  | .ok (behind, format?, words) =>
    match taskOf? side behind format? words with
    | some task => .ok (join front behind task)
    | none => .error .usage

/-! ### All arguments -/

/-- The side that the name of a task opens. -/
def sideOf? : String → Option Side
  | "pack" => some .pack
  | "unpack" => some .unpack
  | "directives" => some .list
  | _ => none

/-- The arguments from the front on. -/
def scanFront (given : Given) (waiting? : Option Flag) : List String → Except Refusal Invocation
  | [] => .error .usage
  | argument :: arguments =>
    match read .front false given argument, waiting? with
    | .options (.error refusal), none => .error refusal
    | .options (.ok (given, waiting?)), none => scanFront given waiting? arguments
    | .options _, some _ => .error .usage
    | .word, some flag =>
      match given.setValue flag argument with
      | .error refusal => .error refusal
      | .ok given => scanFront given none arguments
    | .divider, _ => .error .usage
    | .word, none =>
      match sideOf? argument with
      | some side => parseTask side given arguments
      | none =>
        match argument, arguments with
        | "help", [] => .error .help
        | "help", [topic] =>
          if topic == "help" || (sideOf? topic).isSome then .error .help else .error .usage
        | _, _ => .error .usage

/-- What arguments ask for. -/
def parse (arguments : List String) : Except Refusal Invocation :=
  scanFront .nothing none arguments

/-! ### Values as they stand -/

theorem read_of_plain {side : Side} {lenient : Bool} {given : Given} {argument : String}
    (plain : shapeOf argument = .plain) : read side lenient given argument = .word := by
  simp [read, plain]

theorem parse_values {format value : String} (format_plain : shapeOf format = .plain)
    (value_plain : shapeOf value = .plain) (values : List String) :
    parse ("pack" :: format :: value :: values) =
      .ok ⟨none, none, none, false, .pack format (value :: values)⟩ := by
  have front : read .front false .nothing "pack" = .word := read_of_plain (by decide)
  have words : scan .pack .nothing none none (format :: value :: values) =
      .ok (.nothing, some format, value :: values) := by
    simp [scan, read_of_plain format_plain, read_of_plain value_plain]
  simp [parse, scanFront, front, sideOf?, parseTask, words, taskOf?]
  rfl

end Invocation

end DirectivePack
