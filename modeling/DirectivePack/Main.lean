import DirectivePack.Command.Run
import Std.Time.Format

/-!
The command: it looks up what a run may need in its surroundings, and writes what the run leaves.

Files are opened before the run, whether it comes to read them or not.  Of the standard input no
more is read than the run asks for (`Invocation.inputWanted`).
-/

namespace DirectivePack

/-! ### Files -/

/-- What a path leads to right now.  Where it cannot be told why a path leads to no bytes, a file is
taken to be there. -/
def openFile (path : String) : IO (Except FileFault Bytes) := do
  try
    let handle ← IO.FS.Handle.mk path .read
    return .ok (← handle.readBinToEnd).toList
  catch fault =>
    return .error <| match fault with
      | .noFileOrDirectory .. => .missing
      | .inappropriateType _ 20 _ => .notDirectory
      | .inappropriateType .. => .isDirectory
      | other => .other (toString other)

/-- The nearest file of a name in the working directory or above it. -/
def openNearest (name : String) : IO (Except FileFault Bytes) := do
  let levels := ((← IO.currentDir).toString.splitOn "/").length
  for level in List.range levels do
    let opened ← openFile (String.join (List.replicate level "../") ++ name)
    let files : Files := fun _ => opened
    if files.contains name then return opened
  return .error .missing

/-- The files that a run may read.  What the arguments name is looked for where they say, and the
standing files of other names wherever they are nearest. -/
def filesFor (invocation : Invocation) : IO Files := do
  let data := match invocation.task with
    | .unpack _ (.file path) => [path]
    | _ => []
  let named ← (invocation.config.toList ++ data).mapM fun path => do
    return (path, ← openFile path)
  let standing ← standingFiles.mapM fun file => do
    return (file.path, ← openNearest file.path)
  return fun path =>
    match (named ++ standing).find? fun entry => entry.1 == path with
    | some (_, opened) => opened
    | none => .error .missing

/-! ### Variables -/

/-- The variables in a block of entries, each of which ends with a zero byte and has its name up to
an equals sign.  Entries that are no text are left out. -/
def environmentOf (block : Bytes) : Environment :=
  (block.splitOn 0).filterMap fun entry =>
    (Utf8.decode? entry).bind fun text =>
      match text.toList.dropWhile (· != '=') with
      | [] => none
      | _ :: value => some (String.ofList (text.toList.takeWhile (· != '=')), String.ofList value)

/-- The variables by which a run is known to be told something. -/
def variableNames : List String :=
  ["VPACK_LOG_LEVEL", "VPACK_OUTPUT", "VPACK_MAX_INPUT_BYTES", "RUST_LOG", "CLICOLOR_FORCE"]

/-- All variables, where the system lists them.  Elsewhere only those with known names are found, so
that a setting under a name in other case, or with a point in its name, goes unnoticed. -/
def lookUpVariables : IO Environment := do
  match ← openFile "/proc/self/environ" with
  | .ok block => return environmentOf block
  | .error _ =>
    variableNames.filterMapM fun name => do
      return (← IO.getEnv name).map fun value => (name, value)

/-! ### The command -/

/-- No more than so many bytes of a stream, behind those that are read already. -/
def readAtMost (stream : IO.FS.Stream) (wanted : Nat) (sofar : ByteArray) : IO ByteArray := do
  if _ : wanted = 0 then return sofar
  else
    let chunk ← stream.read (USize.ofNat (min wanted 65536))
    if _ : chunk.size = 0 then return sofar
    else readAtMost stream (wanted - chunk.size) (sofar ++ chunk)
termination_by wanted
decreasing_by omega

/-- The surroundings of a run, as far as it may see them. -/
def lookAround (arguments : List String) : IO Surroundings := do
  match Invocation.parse arguments with
  | .error _ => return ⟨[], fun _ => .error .missing, []⟩
  | .ok invocation =>
    let s : Surroundings := ⟨← lookUpVariables, ← filesFor invocation, []⟩
    let input ← readAtMost (← IO.getStdin) (invocation.inputWanted s) ByteArray.empty
    return { s with input := input.toList }

/-- The time, to the microsecond. -/
def timeNow : IO String := do
  let now ← Std.Time.Timestamp.now
  let moment := Std.Time.DateTime.ofTimestamp now Std.Time.TimeZone.ZoneRules.UTC
  return moment.format "uuuu-MM-dd'T'HH:mm:ss.SSSSSS'Z'"

def execute (arguments : List String) : IO UInt32 := do
  let outcome := run arguments (← lookAround arguments)
  let errors ← IO.getStderr
  for line in outcome.lines (← timeNow) do
    errors.putStrLn line
  let output ← IO.getStdout
  output.write ⟨outcome.output.toArray⟩
  output.flush
  return UInt32.ofNat outcome.exit

end DirectivePack

def main (arguments : List String) : IO UInt32 :=
  DirectivePack.execute arguments
