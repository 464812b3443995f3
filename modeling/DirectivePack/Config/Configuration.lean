import DirectivePack.Argument
import DirectivePack.Config.Layer
import DirectivePack.Config.Toml
import DirectivePack.Config.Variable
import DirectivePack.Config.Yaml.Document
import DirectivePack.Files

/-!
The configuration: which log messages are written, how results are written, and how many bytes are
read at most.

It is drawn from layers, from the lowest to the highest: the defaults, `vpack.toml` and `vpack.yaml`
in the working directory or the nearest directory above it, a file that is asked for, and
environment variables.  Each setting comes from the highest layer that has it.

* `ofLayer_eq_ok_iff`: a layer is a configuration exactly when each of the three settings is there
  and has its kind.
* `load_missing`, `load_without_extension`, `load_unsupported`: a file that is asked for and cannot
  be used is a fault whatever the layers say.
-/

namespace DirectivePack

structure Configuration where
  logLevel : String
  output : OutputForm
  maxInputBytes : Nat
deriving DecidableEq, Repr

/-- The formats of configuration files. -/
inductive ConfigFormat where
  | toml
  | yaml
  | json
deriving DecidableEq, Repr

/-- A file that a layer is read from. -/
structure ConfigFile where
  format : ConfigFormat
  path : String
deriving DecidableEq, Repr

/-- Where a layer comes from. -/
inductive Origin where
  | defaults
  | file (file : ConfigFile)
  | environment
deriving DecidableEq, Repr

/-! ### Faults -/

/-- Why layers make no configuration. -/
inductive LoadFault where
  /-- Files that are there and cannot be read as layers, with what their paths lead to. -/
  | unreadable (files : List (ConfigFile × Except FileFault Bytes))
  /-- A setting that is not there or of the wrong kind, with all that the layers have under its key,
  from the lowest to the highest. -/
  | unfit (key : String) (found : List (Origin × Json))

/-- The reason in plain words.  A loader has words of its own for it, of which nothing is assumed:
where reports are compared, the words are any function of the reason. -/
def LoadFault.message : LoadFault → String
  | .unreadable files => "cannot read " ++ ", ".intercalate (files.map fun entry => entry.1.path)
  | .unfit key _ => s!"no value of the right kind for {key}"

/-- Why there is no configuration. -/
inductive ConfigFault where
  | missing (path : String)
  | noExtension
  | unsupported (extension : String)
  | unusable (fault : LoadFault)

def ConfigFault.message (fault : ConfigFault) (words : LoadFault → String := LoadFault.message) :
    String :=
  match fault with
  | .missing path => s!"Configuration error: Config file not found: {path}"
  | .noExtension => "Configuration error: Config file must have an extension"
  | .unsupported extension =>
    s!"Configuration error: Unsupported config file format: {extension}"
  | .unusable fault => "Configuration error: Failed to load configuration: " ++ words fault

/-! ### Settings -/

def logLevelOf? : Json → Option String
  | .string level => some level
  | _ => none

/-- The field whose key comes first. -/
def firstField? (fields : List (String × Json)) : Option (String × Json) :=
  fields.foldl
    (fun sofar field => match sofar with
      | some first => if field.1 < first.1 then some field else some first
      | none => some field)
    none

/-- An output form by its name, or as a table in which its name has no value. -/
def outputOf? : Json → Option OutputForm
  | .string name => OutputForm.ofName? name
  | .object fields =>
    match firstField? fields with
    | some (name, .null) => OutputForm.ofName? name
    | _ => none
  | _ => none

/-- A number of bytes that fits an unsigned word of 64 bits. -/
def maxInputBytesOf? : Json → Option Nat
  | .integer n => if 0 ≤ n ∧ Field.fits 8 n then some n.toNat else none
  | _ => none

namespace Configuration

/-- What a layer has under a key, read as a setting, or else the key. -/
def setting {α : Type} (key : String) (read? : Json → Option α) (layer : Layer) :
    Except String α :=
  match (Json.field? key layer).bind read? with
  | some value => .ok value
  | none => .error key

/-- The configuration that a layer holds, or the key of the first setting that it does not hold.
The settings are looked at in the order of their keys. -/
def ofLayer (layer : Layer) : Except String Configuration := do
  let logLevel ← setting "log_level" logLevelOf? layer
  let maxInputBytes ← setting "max_input_bytes" maxInputBytesOf? layer
  let output ← setting "output" outputOf? layer
  return ⟨logLevel, output, maxInputBytes⟩

theorem ofLayer_eq_ok_iff {layer : Layer} {c : Configuration} :
    ofLayer layer = .ok c ↔
      (Json.field? "log_level" layer).bind logLevelOf? = some c.logLevel ∧
      (Json.field? "output" layer).bind outputOf? = some c.output ∧
      (Json.field? "max_input_bytes" layer).bind maxInputBytesOf? = some c.maxInputBytes := by
  obtain ⟨level, output, bytes⟩ := c
  unfold ofLayer setting
  cases (Json.field? "log_level" layer).bind logLevelOf? with
  | none => simp [bind, Except.bind]
  | some has_level =>
    cases (Json.field? "max_input_bytes" layer).bind maxInputBytesOf? with
    | none => simp [bind, Except.bind]
    | some has_bytes =>
      cases (Json.field? "output" layer).bind outputOf? <;>
        simp [bind, Except.bind, pure, Except.pure]

/-- What holds where no other layer says anything. -/
def defaults : Layer :=
  [("log_level", .string "warn"), ("output", .string OutputForm.hex.name),
    ("max_input_bytes", .integer (16 * 1024 * 1024))]

/-- Replaces settings by what was asked for on the command line. -/
def override (c : Configuration) (logLevel : Option String) (output : Option OutputForm) :
    Configuration :=
  { c with logLevel := logLevel.getD c.logLevel, output := output.getD c.output }

end Configuration

/-! ### Files -/

namespace ConfigFormat

/-- The format under a file extension. -/
def ofExtension? : String → Option ConfigFormat
  | "toml" => some .toml
  | "yaml" | "yml" => some .yaml
  | "json" => some .json
  | _ => none

/-- The layer that the bytes of a file hold. -/
def readLayer? (format : ConfigFormat) (bytes : Bytes) : Option Layer :=
  match Utf8.decode? bytes with
  | none => none
  | some text =>
    let document? := match format with
      | .toml => Toml.read? text.toList
      | .yaml => Yaml.read? text.toList
      | .json => Json.read? text.toList
    match document? with
    | some (.object fields) => some fields
    | _ => none

end ConfigFormat

/-- The layer in a file, which is empty where there is no file.  None if the file is there and
cannot be read as a layer. -/
def fileLayer? (files : Files) (file : ConfigFile) : Option Layer :=
  if files.contains file.path then
    match files file.path with
    | .ok bytes => file.format.readLayer? bytes
    | .error _ => none
  else some []

/-- The format of a file that is asked for. -/
def configFormat (files : Files) (path : String) : Except ConfigFault ConfigFormat :=
  if files.contains path then
    match extension? path with
    | none => .error .noExtension
    | some extension =>
      match ConfigFormat.ofExtension? extension with
      | none => .error (.unsupported extension)
      | some format => .ok format
  else .error (.missing path)

/-- The files that are looked for in any case.  They need not be in the working directory itself:
under these two names, `Files` answers for the nearest ones in it or above it. -/
def standingFiles : List ConfigFile :=
  [⟨.toml, "vpack.toml"⟩, ⟨.yaml, "vpack.yaml"⟩]

/-- The files that layers are read from, from the lowest to the highest. -/
def configFiles (files : Files) : Option String → Except ConfigFault (List ConfigFile)
  | none => .ok standingFiles
  | some path => (configFormat files path).map fun format => standingFiles ++ [⟨format, path⟩]

/-- The layers in files, of those that can be read. -/
def layersIn (files : Files) (sources : List ConfigFile) : List (Origin × Layer) :=
  sources.filterMap fun file => (fileLayer? files file).map (.file file, ·)

/-- The files that cannot be read as layers. -/
def unreadableIn (files : Files) (sources : List ConfigFile) : List ConfigFile :=
  sources.filter fun file => (fileLayer? files file).isNone

/-- The layers in files, or all of the files that cannot be read. -/
def readLayers (files : Files) (sources : List ConfigFile) :
    Except LoadFault (List (Origin × Layer)) :=
  match unreadableIn files sources with
  | [] => .ok (layersIn files sources)
  | unreadable => .error (.unreadable (unreadable.map fun file => (file, files file.path)))

/-- The layers from the defaults up to a file that is asked for. -/
def fileLayers (files : Files) (explicit : Option String) :
    Except ConfigFault (List (Origin × Layer)) := do
  let sources ← configFiles files explicit
  let layers ← (readLayers files sources).mapError .unusable
  return (.defaults, Configuration.defaults) :: layers

/-! ### Environment variables -/

/-- How the names of variables that are settings start, in any case. -/
def variableMark : List Char :=
  "vpack_".toList

/-- The setting that a variable is, if it is one.  A point in its name leads into a table. -/
def variableSetting? (name value : String) : Option Layer :=
  let lower := (trim (name.toList.map Char.toLower))
  if variableMark.isPrefixOf lower then
    let parts := (String.ofList (trim (lower.drop variableMark.length))).splitOn "."
    if parts.any String.isEmpty then none
    else
      match Variable.nest (Variable.read value) parts with
      | .object fields => some fields
      | _ => none
  else none

/-- The layer of the environment variables. -/
def variableLayer (environment : Environment) : Layer :=
  Layer.stack (environment.filterMap fun (name, value) => variableSetting? name value)

/-! ### All layers -/

/-- All that layers have under a key. -/
def foundUnder (key : String) (layers : List (Origin × Layer)) : List (Origin × Json) :=
  layers.filterMap fun (origin, layer) => (Json.field? key layer).map (origin, ·)

namespace Configuration

/-- The configuration that layers make, from the lowest to the highest. -/
def ofLayers (layers : List (Origin × Layer)) : Except ConfigFault Configuration :=
  (ofLayer (Layer.stack (layers.map Prod.snd))).mapError fun key =>
    .unusable (.unfit key (foundUnder key layers))

/-- The configuration from files alone. -/
def loadFiles (files : Files) (explicit : Option String) : Except ConfigFault Configuration := do
  ofLayers (← fileLayers files explicit)

/-- The configuration from files and environment variables. -/
def load (files : Files) (environment : Environment) (explicit : Option String) :
    Except ConfigFault Configuration := do
  let layers ← fileLayers files explicit
  ofLayers (layers ++ [(.environment, variableLayer environment)])

theorem load_of_configFormat {files : Files} {path : String} {fault : ConfigFault}
    (refused : configFormat files path = .error fault) (environment : Environment) :
    load files environment (some path) = .error fault := by
  rw [load, fileLayers, configFiles, refused]
  rfl

theorem load_missing {files : Files} {path : String} (missing : files.contains path = false)
    (environment : Environment) :
    load files environment (some path) = .error (.missing path) :=
  load_of_configFormat (by simp [configFormat, missing]) environment

theorem load_without_extension {files : Files} {path : String}
    (present : files.contains path = true) (bare : extension? path = none)
    (environment : Environment) :
    load files environment (some path) = .error .noExtension :=
  load_of_configFormat (by simp [configFormat, present, bare]) environment

theorem load_unsupported {files : Files} {path extension : String}
    (present : files.contains path = true) (named : extension? path = some extension)
    (unknown : ConfigFormat.ofExtension? extension = none) (environment : Environment) :
    load files environment (some path) = .error (.unsupported extension) :=
  load_of_configFormat (by simp [configFormat, present, named, unknown]) environment

end Configuration

end DirectivePack
