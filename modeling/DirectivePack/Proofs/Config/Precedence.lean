import Mathlib
import DirectivePack.Proofs.Config.OutputForms
import DirectivePack.Proofs.Config.TopmostLayer
import DirectivePack.Proofs.Config.Variables
import DirectivePack.Proofs.Json.Values
import DirectivePack.Proofs.Text.Characters

/-!
Which layer decides a setting.

Every setting is looked up by itself.  The topmost layer that has its key decides, whatever is below
it and whatever stands under other keys.  Only tables mix with what is below them.  No log level and
no size is a table, but an output form may be one; so no layer is to hold an output form as a table,
and no flat layer does.

* `Layer.Flat.plainOutput`: flat layers hold no output form as a table.
* `Sources`: the layers of the files that a configuration is drawn from.
* `load_eq_ok_iff`: which configuration they make, with the variables over them.
* `settings_from_topmost_layers`: where every setting comes from, and what becomes of it without
  variables, with options, and with a file that cannot be used.
-/

namespace DirectivePack

/-! ### Settings -/

theorem logLevelOf?_eq_some_iff {item : Json} {level : String} :
    logLevelOf? item = some level ↔ item = .string level := by
  cases item <;> simp [logLevelOf?]

theorem maxInputBytesOf?_eq_some_iff {item : Json} {size : Nat} :
    maxInputBytesOf? item = some size ↔ item = .integer size ∧ size < 2 ^ 64 := by
  cases item with
  | integer n =>
    simp only [maxInputBytesOf?, fits_eight_iff, BeyondWords, Json.integer.injEq]
    split
    · rw [Option.some.injEq]
      omega
    · simp only [reduceCtorEq, false_iff]
      omega
  | null | boolean | float | string | array | object => simp [maxInputBytesOf?]

/-- A layer that holds no output form as a table, as flat layers do. -/
def Layer.PlainOutput (layer : Layer) : Prop :=
  ∀ fields, Json.field? "output" layer = some (.object fields) → outputOf? (.object fields) = none

/-- A layer without tables.  Dates and times are none, although they stand in it as tables. -/
def Layer.Flat (layer : Layer) : Prop :=
  ∀ field ∈ layer, ∀ fields, field.2 = .object fields → ∃ text, field.2 = Toml.moment text

theorem mem_of_field? {key : String} {layer : Layer} {item : Json}
    (found : Json.field? key layer = some item) : (key, item) ∈ layer := by
  induction layer with
  | nil => cases found
  | cons field layer ih =>
    rw [Json.field?] at found
    split at found
    · rename_i same
      cases found
      exact same ▸ List.mem_cons_self
    · exact List.mem_cons_of_mem field (ih found)

theorem Layer.Flat.plainOutput {layer : Layer} (flat : layer.Flat) : layer.PlainOutput := by
  intro fields found
  obtain ⟨text, is_moment⟩ := flat _ (mem_of_field? found) fields rfl
  rw [show Json.object fields = Toml.moment text from is_moment]
  rfl

/-! ### Files -/

/-- The extensions of configuration files. -/
def ConfigFormat.extensions : List (String × ConfigFormat) :=
  [("toml", .toml), ("yaml", .yaml), ("yml", .yaml), ("json", .json)]

theorem ConfigFormat.ofExtension?_eq_some_iff {extension : String} {format : ConfigFormat} :
    ofExtension? extension = some format ↔ (extension, format) ∈ extensions := by
  unfold ofExtension? extensions
  constructor
  · intro is_format
    split at is_format <;> cases is_format <;> simp
  · intro listed
    simp only [List.mem_cons, Prod.mk.injEq, List.not_mem_nil, or_false] at listed
    rcases listed with ⟨rfl, rfl⟩ | ⟨rfl, rfl⟩ | ⟨rfl, rfl⟩ | ⟨rfl, rfl⟩ <;> rfl

/-- The document that a text is. -/
def ConfigFormat.document? : ConfigFormat → List Char → Option Json
  | .toml => Toml.read?
  | .yaml => Yaml.read?
  | .json => Json.read?

theorem ConfigFormat.readLayer?_encode {format : ConfigFormat} {text : String} {layer : Layer}
    (read : format.document? text.toList = some (.object layer)) :
    format.readLayer? (Utf8.encode text) = some layer := by
  rw [readLayer?, Utf8.decode?_encode]
  cases format <;> rw [document?] at read <;> simp only [read]

/-- The layer that a file can be read as, which is empty if the file is not there. -/
inductive Files.Holds (files : Files) (format : ConfigFormat) (path : String) : Layer → Prop where
  | absent : files.contains path = false → Holds files format path []
  | present {bytes : Bytes} {layer : Layer} : files path = .ok bytes →
      format.readLayer? bytes = some layer → Holds files format path layer

/-- The layer of a file that is asked for, which has to be there with one of the extensions; and an
empty one if no file is. -/
inductive Files.HoldsAsked (files : Files) : Option String → Layer → Prop where
  | nothing : HoldsAsked files none []
  | file {path extension : String} {format : ConfigFormat} {bytes : Bytes} {layer : Layer} :
      files path = .ok bytes → extension? path = some extension →
      (extension, format) ∈ ConfigFormat.extensions → format.readLayer? bytes = some layer →
      HoldsAsked files (some path) layer

/-- The layers of the files that a configuration is drawn from. -/
structure Sources (files : Files) (explicit : Option String) (toml yaml asked : Layer) : Prop where
  toml : files.Holds .toml "vpack.toml" toml
  yaml : files.Holds .yaml "vpack.yaml" yaml
  asked : files.HoldsAsked explicit asked

theorem Files.contains_of_ok {files : Files} {path : String} {bytes : Bytes}
    (found : files path = .ok bytes) : files.contains path = true := by
  rw [contains, found]

theorem Files.Holds.fileLayer?_eq {files : Files} {format : ConfigFormat} {path : String}
    {layer : Layer} (held : files.Holds format path layer) :
    fileLayer? files ⟨format, path⟩ = some layer := by
  unfold fileLayer?
  cases held with
  | absent missing =>
    rw [missing]
    rfl
  | present found read =>
    rw [if_pos (Files.contains_of_ok found)]
    dsimp only
    rw [found]
    exact read

/-- Files that can all be read make their layers. -/
theorem readLayers_eq_ok {files : Files} {sources : List ConfigFile} {layers : List Layer}
    (read : List.Forall₂ (fun file layer => fileLayer? files file = some layer) sources layers) :
    readLayers files sources = .ok (List.zip (sources.map .file) layers) := by
  have all_read : unreadableIn files sources = [] := by
    induction read with
    | nil => rfl
    | cons first _ ih => simpa [unreadableIn, first] using ih
  have made : layersIn files sources = List.zip (sources.map .file) layers := by
    clear all_read
    induction read with
    | nil => rfl
    | cons first _ ih => simpa [layersIn, first] using ih
  rw [readLayers, all_read, ← made]

/-- The layers of the files make the same stack as those that are loaded, whether a file is asked
for or not. -/
theorem Sources.exists_fileLayers_eq {files : Files} {explicit : Option String}
    {toml yaml asked : Layer} (sources : Sources files explicit toml yaml asked) :
    ∃ layers, fileLayers files explicit = .ok layers ∧
      Layer.stack (layers.map Prod.snd) =
        Layer.stack [Configuration.defaults, toml, yaml, asked] := by
  have standing : List.Forall₂ (fun file layer => fileLayer? files file = some layer)
      standingFiles [toml, yaml] :=
    .cons sources.toml.fileLayer?_eq (.cons sources.yaml.fileLayer?_eq .nil)
  cases sources.asked with
  | nothing =>
    refine ⟨(.defaults, Configuration.defaults) :: List.zip (standingFiles.map .file) [toml, yaml],
      ?_, ?_⟩
    · rw [fileLayers, configFiles]
      dsimp only [bind, Except.bind]
      rw [readLayers_eq_ok standing]
      rfl
    · exact (Layer.coveredBy_nil _).symm
  | @file path extension format bytes _ found named listed read =>
    have is_format : configFormat files path = .ok format := by
      rw [configFormat, if_pos (Files.contains_of_ok found), named]
      dsimp only
      rw [ConfigFormat.ofExtension?_eq_some_iff.mpr listed]
    have held : files.Holds format path asked := .present found read
    have all : List.Forall₂ (fun file layer => fileLayer? files file = some layer)
        (standingFiles ++ [⟨format, path⟩]) ([toml, yaml] ++ [asked]) :=
      List.rel_append standing (.cons held.fileLayer?_eq .nil)
    refine ⟨(.defaults, Configuration.defaults) :: List.zip
      ((standingFiles ++ [ConfigFile.mk format path]).map .file) [toml, yaml, asked], ?_, rfl⟩
    rw [fileLayers, configFiles, is_format]
    dsimp only [bind, Except.bind, Except.map]
    rw [readLayers_eq_ok all]
    rfl

/-! ### Configurations -/

/-- The items of the settings, each in the topmost layer that has one. -/
structure Layer.Tops (layers : List Layer) (level output size : Json) : Prop where
  level : Layer.Topmost "log_level" level layers
  output : Layer.Topmost "output" output layers
  size : Layer.Topmost "max_input_bytes" size layers

namespace Configuration

/-- Something stands under every setting. -/
theorem exists_tops (layers : List Layer) :
    ∃ level output size, Layer.Tops (layers ++ [defaults]) level output size := by
  have level_found : Json.field? "log_level" defaults = some (.string "warn") := rfl
  have output_found : Json.field? "output" defaults = some (.string "hex") := rfl
  have size_found :
      Json.field? "max_input_bytes" defaults = some (.integer (16 * 1024 * 1024)) := rfl
  obtain ⟨level, level_top⟩ := Layer.exists_topmost level_found layers
  obtain ⟨output, output_top⟩ := Layer.exists_topmost output_found layers
  obtain ⟨size, size_top⟩ := Layer.exists_topmost size_found layers
  exact ⟨level, output, size, level_top, output_top, size_top⟩

theorem plainOutput_defaults : Layer.PlainOutput defaults := by
  intro fields found
  cases found

variable {level output size : Json} {c : Configuration}

theorem ofLayer_stack_eq_ok_iff {layers : List Layer}
    (plain : ∀ layer ∈ layers, layer.PlainOutput)
    (tops : Layer.Tops layers.reverse level output size) :
    ofLayer (Layer.stack layers) = .ok c ↔
      level = .string c.logLevel ∧ output = .string c.output.name ∧
        size = .integer c.maxInputBytes ∧ c.maxInputBytes < 2 ^ 64 := by
  -- log levels and sizes are no tables, so nothing is asked of the layers for them
  have level_read : (Json.field? "log_level" (Layer.stack layers)).bind logLevelOf? =
      (layers.reverse.findSome? (Json.field? "log_level")).bind logLevelOf? :=
    bind_field?_stack (fun _ _ _ _ => rfl) fun _ _ _ _ => rfl
  have size_read : (Json.field? "max_input_bytes" (Layer.stack layers)).bind maxInputBytesOf? =
      (layers.reverse.findSome? (Json.field? "max_input_bytes")).bind maxInputBytesOf? :=
    bind_field?_stack (fun _ _ _ _ => rfl) fun _ _ _ _ => rfl
  have output_read : (Json.field? "output" (Layer.stack layers)).bind outputOf? =
      (layers.reverse.findSome? (Json.field? "output")).bind outputOf? :=
    bind_field?_stack (fun _ _ => outputOf?_coveredBy_eq_none) plain
  have output_plain : ∀ fields, output = .object fields → outputOf? output = none := by
    rintro fields rfl
    obtain ⟨layer, member, found⟩ := tops.output.exists_mem
    exact plain layer (List.mem_reverse.mp member) fields found
  rw [ofLayer_eq_ok_iff, level_read, output_read, size_read,
    Layer.topmost_iff.mp tops.level, Layer.topmost_iff.mp tops.output,
    Layer.topmost_iff.mp tops.size]
  simp only [Option.bind_some, logLevelOf?_eq_some_iff, outputOf?_eq_some_iff output_plain,
    maxInputBytesOf?_eq_some_iff]

theorem ofLayers_eq_ok_iff {layers : List (Origin × Layer)} :
    ofLayers layers = .ok c ↔ ofLayer (Layer.stack (layers.map Prod.snd)) = .ok c := by
  rw [ofLayers, mapError_eq_ok_iff]

variable {files : Files} {environment : Environment} {explicit : Option String}

theorem load_eq_ok_iff {toml yaml asked : Layer} (sources : Sources files explicit toml yaml asked)
    (plain : ∀ layer ∈ [variableLayer environment, asked, yaml, toml], layer.PlainOutput)
    (tops : Layer.Tops [variableLayer environment, asked, yaml, toml, defaults] level output size) :
    load files environment explicit = .ok c ↔
      level = .string c.logLevel ∧ output = .string c.output.name ∧
        size = .integer c.maxInputBytes ∧ c.maxInputBytes < 2 ^ 64 := by
  obtain ⟨layers, loaded, same_stack⟩ := sources.exists_fileLayers_eq
  have stacked :
      Layer.stack ((layers ++ [(Origin.environment, variableLayer environment)]).map Prod.snd) =
        Layer.stack [defaults, toml, yaml, asked, variableLayer environment] := by
    rw [List.map_append, Layer.stack, List.foldl_append]
    exact congrArg (Layer.coveredBy · (variableLayer environment)) same_stack
  have all_plain : ∀ layer ∈ [defaults, toml, yaml, asked, variableLayer environment],
      layer.PlainOutput := by
    intro layer member
    rcases List.mem_cons.mp member with rfl | above
    · exact plainOutput_defaults
    · exact plain layer (List.mem_reverse.mp above)
  rw [load, loaded]
  dsimp only [bind, Except.bind]
  rw [ofLayers_eq_ok_iff, stacked, ofLayer_stack_eq_ok_iff all_plain tops]

theorem load_of_variableLayer_eq_nil (no_setting : variableLayer environment = []) :
    load files environment explicit = loadFiles files explicit := by
  rw [load, loadFiles, no_setting]
  congr
  funext layers
  have laid : Layer.stack ((layers ++ [(Origin.environment, [])]).map Prod.snd) =
      Layer.stack (layers.map Prod.snd) := by
    rw [List.map_append, Layer.stack, List.foldl_append]
    exact Layer.coveredBy_nil _
  have found (key : String) : foundUnder key (layers ++ [(.environment, [])]) =
      foundUnder key layers := by
    simp [foundUnder, Json.field?]
  simp only [ofLayers, laid, found]

/-- Why a file that is asked for cannot be used, whatever is in it. -/
inductive Refuses (files : Files) (path : String) : ConfigFault → Prop where
  | missing : files.contains path = false → Refuses files path (.missing path)
  | noExtension : files.contains path = true → extension? path = none →
      Refuses files path .noExtension
  | unsupported {extension : String} : files.contains path = true →
      extension? path = some extension →
      (∀ format, (extension, format) ∉ ConfigFormat.extensions) →
      Refuses files path (.unsupported extension)

theorem load_of_refuses {path : String} {fault : ConfigFault}
    (refused : Refuses files path fault) (environment : Environment) :
    load files environment (some path) = .error fault := by
  cases refused with
  | missing missing => exact load_missing missing environment
  | noExtension present bare => exact load_without_extension present bare environment
  | @unsupported extension present named unlisted =>
    have unknown : ConfigFormat.ofExtension? extension = none := by
      rw [Option.eq_none_iff_forall_ne_some]
      exact fun format known => unlisted format (ConfigFormat.ofExtension?_eq_some_iff.mp known)
    exact load_unsupported present named unknown environment

/-- **Settings from layers.** Every setting is the item in the topmost layer that has its key, in the
order of the variables, the file that is asked for, `vpack.yaml`, `vpack.toml` and the defaults; and
there is a configuration just if all three items are of the right kind.  Of the variables, the last one
that is named after a key counts.  Without settings among them, the configuration is the one of the
files alone.  An option replaces its setting and nothing else, and none replaces the size.  A file that
is asked for and is missing, or has none of the extensions, is a fault whatever else there is. -/
theorem settings_from_topmost_layers :
    (∀ files environment explicit toml yaml asked, Sources files explicit toml yaml asked →
        (∀ layer ∈ [variableLayer environment, asked, yaml, toml], layer.PlainOutput) →
        ∃ level output size : Json,
          Layer.Tops [variableLayer environment, asked, yaml, toml, defaults] level output size ∧
          (∀ c, load files environment explicit = .ok c ↔
            level = .string c.logLevel ∧ output = .string c.output.name ∧
              size = .integer c.maxInputBytes ∧ c.maxInputBytes < 2 ^ 64) ∧
          ((∃ c, load files environment explicit = .ok c) ↔
            (∃ text, level = .string text) ∧ (∃ form : OutputForm, output = .string form.name) ∧
              ∃ n : Nat, size = .integer n ∧ n < 2 ^ 64)) ∧
      (∀ (environment : Environment), ∀ key ∈ ["log_level", "output", "max_input_bytes"],
        (∀ fields, Json.field? key (variableLayer environment) ≠ some (.object fields)) →
        Json.field? key (variableLayer environment) =
          (environment.namedAfter key).getLast?.map fun entry => Variable.read entry.2) ∧
      (∀ files environment explicit, variableLayer environment = [] →
        load files environment explicit = loadFiles files explicit) ∧
      (∀ (c : Configuration) level level? output output?,
        (c.override (some level) output?).logLevel = level ∧
          (c.override none output?).logLevel = c.logLevel ∧
          (c.override level? (some output)).output = output ∧
          (c.override level? none).output = c.output ∧
          (c.override level? output?).maxInputBytes = c.maxInputBytes) ∧
      ∀ files environment path fault, Refuses files path fault →
        load files environment (some path) = .error fault ∧
          loadFiles files (some path) = .error fault := by
  refine ⟨?_, ?_, ?_, ?_, ?_⟩
  · intro files environment explicit toml yaml asked sources plain
    obtain ⟨level, output, size, tops⟩ := exists_tops [variableLayer environment, asked, yaml, toml]
    have loads : ∀ c, load files environment explicit = .ok c ↔
        level = .string c.logLevel ∧ output = .string c.output.name ∧
          size = .integer c.maxInputBytes ∧ c.maxInputBytes < 2 ^ 64 :=
      fun _ => load_eq_ok_iff sources plain tops
    refine ⟨level, output, size, tops, loads, ?_⟩
    constructor
    · rintro ⟨c, loaded⟩
      obtain ⟨is_level, is_output, is_size⟩ := (loads c).mp loaded
      exact ⟨⟨c.logLevel, is_level⟩, ⟨c.output, is_output⟩, ⟨c.maxInputBytes, is_size⟩⟩
    · rintro ⟨⟨text, is_level⟩, ⟨form, is_output⟩, ⟨n, is_size⟩⟩
      exact ⟨⟨text, form, n⟩, (loads _).mpr ⟨is_level, is_output, is_size⟩⟩
  · intro environment key is_setting no_table
    have simple : ∀ key ∈ ["log_level", "output", "max_input_bytes"], IsSimpleKey key := by
      unfold IsSimpleKey
      decide
    exact field?_variableLayer (simple key is_setting) no_table
  · intro files environment explicit no_setting
    exact load_of_variableLayer_eq_nil no_setting
  · intro c level level? output output?
    exact ⟨rfl, rfl, rfl, rfl, rfl⟩
  · intro files environment path fault refused
    have alone : load files [] (some path) = loadFiles files (some path) :=
      load_of_variableLayer_eq_nil rfl
    exact ⟨load_of_refuses refused environment, alone ▸ load_of_refuses refused []⟩

/-- Three files that disagree. -/
def disagreeing : Files
  | "vpack.toml" => .ok (Utf8.encode "log_level = true\noutput = 'raw'\n")
  | "vpack.yaml" => .ok (Utf8.encode "log_level: 'info'\n")
  | "x.json" => .ok (Utf8.encode "\x7b\"output\": \"none\"\x7d")
  | _ => .error .missing

set_option maxRecDepth 100000 in
/-- The log level is that of `vpack.yaml`, over one of the wrong kind, and the output that of a variable,
over one that is no form. -/
theorem settings_from_topmost_layers_of_disagreeing :
    Sources disagreeing (some "x.json") [("log_level", .boolean true), ("output", .string "raw")]
        [("log_level", .string "info")] [("output", .string "none")] ∧
      variableLayer [("VPACK_OUTPUT", "json")] = [("output", .string "json")] ∧
      (∀ layer ∈ [variableLayer [("VPACK_OUTPUT", "json")], [("output", .string "none")],
        [("log_level", .string "info")], [("log_level", .boolean true), ("output", .string "raw")]],
        layer.PlainOutput) ∧
      load disagreeing [("VPACK_OUTPUT", "json")] (some "x.json") =
        .ok ⟨"info", .json, 16 * 1024 * 1024⟩ := by
  have toml : ConfigFormat.toml.document? "log_level = true\noutput = 'raw'\n".toList =
      some (.object [("log_level", .boolean true), ("output", .string "raw")]) := by
    cbv
  have json : ConfigFormat.json.document? "\x7b\"output\": \"none\"\x7d".toList =
      some (.object [("output", .string "none")]) := by
    cbv
  have yaml : ConfigFormat.yaml.document? "log_level: 'info'\n".toList =
      some (.object [("log_level", .string "info")]) := by
    have allowed : "log_level: 'info'\n".toList.all Yaml.isAllowed = true := by decide
    have tokens : Yaml.tokens? "log_level: 'info'\n".toList =
        some [.blockMapping, .key, .text "log_level".toList true, .value,
          .text "info".toList false, .blockEnd] := by
      cbv
    have document : Yaml.document? [.blockMapping, .key, .text "log_level".toList true, .value,
        .text "info".toList false, .blockEnd] =
          some (some ⟨.mapping none [(.scalar none true "log_level".toList,
            .scalar none false "info".toList)], [], 4⟩) := by
      cbv
    rw [ConfigFormat.document?, Yaml.read?, allowed, tokens]
    simp only [Bool.not_true, Bool.false_eq_true, if_false, Option.bind_eq_bind, Option.bind_some,
      document]
    delta Yaml.Document.toObject? Yaml.Document.toJson
    rfl
  have extension : extension? "x.json" = some "json" := by
    have name : "x.json".splitOn "/" = ["x.json"] := splitOn_of_notMem '/' (by decide)
    rw [extension?, name]
    rfl
  have sources : Sources disagreeing (some "x.json")
      [("log_level", .boolean true), ("output", .string "raw")]
      [("log_level", .string "info")] [("output", .string "none")] :=
    ⟨.present rfl (ConfigFormat.readLayer?_encode toml),
      .present rfl (ConfigFormat.readLayer?_encode yaml),
      .file rfl extension (ConfigFormat.ofExtension?_eq_some_iff.mp rfl)
        (ConfigFormat.readLayer?_encode json)⟩
  have assigned : variableLayer [("VPACK_OUTPUT", "json")] = [("output", .string "json")] := by
    have named : variableKey? "VPACK_OUTPUT" = some "output" := by decide
    have simple : IsSimpleKey "output" := ⟨by decide, by decide⟩
    have value : Variable.read "json" = .string "json" := by rfl
    have setting := variableSetting?_of_key named simple "json"
    rw [value] at setting
    simp only [variableLayer, List.filterMap_cons, setting]
    rfl
  have flat : ∀ layer ∈ [variableLayer [("VPACK_OUTPUT", "json")], [("output", .string "none")],
      [("log_level", .string "info")], [("log_level", .boolean true), ("output", .string "raw")]],
      layer.Flat := by
    simp only [assigned, Layer.Flat, List.forall_mem_cons]
    simp
  have plain := fun layer member => (flat layer member).plainOutput
  refine ⟨sources, assigned, plain, ?_⟩
  obtain ⟨settings, -⟩ := settings_from_topmost_layers
  obtain ⟨level, output, size, tops, loads, -⟩ := settings _ _ _ _ _ _ sources plain
  rw [assigned] at tops
  obtain rfl : .string "info" = level := Option.some.inj (Layer.topmost_iff.mp tops.level)
  obtain rfl : .string "json" = output := Option.some.inj (Layer.topmost_iff.mp tops.output)
  obtain rfl : .integer (16 * 1024 * 1024) = size :=
    Option.some.inj (Layer.topmost_iff.mp tops.size)
  exact (loads _).mpr ⟨rfl, rfl, rfl, by decide⟩

end Configuration

end DirectivePack
