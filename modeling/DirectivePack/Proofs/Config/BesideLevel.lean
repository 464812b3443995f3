import Mathlib.Data.List.Forall2
import DirectivePack.Config.Configuration

/-!
Configurations beside the log level.

What is loaded for a setting depends on what the layers have under its key and on nothing else.
So layers that say the same beside the log level make the same configuration but for the log level;
and where they make none, the fault quotes the same.  The one fault that depends on the log level
is that it is none, which is found out first.

* `field?_stack_eq`: layers that say the same beside the log level do so as one.
* `ConfigFile.SameBesideLevel`: what is found in place of a file says the same beside the log
  level.  In a file that cannot be read nothing is beside the log level, so it is the same file.
* `Configuration.load_alike`: from such files and variables, the same is loaded but for the log
  level, or nothing is, with the same fault.
-/

namespace DirectivePack

/-! ### Layers -/

/-- The same under every key but that of the log level. -/
def Layer.SameBesideLevel (layer other : Layer) : Prop :=
  ∀ key, key ≠ "log_level" → Json.field? key layer = Json.field? key other

theorem field?_stack_eq {layers others : List Layer}
    (same : List.Forall₂ Layer.SameBesideLevel layers others) :
    Layer.SameBesideLevel (Layer.stack layers) (Layer.stack others) := by
  intro key other_key
  have said : layers.filterMap (Json.field? key) = others.filterMap (Json.field? key) := by
    induction same with
    | nil => rfl
    | cons first _ ih => rw [List.filterMap_cons, List.filterMap_cons, first key other_key, ih]
  rw [field?_stack, field?_stack, said]

theorem Layer.SameBesideLevel.refl (layer : Layer) : Layer.SameBesideLevel layer layer :=
  fun _ _ => rfl

/-- Layers of one origin that say the same beside the log level. -/
def Origin.SameBesideLevel (entry other : Origin × Layer) : Prop :=
  entry.1 = other.1 ∧ Layer.SameBesideLevel entry.2 other.2

theorem foundUnder_eq {layers others : List (Origin × Layer)}
    (same : List.Forall₂ Origin.SameBesideLevel layers others) {key : String}
    (other_key : key ≠ "log_level") : foundUnder key layers = foundUnder key others := by
  induction same with
  | nil => rfl
  | cons first _ ih =>
    obtain ⟨origin, alike⟩ := first
    simp only [foundUnder, List.filterMap_cons, origin, alike key other_key] at ih ⊢
    rw [ih]

namespace Configuration

/-- The same is loaded but for the log level, or both fail with the same fault, or one of them fails
for its log level. -/
inductive LoadedAlike : Except ConfigFault Configuration → Except ConfigFault Configuration → Prop
    where
  | loaded (level level' : String) (output : OutputForm) (bytes : Nat) :
      LoadedAlike (.ok ⟨level, output, bytes⟩) (.ok ⟨level', output, bytes⟩)
  | failed (fault : ConfigFault) : LoadedAlike (.error fault) (.error fault)
  | left (found : List (Origin × Json)) (other : Except ConfigFault Configuration) :
      LoadedAlike (.error (.unusable (.unfit "log_level" found))) other
  | right (one : Except ConfigFault Configuration) (found : List (Origin × Json)) :
      LoadedAlike one (.error (.unusable (.unfit "log_level" found)))

theorem ofLayers_alike {layers others : List (Origin × Layer)}
    (same : List.Forall₂ Origin.SameBesideLevel layers others) :
    LoadedAlike (ofLayers layers) (ofLayers others) := by
  have alike : List.Forall₂ Layer.SameBesideLevel (layers.map Prod.snd) (others.map Prod.snd) := by
    rw [List.forall₂_map_left_iff, List.forall₂_map_right_iff]
    exact same.imp fun _ _ => And.right
  have stacked := field?_stack_eq alike
  have bytes_found := foundUnder_eq same (by decide : "max_input_bytes" ≠ "log_level")
  have output_found := foundUnder_eq same (by decide : "output" ≠ "log_level")
  unfold ofLayers ofLayer setting
  rw [stacked "max_input_bytes" (by decide), stacked "output" (by decide)]
  -- the settings are looked at in turn, the log level first
  cases (Json.field? "log_level" (Layer.stack (layers.map Prod.snd))).bind logLevelOf? with
  | none => exact .left _ _
  | some level =>
    cases (Json.field? "log_level" (Layer.stack (others.map Prod.snd))).bind logLevelOf? with
    | none => exact .right _ _
    | some level' =>
      cases (Json.field? "max_input_bytes" (Layer.stack (others.map Prod.snd))).bind
        maxInputBytesOf? with
      | none =>
        dsimp only [bind, Except.bind, Except.mapError]
        rw [bytes_found]
        exact .failed _
      | some bytes =>
        cases (Json.field? "output" (Layer.stack (others.map Prod.snd))).bind outputOf? with
        | none =>
          dsimp only [bind, Except.bind, Except.mapError]
          rw [output_found]
          exact .failed _
        | some output => exact .loaded level level' output bytes

end Configuration

/-! ### Files -/

/-- What is found in place of a configuration file says the same beside the log level: either it is
the same, or both can be read as layers that say so. -/
inductive ConfigFile.SameBesideLevel (file : ConfigFile) (files others : Files) : Prop where
  | same : files file.path = others file.path → SameBesideLevel file files others
  | layers {layer other : Layer} : fileLayer? files file = some layer →
      fileLayer? others file = some other → layer.SameBesideLevel other →
      SameBesideLevel file files others

/-- Files that say the same beside the log level: the same ones are to be read, or there is the same
reason why none are, and each of them says so. -/
structure Files.SameBesideLevel (explicit : Option String) (files others : Files) : Prop where
  sources : configFiles files explicit = configFiles others explicit
  alike : ∀ sources, configFiles files explicit = .ok sources →
    ∀ file ∈ sources, file.SameBesideLevel files others

theorem Files.SameBesideLevel.refl (explicit : Option String) (files : Files) :
    files.SameBesideLevel explicit files :=
  ⟨rfl, fun _ _ _ _ => .same rfl⟩

/-- Both can be read, or neither, and then they are the same. -/
theorem ConfigFile.SameBesideLevel.cases {file : ConfigFile} {files others : Files}
    (same : file.SameBesideLevel files others) :
    (fileLayer? files file = none ∧ fileLayer? others file = none ∧
        files file.path = others file.path) ∨
      ∃ layer other, fileLayer? files file = some layer ∧ fileLayer? others file = some other ∧
        layer.SameBesideLevel other := by
  cases same with
  | same same =>
    have read : fileLayer? files file = fileLayer? others file := by
      rw [fileLayer?, fileLayer?, Files.contains, Files.contains, same]
    cases found : fileLayer? others file with
    | none => exact .inl ⟨read.trans found, rfl, same⟩
    | some layer => exact .inr ⟨layer, layer, read.trans found, rfl, .refl layer⟩
  | layers read read' alike => exact .inr ⟨_, _, read, read', alike⟩

section Sources

variable {files others : Files} {sources : List ConfigFile}
  (same : ∀ file ∈ sources, file.SameBesideLevel files others)

include same

theorem unreadableIn_eq : unreadableIn files sources = unreadableIn others sources := by
  refine List.filter_congr fun file member => ?_
  rcases (same file member).cases with ⟨unread, unread', -⟩ | ⟨layer, other, read, read', -⟩
  · rw [unread, unread']
  · rw [read, read']
    rfl

theorem layersIn_sameBesideLevel :
    List.Forall₂ Origin.SameBesideLevel (layersIn files sources) (layersIn others sources) := by
  induction sources with
  | nil => exact .nil
  | cons file sources ih =>
    have further := ih fun file member => same file (List.mem_cons_of_mem _ member)
    rcases (same file List.mem_cons_self).cases with ⟨unread, unread', -⟩ |
      ⟨layer, other, read, read', alike⟩
    · simpa only [layersIn, List.filterMap_cons, unread, unread', Option.map_none] using further
    · have first : Origin.SameBesideLevel (.file file, layer) (.file file, other) := ⟨rfl, alike⟩
      simpa only [layersIn, List.filterMap_cons, read, read', Option.map_some] using
        List.Forall₂.cons first further

/-- The layers of the files say the same beside the log level, or the same files cannot be read. -/
theorem readLayers_cases :
    (∃ fault, readLayers files sources = .error fault ∧
        readLayers others sources = .error fault) ∨
      ∃ layers layers', readLayers files sources = .ok layers ∧
        readLayers others sources = .ok layers' ∧
        List.Forall₂ Origin.SameBesideLevel layers layers' := by
  rw [readLayers, readLayers, ← unreadableIn_eq same]
  cases unreadable : unreadableIn files sources with
  | nil => exact .inr ⟨_, _, rfl, rfl, layersIn_sameBesideLevel same⟩
  | cons first rest =>
    have quoted : (first :: rest).map (fun file => (file, files file.path)) =
        (first :: rest).map fun file => (file, others file.path) := by
      refine List.map_congr_left fun file member => ?_
      rw [← unreadable] at member
      obtain ⟨is_source, unread⟩ := List.mem_filter.mp member
      rcases (same file is_source).cases with ⟨-, -, content⟩ | ⟨layer, other, read, -⟩
      · rw [content]
      · rw [read] at unread
        cases unread
    dsimp only
    rw [quoted]
    exact .inl ⟨_, rfl, rfl⟩

end Sources

/-! ### Configurations -/

/-- From files and variables that say the same beside the log level, the same is loaded but for the
log level. -/
theorem Configuration.load_alike {files others : Files} {environment environment' : Environment}
    {explicit : Option String} (same : files.SameBesideLevel explicit others)
    (variables_same : Layer.SameBesideLevel (variableLayer environment)
      (variableLayer environment')) :
    LoadedAlike (load files environment explicit) (load others environment' explicit) := by
  rw [load, load, fileLayers, fileLayers, ← same.sources]
  cases asked : configFiles files explicit with
  | error fault => exact .failed fault
  | ok sources =>
    dsimp only [bind, Except.bind]
    rcases readLayers_cases (same.alike sources asked) with ⟨fault, unread, unread'⟩ |
      ⟨layers, layers', read, read', alike⟩
    · rw [unread, unread']
      exact .failed _
    · rw [read, read']
      refine ofLayers_alike ?_
      exact .cons ⟨rfl, .refl _⟩ (List.rel_append alike (.cons ⟨rfl, variables_same⟩ .nil))

end DirectivePack
