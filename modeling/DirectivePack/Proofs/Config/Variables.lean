import Mathlib.Data.List.Induction
import DirectivePack.Config.Configuration
import DirectivePack.Proofs.Text.Split

/-!
Settings in environment variables.

A variable is named after a key if its name is the mark and the key, in any case.  A point in the name
leads into a table, so such a variable never has a key to itself.

* `variableSetting?_of_key`: a variable that is named after a key is a setting under it.
* `exists_object_of_variableSetting?`: under any other key it has a table at most.
* `field?_variableLayer`: so the last variable that is named after a key says what the variables say
  under it, unless that is a table.
-/

namespace DirectivePack

/-- The key that a variable is named after. -/
def variableKey? (name : String) : Option String :=
  let lower := trim (name.toList.map Char.toLower)
  if variableMark.isPrefixOf lower then
    some (String.ofList (trim (lower.drop variableMark.length)))
  else none

/-- A key that leads into no table: it has a character, and no point. -/
def IsSimpleKey (key : String) : Prop :=
  key ≠ "" ∧ '.' ∉ key.toList

/-! ### One variable -/

theorem variableSetting?_of_none {name : String} (no_key : variableKey? name = none)
    (value : String) : variableSetting? name value = none := by
  unfold variableKey? at no_key
  unfold variableSetting?
  dsimp only at no_key ⊢
  split at no_key
  · cases no_key
  · rename_i unmarked
    exact if_neg unmarked

theorem variableSetting?_of_some {name key : String} (named : variableKey? name = some key)
    (value : String) :
    variableSetting? name value =
      if (key.splitOn ".").any String.isEmpty then none
      else
        match Variable.nest (Variable.read value) (key.splitOn ".") with
        | .object fields => some fields
        | _ => none := by
  unfold variableKey? at named
  unfold variableSetting?
  dsimp only at named ⊢
  split at named
  · rename_i marked
    obtain rfl := Option.some.inj named
    exact if_pos marked
  · cases named

theorem variableSetting?_of_key {name key : String} (named : variableKey? name = some key)
    (simple : IsSimpleKey key) (value : String) :
    variableSetting? name value = some [(key, Variable.read value)] := by
  have part : key.splitOn "." = [key] := splitOn_of_notMem '.' simple.2
  have filled : key.isEmpty = false := by simpa using simple.1
  rw [variableSetting?_of_some named, part]
  simp [filled, Variable.nest]

theorem exists_object_of_variableSetting? {name value key : String} {setting : Layer} {item : Json}
    (other : variableKey? name ≠ some key) (set : variableSetting? name value = some setting)
    (found : Json.field? key setting = some item) : ∃ fields, item = .object fields := by
  cases named : variableKey? name with
  | none =>
    rw [variableSetting?_of_none named] at set
    cases set
  | some own =>
    obtain ⟨part, parts, split⟩ := List.exists_cons_of_ne_nil (splitOn_ne_nil '.' own)
    have divided : own.splitOn "." = part :: parts := split
    rw [variableSetting?_of_some named, divided] at set
    split at set
    · cases set
    · obtain rfl : [(part, Variable.nest (Variable.read value) parts)] = setting :=
        Option.some.inj set
      by_cases same : part = key
      · subst same
        cases parts with
        | nil => exact absurd (eq_of_splitOn_eq_singleton split ▸ named) other
        | cons next parts =>
          rw [Json.field?, if_pos rfl] at found
          exact ⟨_, (Option.some.inj found).symm⟩
      · rw [Json.field?, if_neg same] at found
        cases found

/-- What a variable says under a key. -/
def variableItem? (key : String) (entry : String × String) : Option Json :=
  (variableSetting? entry.1 entry.2).bind (Json.field? key)

theorem variableItem?_of_key {key : String} {entry : String × String}
    (named : variableKey? entry.1 = some key) (simple : IsSimpleKey key) :
    variableItem? key entry = some (Variable.read entry.2) := by
  rw [variableItem?, variableSetting?_of_key named simple]
  simp [Json.field?]

/-! ### All variables -/

/-- The variables that are named after a key. -/
def Environment.namedAfter (environment : Environment) (key : String) : Environment :=
  environment.filter fun entry => variableKey? entry.1 = some key

theorem field?_variableLayer_eq_foldl (key : String) (environment : Environment) :
    Json.field? key (variableLayer environment) =
      (environment.filterMap (variableItem? key)).foldl Layer.lay none := by
  rw [variableLayer, field?_stack, List.filterMap_filterMap]
  rfl

/-- The last variable that is named after a key says what stands under it, unless that is a table. -/
theorem field?_variableLayer {environment : Environment} {key : String} (simple : IsSimpleKey key)
    (plain : ∀ fields, Json.field? key (variableLayer environment) ≠ some (.object fields)) :
    Json.field? key (variableLayer environment) =
      (environment.namedAfter key).getLast?.map fun entry => Variable.read entry.2 := by
  rw [field?_variableLayer_eq_foldl] at plain ⊢
  unfold Environment.namedAfter
  induction environment using List.reverseRec with
  | nil => rfl
  | append_singleton environment entry ih =>
    rw [List.filterMap_append, List.foldl_append] at plain ⊢
    rw [List.filter_append]
    by_cases named : variableKey? entry.1 = some key
    · rw [List.filterMap_cons_some (variableItem?_of_key named simple)] at plain ⊢
      have no_table : ∀ fields, Variable.read entry.2 ≠ .object fields := by
        intro fields is_table
        obtain ⟨merged, laid⟩ := Layer.exists_lay_object
          ((environment.filterMap (variableItem? key)).foldl Layer.lay none) fields
        exact plain merged (is_table ▸ laid)
      simpa [named] using Layer.lay_of_not_object _ no_table
    · have unnamed : [entry].filter (fun entry => variableKey? entry.1 = some key) = [] := by
        simp [named]
      rw [unnamed, List.append_nil]
      cases said : variableItem? key entry with
      | none =>
        rw [List.filterMap_cons_none said] at plain ⊢
        exact ih plain
      | some item =>
        -- a table, which stays one over whatever is below it
        obtain ⟨setting, set, found⟩ := Option.bind_eq_some_iff.mp said
        obtain ⟨fields, rfl⟩ := exists_object_of_variableSetting? named set found
        obtain ⟨merged, laid⟩ := Layer.exists_lay_object
          ((environment.filterMap (variableItem? key)).foldl Layer.lay none) fields
        rw [List.filterMap_cons_some said] at plain
        exact absurd laid (plain merged)

end DirectivePack
