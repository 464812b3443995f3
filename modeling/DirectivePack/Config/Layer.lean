import DirectivePack.Json.Reader

/-!
Layers of settings: each is a set of fields, and one laid over another hides what the other says
under the same keys.

* `field?_coveredBy`: under every key, the upper layer decides if it has the key, and the lower one
  otherwise; two tables under one key are laid over each other in turn.
* `lay_object_cases`, `lay_of_not_object`: only tables mix.
* `field?_stack`: hence what a stack says under a key is drawn from what its layers say under it.
-/

namespace DirectivePack

/-- The settings from one source, by key. -/
abbrev Layer := List (String × Json)

mutual

/-- A document with another one over it.  Only two tables mix; anything else hides what is below. -/
def Json.coveredBy (lower : Json) : Json → Json
  | .object upper =>
    match lower with
    | .object fields => .object (coverFields fields upper ++ fields.filter fun field =>
        (Json.field? field.1 upper).isNone)
    | _ => .object upper
  | upper => upper

/-- The fields of the upper layer, each over what is below it. -/
def coverFields (lower : Layer) : List (String × Json) → List (String × Json)
  | [] => []
  | (key, item) :: upper =>
    (key, match Json.field? key lower with
      | some below => Json.coveredBy below item
      | none => item) :: coverFields lower upper

end

namespace Layer

/-- A layer with another one over it. -/
def coveredBy (lower upper : Layer) : Layer :=
  coverFields lower upper ++ lower.filter fun field => (Json.field? field.1 upper).isNone

/-- Layers from the lowest to the highest, as one. -/
def stack (layers : List Layer) : Layer :=
  layers.foldl coveredBy []

end Layer

/-! ### Look-up -/

theorem field?_append (key : String) (first second : Layer) :
    Json.field? key (first ++ second) = (Json.field? key first).or (Json.field? key second) := by
  induction first with
  | nil => simp [Json.field?]
  | cons field first ih =>
    obtain ⟨name, item⟩ := field
    by_cases h : name = key <;> simp [Json.field?, h, ih]

theorem field?_coverFields (key : String) (lower upper : Layer) :
    Json.field? key (coverFields lower upper) = (Json.field? key upper).map fun item =>
      match Json.field? key lower with
      | some below => Json.coveredBy below item
      | none => item := by
  induction upper with
  | nil => simp [coverFields, Json.field?]
  | cons field upper ih =>
    obtain ⟨name, item⟩ := field
    by_cases h : name = key
    · subst h
      simp [coverFields, Json.field?]
    · simp [coverFields, Json.field?, h, ih]

theorem field?_filter_of_keep (key : String) (keep : String → Bool) (layer : Layer)
    (kept : keep key = true) :
    Json.field? key (layer.filter fun field => keep field.1) = Json.field? key layer := by
  induction layer with
  | nil => rfl
  | cons field layer ih =>
    obtain ⟨name, item⟩ := field
    by_cases h : name = key
    · subst h
      simp [kept, Json.field?]
    · by_cases k : keep name = true <;> simp [Json.field?, h, k, ih]

theorem field?_coveredBy (key : String) (lower upper : Layer) :
    Json.field? key (Layer.coveredBy lower upper) =
      match Json.field? key upper, Json.field? key lower with
      | some item, some below => some (Json.coveredBy below item)
      | some item, none => some item
      | none, below => below := by
  rw [Layer.coveredBy, field?_append, field?_coverFields]
  cases above : Json.field? key upper with
  | some item => cases Json.field? key lower <;> simp
  | none =>
    have kept := field?_filter_of_keep key (fun name => (Json.field? name upper).isNone) lower
      (by simp [above])
    simpa using kept

/-- What is found under a key, with an item over it. -/
def Layer.lay (below : Option Json) (item : Json) : Option Json :=
  match below with
  | some below => some (Json.coveredBy below item)
  | none => some item

/-- A table mixes with a table below it, and hides anything else. -/
theorem Layer.lay_object_cases (below : Option Json) (upper : List (String × Json)) :
    Layer.lay below (.object upper) = some (.object upper) ∨
      ∃ lower, below = some (.object lower) ∧
        Layer.lay below (.object upper) = some (.object (Layer.coveredBy lower upper)) := by
  cases below with
  | none => exact .inl rfl
  | some below =>
    cases below with
    | object lower => exact .inr ⟨lower, rfl, rfl⟩
    | null | boolean | integer | float | string | array => exact .inl rfl

theorem Layer.exists_lay_object (below : Option Json) (upper : List (String × Json)) :
    ∃ fields, Layer.lay below (.object upper) = some (.object fields) := by
  rcases Layer.lay_object_cases below upper with laid | ⟨lower, -, laid⟩
  · exact ⟨upper, laid⟩
  · exact ⟨Layer.coveredBy lower upper, laid⟩

theorem Layer.lay_of_not_object (below : Option Json) {item : Json}
    (no_table : ∀ fields, item ≠ .object fields) : Layer.lay below item = some item := by
  cases below with
  | none => rfl
  | some below =>
    cases item with
    | object fields => exact absurd rfl (no_table fields)
    | null | boolean | integer | float | string | array => rfl

theorem field?_stack (key : String) (layers : List Layer) :
    Json.field? key (Layer.stack layers) =
      (layers.filterMap (Json.field? key)).foldl Layer.lay none := by
  suffices laid : ∀ below : Layer, Json.field? key (layers.foldl Layer.coveredBy below) =
      (layers.filterMap (Json.field? key)).foldl Layer.lay (Json.field? key below) from laid []
  induction layers with
  | nil => exact fun _ => rfl
  | cons layer layers ih =>
    intro below
    rw [List.foldl_cons, ih, field?_coveredBy, List.filterMap_cons]
    cases Json.field? key layer with
    | none => rfl
    | some item => cases Json.field? key below <;> rfl

end DirectivePack
