import Mathlib.Data.List.Induction
import DirectivePack.Config.Configuration

/-!
Output forms in layers.

An output form stands in a layer by its name.  It may also be a table, in which the least key is
the name.  Such tables mix with what is below them, so that the form may come from below; but no
form comes out of two tables of which neither is one.

* `firstField?_eq_some_iff`: the field that comes first is the one under the least key.
* `outputOf?_object_eq_some_iff`: which tables are output forms.
* `outputOf?_coveredBy_eq_none`: tables that are none are none over each other.
* `outputOf?_eq_some_iff`: without such tables, a form is its name.
-/

namespace DirectivePack

/-! ### The first field of a table -/

/-- No key of a table comes before a name. -/
def IsLeastKey (name : String) (fields : List (String × Json)) : Prop :=
  ∀ key, (Json.field? key fields).isSome → ¬ key < name

theorem firstField?_concat (fields : List (String × Json)) (field : String × Json) :
    firstField? (fields ++ [field]) =
      match firstField? fields with
      | some first => if field.1 < first.1 then some field else some first
      | none => some field := by
  rw [firstField?, List.foldl_append]
  rfl

theorem firstField?_eq_none_iff {fields : List (String × Json)} :
    firstField? fields = none ↔ fields = [] := by
  induction fields using List.reverseRec with
  | nil => exact iff_of_true rfl rfl
  | append_singleton fields field ih =>
    rw [firstField?_concat]
    refine iff_of_false ?_ (by simp)
    cases firstField? fields with
    | none => simp
    | some first => by_cases before : field.1 < first.1 <;> simp [before]

theorem isSome_field?_concat {fields : List (String × Json)} {field : String × Json}
    {key : String} :
    (Json.field? key (fields ++ [field])).isSome ↔
      (Json.field? key fields).isSome ∨ field.1 = key := by
  by_cases same : field.1 = key <;> simp [field?_append, Json.field?, same]

theorem isLeastKey_concat_iff {fields : List (String × Json)} {field : String × Json}
    {name : String} :
    IsLeastKey name (fields ++ [field]) ↔ IsLeastKey name fields ∧ ¬ field.1 < name := by
  simp only [IsLeastKey, isSome_field?_concat, or_imp, forall_and, forall_eq']

theorem field?_of_firstField? {fields : List (String × Json)} {name : String} {item : Json}
    (first : firstField? fields = some (name, item)) :
    Json.field? name fields = some item ∧ IsLeastKey name fields := by
  induction fields using List.reverseRec generalizing name item with
  | nil => cases first
  | append_singleton fields field ih =>
    rw [firstField?_concat] at first
    rw [isLeastKey_concat_iff]
    cases before : firstField? fields with
    | none =>
      obtain rfl := firstField?_eq_none_iff.mp before
      cases first
      exact ⟨by simp [Json.field?], nofun, String.lt_irrefl _⟩
    | some least =>
      obtain ⟨found, is_least⟩ := ih before
      rw [before] at first
      dsimp only at first
      split at first
      · rename_i earlier
        cases first
        have new_key : Json.field? name fields = none := by
          rw [← Option.not_isSome_iff_eq_none]
          exact fun has_key => is_least name has_key earlier
        refine ⟨by simp [field?_append, new_key, Json.field?], ?_, String.lt_irrefl _⟩
        exact fun key has_key below => is_least key has_key (String.lt_trans below earlier)
      · rename_i not_earlier
        cases first
        exact ⟨by simp [field?_append, found], is_least, not_earlier⟩

theorem firstField?_eq_some_iff {fields : List (String × Json)} {name : String} {item : Json} :
    firstField? fields = some (name, item) ↔
      Json.field? name fields = some item ∧ IsLeastKey name fields := by
  refine ⟨field?_of_firstField?, ?_⟩
  rintro ⟨found, is_least⟩
  cases first : firstField? fields with
  | none =>
    obtain rfl := firstField?_eq_none_iff.mp first
    cases found
  | some field =>
    obtain ⟨other_found, other_is_least⟩ := field?_of_firstField? first
    have le : field.1 ≤ name := String.not_lt.mp (other_is_least name (by simp [found]))
    have ge : name ≤ field.1 := String.not_lt.mp (is_least field.1 (by simp [other_found]))
    obtain rfl := String.le_antisymm le ge
    rw [found] at other_found
    rw [Option.some.inj other_found]

/-! ### Tables -/

theorem outputOf?_object_eq_some_iff {fields : List (String × Json)} {form : OutputForm} :
    outputOf? (.object fields) = some form ↔
      ∃ name, OutputForm.ofName? name = some form ∧ Json.field? name fields = some .null ∧
        IsLeastKey name fields := by
  simp only [← firstField?_eq_some_iff]
  rw [outputOf?]
  constructor
  · intro is_form
    split at is_form
    · rename_i name first
      exact ⟨name, is_form, first⟩
    · cases is_form
  · rintro ⟨name, is_form, first⟩
    rw [first]
    exact is_form

/-- Only nothing lies over something as nothing. -/
theorem Json.eq_null_of_coveredBy {below item : Json} (nothing : Json.coveredBy below item = .null) :
    item = .null := by
  cases item with
  | null => rfl
  | object fields => cases below <;> cases nothing
  | boolean | integer | float | string | array => cases nothing

theorem isSome_field?_coveredBy {key : String} {lower upper : Layer} :
    (Json.field? key (Layer.coveredBy lower upper)).isSome ↔
      (Json.field? key upper).isSome ∨ (Json.field? key lower).isSome := by
  rw [field?_coveredBy]
  cases Json.field? key upper <;> cases Json.field? key lower <;> simp

theorem outputOf?_coveredBy_eq_none {lower upper : List (String × Json)}
    (lower_none : outputOf? (.object lower) = none)
    (upper_none : outputOf? (.object upper) = none) :
    outputOf? (.object (Layer.coveredBy lower upper)) = none := by
  rw [Option.eq_none_iff_forall_ne_some] at lower_none upper_none ⊢
  intro form is_form
  obtain ⟨name, names, found, is_least⟩ := outputOf?_object_eq_some_iff.mp is_form
  -- the table that the least field comes from has it as its least field
  rw [field?_coveredBy] at found
  cases above : Json.field? name upper with
  | none =>
    rw [above] at found
    refine lower_none form (outputOf?_object_eq_some_iff.mpr ⟨name, names, found, ?_⟩)
    exact fun key has_key => is_least key (isSome_field?_coveredBy.mpr (.inr has_key))
  | some item =>
    have nothing : item = .null := by
      rw [above] at found
      cases below : Json.field? name lower with
      | none =>
        rw [below] at found
        exact Option.some.inj found
      | some under =>
        rw [below] at found
        exact Json.eq_null_of_coveredBy (Option.some.inj found)
    refine upper_none form (outputOf?_object_eq_some_iff.mpr ⟨name, names, nothing ▸ above, ?_⟩)
    exact fun key has_key => is_least key (isSome_field?_coveredBy.mpr (.inl has_key))

/-! ### Names -/

theorem OutputForm.ofName?_eq_some_iff {name : String} {form : OutputForm} :
    OutputForm.ofName? name = some form ↔ name = form.name := by
  unfold OutputForm.ofName?
  constructor
  · intro is_form
    split at is_form <;> cases is_form <;> rfl
  · rintro rfl
    cases form <;> rfl

theorem outputOf?_eq_some_iff {item : Json} {form : OutputForm}
    (plain : ∀ fields, item = .object fields → outputOf? item = none) :
    outputOf? item = some form ↔ item = .string form.name := by
  cases item with
  | string name => simp [outputOf?, OutputForm.ofName?_eq_some_iff]
  | object fields => simp [plain fields rfl]
  | null | boolean | integer | float | array => simp [outputOf?]

end DirectivePack
