import Mathlib.Data.List.Induction
import DirectivePack.Config.Configuration

/-!
The topmost layer that has a key.

Only tables mix with what is below them; anything else hides it.  So what is read under a key is read
in the topmost layer that has the key.  Where layers have tables under the key, this holds of a reader
that refuses them, if it also refuses whatever refused tables mix to (`RefusesMixed`).

* `Layer.Topmost`: the item in the topmost layer that has a key.
* `Layer.exists_topmost`: there is one if the lowest layer has the key.
* `read?_eq_none_of_foldl_lay`: tables that are refused stay so when they are laid over each other.
* `bind_field?_stack`: what is read of a stack is read in its topmost layer.
-/

namespace DirectivePack

/-- The item under a key in the topmost layer that has the key.  The topmost layer comes first. -/
def Layer.Topmost (key : String) (item : Json) (layers : List Layer) : Prop :=
  ∃ above layer below, layers = above ++ layer :: below ∧ Json.field? key layer = some item ∧
    ∀ upper ∈ above, Json.field? key upper = none

theorem Layer.topmost_iff {key : String} {item : Json} {layers : List Layer} :
    Layer.Topmost key item layers ↔ layers.findSome? (Json.field? key) = some item :=
  List.findSome?_eq_some_iff.symm

theorem Layer.exists_topmost {key : String} {item : Json} {lowest : Layer}
    (found : Json.field? key lowest = some item) (layers : List Layer) :
    ∃ item, Layer.Topmost key item (layers ++ [lowest]) := by
  simp only [Layer.topmost_iff, List.findSome?_append]
  cases above : layers.findSome? (Json.field? key) with
  | none => exact ⟨item, by simp [found]⟩
  | some upper => exact ⟨upper, rfl⟩

theorem Layer.Topmost.exists_mem {key : String} {item : Json} {layers : List Layer}
    (top : Layer.Topmost key item layers) : ∃ layer ∈ layers, Json.field? key layer = some item := by
  obtain ⟨above, layer, below, rfl, found, -⟩ := top
  exact ⟨layer, by simp, found⟩

theorem Layer.coveredBy_nil (layer : Layer) : Layer.coveredBy layer [] = layer := by
  simp [Layer.coveredBy, coverFields, Json.field?]

/-! ### Reading -/

section Mixed

/-- Tables that are refused are refused over each other. -/
def RefusesMixed {α : Type} (read? : Json → Option α) : Prop :=
  ∀ lower upper, read? (.object lower) = none → read? (.object upper) = none →
    read? (.object (Layer.coveredBy lower upper)) = none

variable {α : Type} {read? : Json → Option α} (mixed : RefusesMixed read?)

include mixed

theorem read?_eq_none_of_foldl_lay {items : List Json}
    (refused : ∀ fields, .object fields ∈ items → read? (.object fields) = none)
    {fields : List (String × Json)}
    (laid : items.foldl Layer.lay none = some (.object fields)) : read? (.object fields) = none := by
  induction items using List.reverseRec generalizing fields with
  | nil => cases laid
  | append_singleton items item ih =>
    rw [List.foldl_append] at laid
    by_cases is_table : ∃ upper, item = .object upper
    · obtain ⟨upper, rfl⟩ := is_table
      have refused_upper : read? (.object upper) = none := refused upper (by simp)
      rcases Layer.lay_object_cases (items.foldl Layer.lay none) upper with
        hides | ⟨lower, below, mixes⟩
      · cases hides.symm.trans laid
        exact refused_upper
      · cases mixes.symm.trans laid
        have refused_lower : read? (.object lower) = none :=
          ih (fun fields member => refused fields (List.mem_append_left _ member)) below
        exact mixed lower upper refused_lower refused_upper
    · have hides := Layer.lay_of_not_object (items.foldl Layer.lay none)
        fun fields same => is_table ⟨fields, same⟩
      exact absurd ⟨fields, Option.some.inj (hides.symm.trans laid)⟩ is_table

theorem bind_foldl_lay {items : List Json}
    (refused : ∀ fields, .object fields ∈ items → read? (.object fields) = none) :
    (items.foldl Layer.lay none).bind read? = items.getLast?.bind read? := by
  cases items using List.reverseRec with
  | nil => rfl
  | append_singleton items item =>
    rw [List.getLast?_concat]
    by_cases is_table : ∃ upper, item = .object upper
    · obtain ⟨upper, rfl⟩ := is_table
      obtain ⟨fields, laid⟩ := Layer.exists_lay_object (items.foldl Layer.lay none) upper
      have whole : (items ++ [Json.object upper]).foldl Layer.lay none = some (.object fields) := by
        rw [List.foldl_append]
        exact laid
      have refused_upper : read? (.object upper) = none := refused upper (by simp)
      rw [whole, Option.bind_some, Option.bind_some, refused_upper]
      exact read?_eq_none_of_foldl_lay mixed refused whole
    · have hides := Layer.lay_of_not_object (items.foldl Layer.lay none)
        fun fields same => is_table ⟨fields, same⟩
      rw [List.foldl_append]
      exact congrArg (Option.bind · read?) hides

/-- The topmost layer that has a key decides what is read under it. -/
theorem bind_field?_stack {key : String} {layers : List Layer}
    (refused : ∀ layer ∈ layers, ∀ fields,
      Json.field? key layer = some (.object fields) → read? (.object fields) = none) :
    (Json.field? key (Layer.stack layers)).bind read? =
      (layers.reverse.findSome? (Json.field? key)).bind read? := by
  have refused_items : ∀ fields, .object fields ∈ layers.filterMap (Json.field? key) →
      read? (.object fields) = none := by
    intro fields member
    obtain ⟨layer, is_layer, found⟩ := List.mem_filterMap.mp member
    exact refused layer is_layer fields found
  rw [field?_stack, bind_foldl_lay mixed refused_items, List.getLast?_filterMap]

end Mixed

end DirectivePack
