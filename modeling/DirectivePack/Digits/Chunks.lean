/-!
A list cut into pieces of one length, the last piece possibly shorter.

* `flatten_chunks`: the pieces in order are the list.
* `chunks_append`: a full piece in front of a list is its first piece.
* `length_chunks`: there are as many pieces as cover the list.
* `exists_chunks_eq`: only the last piece may be shorter.
* `length_flatMap_uniform`, `take_flatMap_uniform`: pieces of one length put together, one for each
  element of a list.
-/

namespace DirectivePack

/-- Pieces of `size + 1` elements. -/
def chunks {α : Type} (size : Nat) (xs : List α) : List (List α) :=
  match xs with
  | [] => []
  | x :: xs => (x :: xs.take size) :: chunks size (xs.drop size)
termination_by xs.length
decreasing_by simp only [List.length_cons, List.length_drop]; omega

theorem chunks_nil {α : Type} (size : Nat) : chunks size ([] : List α) = [] := by
  rw [chunks]

theorem chunks_cons {α : Type} (size : Nat) (x : α) (xs : List α) :
    chunks size (x :: xs) = (x :: xs.take size) :: chunks size (xs.drop size) := by
  rw [chunks]

/-- A full piece in front of a list is the first piece. -/
theorem chunks_append {α : Type} {size : Nat} {piece : List α} (full : piece.length = size + 1)
    (xs : List α) : chunks size (piece ++ xs) = piece :: chunks size xs := by
  cases piece with
  | nil => simp at full
  | cons x piece =>
    have length : piece.length = size := Nat.succ.inj full
    rw [List.cons_append, chunks_cons, List.take_left' length, List.drop_left' length]

theorem length_chunks {α : Type} (size : Nat) (xs : List α) :
    (chunks size xs).length = (xs.length + size) / (size + 1) := by
  fun_induction chunks size xs with
  | case1 => simp [Nat.div_eq_of_lt (Nat.lt_succ_self size)]
  | case2 x xs ih =>
    have step : xs.length + 1 + size = xs.length + (size + 1) := by omega
    rw [List.length_cons, List.length_cons, ih, List.length_drop, step,
      Nat.add_div_right _ (Nat.succ_pos size)]
    rcases Nat.lt_or_ge xs.length size with short | long
    · have none_left : xs.length - size + size = size := by omega
      rw [none_left, Nat.div_eq_of_lt (Nat.lt_succ_self size), Nat.div_eq_of_lt (by omega)]
    · rw [Nat.sub_add_cancel long]

theorem flatten_chunks {α : Type} (size : Nat) (xs : List α) : (chunks size xs).flatten = xs := by
  fun_induction chunks size xs with
  | case1 => rfl
  | case2 x xs ih => simp [ih]

/-- Pieces are full, the last one possibly not. -/
theorem exists_chunks_eq {α : Type} (size : Nat) {xs : List α} (nonempty : xs ≠ []) :
    ∃ full last, chunks size xs = full ++ [last] ∧ ∀ piece ∈ full, piece.length = size + 1 := by
  fun_induction chunks size xs with
  | case1 => exact absurd rfl nonempty
  | case2 x xs ih =>
    by_cases none_left : xs.drop size = []
    · exact ⟨[], x :: xs.take size, by rw [none_left, chunks_nil, List.nil_append], nofun⟩
    · obtain ⟨full, last, others, are_full⟩ := ih none_left
      have long : size < xs.length := by
        apply Nat.lt_of_not_le
        intro short
        exact none_left (List.drop_of_length_le short)
      refine ⟨(x :: xs.take size) :: full, last, by rw [others, List.cons_append], ?_⟩
      refine List.forall_mem_cons.mpr ⟨?_, are_full⟩
      rw [List.length_cons, List.length_take_of_le (Nat.le_of_lt long)]

/-! ### Pieces put together -/

section Uniform

variable {α β : Type} {f : α → List β} {k : Nat} (uniform : ∀ x, (f x).length = k)

include uniform

theorem length_flatMap_uniform (xs : List α) : (xs.flatMap f).length = k * xs.length := by
  induction xs with
  | nil => rfl
  | cons x xs ih =>
    rw [List.flatMap_cons, List.length_append, uniform, ih, List.length_cons, Nat.mul_succ,
      Nat.add_comm]

theorem take_flatMap_uniform (xs : List α) (n : Nat) :
    (xs.flatMap f).take (k * n) = (xs.take n).flatMap f := by
  induction xs generalizing n with
  | nil => simp
  | cons x xs ih =>
    cases n with
    | zero => simp
    | succ n =>
      rw [List.flatMap_cons, List.take_succ_cons, List.flatMap_cons, Nat.mul_succ, Nat.add_comm,
        ← ih n, ← uniform x, List.take_length_add_append]

end Uniform

end DirectivePack
