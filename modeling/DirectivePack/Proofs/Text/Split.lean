import Mathlib.Data.String.Basic

/-!
Texts split at a character.

* `splitOn_singleton`: a text is split as its characters are.
* `splitOn_of_notMem`: without the character it is in one piece.
* `splitOn_ne_nil`, `eq_of_splitOn_eq_singleton`: there is a piece, and one piece alone is the text.
-/

namespace DirectivePack

open String (utf8Len)

/-- `l` are the characters behind which the piece in hand starts, `m` those of it that are passed,
and `r` those that are left. -/
theorem splitOnAux_singleton (c : Char) (l m r : List Char) (pieces : List String) :
    String.splitOnAux (String.ofList (l ++ m ++ r)) (String.singleton c) ⟨utf8Len l⟩
        ⟨utf8Len l + utf8Len m⟩ 0 pieces =
      pieces.reverse ++ (List.splitOnPPrepend (· == c) r m.reverse).map String.ofList := by
  induction r generalizing l m pieces with
  | nil =>
    have stop := (String.atEnd_of_valid (l ++ m) []).mpr rfl
    rw [String.utf8Len_append] at stop
    rw [String.splitOnAux, if_pos stop, String.extract_of_valid l m []]
    simp
  | cons x r ih =>
    have more : ¬ (⟨utf8Len (l ++ m)⟩ : String.Pos.Raw).atEnd (String.ofList (l ++ m ++ x :: r)) :=
      fun stop => by cases (String.atEnd_of_valid (l ++ m) (x :: r)).mp stop
    have here := String.get_of_valid (l ++ m) (x :: r)
    have next := String.next_of_valid (l ++ m) x r
    rw [String.utf8Len_append] at more here next
    have piece := String.extract_of_valid l m (x :: r)
    have sep_here : (0 : String.Pos.Raw).get (String.singleton c) = c := String.get_of_valid [] [c]
    have sep_next : (0 : String.Pos.Raw).next (String.singleton c) = ⟨c.utf8Size⟩ := by
      simpa using String.next_of_valid [] c []
    have sep_stop : (⟨c.utf8Size⟩ : String.Pos.Raw).atEnd (String.singleton c) := by
      simpa using (String.atEnd_of_valid [c] []).mpr rfl
    rw [String.splitOnAux, if_neg more, here, sep_here, next, sep_next, if_pos sep_stop]
    by_cases same : x = c
    · subst same
      have back : (⟨utf8Len l + utf8Len m + x.utf8Size⟩ : String.Pos.Raw).unoffsetBy
          ⟨x.utf8Size⟩ = ⟨utf8Len l + utf8Len m⟩ := by
        simp [String.Pos.Raw.ext_iff]
      have start : utf8Len (l ++ m ++ [x]) = utf8Len l + utf8Len m + x.utf8Size := by
        simp [Nat.add_assoc]
      have behind := ih (l ++ m ++ [x]) [] (String.ofList m :: pieces)
      rw [String.utf8Len_nil, Nat.add_zero, start, List.append_nil, List.append_assoc (l ++ m),
        List.singleton_append] at behind
      rw [List.headD_cons, if_pos (beq_self_eq_true x), back, piece, behind,
        List.splitOnPPrepend_cons_eq_if, if_pos (beq_self_eq_true x)]
      simp
    · have stay : (⟨utf8Len l + utf8Len m⟩ : String.Pos.Raw).unoffsetBy 0 =
          ⟨utf8Len l + utf8Len m⟩ := by
        simp
      have other : ¬ (x == c) = true := by simpa using same
      have passed : utf8Len l + utf8Len (m ++ [x]) = utf8Len l + utf8Len m + x.utf8Size := by
        simp [Nat.add_assoc]
      have behind := ih l (m ++ [x]) pieces
      rw [passed, ← List.append_assoc l m, List.append_assoc (l ++ m), List.singleton_append,
        List.reverse_append] at behind
      rw [List.headD_cons, if_neg other, stay, next, behind, List.splitOnPPrepend_cons_eq_if,
        if_neg other]
      rfl

/-- A text is split at a character as its characters are. -/
theorem splitOn_singleton (c : Char) (s : String) :
    s.splitOn (String.singleton c) = (s.toList.splitOnP (· == c)).map String.ofList := by
  have split := splitOnAux_singleton c [] [] s.toList []
  rw [String.splitOn, if_neg (by simp)]
  simpa using split

/-- Without the character, a text is in one piece. -/
theorem splitOn_of_notMem (c : Char) {s : String} (absent : c ∉ s.toList) :
    s.splitOn (String.singleton c) = [s] := by
  have others : ∀ x ∈ s.toList, (x == c) = false := by
    intro x member
    exact beq_false_of_ne fun same => absent (same ▸ member)
  rw [splitOn_singleton, List.splitOnP_eq_singleton others]
  simp

theorem splitOn_ne_nil (c : Char) (s : String) : s.splitOn (String.singleton c) ≠ [] := by
  rw [splitOn_singleton]
  simp [List.splitOnP_ne_nil]

theorem eq_of_splitOn_eq_singleton {c : Char} {s piece : String}
    (whole : s.splitOn (String.singleton c) = [piece]) : s = piece := by
  rw [splitOn_singleton, List.map_eq_singleton_iff] at whole
  obtain ⟨chars, split, rfl⟩ := whole
  have joined : [c].intercalate (s.toList.splitOn c) = s.toList := List.intercalate_splitOn c
  rw [List.splitOn, split, List.intercalate_singleton] at joined
  rw [joined, String.ofList_toList]

end DirectivePack
