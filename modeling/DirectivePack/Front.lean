/-!
Reading a list from the front.

Everything this library reads, bytes from a buffer or values from an argument list, it reads from
the front and hands back what it did not read.

* `front?_eq_some_iff`: taking `n` elements succeeds exactly on a list that splits after `n`.
* `front?_eq_none_iff`: it fails exactly when fewer than `n` are there.
* `readTimes_succ_eq_ok_iff`, `readAll_of_ok`: reading many elements is reading the first one and then
  the others from what it leaves.
* `readAll_eq_ok_iff_readTimes`, `readAll_eq_error_iff_readTimes`: reading until nothing is left is
  reading so many times, up to the end or up to the first failure.
* `readTimes_eq_ok_iff`, `readAll_eq_ok_iff`, `readAll_eq_error_iff`: where each read takes a member
  of a family off the front, reading many takes a row of them.
-/

namespace DirectivePack

/-- A byte string. -/
abbrev Bytes := List UInt8

/-- The first `n` elements and the rest, if there are `n`. -/
def front? {α : Type} : Nat → List α → Option (List α × List α)
  | 0, xs => some ([], xs)
  | _ + 1, [] => none
  | n + 1, x :: xs => (front? n xs).map fun (taken, rest) => (x :: taken, rest)

theorem front?_append {α : Type} (taken rest : List α) :
    front? taken.length (taken ++ rest) = some (taken, rest) := by
  induction taken with
  | nil => rfl
  | cons x xs ih => simp [front?, ih]

theorem front?_eq_some_iff {α : Type} {n : Nat} {xs taken rest : List α} :
    front? n xs = some (taken, rest) ↔ xs = taken ++ rest ∧ taken.length = n := by
  constructor
  · intro h
    induction n generalizing xs taken with
    | zero =>
      simp only [front?, Option.some.injEq, Prod.mk.injEq] at h
      obtain ⟨rfl, rfl⟩ := h
      exact ⟨rfl, rfl⟩
    | succ n ih =>
      cases xs with
      | nil => simp [front?] at h
      | cons x xs =>
        simp only [front?, Option.map_eq_some_iff] at h
        obtain ⟨⟨t, r⟩, hfront, heq⟩ := h
        simp only [Prod.mk.injEq] at heq
        obtain ⟨rfl, rfl⟩ := heq
        obtain ⟨rfl, rfl⟩ := ih hfront
        exact ⟨rfl, rfl⟩
  · rintro ⟨rfl, rfl⟩
    exact front?_append taken rest

theorem front?_eq_none_iff {α : Type} {n : Nat} {xs : List α} :
    front? n xs = none ↔ xs.length < n := by
  induction n generalizing xs with
  | zero => simp [front?]
  | succ n ih =>
    cases xs with
    | nil => simp [front?]
    | cons x xs => simp [front?, ih]

/-! ### Outcomes -/

theorem map_eq_ok_iff {α β ε : Type} {f : α → β} {x : Except ε α} {b : β} :
    x.map f = .ok b ↔ ∃ a, x = .ok a ∧ f a = b := by
  cases x <;> simp [Except.map]

theorem map_eq_error_iff {α β ε : Type} {f : α → β} {x : Except ε α} {e : ε} :
    x.map f = .error e ↔ x = .error e := by
  cases x <;> simp [Except.map]

@[simp] theorem mapError_ok {α ε ε' : Type} (f : ε → ε') (a : α) :
    (Except.ok a : Except ε α).mapError f = .ok a :=
  rfl

@[simp] theorem mapError_error {α ε ε' : Type} (f : ε → ε') (e : ε) :
    (Except.error e : Except ε α).mapError f = .error (f e) :=
  rfl

theorem mapError_eq_ok_iff {α ε ε' : Type} {f : ε → ε'} {x : Except ε α} {a : α} :
    x.mapError f = .ok a ↔ x = .ok a := by
  cases x <;> simp

theorem mapError_eq_error_iff {α ε ε' : Type} {f : ε → ε'} {x : Except ε α} {e' : ε'} :
    x.mapError f = .error e' ↔ ∃ e, x = .error e ∧ f e = e' := by
  cases x <;> simp

/-! ### Reading many elements -/

/-- `n` reads, one after the other, and the first failure if there is one. -/
def readTimes {α β ε : Type} (read : List α → Except ε (β × List α)) :
    Nat → List α → Except ε (List β × List α)
  | 0, xs => .ok ([], xs)
  | n + 1, xs =>
    match read xs with
    | .error e => .error e
    | .ok (value, rest) =>
      match readTimes read n rest with
      | .error e => .error e
      | .ok (values, rest) => .ok (value :: values, rest)

theorem readTimes_succ_eq_ok_iff {α β ε : Type} {read : List α → Except ε (β × List α)} {n : Nat}
    {xs rest : List α} {values : List β} :
    readTimes read (n + 1) xs = .ok (values, rest) ↔
      ∃ value behind more, read xs = .ok (value, behind) ∧
        readTimes read n behind = .ok (more, rest) ∧ values = value :: more := by
  constructor
  · intro read_all
    rw [readTimes] at read_all
    cases first : read xs with
    | error e => simp [first] at read_all
    | ok found =>
      obtain ⟨value, behind⟩ := found
      cases others : readTimes read n behind with
      | error e => simp [first, others] at read_all
      | ok found =>
        simp only [first, others, Except.ok.injEq, Prod.mk.injEq] at read_all
        obtain ⟨rfl, rfl⟩ := read_all
        exact ⟨value, behind, found.1, rfl, others, rfl⟩
  · rintro ⟨value, behind, more, first, others, rfl⟩
    simp only [readTimes, first, others]

theorem readTimes_length {α β ε : Type} {read : List α → Except ε (β × List α)} {n : Nat}
    {xs rest : List α} {values : List β}
    (read_times : readTimes read n xs = .ok (values, rest)) : values.length = n := by
  induction n generalizing xs values with
  | zero =>
    cases read_times
    rfl
  | succ n ih =>
    obtain ⟨value, behind, more, -, others, rfl⟩ := readTimes_succ_eq_ok_iff.mp read_times
    rw [List.length_cons, ih others]

/-- If reading many elements fails, reading one of them does. -/
theorem exists_of_readTimes_eq_error {α β ε : Type} {read : List α → Except ε (β × List α)}
    {n : Nat} {xs : List α} {e : ε} (failed : readTimes read n xs = .error e) :
    ∃ rest, read rest = .error e := by
  induction n generalizing xs with
  | zero => cases failed
  | succ n ih =>
    rw [readTimes] at failed
    cases first : read xs with
    | error e' =>
      simp only [first, Except.error.injEq] at failed
      exact ⟨xs, failed ▸ first⟩
    | ok found =>
      cases others : readTimes read n found.2 with
      | error e' =>
        simp only [first, others, Except.error.injEq] at failed
        exact ih (failed ▸ others)
      | ok found => simp [first, others] at failed

/-- Reads that fail in other words do so also one after the other. -/
theorem readTimes_mapError {α β ε ε' : Type} {read : List α → Except ε (β × List α)}
    {read' : List α → Except ε' (β × List α)} {f : ε → ε'}
    (mapped : ∀ xs, read' xs = (read xs).mapError f) (n : Nat) (xs : List α) :
    readTimes read' n xs = (readTimes read n xs).mapError f := by
  induction n generalizing xs with
  | zero => rfl
  | succ n ih =>
    rw [readTimes, readTimes, mapped]
    cases read xs with
    | error e => rfl
    | ok found =>
      simp only [mapError_ok, ih]
      cases readTimes read n found.2 <;> rfl

/-- Reads until nothing is left, for a read that never succeeds without using something up. -/
def readAll {α β ε : Type} (read : List α → Except ε (β × List α))
    (progress : ∀ xs value rest, read xs = .ok (value, rest) → rest.length < xs.length)
    (xs : List α) : Except ε (List β) :=
  match xs with
  | [] => .ok []
  | x :: xs =>
    match _succeeds : read (x :: xs) with
    | .error e => .error e
    | .ok (value, rest) =>
      match readAll read progress rest with
      | .error e => .error e
      | .ok values => .ok (value :: values)
termination_by xs.length
decreasing_by exact progress _ _ _ _succeeds

section readAll

variable {α β ε : Type} {read : List α → Except ε (β × List α)}
  (progress : ∀ xs value rest, read xs = .ok (value, rest) → rest.length < xs.length)

theorem readAll_nil : readAll read progress [] = .ok [] := by
  rw [readAll]

theorem readAll_of_error {xs : List α} {e : ε} (nonempty : xs ≠ []) (fails : read xs = .error e) :
    readAll read progress xs = .error e := by
  cases xs with
  | nil => exact absurd rfl nonempty
  | cons x xs =>
    rw [readAll]
    split
    · rename_i e' fails'
      rw [fails] at fails'
      cases fails'
      rfl
    · rename_i succeeds
      rw [fails] at succeeds
      cases succeeds

theorem readAll_of_ok {xs rest : List α} {value : β} (succeeds : read xs = .ok (value, rest)) :
    readAll read progress xs = (readAll read progress rest).map (value :: ·) := by
  have shorter := progress xs value rest succeeds
  cases xs with
  | nil => exact absurd shorter (Nat.not_lt_zero _)
  | cons x xs =>
    rw [readAll]
    split
    · rename_i fails
      rw [succeeds] at fails
      cases fails
    · rename_i value' rest' succeeds'
      rw [succeeds] at succeeds'
      cases succeeds'
      cases readAll read progress rest <;> rfl

theorem readAll_mapError {ε' : Type} {read' : List α → Except ε' (β × List α)} {f : ε → ε'}
    (progress' : ∀ xs value rest, read' xs = .ok (value, rest) → rest.length < xs.length)
    (mapped : ∀ xs, read' xs = (read xs).mapError f) (xs : List α) :
    readAll read' progress' xs = (readAll read progress xs).mapError f := by
  induction length : xs.length using Nat.strongRecOn generalizing xs with
  | ind n ih =>
    subst length
    cases xs with
    | nil => rw [readAll_nil, readAll_nil, mapError_ok]
    | cons x xs =>
      cases first : read (x :: xs) with
      | error e =>
        have first' : read' (x :: xs) = .error (f e) := by rw [mapped, first, mapError_error]
        rw [readAll_of_error progress (List.cons_ne_nil _ _) first,
          readAll_of_error progress' (List.cons_ne_nil _ _) first', mapError_error]
      | ok found =>
        obtain ⟨value, behind⟩ := found
        have first' : read' (x :: xs) = .ok (value, behind) := by rw [mapped, first, mapError_ok]
        rw [readAll_of_ok progress first, readAll_of_ok progress' first',
          ih _ (progress _ _ _ first) behind rfl]
        cases readAll read progress behind <;> rfl

include progress in
/-- Each read uses something up. -/
theorem readTimes_rest_length {n : Nat} {xs rest : List α} {values : List β}
    (read_times : readTimes read n xs = .ok (values, rest)) : rest.length + n ≤ xs.length := by
  induction n generalizing xs values with
  | zero =>
    cases read_times
    exact Nat.le_refl _
  | succ n ih =>
    obtain ⟨value, behind, more, first, others, rfl⟩ := readTimes_succ_eq_ok_iff.mp read_times
    have shorter := progress xs value behind first
    have others_shorter := ih others
    omega

/-- Behind some reads, reading to the end goes on with what they left. -/
theorem readAll_of_readTimes {n : Nat} {xs rest : List α} {values : List β}
    (read_times : readTimes read n xs = .ok (values, rest)) :
    readAll read progress xs = (readAll read progress rest).map (values ++ ·) := by
  induction n generalizing xs values with
  | zero =>
    cases read_times
    cases readAll read progress rest <;> rfl
  | succ n ih =>
    obtain ⟨value, behind, more, first, others, rfl⟩ := readTimes_succ_eq_ok_iff.mp read_times
    rw [readAll_of_ok progress first, ih others]
    cases readAll read progress rest <;> rfl

include progress in
/-- After so many reads nothing is left, or the next one fails. -/
theorem exists_readTimes_stop (xs : List α) :
    ∃ n values rest, readTimes read n xs = .ok (values, rest) ∧
      (rest = [] ∨ ∃ e, rest ≠ [] ∧ read rest = .error e) := by
  -- the induction is on what is left to read, as in `readAll`
  induction length : xs.length using Nat.strongRecOn generalizing xs with
  | ind n ih =>
    subst length
    cases xs with
    | nil => exact ⟨0, [], [], rfl, .inl rfl⟩
    | cons x xs =>
      cases first : read (x :: xs) with
      | error e => exact ⟨0, [], x :: xs, rfl, .inr ⟨e, List.cons_ne_nil _ _, first⟩⟩
      | ok found =>
        obtain ⟨value, behind⟩ := found
        obtain ⟨n, more, rest, others, stop⟩ := ih _ (progress _ _ _ first) behind rfl
        exact ⟨n + 1, value :: more, rest,
          readTimes_succ_eq_ok_iff.mpr ⟨value, behind, more, first, others, rfl⟩, stop⟩

/-- Reading to the end succeeds iff so many reads leave nothing. -/
theorem readAll_eq_ok_iff_readTimes {xs : List α} {values : List β} :
    readAll read progress xs = .ok values ↔
      readTimes read values.length xs = .ok (values, []) := by
  constructor
  · intro read_all
    obtain ⟨n, found, rest, read_times, rfl | ⟨e, nonempty, fails⟩⟩ :=
      exists_readTimes_stop progress xs
    · rw [readAll_of_readTimes progress read_times, readAll_nil] at read_all
      have same : found = values := by simpa [Except.map] using read_all
      rw [← same, readTimes_length read_times]
      exact same ▸ read_times
    · rw [readAll_of_readTimes progress read_times, readAll_of_error progress nonempty fails]
        at read_all
      cases read_all
  · intro read_times
    rw [readAll_of_readTimes progress read_times, readAll_nil]
    exact congrArg Except.ok (List.append_nil values)

/-- Reading to the end fails iff after so many reads something is left and the next read fails. -/
theorem readAll_eq_error_iff_readTimes {xs : List α} {e : ε} :
    readAll read progress xs = .error e ↔
      ∃ n values rest, readTimes read n xs = .ok (values, rest) ∧ rest ≠ [] ∧
        read rest = .error e := by
  constructor
  · intro read_all
    obtain ⟨n, values, rest, read_times, rfl | ⟨e', nonempty, fails⟩⟩ :=
      exists_readTimes_stop progress xs
    · rw [readAll_of_readTimes progress read_times, readAll_nil] at read_all
      cases read_all
    · rw [readAll_of_readTimes progress read_times, readAll_of_error progress nonempty fails]
        at read_all
      cases read_all
      exact ⟨n, values, rest, read_times, nonempty, fails⟩
  · rintro ⟨n, values, rest, read_times, nonempty, fails⟩
    rw [readAll_of_readTimes progress read_times, readAll_of_error progress nonempty fails]
    rfl

end readAll

/-! ### Rows of a family -/

section Rows

variable {α β γ ε : Type} {read : List α → Except ε (β × List α)} {ofMember : γ → β}
  {form : γ → List α}

/-- If each read takes a member of a family off the front, many reads take a row of them. -/
theorem readTimes_eq_ok_iff
    (element : ∀ xs value rest,
      read xs = .ok (value, rest) ↔ ∃ c, value = ofMember c ∧ xs = form c ++ rest)
    {n : Nat} {xs rest : List α} {values : List β} :
    readTimes read n xs = .ok (values, rest) ↔
      ∃ cs : List γ, cs.length = n ∧ values = cs.map ofMember ∧ xs = cs.flatMap form ++ rest := by
  constructor
  · intro read_times
    induction n generalizing xs values with
    | zero =>
      cases read_times
      exact ⟨[], rfl, rfl, rfl⟩
    | succ n ih =>
      obtain ⟨value, behind, more, first, others, rfl⟩ := readTimes_succ_eq_ok_iff.mp read_times
      obtain ⟨c, rfl, rfl⟩ := (element _ _ _).mp first
      obtain ⟨cs, rfl, rfl, rfl⟩ := ih others
      refine ⟨c :: cs, rfl, rfl, ?_⟩
      rw [List.flatMap_cons, List.append_assoc]
  · rintro ⟨cs, rfl, rfl, rfl⟩
    induction cs with
    | nil => rfl
    | cons c cs ih =>
      have first : read (form c ++ (cs.flatMap form ++ rest)) =
          .ok (ofMember c, cs.flatMap form ++ rest) := (element _ _ _).mpr ⟨c, rfl, rfl⟩
      rw [List.flatMap_cons, List.append_assoc]
      exact readTimes_succ_eq_ok_iff.mpr ⟨_, _, _, first, ih, rfl⟩

variable (progress : ∀ xs value rest, read xs = .ok (value, rest) → rest.length < xs.length)
  (element : ∀ xs value rest,
    read xs = .ok (value, rest) ↔ ∃ c, value = ofMember c ∧ xs = form c ++ rest)

include element

/-- Reading to the end takes a row that there is nothing behind. -/
theorem readAll_eq_ok_iff {xs : List α} {values : List β} :
    readAll read progress xs = .ok values ↔
      ∃ cs : List γ, values = cs.map ofMember ∧ xs = cs.flatMap form := by
  rw [readAll_eq_ok_iff_readTimes, readTimes_eq_ok_iff element]
  constructor
  · rintro ⟨cs, -, same, whole⟩
    exact ⟨cs, same, whole.trans (List.append_nil _)⟩
  · rintro ⟨cs, same, whole⟩
    refine ⟨cs, ?_, same, whole.trans (List.append_nil _).symm⟩
    rw [same, List.length_map]

/-- Reading to the end fails iff behind some row something is left that starts with no member. -/
theorem readAll_eq_error_iff {xs : List α} {e : ε} :
    readAll read progress xs = .error e ↔
      ∃ (cs : List γ) (rest : List α), xs = cs.flatMap form ++ rest ∧ rest ≠ [] ∧
        read rest = .error e := by
  rw [readAll_eq_error_iff_readTimes]
  constructor
  · rintro ⟨n, values, rest, read_times, nonempty, fails⟩
    obtain ⟨cs, -, -, whole⟩ := (readTimes_eq_ok_iff element).mp read_times
    exact ⟨cs, rest, whole, nonempty, fails⟩
  · rintro ⟨cs, rest, whole, nonempty, fails⟩
    exact ⟨_, _, rest, (readTimes_eq_ok_iff element).mpr ⟨cs, rfl, rfl, whole⟩, nonempty, fails⟩

end Rows

end DirectivePack
