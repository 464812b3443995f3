import DirectivePack.Field.Raw

/-!
Byte strings in padded and in terminated fields.

* `trim_putField`: a value that its style can tell from padding is read back from its field.
* `getField_putField_append`, `getAll_putAll_append`: and its field ends where it was written to,
  whatever comes behind it.
* `putField_take`: bytes that fill a field are written again as they stand.
* `standsFor_trim`, `StandsFor.eq_trim`: the value that reading gives, said without the way in which
  it is found.
* `trim_putField_eq_trim_kept`, `StandsFor.shows`: any value comes back as what its field keeps and
  shows of it, and that is shown again.
-/

namespace DirectivePack.RawStyle

/-- The values that a field of `width` bytes holds and shows again: those that fill it where nothing
is taken off, and where something is, those that have nothing to take off. -/
def Shows : RawStyle → Nat → Bytes → Prop
  | .nullPadded, width, bs => bs.length = width
  | .spacePadded, width, bs =>
    bs.length ≤ width ∧ ∀ last, bs.getLast? = some last → last ≠ 0x20 ∧ last ≠ 0x00
  | .nullTerminated, width, bs => bs.length ≤ width ∧ 0x00 ∉ bs

theorem Shows.length_le {style : RawStyle} {width : Nat} {bs : Bytes}
    (shows_value : style.Shows width bs) : bs.length ≤ width := by
  cases style with
  | nullPadded => exact Nat.le_of_eq shows_value
  | spacePadded => exact shows_value.1
  | nullTerminated => exact shows_value.1

/-! ### Fields -/

@[simp] theorem length_putField (style : RawStyle) (width : Nat) (bs : Bytes) :
    (style.putField width bs).length = width := by
  simp only [putField, List.length_append, List.length_take, List.length_replicate]
  omega

theorem putField_of_length_le (style : RawStyle) {width : Nat} {bs : Bytes}
    (short : bs.length ≤ width) :
    style.putField width bs = bs ++ List.replicate (width - bs.length) style.padByte := by
  rw [putField, List.take_of_length_le short]

/-- Only the value is taken off again: the field ends where it was written to. -/
theorem getField_putField_append (style : RawStyle) (width : Nat) (bs rest : Bytes) :
    style.getField width (style.putField width bs ++ rest) =
      (style.trim (style.putField width bs), rest) := by
  have length := length_putField style width bs
  rw [getField, List.take_left' length, List.drop_left' length]

/-- Bytes that fill a field are written again as they stand. -/
theorem putField_take (style : RawStyle) {width : Nat} {bs : Bytes} (full : width ≤ bs.length) :
    style.putField width (bs.take width) = bs.take width := by
  have length : (bs.take width).length = width := List.length_take_of_le full
  rw [putField_of_length_le style (by omega), length, Nat.sub_self, List.replicate_zero,
    List.append_nil]

/-! ### What reading takes off -/

/-- The bytes that the space-padded style takes off at the end. -/
theorem stripTrailing_append {bs blanks : Bytes} (are_blank : ∀ b ∈ blanks, b = 0x20 ∨ b = 0x00) :
    stripTrailing (bs ++ blanks) = stripTrailing bs := by
  have all_blank : ∀ b ∈ blanks.reverse, (b == 0x20 || b == 0x00) = true := by
    intro b member
    simpa using are_blank b (List.mem_reverse.mp member)
  rw [stripTrailing, List.reverse_append, List.dropWhile_append_of_pos all_blank, stripTrailing]

theorem stripTrailing_eq_self {bs : Bytes}
    (last_shows : ∀ last, bs.getLast? = some last → last ≠ 0x20 ∧ last ≠ 0x00) :
    stripTrailing bs = bs := by
  rw [stripTrailing]
  cases reversed : bs.reverse with
  | nil => simpa using reversed.symm
  | cons last front =>
    have whole : bs = front.reverse ++ [last] := by
      rw [← List.reverse_reverse bs, reversed, List.reverse_cons]
    have shows_last := last_shows last (by rw [whole, List.getLast?_concat])
    rw [List.dropWhile_cons_of_neg (by simp [shows_last]), List.reverse_cons, ← whole]

theorem ne_terminator {bs : Bytes} (free : 0x00 ∉ bs) : ∀ b ∈ bs, (b != 0x00) = true := by
  intro b member
  have : b ≠ 0x00 := fun zero => free (zero ▸ member)
  simpa using this

theorem takeWhile_ne_append {bs behind : Bytes} (free : 0x00 ∉ bs)
    (ends : behind = [] ∨ behind.head? = some 0x00) :
    (bs ++ behind).takeWhile (· != 0x00) = bs := by
  rw [List.takeWhile_append_of_pos (ne_terminator free)]
  rcases ends with rfl | head
  · simp
  · obtain ⟨more, rfl⟩ := List.head?_eq_some_iff.mp head
    simp

/-- **Padded fields.** A value that its style can tell from padding is read back from its field. -/
theorem trim_putField {style : RawStyle} {width : Nat} {bs : Bytes}
    (shows_value : style.Shows width bs) : style.trim (style.putField width bs) = bs := by
  rw [putField_of_length_le style shows_value.length_le]
  cases style with
  | nullPadded =>
    have filled : width - bs.length = 0 := by
      have : bs.length = width := shows_value
      omega
    simp [trim, filled]
  | spacePadded =>
    have blanks : ∀ b ∈ List.replicate (width - bs.length) (padByte .spacePadded),
        b = 0x20 ∨ b = 0x00 := by
      intro b member
      exact .inl (List.eq_of_mem_replicate member)
    rw [trim, stripTrailing_append blanks, stripTrailing_eq_self shows_value.2]
  | nullTerminated =>
    apply takeWhile_ne_append shows_value.2
    cases width - bs.length with
    | zero => exact .inl rfl
    | succ n => exact .inr rfl

/-! ### What is left of a value -/

/-- The value that bytes stand for: all of them where nothing is taken off, or else what is in front
of the spaces and NULs at their end, or their longest part from the front on that is free of NUL. -/
def StandsFor : RawStyle → Bytes → Bytes → Prop
  | .nullPadded, bs, value => value = bs
  | .spacePadded, bs, value =>
    (∃ blanks, bs = value ++ blanks ∧ ∀ b ∈ blanks, b = 0x20 ∨ b = 0x00) ∧
      ∀ last, value.getLast? = some last → last ≠ 0x20 ∧ last ≠ 0x00
  | .nullTerminated, bs, value =>
    value <+: bs ∧ 0x00 ∉ value ∧ ∀ other, other <+: bs → 0x00 ∉ other → other <+: value

/-- What a field of `width` bytes keeps of a value: its first bytes, with the NULs behind a short
one where nothing is taken off. -/
def kept : RawStyle → Nat → Bytes → Bytes
  | .nullPadded, width, bs => bs.take width ++ List.replicate (width - bs.length) 0x00
  | .spacePadded, width, bs => bs.take width
  | .nullTerminated, width, bs => bs.take width

theorem length_kept_le (style : RawStyle) (width : Nat) (bs : Bytes) :
    (style.kept width bs).length ≤ width := by
  cases style with
  | nullPadded =>
    rw [kept, List.length_append, List.length_take, List.length_replicate]
    omega
  | spacePadded | nullTerminated => exact List.length_take_le ..

/-- Only blanks are taken off. -/
theorem exists_stripTrailing_append (bs : Bytes) :
    ∃ blanks, bs = stripTrailing bs ++ blanks ∧ ∀ b ∈ blanks, b = 0x20 ∨ b = 0x00 := by
  refine ⟨(bs.reverse.takeWhile fun b => b == 0x20 || b == 0x00).reverse, ?_, ?_⟩
  · rw [stripTrailing, ← List.reverse_append, List.takeWhile_append_dropWhile, List.reverse_reverse]
  · intro b member
    have blank := List.all_eq_true.mp List.all_takeWhile b (List.mem_reverse.mp member)
    simpa using blank

/-- All blanks at the end are taken off. -/
theorem getLast?_stripTrailing {bs : Bytes} {last : UInt8}
    (is_last : (stripTrailing bs).getLast? = some last) : last ≠ 0x20 ∧ last ≠ 0x00 := by
  have shows_last := List.head?_dropWhile_not (fun b => b == 0x20 || b == 0x00) bs.reverse
  rw [stripTrailing, List.getLast?_reverse] at is_last
  rw [is_last] at shows_last
  simpa using shows_last

theorem standsFor_trim (style : RawStyle) (bs : Bytes) : style.StandsFor bs (style.trim bs) := by
  cases style with
  | nullPadded => rfl
  | spacePadded => exact ⟨exists_stripTrailing_append bs, fun _ => getLast?_stripTrailing⟩
  | nullTerminated =>
    refine ⟨List.takeWhile_prefix _, ?_, ?_⟩
    · intro member
      have differs := List.all_eq_true.mp List.all_takeWhile _ member
      exact absurd differs (by decide)
    · rintro other ⟨behind, rfl⟩ free
      rw [trim, List.takeWhile_append_of_pos (ne_terminator free)]
      exact List.prefix_append ..

/-- Bytes stand for a single value. -/
theorem StandsFor.eq_trim {style : RawStyle} {bs value : Bytes}
    (stands : style.StandsFor bs value) : value = style.trim bs := by
  cases style with
  | nullPadded => exact stands
  | spacePadded =>
    obtain ⟨⟨blanks, rfl, are_blank⟩, shows_last⟩ := stands
    rw [trim, stripTrailing_append are_blank, stripTrailing_eq_self shows_last]
  | nullTerminated =>
    obtain ⟨front, free, greatest⟩ := stands
    obtain ⟨front_taken, free_taken, greatest_taken⟩ := standsFor_trim .nullTerminated bs
    -- each of the two is a part of the other
    have shorter := (greatest_taken value front free).length_le
    exact (greatest _ front_taken free_taken).eq_of_length_le shorter |>.symm

/-- Padding does not count, where it is taken off. -/
theorem trim_putField_eq_trim_kept (style : RawStyle) (width : Nat) (bs : Bytes) :
    style.trim (style.putField width bs) = style.trim (style.kept width bs) := by
  cases style with
  | nullPadded => rfl
  | spacePadded =>
    have blanks : ∀ b ∈ List.replicate (width - bs.length) (padByte .spacePadded),
        b = 0x20 ∨ b = 0x00 := by
      intro b member
      exact .inl (List.eq_of_mem_replicate member)
    exact stripTrailing_append blanks
  | nullTerminated =>
    have ends : (List.replicate (width - bs.length) (padByte .nullTerminated)).takeWhile
        (· != 0x00) = [] := by
      cases width - bs.length with
      | zero => rfl
      | succ n => rfl
    rw [trim, putField, List.takeWhile_append, ends, List.append_nil]
    split
    · rename_i uncut
      exact ((List.takeWhile_prefix _).eq_of_length uncut).symm
    · rfl

/-- What a field keeps of a value and shows is a value that the field shows again. -/
theorem StandsFor.shows {style : RawStyle} {width : Nat} {bs value : Bytes}
    (stands : style.StandsFor (style.kept width bs) value) : style.Shows width value := by
  have short := length_kept_le style width bs
  cases style with
  | nullPadded =>
    have same : value = kept .nullPadded width bs := stands
    rw [Shows, same, kept, List.length_append, List.length_take, List.length_replicate]
    omega
  | spacePadded =>
    obtain ⟨⟨blanks, whole, -⟩, shows_last⟩ := stands
    rw [whole, List.length_append] at short
    exact ⟨by omega, shows_last⟩
  | nullTerminated =>
    obtain ⟨front, free, -⟩ := stands
    exact ⟨Nat.le_trans front.length_le short, free⟩

/-! ### Terminated values -/

/-- A terminated value ends at its terminator, whatever comes behind it. -/
theorem getAll_putAll_append {bs : Bytes} (free : 0x00 ∉ bs) (rest : Bytes) :
    nullTerminated.getAll (nullTerminated.putAll bs ++ rest) = (bs, rest) := by
  have split : nullTerminated.putAll bs ++ rest = bs ++ 0x00 :: rest := by
    simp [putAll]
  rw [split, getAll, takeWhile_ne_append free (.inr rfl),
    List.dropWhile_append_of_pos (ne_terminator free)]
  simp

/-- A terminated value is what is in front of the first NUL, or all there is. -/
theorem getAll_cases (bs : Bytes) :
    ∃ value rest, nullTerminated.getAll bs = (value, rest) ∧ 0x00 ∉ value ∧
      (bs = value ++ 0x00 :: rest ∨ bs = value ∧ rest = []) := by
  by_cases ended : 0x00 ∈ bs
  · obtain ⟨value, rest, rfl, free⟩ := List.eq_append_cons_of_mem ended
    have read := getAll_putAll_append free rest
    rw [putAll, List.append_assoc, List.singleton_append] at read
    exact ⟨value, rest, read, free, .inl rfl⟩
  · have taken := takeWhile_ne_append ended (.inl rfl)
    have left : (bs ++ []).dropWhile (· != 0x00) = [] :=
      List.dropWhile_append_of_pos (ne_terminator ended)
    rw [List.append_nil] at taken left
    exact ⟨bs, [], by rw [getAll, taken, left]; rfl, ended, .inr ⟨rfl, rfl⟩⟩

end DirectivePack.RawStyle
