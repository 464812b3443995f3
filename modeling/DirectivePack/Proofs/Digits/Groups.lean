import DirectivePack.Digits.Radix

/-!
Digit strings are read back, and written again as they were read.

* `Radix.compose_decompose`, `Radix.decompose_compose`: a number and its digits.
* `Radix.toByte_ofByte`, `Radix.ofByte_toByte`: a byte and its group of digits, which zeros fill up.
* `Radix.toBytes_ofBytes`, `Radix.ofBytes_toBytes`: bytes and their digits, in either order.
* `Radix.unpack_of_pack?`: digit characters are read back from the bytes that they were packed to,
  whatever comes behind them.
* `Radix.pack?_of_unpack`: what is read from whole bytes is packed to these bytes.
-/

namespace DirectivePack.Radix

variable (radix : Radix)

/-! ### Numbers and their digits -/

theorem base_pos : 0 < radix.base := by
  apply Nat.pos_of_ne_zero
  intro zero
  have fills := radix.fills
  rw [zero] at fills
  cases digits : radix.perByte with
  | zero => rw [digits] at fills; exact absurd fills (by decide)
  | succ n =>
    rw [digits] at fills
    have : Nat.pow 0 (n + 1) = 0 := Nat.zero_pow (Nat.succ_pos n)
    omega

theorem perByte_pos : 0 < radix.perByte := by
  apply Nat.pos_of_ne_zero
  intro zero
  have fills := radix.fills
  rw [zero] at fills
  exact absurd fills (by simp)

theorem compose_concat (digits : List Nat) (d : Nat) :
    radix.compose (digits ++ [d]) = radix.base * radix.compose digits + d := by
  rw [compose, List.foldl_append, List.foldl_cons, List.foldl_nil, compose]

@[simp] theorem length_decompose (count n : Nat) : (radix.decompose count n).length = count := by
  induction count generalizing n with
  | zero => rfl
  | succ count ih => simp [decompose, ih]

theorem decompose_lt {count n d : Nat} (member : d ∈ radix.decompose count n) :
    d < radix.base := by
  induction count generalizing n with
  | zero => simp [decompose] at member
  | succ count ih =>
    rw [decompose] at member
    rcases List.mem_append.mp member with earlier | last
    · exact ih earlier
    · rw [List.mem_singleton.mp last]
      exact Nat.mod_lt _ radix.base_pos

/-- A number that has no more digits is made of its digits. -/
theorem compose_decompose {count n : Nat} (bound : n < Nat.pow radix.base count) :
    radix.compose (radix.decompose count n) = n := by
  induction count generalizing n with
  | zero =>
    have zero : n = 0 := Nat.lt_one_iff.mp bound
    simp [decompose, compose, zero]
  | succ count ih =>
    have higher : n / radix.base < Nat.pow radix.base count :=
      Nat.div_lt_of_lt_mul (by rwa [Nat.mul_comm])
    rw [decompose, compose_concat, ih higher]
    exact Nat.div_add_mod n radix.base

theorem compose_lt {digits : List Nat} (are_digits : ∀ d ∈ digits, d < radix.base) :
    radix.compose digits < Nat.pow radix.base digits.length := by
  obtain ⟨reversed, rfl⟩ : ∃ reversed, digits = reversed.reverse :=
    ⟨digits.reverse, (List.reverse_reverse _).symm⟩
  -- digits come in at the low end, so the induction is on the digits from there
  induction reversed with
  | nil => exact Nat.one_pos
  | cons d reversed ih =>
    rw [List.reverse_cons] at are_digits ⊢
    have higher := ih fun other member => are_digits other (List.mem_append_left _ member)
    have low : d < radix.base := are_digits d (by simp)
    rw [compose_concat, List.length_append, List.length_singleton]
    calc radix.base * radix.compose reversed.reverse + d
        < radix.base * (radix.compose reversed.reverse + 1) := by rw [Nat.mul_succ]; omega
      _ ≤ radix.base * Nat.pow radix.base reversed.reverse.length :=
          Nat.mul_le_mul_left _ higher
      _ = Nat.pow radix.base (reversed.reverse.length + 1) := Nat.mul_comm ..

/-- Digits are the digits of the number that they make. -/
theorem decompose_compose {digits : List Nat} (are_digits : ∀ d ∈ digits, d < radix.base) :
    radix.decompose digits.length (radix.compose digits) = digits := by
  obtain ⟨reversed, rfl⟩ : ∃ reversed, digits = reversed.reverse :=
    ⟨digits.reverse, (List.reverse_reverse _).symm⟩
  induction reversed with
  | nil => rfl
  | cons d reversed ih =>
    rw [List.reverse_cons] at are_digits ⊢
    have higher := ih fun other member => are_digits other (List.mem_append_left _ member)
    have low : d < radix.base := are_digits d (by simp)
    have quotient : (radix.base * radix.compose reversed.reverse + d) / radix.base =
        radix.compose reversed.reverse := by
      rw [Nat.mul_add_div radix.base_pos, Nat.div_eq_of_lt low, Nat.add_zero]
    have remainder : (radix.base * radix.compose reversed.reverse + d) % radix.base = d := by
      rw [Nat.mul_add_mod, Nat.mod_eq_of_lt low]
    rw [compose_concat, List.length_append, List.length_singleton, decompose, quotient, remainder,
      higher]

/-! ### Bytes and their groups -/

@[simp] theorem length_ofByte (order : DigitOrder) (b : UInt8) :
    (radix.ofByte order b).length = radix.perByte := by
  cases order <;> simp [ofByte, DigitOrder.arrange]

theorem ofByte_lt {order : DigitOrder} {b : UInt8} {d : Nat} (member : d ∈ radix.ofByte order b) :
    d < radix.base := by
  cases order with
  | highFirst => exact radix.decompose_lt member
  | lowFirst => exact radix.decompose_lt (List.mem_reverse.mp member)

theorem toByte_of_full {order : DigitOrder} {group : List Nat}
    (full : group.length = radix.perByte) :
    radix.toByte order group = UInt8.ofNat (radix.compose (order.arrange group)) := by
  rw [toByte, full, Nat.sub_self, List.replicate_zero, List.append_nil]

/-- A byte is made of its digits. -/
theorem toByte_ofByte (order : DigitOrder) (b : UInt8) :
    radix.toByte order (radix.ofByte order b) = b := by
  have bound : b.toNat < Nat.pow radix.base radix.perByte := by
    rw [radix.fills]
    exact b.toNat_lt
  rw [toByte_of_full radix (radix.length_ofByte order b), ofByte, DigitOrder.arrange_arrange,
    compose_decompose radix bound, UInt8.ofNat_toNat]

/-- A group of digits is read back from its byte, with the zeros that stand for what is missing. -/
theorem ofByte_toByte (order : DigitOrder) {group : List Nat}
    (are_digits : ∀ d ∈ group, d < radix.base) (short : group.length ≤ radix.perByte) :
    radix.ofByte order (radix.toByte order group) =
      group ++ List.replicate (radix.perByte - group.length) 0 := by
  rw [toByte]
  generalize filled : group ++ List.replicate (radix.perByte - group.length) 0 = full
  have length : full.length = radix.perByte := by
    rw [← filled, List.length_append, List.length_replicate]
    omega
  have full_digits : ∀ d ∈ order.arrange full, d < radix.base := by
    intro d member
    have member : d ∈ full := by
      cases order with
      | highFirst => exact member
      | lowFirst => exact List.mem_reverse.mp member
    rw [← filled] at member
    rcases List.mem_append.mp member with digit | zero
    · exact are_digits d digit
    · rw [List.eq_of_mem_replicate zero]
      exact radix.base_pos
  have arranged : (order.arrange full).length = radix.perByte := by
    cases order <;> simpa [DigitOrder.arrange] using length
  have byte : radix.compose (order.arrange full) < 256 := by
    have bound := radix.compose_lt full_digits
    rwa [arranged, radix.fills] at bound
  have digits := radix.decompose_compose full_digits
  rw [arranged] at digits
  rw [ofByte, UInt8.toNat_ofNat', Nat.mod_eq_of_lt byte, digits, DigitOrder.arrange_arrange]

/-! ### Bytes and their digits -/

theorem perByte_eq : radix.perByte - 1 + 1 = radix.perByte :=
  Nat.sub_add_cancel radix.perByte_pos

theorem toBytes_append (order : DigitOrder) {group : List Nat}
    (full : group.length = radix.perByte) (digits : List Nat) :
    radix.toBytes order (group ++ digits) =
      radix.toByte order group :: radix.toBytes order digits := by
  rw [toBytes, chunks_append (full.trans radix.perByte_eq.symm), List.map_cons, toBytes]

/-- Bytes are made of their digits. -/
theorem toBytes_ofBytes (order : DigitOrder) (bs : Bytes) :
    radix.toBytes order (radix.ofBytes order bs) = bs := by
  induction bs with
  | nil => simp [ofBytes, toBytes, chunks_nil]
  | cons b bs ih =>
    rw [ofBytes, List.flatMap_cons, toBytes_append radix order (radix.length_ofByte order b),
      toByte_ofByte]
    exact congrArg (b :: ·) ih

theorem length_toBytes (order : DigitOrder) (digits : List Nat) :
    (radix.toBytes order digits).length = radix.byteCount digits.length := by
  rw [toBytes, List.length_map, length_chunks, perByte_eq, byteCount,
    Nat.add_sub_assoc radix.perByte_pos]

/-- The digits of whole bytes take these bytes. -/
theorem byteCount_perByte_mul (n : Nat) : radix.byteCount (radix.perByte * n) = n := by
  have positive := radix.perByte_pos
  rw [byteCount, Nat.add_sub_assoc positive, Nat.mul_add_div positive,
    Nat.div_eq_of_lt (Nat.sub_lt positive Nat.one_pos), Nat.add_zero]

theorem length_ofBytes (order : DigitOrder) (bs : Bytes) :
    (radix.ofBytes order bs).length = radix.perByte * bs.length :=
  length_flatMap_uniform (radix.length_ofByte order) bs

/-- Digits are read back from the bytes that they make, with the zeros that fill the last byte. -/
theorem ofBytes_toBytes (order : DigitOrder) {digits : List Nat}
    (are_digits : ∀ d ∈ digits, d < radix.base) :
    ∃ zeros, radix.ofBytes order (radix.toBytes order digits) =
      digits ++ List.replicate zeros 0 := by
  unfold toBytes ofBytes
  fun_induction chunks (radix.perByte - 1) digits with
  | case1 => exact ⟨0, rfl⟩
  | case2 d digits ih =>
    have in_group : ∀ x ∈ d :: digits.take (radix.perByte - 1), x < radix.base := by
      intro x member
      rcases List.mem_cons.mp member with rfl | member
      · exact are_digits x (by simp)
      · exact are_digits x (.tail _ (List.mem_of_mem_take member))
    have short : (d :: digits.take (radix.perByte - 1)).length ≤ radix.perByte := by
      have := radix.perByte_pos
      rw [List.length_cons, List.length_take]
      omega
    obtain ⟨zeros, behind⟩ := ih fun x member =>
      are_digits x (.tail _ (List.mem_of_mem_drop member))
    rw [List.map_cons, List.flatMap_cons, ofByte_toByte radix order in_group short, behind]
    -- either the first group is full, or there is no second one
    rcases Nat.lt_or_ge digits.length (radix.perByte - 1) with last | full
    · rw [List.take_of_length_le (by omega), List.drop_of_length_le (by omega), List.nil_append,
        List.append_assoc, List.replicate_append_replicate]
      exact ⟨_, rfl⟩
    · have length : (d :: digits.take (radix.perByte - 1)).length = radix.perByte := by
        rw [List.length_cons, List.length_take_of_le full, perByte_eq]
      rw [length, Nat.sub_self, List.replicate_zero, List.append_nil, ← List.append_assoc,
        List.cons_append, List.take_append_drop]
      exact ⟨zeros, rfl⟩

/-! ### Digit characters -/

theorem digitValue?_digitChar : ∀ d < 16, digitValue? (digitChar d) = some d := by
  decide

/-- The characters of the digits, from `0` to `9` and then on with lowercase letters. -/
def characters : Bytes :=
  (List.range radix.base).map digitChar

variable {radix}

/-- A row of written characters is a row of digits. -/
theorem exists_digits {text : Bytes} (are_written : ∀ c ∈ text, c ∈ radix.characters) :
    ∃ digits : List Nat, (∀ d ∈ digits, d < radix.base) ∧ text = digits.map digitChar := by
  induction text with
  | nil => exact ⟨[], by simp, rfl⟩
  | cons c text ih =>
    obtain ⟨digits, are_digits, rfl⟩ := ih fun other member => are_written other (.tail _ member)
    obtain ⟨d, small, rfl⟩ := List.mem_map.mp (are_written c (.head _))
    refine ⟨d :: digits, ?_, rfl⟩
    intro x member
    rcases List.mem_cons.mp member with rfl | member
    · exact List.mem_range.mp small
    · exact are_digits x member

theorem value?_digitChar (legible : radix.base ≤ 16) {d : Nat} (small : d < radix.base) :
    radix.value? (digitChar d) = some d := by
  rw [value?, digitValue?_digitChar d (Nat.lt_of_lt_of_le small legible)]
  exact if_pos small

/-- Written characters have the values of their digits. -/
theorem values_map_digitChar (legible : radix.base ≤ 16) {digits : List Nat}
    (are_digits : ∀ d ∈ digits, d < radix.base) :
    radix.values (digits.map digitChar) = .ok digits := by
  induction digits with
  | nil => rfl
  | cons d digits ih =>
    rw [List.map_cons, values, value?_digitChar legible (are_digits d (.head _)),
      ih fun other member => are_digits other (.tail _ member)]

/-! ### Packing and unpacking -/

theorem length_of_values {text : Bytes} {digits : List Nat}
    (values_of : radix.values text = .ok digits) : digits.length = text.length := by
  induction text generalizing digits with
  | nil =>
    cases values_of
    rfl
  | cons c text ih =>
    rw [values] at values_of
    cases value : radix.value? c with
    | none => simp [value] at values_of
    | some d =>
      cases others : radix.values text with
      | error bad => simp [value, others] at values_of
      | ok more =>
        simp only [value, others, Except.ok.injEq] at values_of
        rw [← values_of, List.length_cons, List.length_cons, ih others]

/-- As many digits as are asked for are packed, however many characters there are. -/
theorem length_of_pack? {order : DigitOrder} {count : Nat} {text bs : Bytes}
    (packed : radix.pack? order count text = .ok bs) : bs.length = radix.byteCount count := by
  rw [pack?] at packed
  cases values_of : radix.values (text.take count) with
  | error bad => simp [values_of] at packed
  | ok digits =>
    simp only [values_of, Except.ok.injEq] at packed
    have written := length_of_values values_of
    have filled : (digits ++ List.replicate (count - text.length) 0).length = count := by
      rw [List.length_append, List.length_replicate, written, List.length_take]
      omega
    rw [← packed, length_toBytes, filled]

/-- As many written characters as are asked for make the bytes of their digits. -/
theorem pack?_map_digitChar (legible : radix.base ≤ 16) (order : DigitOrder) {digits : List Nat}
    (are_digits : ∀ d ∈ digits, d < radix.base) :
    radix.pack? order digits.length (digits.map digitChar) = .ok (radix.toBytes order digits) := by
  have length : (digits.map digitChar).length = digits.length := List.length_map _
  simp only [pack?, List.take_of_length_le (Nat.le_of_eq length),
    values_map_digitChar legible are_digits, length, Nat.sub_self, List.replicate_zero,
    List.append_nil]

/-- **Digit characters are read back** from the bytes that they were packed to, whatever comes
behind them. -/
theorem unpack_of_pack? (legible : radix.base ≤ 16) (order : DigitOrder) {text : Bytes}
    (are_written : ∀ c ∈ text, c ∈ radix.characters) :
    ∃ bs, radix.pack? order text.length text = .ok bs ∧
      ∀ rest, radix.unpack order text.length (bs ++ rest) = (text, rest) := by
  obtain ⟨digits, are_digits, rfl⟩ := exists_digits are_written
  rw [List.length_map]
  refine ⟨radix.toBytes order digits, pack?_map_digitChar legible order are_digits, ?_⟩
  intro rest
  have size : (radix.toBytes order digits).length = radix.byteCount digits.length :=
    radix.length_toBytes order digits
  obtain ⟨zeros, digits_back⟩ := radix.ofBytes_toBytes order are_digits
  rw [unpack, List.take_left' size, List.drop_left' size, digits_back, List.take_left' rfl]

theorem ofBytes_lt {order : DigitOrder} {bs : Bytes} {d : Nat}
    (member : d ∈ radix.ofBytes order bs) : d < radix.base := by
  obtain ⟨b, -, member⟩ := List.mem_flatMap.mp member
  exact radix.ofByte_lt member

/-- **What is read from whole bytes is packed to these bytes.** -/
theorem pack?_of_unpack (legible : radix.base ≤ 16) (order : DigitOrder) {count : Nat} {bs : Bytes}
    (whole : count % radix.perByte = 0) (full : radix.byteCount count ≤ bs.length) :
    ∃ field, bs = field ++ (radix.unpack order count bs).2 ∧
      radix.pack? order count (radix.unpack order count bs).1 = .ok field := by
  have field_digits : (radix.ofBytes order (bs.take (radix.byteCount count))).length = count := by
    obtain ⟨bytes, rfl⟩ := Nat.dvd_of_mod_eq_zero whole
    rw [length_ofBytes, List.length_take_of_le full, byteCount_perByte_mul]
  refine ⟨bs.take (radix.byteCount count), (List.take_append_drop ..).symm, ?_⟩
  have are_digits : ∀ d ∈ radix.ofBytes order (bs.take (radix.byteCount count)),
      d < radix.base := fun _ => ofBytes_lt
  have packed := pack?_map_digitChar legible order are_digits
  rw [field_digits, toBytes_ofBytes] at packed
  rwa [unpack, List.take_of_length_le (Nat.le_of_eq field_digits)]

/-- What is read from all bytes is packed to these bytes. -/
theorem pack?_unpack_all (legible : radix.base ≤ 16) (order : DigitOrder) (bs : Bytes) :
    radix.pack? order (radix.perByte * bs.length)
      (radix.unpack order (radix.perByte * bs.length) bs).1 = .ok bs := by
  have groups := radix.byteCount_perByte_mul bs.length
  obtain ⟨field, split, packed⟩ := pack?_of_unpack legible order (Nat.mul_mod_right ..)
    (Nat.le_of_eq groups)
  have none_left : (radix.unpack order (radix.perByte * bs.length) bs).2 = [] := by
    rw [unpack, groups]
    exact List.drop_length
  rw [none_left, List.append_nil] at split
  rwa [← split] at packed

end DirectivePack.Radix
