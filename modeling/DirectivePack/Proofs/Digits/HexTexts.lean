import DirectivePack.Proofs.Digits.HexAndBits
import DirectivePack.Proofs.Text.Characters
import DirectivePack.Proofs.Text.Numerals

/-!
Hexadecimal text: two digits to a byte, in either case.

* `decodePairs_eq_ok_iff`: pairs of digits are decoded to the bytes with these nibbles.
* `map_digitValue?_encode_iff`: the digits of a text are those of its bytes, since a character that
  takes several of them starts with one that is no digit.
* `Hex.decode_encode_eq_ok_iff`: a text is decoded to the bytes of which it has the digits.
* `Hex.exists_hexDigits_iff`: there are such bytes iff it is an even number of digits.
* `Hex.decode_encode`, `hexDigits_injective`: what is written for bytes is read as them again.
-/

namespace DirectivePack

/-- Two lowercase digits for each byte, the high one first. -/
def hexDigits (bs : Bytes) : List Char :=
  bs.flatMap fun b => [Nat.digitChar (b.toNat / 16), Nat.digitChar (b.toNat % 16)]

/-! ### Nibbles -/

namespace Hex

/-- The nibbles of bytes, the high one first. -/
def nibbles (bs : Bytes) : List Nat :=
  Radix.hex.ofBytes .highFirst bs

theorem nibbles_cons (b : UInt8) (bs : Bytes) :
    nibbles (b :: bs) = b.toNat / 16 :: b.toNat % 16 :: nibbles bs := by
  have := b.toNat_lt
  have high : b.toNat / 16 % 16 = b.toNat / 16 := Nat.mod_eq_of_lt (by omega)
  exact congrArg (· :: b.toNat % 16 :: nibbles bs) high

theorem nibbles_lt {bs : Bytes} : ∀ n ∈ nibbles bs, n < 16 :=
  fun _ => Radix.hex.ofBytes_lt

theorem length_nibbles (bs : Bytes) : (nibbles bs).length = 2 * bs.length :=
  Radix.hex.length_ofBytes .highFirst bs

theorem map_digitChar_nibbles (bs : Bytes) : (nibbles bs).map Nat.digitChar = hexDigits bs := by
  induction bs with
  | nil => rfl
  | cons b bs ih =>
    rw [nibbles_cons, List.map_cons, List.map_cons, ih]
    rfl

/-- A byte is made of its nibbles. -/
theorem ofNat_eq_iff {high low : Nat} (high_lt : high < 16) (low_lt : low < 16) {x : UInt8} :
    UInt8.ofNat (16 * high + low) = x ↔ x.toNat / 16 = high ∧ x.toNat % 16 = low := by
  rw [← UInt8.toNat_inj, UInt8.toNat_ofNat', Nat.mod_eq_of_lt (by omega)]
  omega

end Hex

theorem digitValue?_lt {b : UInt8} {d : Nat} (value : digitValue? b = some d) : d < 16 :=
  (digitChar_of_digitValue? value).1

/-! ### Bytes of digits -/

namespace Hex

theorem decodePairs_cons_cons_eq_ok_iff {position : Nat} {a b : UInt8} {rest bs : Bytes} :
    decodePairs position (a :: b :: rest) = .ok bs ↔
      ∃ high low more, digitValue? a = some high ∧ digitValue? b = some low ∧
        decodePairs (position + 2) rest = .ok more ∧ bs = UInt8.ofNat (16 * high + low) :: more := by
  cases first : digitValue? a with
  | none => simp [decodePairs, first]
  | some high =>
    cases second : digitValue? b with
    | none => simp [decodePairs, first, second]
    | some low =>
      cases others : decodePairs (position + 2) rest <;>
        simp [decodePairs, first, second, others, eq_comm]

theorem decodePairs_eq_ok_iff : ∀ {position : Nat} {text bs : Bytes}, text.length % 2 = 0 →
    (decodePairs position text = .ok bs ↔ text.map digitValue? = (nibbles bs).map some)
  | position, [], bs, _ => by
    cases bs with
    | nil => exact ⟨fun _ => rfl, fun _ => rfl⟩
    | cons x more => simp [decodePairs, nibbles_cons]
  | position, [a], bs, odd => by cases odd
  | position, a :: b :: rest, bs, even => by
    have shorter : rest.length % 2 = 0 := by
      rw [List.length_cons, List.length_cons] at even
      omega
    rw [decodePairs_cons_cons_eq_ok_iff]
    constructor
    · rintro ⟨high, low, more, first, second, others, rfl⟩
      obtain ⟨is_high, is_low⟩ := (ofNat_eq_iff (digitValue?_lt first) (digitValue?_lt second)).mp rfl
      rw [nibbles_cons, is_high, is_low, List.map_cons, List.map_cons, List.map_cons, List.map_cons,
        first, second, (decodePairs_eq_ok_iff shorter).mp others]
    · intro same
      cases bs with
      | nil => cases same
      | cons x more =>
        simp only [nibbles_cons, List.map_cons, List.cons.injEq] at same
        obtain ⟨first, second, others⟩ := same
        exact ⟨_, _, more, first, second, (decodePairs_eq_ok_iff shorter).mpr others,
          congrArg (· :: more) ((ofNat_eq_iff (digitValue?_lt first) (digitValue?_lt second)).mpr
            ⟨rfl, rfl⟩).symm⟩

/-- Bytes are decoded iff they are digits, to the bytes with these nibbles. -/
theorem decode_eq_ok_iff {text bs : Bytes} :
    decode text = .ok bs ↔ text.map digitValue? = (nibbles bs).map some := by
  rw [decode]
  split
  · rename_i odd
    simp only [reduceCtorEq, false_iff]
    intro same
    have lengths := congrArg List.length same
    rw [List.length_map, List.length_map, length_nibbles] at lengths
    omega
  · rename_i not_odd
    exact decodePairs_eq_ok_iff (by omega)

end Hex

/-! ### Characters -/

theorem digitBelow?_of_ascii {c : Char} (ascii : c.toNat < 0x80) :
    digitBelow? 16 c = digitValue? (UInt8.ofNat c.toNat) := by
  rw [digitBelow?, if_pos ascii]
  cases value : digitValue? (UInt8.ofNat c.toNat) with
  | none => rfl
  | some d => exact if_pos (digitValue?_lt value)

theorem digitValue?_of_wide {b : UInt8} (wide : 0x80 ≤ b.toNat) : digitValue? b = none := by
  unfold digitValue?
  grind

/-- A character that takes several bytes starts with one that is no digit. -/
theorem exists_encodeChar_of_wide {c : Char} (wide : ¬ c.toNat < 0x80) :
    ∃ lead tail, Utf8.encodeChar c = lead :: tail ∧ digitValue? lead = none := by
  have scalar := isScalar_toNat c
  unfold IsScalar at scalar
  simp only [Utf8.encodeChar, if_neg wide]
  split
  · refine ⟨_, _, rfl, digitValue?_of_wide ?_⟩
    rw [Utf8.toNat_ofNat_of_lt (by omega)]
    omega
  · split
    · refine ⟨_, _, rfl, digitValue?_of_wide ?_⟩
      rw [Utf8.toNat_ofNat_of_lt (by omega)]
      omega
    · refine ⟨_, _, rfl, digitValue?_of_wide ?_⟩
      rw [Utf8.toNat_ofNat_of_lt (by omega)]
      omega

/-- The digits of a text are those of its bytes. -/
theorem map_digitValue?_encode_iff {text : List Char} {digits : List Nat} :
    (Utf8.encode (String.ofList text)).map digitValue? = digits.map some ↔
      text.map (digitBelow? 16) = digits.map some := by
  rw [Utf8.encode, String.toList_ofList]
  induction text generalizing digits with
  | nil => rfl
  | cons c text ih =>
    rw [List.flatMap_cons, List.map_append, List.map_cons]
    by_cases ascii : c.toNat < 0x80
    · have single : Utf8.encodeChar c = [UInt8.ofNat c.toNat] := if_pos ascii
      rw [single, List.map_singleton, List.singleton_append, digitBelow?_of_ascii ascii]
      cases digits with
      | nil => simp
      | cons d digits => simp only [List.map_cons, List.cons.injEq, ih]
    · obtain ⟨lead, tail, encoded, no_digit⟩ := exists_encodeChar_of_wide ascii
      have not_digit : digitBelow? 16 c = none := if_neg ascii
      rw [encoded, List.map_cons, no_digit, not_digit]
      cases digits <;> simp

theorem map_digitBelow?_iff {text : List Char} {digits : List Nat} (small : ∀ d ∈ digits, d < 16) :
    text.map (digitBelow? 16) = digits.map some ↔
      text.map Char.toLower = digits.map Nat.digitChar := by
  induction text generalizing digits with
  | nil => cases digits <;> simp
  | cons c text ih =>
    cases digits with
    | nil => simp
    | cons d digits =>
      obtain ⟨first, others⟩ := List.forall_mem_cons.mp small
      simp only [List.map_cons, List.cons.injEq, ih others, digitBelow?_eq_some_iff (Nat.le_refl 16),
        first, true_and]

namespace Hex

/-- **Hexadecimal text** is decoded to the bytes of which it has the digits, in either case. -/
theorem decode_encode_eq_ok_iff {text : List Char} {bs : Bytes} :
    decode (Utf8.encode (String.ofList text)) = .ok bs ↔ text.map Char.toLower = hexDigits bs := by
  rw [decode_eq_ok_iff, map_digitValue?_encode_iff, map_digitBelow?_iff nibbles_lt,
    map_digitChar_nibbles]

theorem exists_hexDigits : ∀ {text : List Char}, text.length % 2 = 0 →
    (∀ c ∈ text, ∃ d < 16, c.toLower = Nat.digitChar d) →
    ∃ bs, text.map Char.toLower = hexDigits bs
  | [], _, _ => ⟨[], rfl⟩
  | [c], odd, _ => by cases odd
  | c :: c' :: rest, even, digits => by
    have shorter : rest.length % 2 = 0 := by
      rw [List.length_cons, List.length_cons] at even
      omega
    obtain ⟨⟨high, high_lt, is_high⟩, ⟨low, low_lt, is_low⟩, others⟩ := by
      simpa only [List.forall_mem_cons] using digits
    obtain ⟨bs, same⟩ := exists_hexDigits shorter others
    obtain ⟨high_nibble, low_nibble⟩ := (ofNat_eq_iff high_lt low_lt).mp rfl
    refine ⟨UInt8.ofNat (16 * high + low) :: bs, ?_⟩
    rw [← map_digitChar_nibbles, nibbles_cons, high_nibble, low_nibble, List.map_cons, List.map_cons,
      List.map_cons, List.map_cons, is_high, is_low, same, map_digitChar_nibbles]

theorem exists_hexDigits_iff {text : List Char} :
    (∃ bs, text.map Char.toLower = hexDigits bs) ↔
      text.length % 2 = 0 ∧ ∀ c ∈ text, ∃ d < 16, c.toLower = Nat.digitChar d := by
  constructor
  · rintro ⟨bs, same⟩
    rw [← map_digitChar_nibbles] at same
    constructor
    · have lengths := congrArg List.length same
      rw [List.length_map, List.length_map, length_nibbles] at lengths
      omega
    · intro c member
      have digit := List.mem_map_of_mem (f := Char.toLower) member
      rw [same] at digit
      obtain ⟨d, nibble, is_digit⟩ := List.mem_map.mp digit
      exact ⟨d, nibbles_lt d nibble, is_digit.symm⟩
  · rintro ⟨even, digits⟩
    exact exists_hexDigits even digits

/-! ### Digits that are written -/

theorem encodeChar_digitChar : ∀ d < 16, Utf8.encodeChar (Nat.digitChar d) = [digitChar d] := by
  decide

/-- What is written for bytes is the text of their digits. -/
theorem encode_eq_encode_hexDigits (bs : Bytes) :
    encode bs = Utf8.encode (String.ofList (hexDigits bs)) := by
  have each : (nibbles bs).map (fun d => Utf8.encodeChar (Nat.digitChar d)) =
      (nibbles bs).map fun d => [digitChar d] :=
    List.map_congr_left fun d nibble => encodeChar_digitChar d (nibbles_lt d nibble)
  rw [Utf8.encode, String.toList_ofList, ← map_digitChar_nibbles, List.flatMap_map,
    List.flatMap_def, each, ← List.flatMap_def, ← List.map_eq_flatMap]
  rfl

theorem decode_encode (bs : Bytes) : decode (encode bs) = .ok bs := by
  rw [decode_eq_ok_iff]
  have back : ∀ d ∈ nibbles bs, digitValue? (digitChar d) = some d :=
    fun d nibble => Radix.digitValue?_digitChar d (nibbles_lt d nibble)
  calc (encode bs).map digitValue? = (nibbles bs).map fun d => digitValue? (digitChar d) :=
      List.map_map
    _ = (nibbles bs).map some := List.map_congr_left back

theorem decode_hexDigits (bs : Bytes) :
    decode (Utf8.encode (String.ofList (hexDigits bs))) = .ok bs := by
  rw [← encode_eq_encode_hexDigits, decode_encode]

end Hex

/-- The digits are lowercase. -/
theorem map_toLower_hexDigits (bs : Bytes) : (hexDigits bs).map Char.toLower = hexDigits bs :=
  Hex.decode_encode_eq_ok_iff.mp (Hex.decode_hexDigits bs)

theorem hexDigits_injective : Function.Injective hexDigits := by
  intro bs other same
  have read := Hex.decode_hexDigits bs
  rw [same, Hex.decode_hexDigits] at read
  exact (Except.ok.inj read).symm

end DirectivePack
