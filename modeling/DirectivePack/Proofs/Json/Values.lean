import DirectivePack.Json.Encoding
import DirectivePack.Proofs.Command.Arguments
import DirectivePack.Proofs.Text.WellFormed

/-!
Which values a JSON document can stand for.

An integer is a number or, beyond the 64-bit words, a string; bytes are a string or, if they are no
text, an object with their digits.  Only strings are shared: the text of an integer beyond the words
may also be meant as bytes.

* `Json.Shows`: the integer or the bytes that a document shows.
* `Json.Shows.unique`: among the integers, and among the bytes, it shows no others.
* `toJson_integer_eq_toJson_bytes_iff`: the documents that integers and bytes share.
* `json_shared_only_as_decimal_text`: which values have one document.
-/

namespace DirectivePack

/-! ### Integers -/

/-- An integer beyond the 64-bit words, signed and unsigned. -/
def BeyondWords (n : Int) : Prop :=
  n < -(2 ^ 63) ∨ 2 ^ 64 - 1 < n

theorem fits_eight_iff {n : Int} : Field.fits 8 n = true ↔ ¬ BeyondWords n := by
  have range : Field.integerRange 8 = (-(2 ^ 63), 2 ^ 64 - 1) := rfl
  rw [Field.fits, range, BeyondWords, Bool.and_eq_true, decide_eq_true_eq, decide_eq_true_eq]
  omega

theorem toJson_of_word {n : Int} (word : ¬ BeyondWords n) :
    (Value.integer n).toJson = .integer n :=
  if_pos (fits_eight_iff.mpr word)

theorem toJson_of_beyondWords {n : Int} (beyond : BeyondWords n) :
    (Value.integer n).toJson = .string (toString n) :=
  if_neg fun fits => fits_eight_iff.mp fits beyond

/-! ### Bytes -/

theorem Hex.text_eq (bs : Bytes) : Hex.text bs = String.ofList (hexDigits bs) := by
  have written : encode bs = (nibbles bs).map digitChar := rfl
  have digit : ∀ d < 16, Char.ofNat (digitChar d).toNat = Nat.digitChar d := by decide
  rw [text, written, List.map_map, ← map_digitChar_nibbles]
  exact congrArg String.ofList (List.map_congr_left fun d nibble => digit d (nibbles_lt d nibble))

theorem toJson_bytes_eq_string_iff {bs : Bytes} {text : String} :
    (Value.bytes bs).toJson = .string text ↔ bs = Utf8.encode text := by
  rw [← Utf8.decode?_eq_some_iff, Value.toJson]
  cases Utf8.decode? bs <;> simp

theorem toJson_of_not_wellFormed {bs : Bytes} (ill : ¬ Utf8.WellFormed bs) :
    (Value.bytes bs).toJson = .object [("hex", .string (String.ofList (hexDigits bs)))] := by
  rw [Value.toJson, Utf8.decode?_eq_none_iff.mpr ill, Hex.text_eq]

/-! ### What documents show -/

/-- The integers and the bytes that a document shows. -/
inductive Json.Shows : Json → Value → Prop where
  | number {n : Int} : Shows (.integer n) (.integer n)
  | numeral {n : Int} {text : String} :
      SpellsInteger n text.toList → Shows (.string text) (.integer n)
  | text {text : String} : Shows (.string text) (.bytes (Utf8.encode text))
  | digits {bs : Bytes} {digits : String} :
      Hex.decode (Utf8.encode digits) = .ok bs →
      Shows (.object [("hex", .string digits)]) (.bytes bs)

theorem Json.Shows.unique {document : Json} {x y : Value} (shows : document.Shows x)
    (also : document.Shows y) (same_kind : x.kind = y.kind) : x = y := by
  cases shows with
  | number =>
    cases also
    rfl
  | numeral spelled =>
    cases also with
    | numeral also_spelled => rw [spelled.unique also_spelled]
    | text => cases same_kind
  | text =>
    cases also with
    | numeral => cases same_kind
    | text => rfl
  | digits decoded =>
    cases also with
    | digits also_decoded => rw [Except.ok.inj (decoded.symm.trans also_decoded)]

theorem shows_toJson {x : Value} (no_float : x.kind ≠ .float) : x.toJson.Shows x := by
  cases x with
  | integer n =>
    by_cases beyond : BeyondWords n
    · rw [toJson_of_beyondWords beyond]
      exact .numeral (spellsInteger_toText n)
    · rw [toJson_of_word beyond]
      exact .number
  | float => exact absurd rfl no_float
  | bytes bs =>
    by_cases well : Utf8.WellFormed bs
    · obtain ⟨text, read⟩ := Utf8.exists_decode?_iff.mpr well
      obtain rfl := Utf8.decode?_eq_some_iff.mp read
      rw [toJson_bytes_eq_string_iff.mpr rfl]
      exact .text
    · rw [toJson_of_not_wellFormed well]
      exact .digits (Hex.decode_hexDigits bs)

theorem eq_of_toJson_eq {x y : Value} (no_float : x.kind ≠ .float) (same_kind : x.kind = y.kind)
    (same : x.toJson = y.toJson) : x = y := by
  have also := shows_toJson (same_kind ▸ no_float : y.kind ≠ .float)
  rw [← same] at also
  exact (shows_toJson no_float).unique also same_kind

/-! ### Documents of integers and of bytes -/

theorem toJson_integer_eq_toJson_bytes_iff {n : Int} {bs : Bytes} :
    (Value.integer n).toJson = (Value.bytes bs).toJson ↔
      BeyondWords n ∧ bs = Utf8.encode (toString n) := by
  by_cases beyond : BeyondWords n
  · rw [toJson_of_beyondWords beyond, eq_comm, toJson_bytes_eq_string_iff]
    exact (and_iff_right beyond).symm
  · -- bytes are never shown as a number
    rw [toJson_of_word beyond, Value.toJson]
    cases Utf8.decode? bs <;> simp [beyond]

/-- An integer beyond the words, and the bytes of its decimal text. -/
inductive SharesText : Value → Value → Prop where
  | decimal {n : Int} :
      BeyondWords n → SharesText (.integer n) (.bytes (Utf8.encode (toString n)))

theorem toJson_eq_iff {x y : Value} (x_no_float : x.kind ≠ .float) (y_no_float : y.kind ≠ .float)
    (different : x ≠ y) : x.toJson = y.toJson ↔ SharesText x y ∨ SharesText y x := by
  constructor
  · intro same
    by_cases same_kind : x.kind = y.kind
    · exact absurd (eq_of_toJson_eq x_no_float same_kind same) different
    cases x with
    | float => exact absurd rfl x_no_float
    | integer n =>
      cases y with
      | integer => exact absurd rfl same_kind
      | float => exact absurd rfl y_no_float
      | bytes =>
        obtain ⟨beyond, rfl⟩ := toJson_integer_eq_toJson_bytes_iff.mp same
        exact .inl (.decimal beyond)
    | bytes =>
      cases y with
      | bytes => exact absurd rfl same_kind
      | float => exact absurd rfl y_no_float
      | integer n =>
        obtain ⟨beyond, rfl⟩ := toJson_integer_eq_toJson_bytes_iff.mp same.symm
        exact .inr (.decimal beyond)
  · rintro (@⟨n, beyond⟩ | @⟨n, beyond⟩)
    · exact toJson_integer_eq_toJson_bytes_iff.mpr ⟨beyond, rfl⟩
    · exact (toJson_integer_eq_toJson_bytes_iff.mpr ⟨beyond, rfl⟩).symm

/-- **Integers and bytes in JSON.** The only different values with one document are an integer beyond
the words and the bytes of its decimal text.  Integers have different documents: a number in the range
of the words, and the decimal text elsewhere.  So have byte strings: a string just for text, which is
the string, and elsewhere an object with their lowercase digits, which are decoded to them again. -/
theorem json_shared_only_as_decimal_text :
    (∀ x y : Value, x.kind ≠ .float → y.kind ≠ .float → x ≠ y →
        (x.toJson = y.toJson ↔ SharesText x y ∨ SharesText y x)) ∧
      (Function.Injective fun n => (Value.integer n).toJson) ∧
      (∀ n : Int, (Value.integer n).toJson =
        if -(2 ^ 63) ≤ n ∧ n ≤ 2 ^ 64 - 1 then .integer n else .string (toString n)) ∧
      (Function.Injective fun bs => (Value.bytes bs).toJson) ∧
      (∀ bs text, (Value.bytes bs).toJson = .string text ↔ bs = Utf8.encode text) ∧
      (∀ bs, (∃ text, (Value.bytes bs).toJson = .string text) ↔ Utf8.WellFormed bs) ∧
      ∀ bs, ¬ Utf8.WellFormed bs →
        (Value.bytes bs).toJson = .object [("hex", .string (String.ofList (hexDigits bs)))] ∧
          Hex.decode (Utf8.encode (String.ofList (hexDigits bs))) = .ok bs := by
  refine ⟨fun _ _ => toJson_eq_iff, ?_, ?_, ?_, fun _ _ => toJson_bytes_eq_string_iff, ?_, ?_⟩
  · intro n m same
    exact Value.integer.inj (eq_of_toJson_eq nofun rfl same)
  · intro n
    split
    · rename_i within
      exact toJson_of_word (by unfold BeyondWords; omega)
    · rename_i outside
      exact toJson_of_beyondWords (by unfold BeyondWords; omega)
  · intro bs other same
    exact Value.bytes.inj (eq_of_toJson_eq nofun rfl same)
  · intro bs
    simp only [← Utf8.exists_decode?_iff, Utf8.decode?_eq_some_iff, toJson_bytes_eq_string_iff]
  · intro bs ill
    exact ⟨toJson_of_not_wellFormed ill, Hex.decode_hexDigits bs⟩

/-- The least integer above the words has the document of its text, and the greatest word has not. -/
theorem json_shared_only_as_decimal_text_above_words :
    (Value.integer (2 ^ 64)).toJson = (Value.text "18446744073709551616").toJson ∧
      (Value.integer (2 ^ 64 - 1)).toJson ≠ (Value.text "18446744073709551615").toJson := by
  obtain ⟨apart, -⟩ := json_shared_only_as_decimal_text
  have above : BeyondWords (2 ^ 64) := .inr (by decide)
  have within : ¬ BeyondWords (2 ^ 64 - 1) := by
    rw [← fits_eight_iff]
    rfl
  constructor
  · have shared : SharesText (.integer (2 ^ 64)) (.text "18446744073709551616") := .decimal above
    exact (apart (.integer (2 ^ 64)) (.text "18446744073709551616") nofun nofun nofun).mpr
      (.inl shared)
  · intro same
    rcases (apart (.integer (2 ^ 64 - 1)) (.text _) nofun nofun nofun).mp same with shared | shared
    · obtain @⟨_, beyond⟩ := shared
      exact within beyond
    · cases shared

end DirectivePack
