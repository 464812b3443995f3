import Mathlib.Data.List.Basic
import DirectivePack.Argument
import DirectivePack.Proofs.Digits.HexTexts
import DirectivePack.Proofs.Format.Grammar

/-!
What is written for packed bytes can be read again.

Bytes are written as a line of digits, as they are, or as a list of numbers.  Digits may be given back
in either case and with blanks anywhere between them, the line feed at their end included.  The blanks
are dropped before the digits are decoded, so they may also part the two digits of a byte.

* `Hex.decodeSpaced_eq_ok_iff`: which texts are decoded, to which bytes.
* `OutputForm.render_injective`: the bytes can be told from what is written for them.
* `rendered_bytes_read_back`: both, and what is written.
-/

namespace DirectivePack

/-! ### Blanks between digits -/

/-- Characters with blanks anywhere before, between and behind them. -/
inductive Spaced : List Char → List Char → Prop where
  | nil : Spaced [] []
  | blank {c : Char} {digits text : List Char} :
      c ∈ asciiBlanks → Spaced digits text → Spaced digits (c :: text)
  | digit {c : Char} {digits text : List Char} : Spaced digits text → Spaced (c :: digits) (c :: text)

/-- A text that shows the digits of bytes, in either case, with blanks anywhere between them. -/
def ShowsDigits (bs : Bytes) (text : String) : Prop :=
  ∃ digits, digits.map Char.toLower = hexDigits bs ∧ Spaced digits text.toList

/-- The characters of a text that are no blanks. -/
def withoutBlanks (text : String) : List Char :=
  text.toList.filter fun c => c ∉ asciiBlanks

theorem spaced_iff {digits text : List Char} (solid : ∀ c ∈ digits, c ∉ asciiBlanks) :
    Spaced digits text ↔ text.filter (fun c => c ∉ asciiBlanks) = digits := by
  constructor
  · intro spaced
    induction spaced with
    | nil => rfl
    | blank blank _ ih =>
      rw [List.filter_cons_of_neg (by simpa using blank)]
      exact ih solid
    | digit _ ih =>
      obtain ⟨no_blank, others⟩ := List.forall_mem_cons.mp solid
      rw [List.filter_cons_of_pos (by simpa using no_blank), ih others]
  · rintro rfl
    clear solid
    induction text with
    | nil => exact .nil
    | cons c text ih =>
      by_cases blank : c ∈ asciiBlanks
      · rw [List.filter_cons_of_neg (by simpa using blank)]
        exact .blank blank ih
      · rw [List.filter_cons_of_pos (by simpa using blank)]
        exact .digit ih

theorem notMem_asciiBlanks_of_digit {c : Char} (digit : ∃ d < 16, c.toLower = Nat.digitChar d) :
    c ∉ asciiBlanks := by
  have least := least_of_digit (Nat.le_refl 16) digit
  intro blank
  have below : ∀ c ∈ asciiBlanks, c.toNat < 0x30 := by simp [asciiBlanks]
  exact absurd (below c blank) (Nat.not_lt_of_le least)

theorem showsDigits_iff {bs : Bytes} {text : String} :
    ShowsDigits bs text ↔ (withoutBlanks text).map Char.toLower = hexDigits bs := by
  constructor
  · rintro ⟨digits, same, spaced⟩
    obtain ⟨-, are_digits⟩ := Hex.exists_hexDigits_iff.mp ⟨bs, same⟩
    have solid : ∀ c ∈ digits, c ∉ asciiBlanks :=
      fun c member => notMem_asciiBlanks_of_digit (are_digits c member)
    rw [withoutBlanks, (spaced_iff solid).mp spaced]
    exact same
  · intro same
    have solid : ∀ c ∈ withoutBlanks text, c ∉ asciiBlanks :=
      fun c member => of_decide_eq_true (List.mem_filter.mp member).2
    exact ⟨withoutBlanks text, same, (spaced_iff solid).mpr rfl⟩

/-- A line with the digits of bytes shows them: a blank may stand behind them. -/
theorem showsDigits_line (bs : Bytes) : ShowsDigits bs (String.ofList (hexDigits bs ++ ['\n'])) := by
  have line_feed : Spaced [] ['\n'] := .blank (by decide) .nil
  refine ⟨hexDigits bs, map_toLower_hexDigits bs, ?_⟩
  rw [String.toList_ofList]
  induction hexDigits bs with
  | nil => exact line_feed
  | cons _ _ ih => exact .digit ih

/-! ### Digits that are read -/

theorem not_isBlank_eq : (fun c => ! isBlank c) = fun c => decide (c ∉ asciiBlanks) := by
  funext c
  rw [Bool.eq_iff_iff]
  simp [← isBlank_iff_mem]

namespace Hex

/-- **Digits with blanks** are decoded to the bytes of which they are the digits. -/
theorem decodeSpaced_eq_ok_iff {text : String} {bs : Bytes} :
    decodeSpaced text = .ok bs ↔ ShowsDigits bs text := by
  have dropped : text.toList.filter (fun c => ! isBlank c) = withoutBlanks text := by
    rw [not_isBlank_eq, withoutBlanks]
  rw [showsDigits_iff, ← decode_encode_eq_ok_iff, decodeSpaced, dropped]
  split
  · rename_i decoded
    rw [decoded, Except.ok.injEq, Except.ok.injEq]
  · rename_i refused
    rw [refused]
    simp only [reduceCtorEq]

theorem exists_decodeSpaced_iff {text : String} :
    (∃ bs, decodeSpaced text = .ok bs) ↔ (withoutBlanks text).length % 2 = 0 ∧
      ∀ c ∈ withoutBlanks text, ∃ d < 16, c.toLower = Nat.digitChar d := by
  simp only [decodeSpaced_eq_ok_iff, showsDigits_iff, exists_hexDigits_iff]

end Hex

theorem ShowsDigits.unique {bs other : Bytes} {text : String} (shows : ShowsDigits bs text)
    (also : ShowsDigits other text) : bs = other :=
  hexDigits_injective ((showsDigits_iff.mp shows).symm.trans (showsDigits_iff.mp also))

/-! ### Lists of numbers -/

/-- The numbers of some bytes, with commas between them. -/
def numberList (bs : Bytes) : List Char :=
  [','].intercalate (bs.map fun b => Nat.toDigits 10 b.toNat)

theorem comma_notMem_toDigits (n : Nat) : ',' ∉ Nat.toDigits 10 n := by
  intro comma
  have digit := Nat.isDigit_of_mem_toDigits (by decide) (by decide) comma
  exact absurd digit (by decide)

theorem numberList_cons_ne_nil (b : UInt8) (bs : Bytes) : numberList (b :: bs) ≠ [] := by
  have digits : Nat.toDigits 10 b.toNat ≠ [] := Nat.toDigits_ne_nil
  unfold numberList
  cases bs <;> simp [List.intercalate_cons_cons, digits]

/-- The numbers stand between the commas, since there is no comma in a number. -/
theorem splitOn_numberList {bs : Bytes} (nonempty : bs ≠ []) :
    (numberList bs).splitOn ',' = bs.map fun b => Nat.toDigits 10 b.toNat := by
  apply List.splitOn_intercalate
  · intro digits member
    obtain ⟨b, -, rfl⟩ := List.mem_map.mp member
    exact comma_notMem_toDigits b.toNat
  · exact List.map_eq_nil_iff.not.mpr nonempty

theorem numberList_injective : Function.Injective numberList := by
  intro bs other same
  -- there is a number to split off unless there are no bytes
  cases bs with
  | nil =>
    cases other with
    | nil => rfl
    | cons b more => exact absurd same.symm (numberList_cons_ne_nil b more)
  | cons b bs =>
    cases other with
    | nil => exact absurd same (numberList_cons_ne_nil b bs)
    | cons c more =>
      have numbers := splitOn_numberList (List.cons_ne_nil b bs)
      rw [same, splitOn_numberList (List.cons_ne_nil c more)] at numbers
      have each : Function.Injective fun b : UInt8 => Nat.toDigits 10 b.toNat :=
        fun _ _ digits => UInt8.toNat_inj.mp (toDigits_injective digits)
      exact List.map_injective_iff.mpr each numbers.symm

/-! ### What is written -/

namespace OutputForm

theorem render_hex (bs : Bytes) :
    render bs .hex = Utf8.encode (String.ofList (hexDigits bs ++ ['\n'])) := by
  rw [render, Hex.encode_eq_encode_hexDigits, Utf8.encode, Utf8.encode, String.toList_ofList,
    String.toList_ofList, List.flatMap_append]
  rfl

theorem render_json (bs : Bytes) :
    render bs .json = Utf8.encode (String.ofList ('[' :: numberList bs ++ [']', '\n'])) := by
  have digits : (bs.map fun b => b.toNat.repr).map String.toList =
      bs.map fun b => Nat.toDigits 10 b.toNat := by
    rw [List.map_map]
    apply List.map_congr_left
    intro b _
    rw [Function.comp_apply, Nat.repr_eq_ofList_toDigits, String.toList_ofList]
  have comma : ",".toList = [','] := rfl
  rw [render, Utf8.encode, Utf8.encode, String.toList_ofList, String.toList_append,
    String.toList_append, String.toList_intercalate, digits, comma]
  rfl

/-- **The bytes** can be told from what is written for them. -/
theorem render_injective (form : OutputForm) : Function.Injective fun bs => render bs form := by
  intro bs other same
  change render bs form = render other form at same
  cases form with
  | hex =>
    rw [render_hex, render_hex] at same
    exact hexDigits_injective
      (List.append_cancel_right (String.ofList_injective (Utf8.encode_injective same)))
  | raw => exact same
  | json =>
    rw [render_json, render_json] at same
    have lists := List.append_cancel_right (String.ofList_injective (Utf8.encode_injective same))
    exact numberList_injective (List.cons.inj lists).2

end OutputForm

/-- **Rendered bytes.** The line of digits that is written for bytes is read as them again.  A text is
read as bytes just when it shows their digits, in either case and with blanks anywhere between them,
and no text shows those of others.  So the texts that are read are those with an even number of
digits and nothing else but blanks.  As a list, the numbers of the bytes stand between commas, in
brackets and with a line feed behind them.  In no form do two byte strings look the same. -/
theorem rendered_bytes_read_back :
    (∀ bs, ∃ text, Utf8.decode? (OutputForm.render bs .hex) = some text ∧
        Hex.decodeSpaced text = .ok bs) ∧
      (∀ text bs, Hex.decodeSpaced text = .ok bs ↔ ShowsDigits bs text) ∧
      (∀ text, (∃ bs, Hex.decodeSpaced text = .ok bs) ↔
        (withoutBlanks text).length % 2 = 0 ∧
          ∀ c ∈ withoutBlanks text, ∃ d < 16, c.toLower = Nat.digitChar d) ∧
      (∀ text bs other, ShowsDigits bs text → ShowsDigits other text → bs = other) ∧
      (∀ bs, OutputForm.render bs .json =
        Utf8.encode (String.ofList ('[' :: numberList bs ++ [']', '\n']))) ∧
      (∀ bs, OutputForm.render bs .raw = bs) ∧
      ∀ form, Function.Injective fun bs => OutputForm.render bs form := by
  refine ⟨?_, fun _ _ => Hex.decodeSpaced_eq_ok_iff, fun _ => Hex.exists_decodeSpaced_iff,
    fun _ _ _ => ShowsDigits.unique, OutputForm.render_json, fun _ => rfl,
    OutputForm.render_injective⟩
  intro bs
  refine ⟨String.ofList (hexDigits bs ++ ['\n']), ?_, ?_⟩
  · rw [OutputForm.render_hex, Utf8.decode?_encode]
  · exact Hex.decodeSpaced_eq_ok_iff.mpr (showsDigits_line bs)

/-- Two bytes in digits of either case, the two of each parted by a blank, and three digits. -/
theorem rendered_bytes_read_back_of_parted_digits :
    Hex.decodeSpaced "0 aF\tf\n" = .ok [0x0A, 0xFF] ∧
      (∀ bs, ShowsDigits bs "0 aF\tf\n" → bs = [0x0A, 0xFF]) ∧
      ¬ ∃ bs, Hex.decodeSpaced "0a f" = .ok bs := by
  obtain ⟨-, reads, accepted, unique, -⟩ := rendered_bytes_read_back
  have shows : ShowsDigits [0x0A, 0xFF] "0 aF\tf\n" := showsDigits_iff.mpr rfl
  refine ⟨(reads _ _).mpr shows, fun bs also => unique _ _ _ also shows, ?_⟩
  rw [accepted]
  rintro ⟨even, -⟩
  have three : (withoutBlanks "0a f").length = 3 := rfl
  omega

end DirectivePack
