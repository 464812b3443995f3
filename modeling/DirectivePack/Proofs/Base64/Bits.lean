import DirectivePack.Proofs.Base64.Lines
import DirectivePack.Proofs.Digits.HexAndBits

/-!
Bytes and six-bit values as rows of bits.

Writing cuts the bits of the bytes into sixes and fills up the last of them with zeros; reading takes
the whole bytes in the bits of the values, and drops the bits behind them.

* `sextetBits_sextets`: the bits of the values written are those of the bytes, with few zeros behind.
* `ofBytes_octets`: the bits of the bytes read are the first of the bits of the values.
* `sextets_octets`: values that are read without a bit dropped are written again.
-/

namespace DirectivePack.Base64

/-! ### Rows of bits -/

/-- The bits of six-bit values, the high one of each first. -/
def sextetBits (values : List Nat) : List Nat :=
  values.flatMap (Radix.bits.decompose 6)

theorem length_sextetBits (values : List Nat) : (sextetBits values).length = 6 * values.length :=
  length_flatMap_uniform (Radix.bits.length_decompose 6) values

/-- The number that six-bit values make behind another number, the high one first. -/
def numberFrom (n : Nat) (values : List Nat) : Nat :=
  values.foldl (fun n s => n * 64 + s) n

theorem decompose_numberFrom (count n : Nat) {values : List Nat} (small : ∀ s ∈ values, s < 64) :
    Radix.bits.decompose (count + 6 * values.length) (numberFrom n values) =
      Radix.bits.decompose count n ++ sextetBits values := by
  induction values generalizing count n with
  | nil => simp [numberFrom, sextetBits]
  | cons s values ih =>
    obtain ⟨s_small, others⟩ := List.forall_mem_cons.mp small
    have power : Nat.pow Radix.bits.base 6 = 64 := rfl
    have high : (n * 64 + s) / 64 = n := by omega
    have low : (n * 64 + s) % 64 = s := by omega
    have first : Radix.bits.decompose (count + 6) (n * 64 + s) =
        Radix.bits.decompose count n ++ Radix.bits.decompose 6 s := by
      rw [Radix.decompose_add, ← Radix.decompose_mod _ 6, power, high, low]
    have total : count + 6 * (s :: values).length = count + 6 + 6 * values.length := by
      rw [List.length_cons]
      omega
    rw [total, numberFrom, List.foldl_cons, ← numberFrom, ih _ _ others, first, sextetBits,
      sextetBits, List.flatMap_cons, List.append_assoc]

theorem sextetBits_eq {values : List Nat} (small : ∀ s ∈ values, s < 64) :
    sextetBits values = Radix.bits.decompose (6 * values.length) (numberFrom 0 values) := by
  have row := decompose_numberFrom 0 0 small
  rw [Nat.zero_add, Radix.decompose, List.nil_append] at row
  exact row.symm

theorem eq_of_sextetBits_eq {values others : List Nat} (small : ∀ s ∈ values, s < 64)
    (others_small : ∀ s ∈ others, s < 64) (same : sextetBits values = sextetBits others) :
    values = others := by
  have composed : ∀ s < 64, Radix.bits.compose (Radix.bits.decompose 6 s) = s :=
    fun _ s_small => Radix.bits.compose_decompose s_small
  have lengths := congrArg List.length same
  rw [length_sextetBits, length_sextetBits] at lengths
  induction values generalizing others with
  | nil =>
    rw [List.length_nil] at lengths
    exact (List.eq_nil_of_length_eq_zero (by omega)).symm
  | cons s values ih =>
    cases others with
    | nil => simp at lengths
    | cons t others =>
      obtain ⟨s_small, values_small⟩ := List.forall_mem_cons.mp small
      obtain ⟨t_small, rest_small⟩ := List.forall_mem_cons.mp others_small
      rw [sextetBits, sextetBits, List.flatMap_cons, List.flatMap_cons] at same
      obtain ⟨first, rest⟩ := List.append_inj same (by simp)
      have values_eq : s = t := by
        rw [← composed s s_small, first, composed t t_small]
      simp only [List.length_cons] at lengths
      rw [values_eq, ih values_small rest_small rest (by omega)]

theorem ofBytes_cons (n : Nat) (bs : Bytes) :
    Radix.bits.ofBytes .highFirst (UInt8.ofNat n :: bs) =
      Radix.bits.decompose 8 n ++ Radix.bits.ofBytes .highFirst bs := by
  have byte : Radix.bits.ofByte .highFirst (UInt8.ofNat n) = Radix.bits.decompose 8 n := by
    rw [← Radix.decompose_mod]
    rfl
  rw [Radix.ofBytes, List.flatMap_cons, byte]
  rfl

/-! ### Reading -/

theorem length_octets : ∀ values : List Nat, (octets values).length = 6 * values.length / 8
  | [] | [_] | [_, _] | [_, _, _] => by simp [octets]
  | a :: b :: c :: d :: rest => by
    have others := length_octets rest
    simp only [octets, List.length_cons, others]
    omega

/-- Values that are read without a bit dropped are written again. -/
theorem sextets_octets : ∀ {values : List Nat}, (∀ s ∈ values, s < 64) → values.length % 4 ≠ 1 →
    droppedBits values = 0 → sextets (octets values) = values
  | [], _, _, _ => rfl
  | [_], _, none_left, _ => absurd rfl none_left
  | [a, b], small, _, clean => by
    have : a < 64 := small a (by simp)
    have : b < 64 := small b (by simp)
    have clean : b % 16 = 0 := clean
    have byte : (UInt8.ofNat ((a * 64 + b) / 16)).toNat * 16 = a * 64 + b := by
      rw [UInt8.toNat_ofNat']
      omega
    have high : (a * 64 + b) / 64 = a := by omega
    have low : (a * 64 + b) % 64 = b := by omega
    simp only [octets, sextets, byte, high, low]
  | [a, b, c], small, _, clean => by
    have : a < 64 := small a (by simp)
    have : b < 64 := small b (by simp)
    have : c < 64 := small c (by simp)
    have clean : c % 4 = 0 := clean
    have bytes : ((UInt8.ofNat ((a * 4096 + b * 64 + c) / 1024)).toNat * 256 +
        (UInt8.ofNat ((a * 4096 + b * 64 + c) / 4 % 256)).toNat) * 4 = a * 4096 + b * 64 + c := by
      rw [UInt8.toNat_ofNat', UInt8.toNat_ofNat']
      omega
    have high : (a * 4096 + b * 64 + c) / 4096 = a := by omega
    have middle : (a * 4096 + b * 64 + c) / 64 % 64 = b := by omega
    have low : (a * 4096 + b * 64 + c) % 64 = c := by omega
    simp only [octets, sextets, bytes, high, middle, low]
  | a :: b :: c :: d :: rest, small, none_left, clean => by
    have : a < 64 := small a (by simp)
    have : b < 64 := small b (by simp)
    have : c < 64 := small c (by simp)
    have : d < 64 := small d (by simp)
    have others : sextets (octets rest) = rest := by
      refine sextets_octets (fun s member => small s (by simp [member])) ?_ clean
      simp only [List.length_cons] at none_left
      omega
    have bytes : (UInt8.ofNat ((a * 262144 + b * 4096 + c * 64 + d) / 65536)).toNat * 65536 +
        (UInt8.ofNat ((a * 262144 + b * 4096 + c * 64 + d) / 256 % 256)).toNat * 256 +
        (UInt8.ofNat ((a * 262144 + b * 4096 + c * 64 + d) % 256)).toNat =
          a * 262144 + b * 4096 + c * 64 + d := by
      rw [UInt8.toNat_ofNat', UInt8.toNat_ofNat', UInt8.toNat_ofNat']
      omega
    have first : (a * 262144 + b * 4096 + c * 64 + d) / 262144 = a := by omega
    have second : (a * 262144 + b * 4096 + c * 64 + d) / 4096 % 64 = b := by omega
    have third : (a * 262144 + b * 4096 + c * 64 + d) / 64 % 64 = c := by omega
    have fourth : (a * 262144 + b * 4096 + c * 64 + d) % 64 = d := by omega
    simp only [octets, sextets, bytes, first, second, third, fourth, others]

/-- The last byte of a number. -/
theorem decompose_byte (count n : Nat) :
    Radix.bits.decompose (count + 8) n =
      Radix.bits.decompose count (n / 256) ++ Radix.bits.decompose 8 (n % 256) := by
  rw [Radix.decompose_add, ← Radix.decompose_mod _ 8]
  rfl

/-- The bits behind the first ones are dropped. -/
theorem take_decompose_add (j k n : Nat) :
    (Radix.bits.decompose (j + k) n).take j = Radix.bits.decompose j (n / Nat.pow 2 k) := by
  rw [Radix.decompose_add, List.take_left' (Radix.length_decompose ..)]
  rfl

/-- The bits of a whole group are those of its three bytes. -/
theorem ofBytes_octets_group {a b c d : Nat} (small : ∀ s ∈ [a, b, c, d], s < 64) :
    Radix.bits.ofBytes .highFirst (octets [a, b, c, d]) = sextetBits [a, b, c, d] := by
  have number : numberFrom 0 [a, b, c, d] = a * 262144 + b * 4096 + c * 64 + d := by
    simp only [numberFrom, List.foldl_cons, List.foldl_nil]
    omega
  rw [sextetBits_eq small, number]
  simp only [octets, ofBytes_cons]
  generalize a * 262144 + b * 4096 + c * 64 + d = n
  have bytes : Radix.bits.decompose 24 n = Radix.bits.decompose 8 (n / 65536) ++
      (Radix.bits.decompose 8 (n / 256 % 256) ++ Radix.bits.decompose 8 (n % 256)) := by
    rw [decompose_byte 16, decompose_byte 8, Nat.div_div_eq_div_mul, List.append_assoc]
  rw [← List.append_nil (Radix.bits.decompose 8 (n % 256))] at bytes
  exact bytes.symm

/-- **Whole bytes.** The bits of the bytes are the first of the bits of the values. -/
theorem ofBytes_octets : ∀ {values : List Nat}, (∀ s ∈ values, s < 64) →
    Radix.bits.ofBytes .highFirst (octets values) =
      (sextetBits values).take (8 * (6 * values.length / 8))
  | [], _ => rfl
  | [a], _ => by
    have size : 8 * (6 * [a].length / 8) = 0 := by simp
    rw [size]
    rfl
  | [a, b], small => by
    have number : numberFrom 0 [a, b] = a * 64 + b := by simp [numberFrom]
    have first : (sextetBits [a, b]).take 8 = Radix.bits.decompose 8 ((a * 64 + b) / 16) := by
      rw [sextetBits_eq small, number]
      exact take_decompose_add 8 4 _
    have size : 8 * (6 * [a, b].length / 8) = 8 := by simp
    rw [size, first, octets, ofBytes_cons]
    exact List.append_nil _
  | [a, b, c], small => by
    have number : numberFrom 0 [a, b, c] = a * 4096 + b * 64 + c := by
      simp only [numberFrom, List.foldl_cons, List.foldl_nil]
      omega
    have first : (sextetBits [a, b, c]).take 16 =
        Radix.bits.decompose 16 ((a * 4096 + b * 64 + c) / 4) := by
      rw [sextetBits_eq small, number]
      exact take_decompose_add 16 2 _
    have size : 8 * (6 * [a, b, c].length / 8) = 16 := by simp
    rw [size, first, decompose_byte 8, Nat.div_div_eq_div_mul, octets, ofBytes_cons, ofBytes_cons]
    exact congrArg _ (List.append_nil _)
  | a :: b :: c :: d :: rest, small => by
    have small : ∀ s ∈ [a, b, c, d] ++ rest, s < 64 := small
    obtain ⟨group_small, rest_small⟩ := List.forall_mem_append.mp small
    have group := ofBytes_octets_group group_small
    have others := ofBytes_octets rest_small
    have bytes : Radix.bits.ofBytes .highFirst (octets [a, b, c, d] ++ octets rest) =
        Radix.bits.ofBytes .highFirst (octets [a, b, c, d]) ++
          Radix.bits.ofBytes .highFirst (octets rest) :=
      List.flatMap_append
    have row : sextetBits ([a, b, c, d] ++ rest) = sextetBits [a, b, c, d] ++ sextetBits rest :=
      List.flatMap_append
    have length : (sextetBits [a, b, c, d]).length = 24 := length_sextetBits _
    have size : 8 * (6 * ([a, b, c, d] ++ rest).length / 8) =
        (sextetBits [a, b, c, d]).length + 8 * (6 * rest.length / 8) := by
      rw [length, List.length_append]
      simp only [List.length_cons, List.length_nil]
      omega
    calc Radix.bits.ofBytes .highFirst (octets ([a, b, c, d] ++ rest))
        = sextetBits [a, b, c, d] ++ (sextetBits rest).take (8 * (6 * rest.length / 8)) := by
          rw [← group, ← others]
          exact bytes
      _ = (sextetBits ([a, b, c, d] ++ rest)).take
            (8 * (6 * ([a, b, c, d] ++ rest).length / 8)) := by
          rw [row, size, List.take_length_add_append]

/-! ### Writing -/

/-- A number that is filled up with zero bits. -/
theorem decompose_of_zeros (count : Nat) {k n m : Nat} (zeros : n = m * Nat.pow 2 k) :
    Radix.bits.decompose (count + k) n =
      Radix.bits.decompose count m ++ List.replicate k 0 := by
  have base : Nat.pow Radix.bits.base k = Nat.pow 2 k := rfl
  have some_bit : 0 < Nat.pow 2 k := Nat.pow_pos (by decide)
  rw [Radix.decompose_add, ← Radix.decompose_mod _ k, base, zeros, Nat.mul_div_cancel _ some_bit,
    Nat.mul_mod_left, Radix.decompose_zero]

/-- The bits of sextets are those of the bytes, with fewer zeros behind them than a symbol holds. -/
theorem sextetBits_sextets (bs : Bytes) :
    ∃ zeros < 6, sextetBits (sextets bs) =
      Radix.bits.ofBytes .highFirst bs ++ List.replicate zeros 0 := by
  have byte : ∀ (b : UInt8) (bs : Bytes), Radix.bits.ofBytes .highFirst (b :: bs) =
      Radix.bits.decompose 8 b.toNat ++ Radix.bits.ofBytes .highFirst bs := by
    intro b bs
    rw [← ofBytes_cons, UInt8.ofNat_toNat]
  have nothing : Radix.bits.ofBytes .highFirst [] = [] := rfl
  fun_induction sextets bs with
  | case1 a b c rest n ih =>
    obtain ⟨zeros, few, row⟩ := ih
    have group : Radix.bits.ofBytes .highFirst (octets (sextets [a, b, c])) =
        sextetBits (sextets [a, b, c]) := ofBytes_octets_group (@sextets_lt [a, b, c])
    rw [octets_sextets] at group
    have split : sextetBits (sextets [a, b, c] ++ sextets rest) =
        sextetBits (sextets [a, b, c]) ++ sextetBits (sextets rest) := List.flatMap_append
    have bytes : Radix.bits.ofBytes .highFirst ([a, b, c] ++ rest) =
        Radix.bits.ofBytes .highFirst [a, b, c] ++ Radix.bits.ofBytes .highFirst rest :=
      List.flatMap_append
    rw [← group, row, ← List.append_assoc, ← bytes] at split
    exact ⟨zeros, few, split⟩
  | case2 a b n =>
    have small : ∀ s ∈ [n / 4096, n / 64 % 64, n % 64], s < 64 := @sextets_lt [a, b]
    have number : numberFrom 0 [n / 4096, n / 64 % 64, n % 64] = n := by
      simp only [numberFrom, List.foldl_cons, List.foldl_nil]
      omega
    refine ⟨2, by decide, ?_⟩
    have high : (a.toNat * 256 + b.toNat) / 256 = a.toNat := by
      have := b.toNat_lt
      omega
    have low : (a.toNat * 256 + b.toNat) % 256 = b.toNat := by
      have := b.toNat_lt
      omega
    rw [sextetBits_eq small, number, byte, byte]
    have bits : Radix.bits.decompose (16 + 2) n =
        Radix.bits.decompose 16 (a.toNat * 256 + b.toNat) ++ List.replicate 2 0 :=
      decompose_of_zeros 16 rfl
    rw [decompose_byte 8, high, low] at bits
    rw [nothing, List.append_nil]
    exact bits
  | case3 a n =>
    have small : ∀ s ∈ [n / 64, n % 64], s < 64 := @sextets_lt [a]
    have number : numberFrom 0 [n / 64, n % 64] = n := by
      simp only [numberFrom, List.foldl_cons, List.foldl_nil]
      omega
    refine ⟨4, by decide, ?_⟩
    rw [sextetBits_eq small, number, byte]
    have bits : Radix.bits.decompose (8 + 4) n =
        Radix.bits.decompose 8 a.toNat ++ List.replicate 4 0 :=
      decompose_of_zeros 8 rfl
    rw [nothing, List.append_nil]
    exact bits
  | case4 => exact ⟨0, by decide, rfl⟩

end DirectivePack.Base64
