import BillCounter.Lib.RawBytes
import Mathlib.Data.Nat.Digits.Defs
import Mathlib.Data.Nat.ModEq
import Mathlib.Tactic.Ring

/-!
# Positional numbers

A program that reads a number digit by digit, most significant first, multiplies what it
has by the base and adds the next digit.  In a machine word it does so modulo `2 ^ w`,
and reads the number the digits denote exactly as long as that fits.

## Main results

* `value_append` — a number from the numbers of its parts.
* `value_eq_iff` — numbers are equal when their digits are, leading zeros apart.
* `toNat_accumulate` — the loop in a machine word reads the number modulo `2 ^ w`.
* `toNat_accumulate_decimal` — the same for a string of decimal digits.
-/

namespace BillCounter.Lib.Positional

open BillCounter.Lib.RawBytes

/-- The number digits denote in base `b`, most significant digit first. -/
def value (b : Nat) (ds : List Nat) : Nat := Nat.ofDigits b ds.reverse

variable {b : Nat} {ds es : List Nat}

@[simp] theorem value_nil (b : Nat) : value b [] = 0 := rfl

theorem value_append (b : Nat) (ds es : List Nat) :
    value b (ds ++ es) = value b ds * b ^ es.length + value b es := by
  rw [value, List.reverse_append, Nat.ofDigits_append, List.length_reverse, ← value, ← value,
    Nat.mul_comm, Nat.add_comm]

theorem value_snoc (b : Nat) (ds : List Nat) (d : Nat) :
    value b (ds ++ [d]) = value b ds * b + d := by
  rw [value_append]
  simp [value]

theorem value_cons (b d : Nat) (ds : List Nat) :
    value b (d :: ds) = d * b ^ ds.length + value b ds := by
  rw [← List.singleton_append, value_append]
  simp [value]

theorem value_lt (hb : 1 < b) (h : ∀ d ∈ ds, d < b) : value b ds < b ^ ds.length := by
  have hlt := Nat.ofDigits_lt_base_pow_length hb (l := ds.reverse)
    fun d hd => h d (List.mem_reverse.mp hd)
  rwa [List.length_reverse] at hlt

/-- A number is no smaller than the part of it read first. -/
theorem value_take_le (hb : 0 < b) (ds : List Nat) (k : Nat) :
    value b (ds.take k) ≤ value b ds := by
  have hsplit := value_append b (ds.take k) (ds.drop k)
  rw [List.take_append_drop] at hsplit
  rw [hsplit]
  exact Nat.le_add_right_of_le (Nat.le_mul_of_pos_right _ (Nat.pow_pos hb))

/-! ## Leading zeros -/

theorem value_dropWhile (b : Nat) (ds : List Nat) :
    value b (ds.dropWhile (· = 0)) = value b ds := by
  induction ds with
  | nil => rfl
  | cons d ds ih =>
      by_cases hd : d = 0
      · rw [List.dropWhile_cons, if_pos (decide_eq_true hd), ih, value_cons, hd]
        simp
      · rw [List.dropWhile_cons, if_neg (by simpa using hd)]

theorem digits_value (hb : 1 < b) (h : ∀ d ∈ ds, d < b) :
    Nat.digits b (value b ds) = (ds.dropWhile (· = 0)).reverse := by
  rw [← value_dropWhile, value]
  apply Nat.digits_ofDigits b hb
  · intro d hd
    exact h d (List.dropWhile_subset _ (List.mem_reverse.mp hd))
  · intro hne
    rw [List.getLast_reverse]
    have hhead := List.head_dropWhile_not (fun d : Nat => decide (d = 0))
      (List.reverse_ne_nil_iff.mp hne)
    simpa using hhead

/-- Numbers are equal when their digits are, leading zeros apart. -/
theorem value_eq_iff (hb : 1 < b) (hd : ∀ d ∈ ds, d < b) (he : ∀ e ∈ es, e < b) :
    value b ds = value b es ↔ ds.dropWhile (· = 0) = es.dropWhile (· = 0) := by
  constructor
  · intro h
    have hdigits := congrArg (Nat.digits b) h
    rw [digits_value hb hd, digits_value hb he] at hdigits
    exact List.reverse_inj.mp hdigits
  · intro h
    rw [← value_dropWhile, h, value_dropWhile]

/-! ## In a machine word -/

variable {w : Nat}

/-- The loop that reads digits into a word. -/
def accumulate (b : BitVec w) (ds : List (BitVec w)) : BitVec w :=
  ds.foldl (fun n d => n * b + d) 0

theorem toNat_foldl (b n : BitVec w) (ds : List (BitVec w)) :
    (ds.foldl (fun n d => n * b + d) n).toNat =
      (n.toNat * b.toNat ^ ds.length + value b.toNat (ds.map BitVec.toNat)) % 2 ^ w := by
  induction ds generalizing n with
  | nil => simp [Nat.mod_eq_of_lt n.isLt]
  | cons d ds ih =>
      rw [List.foldl_cons, ih, List.map_cons, value_cons, List.length_map, BitVec.toNat_add,
        BitVec.toNat_mul, List.length_cons, Nat.pow_succ]
      have hmod : ((n.toNat * b.toNat % 2 ^ w + d.toNat) % 2 ^ w) * b.toNat ^ ds.length ≡
          (n.toNat * b.toNat + d.toNat) * b.toNat ^ ds.length [MOD 2 ^ w] :=
        ((Nat.mod_modEq _ _).trans ((Nat.mod_modEq _ _).add_right _)).mul_right _
      have hsum := hmod.add_right (value b.toNat (ds.map BitVec.toNat))
      rw [Nat.ModEq] at hsum
      rw [hsum]
      congr 1
      ring

/-- In a word the loop reads the number modulo `2 ^ w`. -/
theorem toNat_accumulate (b : BitVec w) (ds : List (BitVec w)) :
    (accumulate b ds).toNat = value b.toNat (ds.map BitVec.toNat) % 2 ^ w := by
  rw [accumulate, toNat_foldl]
  simp

/-- Digits in bytes. -/
theorem toNat_accumulate_bytes (hw : 8 ≤ w) (b : BitVec w) (ds : List Byte) :
    (accumulate b (ds.map (BitVec.setWidth w))).toNat =
      value b.toNat (ds.map BitVec.toNat) % 2 ^ w := by
  have hdigits : (ds.map (BitVec.setWidth w)).map BitVec.toNat = ds.map BitVec.toNat := by
    rw [List.map_map]
    apply List.map_congr_left
    intro d _
    rw [Function.comp_apply, BitVec.toNat_setWidth, Nat.mod_eq_of_lt]
    exact Nat.lt_of_lt_of_le d.isLt (Nat.pow_le_pow_right (by decide) hw)
  rw [toNat_accumulate, hdigits]

/-- Bytes as a number, most significant first. -/
def beValue (bs : List Byte) : Nat := value 256 (bs.map BitVec.toNat)

/-! ## Decimal strings -/

/-- `'0'` to `'9'`. -/
def IsDecimal (c : Byte) : Prop := 0x30 ≤ c ∧ c ≤ 0x39

instance (c : Byte) : Decidable (IsDecimal c) := inferInstanceAs (Decidable (_ ∧ _))

/-- The number a string of decimal digits denotes. -/
def decimal (cs : List Byte) : Nat := value 10 (cs.map fun c => (c - 0x30).toNat)

/-- A digit as a word. -/
def digitWord (w : Nat) (c : Byte) : BitVec w := (c - 0x30).setWidth w

theorem decimal_take_le (cs : List Byte) (k : Nat) : decimal (cs.take k) ≤ decimal cs := by
  rw [decimal, List.map_take]
  exact value_take_le (by decide) _ k

theorem digit_lt {c : Byte} (h : IsDecimal c) : (c - 0x30).toNat < 10 := by
  revert h
  revert c
  decide

theorem decimal_lt {cs : List Byte} (h : ∀ c ∈ cs, IsDecimal c) :
    decimal cs < 10 ^ cs.length := by
  have hdigits : ∀ d ∈ cs.map fun c => (c - 0x30).toNat, d < 10 := by
    intro d hd
    obtain ⟨c, hc, rfl⟩ := List.mem_map.mp hd
    exact digit_lt (h c hc)
  have hlt := value_lt (by decide) hdigits
  rwa [List.length_map] at hlt

/-- The digits read into a word. -/
theorem toNat_accumulate_decimal (hw : 8 ≤ w) (cs : List Byte) :
    (accumulate 10 (cs.map (digitWord w))).toNat = decimal cs % 2 ^ w := by
  have hpow : 2 ^ 8 ≤ 2 ^ w := Nat.pow_le_pow_right (by decide) hw
  have hten : (10 : BitVec w).toNat = 10 := by
    show 10 % 2 ^ w = 10
    exact Nat.mod_eq_of_lt (by omega)
  have hdigits : cs.map (digitWord w) = (cs.map (· - 0x30)).map (BitVec.setWidth w) := by
    rw [List.map_map]
    rfl
  rw [hdigits, toNat_accumulate_bytes hw, hten, decimal, List.map_map]
  rfl

end BillCounter.Lib.Positional
