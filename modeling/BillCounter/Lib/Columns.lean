import Mathlib.Data.List.Basic

/-!
# Text in columns

A list is printed element by element, with a mark behind every `c` of them and at the end.
With `c = 0` there is one row.  What a printer does row by row is compared with this, which
knows only how many elements stand in front.
-/

namespace BillCounter.Lib.Columns

universe u v

variable {α : Type u} {β : Type v} (render : α → List β) (mark : β) (c : Nat)

/-- The text of some elements, with `i` in front of them. -/
def columnsFrom : Nat → List α → List β
  | _, [] => []
  | i, x :: xs =>
      render x ++ (if (i + 1) % c = 0 ∨ xs = [] then [mark] else []) ++ columnsFrom (i + 1) xs

/-- The text of a list. -/
def columns (xs : List α) : List β := columnsFrom render mark c 0 xs

/-- How many of `n` elements are in the first row. -/
def rowLength (c n : Nat) : Nat := if c = 0 then n else min n c

theorem rowLength_le (c n : Nat) : rowLength c n ≤ n := by
  unfold rowLength
  split
  · exact Nat.le_refl n
  · exact Nat.min_le_left n c

theorem rowLength_pos {n : Nat} (h : 0 < n) : 0 < rowLength c n := by
  unfold rowLength
  split
  · exact h
  · omega

/-- With fewer elements the first row is no longer. -/
theorem rowLength_mono {m n : Nat} (h : m ≤ n) : rowLength c m ≤ rowLength c n := by
  unfold rowLength
  split
  · exact h
  · omega

/-- A row that ends in front of the end has `c` elements. -/
theorem rowLength_eq {n : Nat} (h : rowLength c n < n) : rowLength c n = c ∧ 0 < c := by
  unfold rowLength at h ⊢
  split at h
  · exact absurd h (Nat.lt_irrefl n)
  · rename_i hc
    rw [if_neg hc]
    omega

variable {c}

/-- Marks are `c` elements apart. -/
theorem columnsFrom_add (i : Nat) (xs : List α) :
    columnsFrom render mark c (i + c) xs = columnsFrom render mark c i xs := by
  induction xs generalizing i with
  | nil => rfl
  | cons x xs ih =>
      have hmod : (i + c + 1) % c = (i + 1) % c := by
        rw [show i + c + 1 = i + 1 + c by omega, Nat.add_mod_right]
      rw [columnsFrom, columnsFrom, hmod, show i + c + 1 = i + 1 + c by omega, ih]

/-- Elements up to the next mark. -/
theorem columnsFrom_append (i : Nat) {xs : List α} (ys : List α) (hne : xs ≠ [])
    (hrow : ∀ j, j + 1 < xs.length → (i + j + 1) % c ≠ 0)
    (hend : (i + xs.length) % c = 0 ∨ ys = []) :
    columnsFrom render mark c i (xs ++ ys) =
      xs.flatMap render ++ mark :: columnsFrom render mark c (i + xs.length) ys := by
  induction xs generalizing i with
  | nil => exact absurd rfl hne
  | cons x xs ih =>
      rw [List.cons_append, columnsFrom, List.flatMap_cons]
      by_cases hnil : xs = []
      · subst hnil
        rw [List.length_singleton] at hend
        rw [List.nil_append, if_pos hend]
        simp
      · have hpos : 0 < xs.length := List.length_pos_iff.mpr hnil
        have hzero := hrow 0 (by rw [List.length_cons]; omega)
        have hrest := ih (i + 1) hnil
          (by
            intro j hj
            rw [show i + 1 + j + 1 = i + (j + 1) + 1 by omega]
            exact hrow (j + 1) (by rw [List.length_cons]; omega))
          (by
            rw [show i + 1 + xs.length = i + (x :: xs).length by rw [List.length_cons]; omega]
            exact hend)
        have hmore : xs ++ ys ≠ [] := List.append_ne_nil_of_left_ne_nil hnil ys
        rw [if_neg (by rw [not_or]; exact ⟨hzero, hmore⟩), hrest, List.append_nil,
          List.append_assoc, List.length_cons, show i + 1 + xs.length = i + (xs.length + 1) by omega]

/-- The first row, and the others. -/
theorem columns_row {xs : List α} (hne : xs ≠ []) :
    columns render mark c xs =
      (xs.take (rowLength c xs.length)).flatMap render ++
        mark :: columns render mark c (xs.drop (rowLength c xs.length)) := by
  have hpos := rowLength_pos c (List.length_pos_iff.mpr hne)
  have hlen : (xs.take (rowLength c xs.length)).length = rowLength c xs.length :=
    List.length_take_of_le (rowLength_le c xs.length)
  have hle : c ≠ 0 → rowLength c xs.length ≤ c := by
    intro hc
    rw [rowLength, if_neg hc]
    exact Nat.min_le_right _ _
  have hne' : xs.take (rowLength c xs.length) ≠ [] := by
    rw [← List.length_pos_iff, hlen]
    exact hpos
  have hsplit := columnsFrom_append render mark (c := c) 0 (xs.drop (rowLength c xs.length)) hne'
    (by
      intro j hj
      rw [hlen] at hj
      rw [Nat.zero_add]
      by_cases hc : c = 0
      · rw [hc, Nat.mod_zero]
        exact Nat.succ_ne_zero j
      · rw [Nat.mod_eq_of_lt (Nat.lt_of_lt_of_le hj (hle hc))]
        exact Nat.succ_ne_zero j)
    (by
      rw [hlen, Nat.zero_add]
      rcases Nat.eq_or_lt_of_le (rowLength_le c xs.length) with heq | hlt
      · exact .inr (List.drop_eq_nil_of_le (Nat.le_of_eq heq.symm))
      · rw [(rowLength_eq c hlt).1, Nat.mod_self]
        exact .inl rfl)
  rw [List.take_append_drop, hlen] at hsplit
  rw [columns, hsplit, columns]
  rcases Nat.eq_or_lt_of_le (rowLength_le c xs.length) with heq | hlt
  · rw [List.drop_eq_nil_of_le (Nat.le_of_eq heq.symm)]
    rfl
  · rw [(rowLength_eq c hlt).1, columnsFrom_add]

end BillCounter.Lib.Columns
