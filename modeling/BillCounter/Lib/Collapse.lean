import Mathlib.Data.List.Induction

/-!
# Repetitions in a list

A reader who is shown the same value again learns nothing.  `collapse` keeps of each stretch
of equal values the first.  Two lists that collapse to the same tell the same story; what
may be left out of a list, or stand in it twice, without a difference to the reader is what
repeats the value in front of it.
-/

namespace BillCounter.Lib.Collapse

universe u

variable {α : Type u} [DecidableEq α] {l m : List α} {x : α}

/-- Put `x` behind `kept`, unless it is there. -/
def keep (kept : List α) (x : α) : List α :=
  if kept.getLast? = some x then kept else kept ++ [x]

/-- `l`, without what repeats the value in front of it. -/
def collapse (l : List α) : List α := l.foldl keep []

theorem collapse_snoc (l : List α) (x : α) : collapse (l ++ [x]) = keep (collapse l) x := by
  rw [collapse, List.foldl_append]
  rfl

theorem getLast?_keep (kept : List α) (x : α) : (keep kept x).getLast? = some x := by
  unfold keep
  split
  · assumption
  · exact List.getLast?_concat ..

/-- The last value is kept. -/
theorem getLast?_collapse (l : List α) : (collapse l).getLast? = l.getLast? := by
  induction l using List.reverseRecOn with
  | nil => rfl
  | append_singleton l x _ => rw [collapse_snoc, getLast?_keep, List.getLast?_concat]

/-- A repetition makes no difference. -/
theorem collapse_snoc_of_last (h : l.getLast? = some x) : collapse (l ++ [x]) = collapse l := by
  rw [collapse_snoc, keep, getLast?_collapse, if_pos h]

theorem collapse_snoc_congr (h : collapse l = collapse m) (x : α) :
    collapse (l ++ [x]) = collapse (m ++ [x]) := by
  rw [collapse_snoc, collapse_snoc, h]

end BillCounter.Lib.Collapse
