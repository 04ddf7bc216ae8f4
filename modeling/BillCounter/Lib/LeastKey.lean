import Mathlib.Order.Lattice

/-!
# First index of least key

A linear scan over `0, …, n - 1` that keeps the first admissible index and
replaces it only by a strictly smaller key.  `LeastKey` says what it finds: an
admissible index no admissible index beats, the lowest one among equals.  Two
such indices are the same, so the specification determines the scan
(`scan_eq_some_iff`).
-/

namespace BillCounter.Lib.LeastKey

universe u

variable {κ : Type u} [LinearOrder κ]

/-- One step of the scan: `cur` is the index kept so far. -/
def scanStep (ok : Nat → Bool) (key : Nat → κ) (cur : Option Nat) (i : Nat) :
    Option Nat :=
  if ok i then
    match cur with
    | none => some i
    | some c => if key i < key c then some i else some c
  else cur

/-- The index kept after scanning `0, …, n - 1`. -/
def scan (ok : Nat → Bool) (key : Nat → κ) (n : Nat) : Option Nat :=
  (List.range n).foldl (scanStep ok key) none

/-- `c` is the first admissible index below `n` with the least key. -/
structure IsFirstLeast (ok : Nat → Bool) (key : Nat → κ) (n c : Nat) : Prop where
  lt : c < n
  admissible : ok c = true
  least : ∀ i, i < n → ok i = true → key c < key i ∨ (key c = key i ∧ c ≤ i)

variable {ok : Nat → Bool} {key : Nat → κ} {n c : Nat}

theorem scan_succ (ok : Nat → Bool) (key : Nat → κ) (n : Nat) :
    scan ok key (n + 1) = scanStep ok key (scan ok key n) n := by
  simp [scan, List.range_succ]

/-- The specification fixes the index. -/
theorem IsFirstLeast.unique {d : Nat} (hc : IsFirstLeast ok key n c)
    (hd : IsFirstLeast ok key n d) : c = d := by
  rcases hc.least d hd.lt hd.admissible with hlt | ⟨heq, hle⟩
  · rcases hd.least c hc.lt hc.admissible with hlt' | ⟨heq', _⟩
    · exact absurd (lt_trans hlt hlt') (lt_irrefl _)
    · exact absurd (heq' ▸ hlt) (lt_irrefl _)
  · rcases hd.least c hc.lt hc.admissible with hlt' | ⟨_, hle'⟩
    · exact absurd (heq ▸ hlt') (lt_irrefl _)
    · exact Nat.le_antisymm hle hle'

/-- An index that is not admissible extends the specification by nothing. -/
theorem IsFirstLeast.succ_of_not_ok (h : IsFirstLeast ok key n c)
    (hn : ok n = false) : IsFirstLeast ok key (n + 1) c where
  lt := Nat.lt_succ_of_lt h.lt
  admissible := h.admissible
  least i hi hoki := by
    rcases Nat.lt_succ_iff_lt_or_eq.mp hi with hlt | rfl
    · exact h.least i hlt hoki
    · rw [hn] at hoki
      exact absurd hoki (by decide)

/-- What the scan returns after `n` indices. -/
theorem scan_spec (ok : Nat → Bool) (key : Nat → κ) (n : Nat) :
    (∃ c, scan ok key n = some c ∧ IsFirstLeast ok key n c) ∨
      (scan ok key n = none ∧ ∀ i, i < n → ok i = false) := by
  induction n with
  | zero => exact .inr ⟨rfl, fun i hi => absurd hi (Nat.not_lt_zero i)⟩
  | succ n ih =>
      rw [scan_succ]
      cases hn : ok n with
      | false =>
          rcases ih with ⟨c, hc, hleast⟩ | ⟨hnone, hall⟩
          · exact .inl ⟨c, by simp [scanStep, hn, hc], hleast.succ_of_not_ok hn⟩
          · refine .inr ⟨by simp [scanStep, hn, hnone], fun i hi => ?_⟩
            rcases Nat.lt_succ_iff_lt_or_eq.mp hi with hlt | rfl
            · exact hall i hlt
            · exact hn
      | true =>
          rcases ih with ⟨c, hc, hleast⟩ | ⟨hnone, hall⟩
          · by_cases hlt : key n < key c
            · -- strictly smaller: the new index takes over
              refine .inl ⟨n, by simp [scanStep, hn, hc, hlt],
                Nat.lt_succ_self n, hn, fun i hi hoki => ?_⟩
              rcases Nat.lt_succ_iff_lt_or_eq.mp hi with hin | rfl
              · rcases hleast.least i hin hoki with h | ⟨h, _⟩
                · exact .inl (lt_trans hlt h)
                · exact .inl (h ▸ hlt)
              · exact .inr ⟨rfl, Nat.le_refl _⟩
            · refine .inl ⟨c, by simp [scanStep, hn, hc, hlt],
                Nat.lt_succ_of_lt hleast.lt, hleast.admissible, fun i hi hoki => ?_⟩
              rcases Nat.lt_succ_iff_lt_or_eq.mp hi with hin | rfl
              · exact hleast.least i hin hoki
              · rcases lt_or_eq_of_le (not_lt.mp hlt) with h | h
                · exact .inl h
                · exact .inr ⟨h, Nat.le_of_lt hleast.lt⟩
          · refine .inl ⟨n, by simp [scanStep, hn, hnone],
              Nat.lt_succ_self n, hn, fun i hi hoki => ?_⟩
            rcases Nat.lt_succ_iff_lt_or_eq.mp hi with hin | rfl
            · rw [hall i hin] at hoki
              exact absurd hoki (by decide)
            · exact .inr ⟨rfl, Nat.le_refl _⟩

theorem scan_eq_some_iff :
    scan ok key n = some c ↔ IsFirstLeast ok key n c := by
  rcases scan_spec ok key n with ⟨d, hd, hleast⟩ | ⟨hnone, hall⟩
  · rw [hd, Option.some.injEq]
    exact ⟨fun h => h ▸ hleast, fun h => hleast.unique h⟩
  · rw [hnone]
    refine ⟨fun h => absurd h (by simp), fun h => ?_⟩
    exact absurd (h.admissible.symm.trans (hall c h.lt)) (by decide)

theorem scan_eq_none_iff :
    scan ok key n = none ↔ ∀ i, i < n → ok i = false := by
  rcases scan_spec ok key n with ⟨d, hd, hleast⟩ | ⟨hnone, hall⟩
  · rw [hd]
    refine ⟨fun h => absurd h (by simp), fun h => ?_⟩
    exact absurd (hleast.admissible.symm.trans (h d hleast.lt)) (by decide)
  · exact ⟨fun _ => hall, fun _ => hnone⟩

end BillCounter.Lib.LeastKey
