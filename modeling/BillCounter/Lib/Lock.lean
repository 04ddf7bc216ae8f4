import Mathlib.Logic.Basic

/-!
# A lock and who is inside

A lock has a holder or none, and some of the tasks are inside what it protects.  A step leaves
both alone, takes a lock that is free for a task that goes inside, or gives the lock of a task
that goes out (`LockStep`).  Then those inside are always the holder and nobody else.
-/

namespace BillCounter.Lib.Lock

universe u

variable {τ : Type u} {inside inside' : τ → Prop} {holder holder' : Option τ}

/-- What one step may do to a lock and to those inside. -/
inductive LockStep (inside inside' : τ → Prop) : Option τ → Option τ → Prop
  | stay (holder : Option τ) (hsame : ∀ u, inside' u ↔ inside u) :
      LockStep inside inside' holder holder
  | acquire (t : τ) (hin : inside' t) (hsame : ∀ u, u ≠ t → (inside' u ↔ inside u)) :
      LockStep inside inside' none (some t)
  | release (t : τ) (holder : Option τ) (hin : inside t) (hout : ¬ inside' t)
      (hsame : ∀ u, u ≠ t → (inside' u ↔ inside u)) :
      LockStep inside inside' holder none

/-- The one who is inside is the holder: every step keeps this. -/
theorem LockStep.holder_iff (h : LockStep inside inside' holder holder')
    (hholder : ∀ t, inside t ↔ holder = some t) (t : τ) : inside' t ↔ holder' = some t := by
  cases h with
  | stay holder hsame => exact (hsame t).trans (hholder t)
  | acquire u hin hsame =>
      by_cases ht : t = u
      · subst ht
        exact iff_of_true hin rfl
      · refine iff_of_false (fun hin' => ?_) fun heq => ht (Option.some.inj heq).symm
        exact absurd ((hholder t).1 ((hsame t ht).1 hin')) (by simp)
  | release u holder hin hout hsame =>
      refine iff_of_false (fun hin' => ?_) (by simp)
      by_cases ht : t = u
      · exact hout (ht ▸ hin')
      · have hother := (hholder t).1 ((hsame t ht).1 hin')
        exact ht (Option.some.inj (hother.symm.trans ((hholder u).1 hin)))

/-- The same lock, where others may be inside as well that the step does not move. -/
theorem LockStep.widen (h : LockStep inside inside' holder holder') {other I I' : τ → Prop}
    (hother : ∀ t, inside t → ¬ other t) (hI : ∀ t, I t ↔ inside t ∨ other t)
    (hI' : ∀ t, I' t ↔ inside' t ∨ other t) : LockStep I I' holder holder' := by
  cases h with
  | stay holder hsame =>
      refine .stay holder fun u => ?_
      rw [hI, hI', hsame]
  | acquire t hin hsame =>
      refine .acquire t ((hI' t).2 (.inl hin)) fun u hu => ?_
      rw [hI, hI', hsame u hu]
  | release t holder hin hout hsame =>
      refine .release t holder ((hI t).2 (.inl hin)) (fun hin' => ?_) fun u hu => ?_
      · exact ((hI' t).1 hin').elim hout (hother t hin)
      · rw [hI, hI', hsame u hu]

end BillCounter.Lib.Lock
