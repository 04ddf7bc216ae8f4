import Mathlib.Data.Finset.Insert
import Mathlib.Data.Finset.Erase

/-!
# Live objects and the places that hold them

An allocator has a set of live objects, and the program has places, each with a
handle to one of them or none.  Nothing leaks and nothing is shared while the live
objects are exactly those held, each in one place (`Held`).  Acquiring a new object
into an empty place and releasing what a place holds keep it so.
-/

namespace BillCounter.Lib.Holders

universe u v

variable {ι : Type u} {η : Type v} {live : Finset η} {holds : ι → Option η}

/-- The live objects are those held, each in one place. -/
structure Held (live : Finset η) (holds : ι → Option η) : Prop where
  live_iff : ∀ h, h ∈ live ↔ ∃ i, holds i = some h
  alone : ∀ i j h, holds i = some h → holds j = some h → i = j

theorem held_empty : Held (∅ : Finset η) fun _ : ι => none where
  live_iff h := by simp
  alone i j h hi := by simp at hi

variable [DecidableEq ι] [DecidableEq η] {i : ι} {h : η}

/-- A new object goes into an empty place. -/
theorem Held.acquire (H : Held live holds) (hnew : h ∉ live) (hi : holds i = none) :
    Held (insert h live) (Function.update holds i (some h)) := by
  have hnowhere : ∀ j, holds j ≠ some h := fun j hj => hnew ((H.live_iff h).2 ⟨j, hj⟩)
  have hplace : ∀ j k, Function.update holds i (some h) j = some k ↔
      (j = i ∧ k = h) ∨ holds j = some k := by
    intro j k
    by_cases hj : j = i
    · subst hj
      simp [hi, eq_comm]
    · simp [hj]
  constructor
  · intro k
    simp only [Finset.mem_insert, H.live_iff, hplace]
    constructor
    · rintro (rfl | ⟨j, hj⟩)
      · exact ⟨i, .inl ⟨rfl, rfl⟩⟩
      · exact ⟨j, .inr hj⟩
    · rintro ⟨j, ⟨-, rfl⟩ | hj⟩
      · exact .inl rfl
      · exact .inr ⟨j, hj⟩
  · intro j k x hj hk
    rcases (hplace j x).1 hj with ⟨rfl, rfl⟩ | hold
    · rcases (hplace k x).1 hk with ⟨rfl, -⟩ | hold
      · rfl
      · exact absurd hold (hnowhere k)
    · rcases (hplace k x).1 hk with ⟨-, rfl⟩ | hold'
      · exact absurd hold (hnowhere j)
      · exact H.alone j k x hold hold'

/-- What a place holds is released. -/
theorem Held.release (H : Held live holds) (hi : holds i = some h) :
    Held (live.erase h) (Function.update holds i none) := by
  have hplace : ∀ j k, Function.update holds i none j = some k ↔ k ≠ h ∧ holds j = some k := by
    intro j k
    by_cases hj : j = i
    · subst hj
      simp [hi, eq_comm]
    · rw [Function.update_of_ne hj]
      refine ⟨fun hk => ⟨?_, hk⟩, And.right⟩
      rintro rfl
      exact hj (H.alone j i k hk hi)
  constructor
  · intro k
    simp only [Finset.mem_erase, H.live_iff, hplace]
    constructor
    · rintro ⟨hne, j, hj⟩
      exact ⟨j, hne, hj⟩
    · rintro ⟨j, hne, hj⟩
      exact ⟨hne, j, hj⟩
  · intro j k x hj hk
    exact H.alone j k x ((hplace j x).1 hj).2 ((hplace k x).1 hk).2

end BillCounter.Lib.Holders
