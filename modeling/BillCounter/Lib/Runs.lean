/-!
# Labelled systems, their runs and forward simulation

A component with a state is driven from outside: by calls, by typed lines, by
interrupts, by other tasks.  This file fixes one notion of run for all of them.
A `System` is a set of start states and a labelled step relation; a run records
the labels it took.  The rules used everywhere else are `Run.invariant` (what
every step preserves holds at the end of a run), `Run.history` (the same, with
the labels so far), `Run.within_iff_restrict` (all states along a run are good
exactly when all its steps are) and `Simulation.run` (a stepwise simulation
carries whole runs, labels included).
-/

namespace BillCounter.Lib.Runs

universe u v w x

/-- A labelled transition system. -/
structure System (σ : Type u) (α : Type v) where
  init : σ → Prop
  step : σ → α → σ → Prop

variable {σ : Type u} {α : Type v} {τ : Type w} {β : Type x}

namespace System

/-- `S.Run s as t`: from `s` the labels `as`, in order, lead to `t`. -/
inductive Run (S : System σ α) : σ → List α → σ → Prop
  | nil (s : σ) : Run S s [] s
  | cons {s t u : σ} {a : α} {as : List α} :
      S.step s a t → Run S t as u → Run S s (a :: as) u

/-- States some run from a start state ends in. -/
def Reachable (S : System σ α) (t : σ) : Prop :=
  ∃ s as, S.init s ∧ S.Run s as t

/-- The steps of `S` that meet the condition `C`. -/
def restrict (S : System σ α) (C : σ → α → Prop) : System σ α where
  init := S.init
  step s a t := C s a ∧ S.step s a t

/-- The steps of `S` that end where `P` holds. -/
def within (S : System σ α) (P : σ → Prop) : System σ α where
  init := S.init
  step s a t := S.step s a t ∧ P t

/-- `S`, with the labels so far kept beside the state. -/
def recording (S : System σ α) : System (List α × σ) α where
  init x := x.1 = [] ∧ S.init x.2
  step x a y := y.1 = x.1 ++ [a] ∧ S.step x.2 a y.2

/-- A deterministic machine seen as a labelled system. -/
def ofFun (init : σ → Prop) (f : σ → α → σ) : System σ α where
  init := init
  step s a t := f s a = t

namespace Run

variable {S : System σ α} {s t u : σ} {a : α} {as bs : List α}

theorem one (h : S.step s a t) : S.Run s [a] t := .cons h (.nil t)

theorem append (h : S.Run s as t) (h' : S.Run t bs u) :
    S.Run s (as ++ bs) u := by
  induction h with
  | nil => exact h'
  | cons hs _ ih => exact .cons hs (ih h')

theorem snoc (h : S.Run s as t) (h' : S.step t a u) :
    S.Run s (as ++ [a]) u :=
  h.append (.one h')

/-- What every step preserves holds at the end of every run. -/
theorem invariant {I : σ → Prop} (h : S.Run s as t)
    (hstep : ∀ s a t, I s → S.step s a t → I t) (hs : I s) : I t := by
  induction h with
  | nil => exact hs
  | cons hst _ ih => exact ih (hstep _ _ _ hs hst)

/-- A run under a condition is a run. -/
theorem of_restrict {C : σ → α → Prop} (h : (S.restrict C).Run s as t) :
    S.Run s as t := by
  induction h with
  | nil s => exact .nil s
  | cons hst _ ih => exact .cons hst.2 ih

/-- A property of states holds along a run exactly when the steps of the run meet a
condition: if the steps that meet it keep `I`, which implies the property, and if
any step that does not meet it ends where the property fails.  `J` is an invariant
to rely on for the latter. -/
theorem within_iff_restrict {C : σ → α → Prop} {I J P : σ → Prop}
    (hI : ∀ s a t, I s → C s a → S.step s a t → I t) (hP : ∀ s, I s → P s)
    (hJ : ∀ s a t, J s → S.step s a t → J t)
    (hC : ∀ s a t, J s → P s → S.step s a t → P t → C s a) (hsI : I s) (hsJ : J s) :
    (S.within P).Run s as t ↔ (S.restrict C).Run s as t := by
  constructor
  · intro h
    have hsP := hP s hsI
    clear hsI
    induction h with
    | nil s => exact .nil s
    | cons hst _ ih =>
        exact .cons ⟨hC _ _ _ hsJ hsP hst.1 hst.2, hst.1⟩
          (ih (hJ _ _ _ hsJ hst.1) hst.2)
  · intro h
    clear hsJ
    induction h with
    | nil s => exact .nil s
    | cons hst _ ih =>
        have ht := hI _ _ _ hsI hst.1 hst.2
        exact .cons ⟨hst.2, hP _ ht⟩ (ih ht)

/-- Two conditions on the steps that agree where `I` holds, which the first keeps, have
the same runs. -/
theorem restrict_iff_restrict {C D : σ → α → Prop} {I : σ → Prop}
    (hI : ∀ s a t, I s → C s a → S.step s a t → I t)
    (h : ∀ s a t, I s → S.step s a t → (C s a ↔ D s a)) (hs : I s) :
    (S.restrict C).Run s as t ↔ (S.restrict D).Run s as t := by
  constructor
  · intro hrun
    induction hrun with
    | nil s => exact .nil s
    | cons hst _ ih =>
        exact .cons ⟨(h _ _ _ hs hst.2).1 hst.1, hst.2⟩ (ih (hI _ _ _ hs hst.1 hst.2))
  · intro hrun
    induction hrun with
    | nil s => exact .nil s
    | cons hst _ ih =>
        have hC := (h _ _ _ hs hst.2).2 hst.1
        exact .cons ⟨hC, hst.2⟩ (ih (hI _ _ _ hs hC hst.2))

/-- What every step preserves of the labels so far and the state holds at the end of
every run. -/
theorem history {I : List α → σ → Prop} (h : S.Run s as t) (hs : I [] s)
    (hstep : ∀ bs u a v, I bs u → S.step u a v → I (bs ++ [a]) v) : I as t := by
  have hgen : ∀ bs, I bs s → I (bs ++ as) t := by
    clear hs
    induction h with
    | nil s =>
        intro bs hbs
        rwa [List.append_nil]
    | cons hst _ ih =>
        intro bs hbs
        rw [List.append_cons]
        exact ih _ (hstep _ _ _ _ hbs hst)
  exact hgen [] hs

/-- Where every state short of the goal has a step down in rank, some run gets to the
goal. -/
theorem exists_of_rank {I G : σ → Prop} (rank : σ → Nat)
    (hstep : ∀ s, I s → G s ∨ ∃ a t, S.step s a t ∧ I t ∧ rank t < rank s) (hs : I s) :
    ∃ as t, S.Run s as t ∧ G t := by
  generalize hn : rank s = n
  induction n using Nat.strongRecOn generalizing s with
  | ind n ih =>
      rcases hstep s hs with hgoal | ⟨a, t, hst, ht, hlt⟩
      · exact ⟨[], s, .nil s, hgoal⟩
      · rw [hn] at hlt
        obtain ⟨as, u, hrun, hgoal⟩ := ih (rank t) hlt ht rfl
        exact ⟨a :: as, u, .cons hst hrun, hgoal⟩

/-- A deterministic machine can run through any labels. -/
theorem ofFun_foldl {init : σ → Prop} {f : σ → α → σ} (s : σ) (as : List α) :
    (ofFun init f).Run s as (as.foldl f s) := by
  induction as generalizing s with
  | nil => exact .nil s
  | cons a as ih => exact .cons rfl (ih (f s a))

/-- In a run of a deterministic machine under a condition, every label meets it in
the state reached by then. -/
theorem restrict_ofFun_at {init : σ → Prop} {f : σ → α → σ} {C : σ → α → Prop}
    (h : ((ofFun init f).restrict C).Run s (as ++ a :: bs) t) : C (as.foldl f s) a := by
  induction as generalizing s with
  | nil =>
      cases h with
      | cons hst _ => exact hst.1
  | cons b as ih =>
      cases h with
      | cons hst hrun =>
          obtain ⟨_, rfl⟩ := hst
          exact ih hrun

end Run

namespace Reachable

variable {S : System σ α} {s t : σ} {a : α}

theorem start (h : S.init s) : S.Reachable s := ⟨s, [], h, .nil s⟩

theorem step (h : S.Reachable s) (h' : S.step s a t) : S.Reachable t := by
  obtain ⟨s₀, as, h₀, hrun⟩ := h
  exact ⟨s₀, as ++ [a], h₀, hrun.snoc h'⟩

/-- An invariant of the start states and of every step is one of every
reachable state. -/
theorem invariant {I : σ → Prop} (h : S.Reachable t)
    (hinit : ∀ s, S.init s → I s)
    (hstep : ∀ s a t, I s → S.step s a t → I t) : I t := by
  obtain ⟨s, as, hs, hrun⟩ := h
  exact hrun.invariant hstep (hinit s hs)

end Reachable

end System

/-- `R` relates the states of `C` to those of `A` so that every step of `C`
either shows as one step of `A`, on the label `event` makes of it, or changes
nothing `A` can see. -/
structure Simulation (C : System σ α) (A : System τ β) (event : α → Option β)
    (R : σ → τ → Prop) : Prop where
  step : ∀ s a s' t, R s t → C.step s a s' →
    (∃ b t', event a = some b ∧ A.step t b t' ∧ R s' t') ∨
      (event a = none ∧ R s' t)

/-- A simulation goes through under conditions on the steps, if that on the
visible steps of `C` gives that on the steps of `A`. -/
theorem Simulation.restrict {C : System σ α} {A : System τ β} {event : α → Option β}
    {R : σ → τ → Prop} (sim : Simulation C A event R) {D : σ → α → Prop}
    {E : τ → β → Prop} (h : ∀ s a t b, R s t → D s a → event a = some b → E t b) :
    Simulation (C.restrict D) (A.restrict E) event R where
  step s a s' t hR hst := by
    rcases sim.step s a s' t hR hst.2 with ⟨b, t', hb, hA, hR'⟩ | ⟨hnone, hR'⟩
    · exact .inl ⟨b, t', hb, ⟨h s a t b hR hst.1 hb, hA⟩, hR'⟩
    · exact .inr ⟨hnone, hR'⟩

/-- A simulation carries a whole run, and the labels of the abstract run are
the visible ones of the concrete run in the same order. -/
theorem Simulation.run {C : System σ α} {A : System τ β} {event : α → Option β}
    {R : σ → τ → Prop} (sim : Simulation C A event R) {s s' : σ} {as : List α}
    (h : C.Run s as s') {t : τ} (hR : R s t) :
    ∃ t', A.Run t (as.filterMap event) t' ∧ R s' t' := by
  induction h generalizing t with
  | nil => exact ⟨t, .nil t, hR⟩
  | cons hst _ ih =>
      rcases sim.step _ _ _ _ hR hst with ⟨b, t₁, hb, hA, hR₁⟩ | ⟨hnone, hR₁⟩
      · obtain ⟨t', hrun, hR'⟩ := ih hR₁
        exact ⟨t', by rw [List.filterMap_cons_some hb]; exact .cons hA hrun, hR'⟩
      · obtain ⟨t', hrun, hR'⟩ := ih hR₁
        exact ⟨t', by rw [List.filterMap_cons_none hnone]; exact hrun, hR'⟩

end BillCounter.Lib.Runs
