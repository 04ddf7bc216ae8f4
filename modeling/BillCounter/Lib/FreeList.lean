import Mathlib.Order.Interval.Set.LinearOrder
import Mathlib.Algebra.BigOperators.Group.List.Basic
import Mathlib.Algebra.Ring.Nat

/-!
# Free lists

What is free of a memory is kept as a list of segments in the order of their addresses.
Where no two of them touch (`Separated`) the list says nothing but which cells are free:
two such lists over the same cells are equal (`Separated.ext`), and a run of free cells
lies in one of the segments (`Separated.exists_mem_of_Ico_subset`).  So a list that joins
what it can is never the reason that a request fails; only what is in use is.

`put` gives a segment back.  It joins the segment with the one in front of it and the one
behind it where they touch, which keeps the list separated and frees the cells of the
segment and no others.
-/

namespace BillCounter.Lib.FreeList

universe u

variable {α : Type u} [LinearOrder α]

/-- A segment of memory, of one cell at the least. -/
@[ext] structure Segment (α : Type u) [LinearOrder α] where
  start : α
  stop : α
  start_lt_stop : start < stop

namespace Segment

/-- The cells of a segment. -/
def cells (s : Segment α) : Set α := Set.Ico s.start s.stop

@[simp] theorem mem_cells {s : Segment α} {x : α} : x ∈ s.cells ↔ s.start ≤ x ∧ x < s.stop :=
  Iff.rfl

theorem start_mem_cells (s : Segment α) : s.start ∈ s.cells := ⟨le_refl _, s.start_lt_stop⟩

/-- `s` ends in front of `t`. -/
def Before (s t : Segment α) : Prop := s.stop ≤ t.start

/-- The two have no cell in common. -/
def Apart (s t : Segment α) : Prop := s.Before t ∨ t.Before s

theorem Apart.symm {s t : Segment α} (h : s.Apart t) : t.Apart s := Or.symm h

theorem Apart.not_mem {s t : Segment α} (h : s.Apart t) {x : α} (hx : x ∈ s.cells) :
    x ∉ t.cells := fun hx' =>
  h.elim (fun h => absurd (hx.2.trans_le h) (not_lt.2 hx'.1))
    fun h => absurd (hx'.2.trans_le h) (not_lt.2 hx.1)

theorem apart_of_disjoint {s t : Segment α} (h : ∀ x ∈ s.cells, x ∉ t.cells) : s.Apart t := by
  rcases le_total s.start t.start with hle | hle
  · exact .inl (not_lt.1 fun hlt => h _ ⟨hle, hlt⟩ t.start_mem_cells)
  · exact .inr (not_lt.1 fun hlt => h _ s.start_mem_cells ⟨hle, hlt⟩)

/-- Two segments that touch, as one. -/
def join (s t : Segment α) (h : s.stop = t.start) : Segment α where
  start := s.start
  stop := t.stop
  start_lt_stop := s.start_lt_stop.trans (h ▸ t.start_lt_stop)

@[simp] theorem join_start (s t : Segment α) (h : s.stop = t.start) :
    (s.join t h).start = s.start := rfl

@[simp] theorem join_stop (s t : Segment α) (h : s.stop = t.start) :
    (s.join t h).stop = t.stop := rfl

theorem mem_cells_join {s t : Segment α} (h : s.stop = t.start) {x : α} :
    x ∈ (s.join t h).cells ↔ x ∈ s.cells ∨ x ∈ t.cells := by
  have hs := s.start_lt_stop
  have ht := t.start_lt_stop
  simp only [mem_cells, join_start, join_stop]
  constructor
  · rintro ⟨hx, hx'⟩
    rcases lt_or_ge x s.stop with hlt | hge
    · exact .inl ⟨hx, hlt⟩
    · exact .inr ⟨h ▸ hge, hx'⟩
  · rintro (⟨hx, hx'⟩ | ⟨hx, hx'⟩)
    · exact ⟨hx, hx'.trans (h ▸ ht)⟩
    · exact ⟨(hs.le.trans (le_of_eq h)).trans hx, hx'⟩

/-- What of a segment is in front of `x`. -/
def front (s : Segment α) (x : α) (h : s.start < x) : Segment α := ⟨s.start, x, h⟩

/-- What of it is behind. -/
def back (s : Segment α) (x : α) (h : x < s.stop) : Segment α := ⟨x, s.stop, h⟩

theorem mem_cells_split {s : Segment α} {x y : α} (h : s.start < x) (h' : x < s.stop) :
    y ∈ s.cells ↔ y ∈ (s.front x h).cells ∨ y ∈ (s.back x h').cells := by
  simp only [mem_cells, front, back]
  constructor
  · rintro ⟨hy, hy'⟩
    rcases lt_or_ge y x with hlt | hge
    · exact .inl ⟨hy, hlt⟩
    · exact .inr ⟨hge, hy'⟩
  · rintro (⟨hy, hy'⟩ | ⟨hy, hy'⟩)
    · exact ⟨hy, hy'.trans h'⟩
    · exact ⟨h.le.trans hy, hy'⟩

theorem front_apart_back {s : Segment α} {x : α} (h : s.start < x) (h' : x < s.stop) :
    (s.front x h).Apart (s.back x h') := .inl (le_refl x)

end Segment

/-- The cells of the segments of a list. -/
def covered (l : List (Segment α)) : Set α := {x | ∃ s ∈ l, x ∈ s.cells}

@[simp] theorem not_mem_covered_nil {x : α} : x ∉ covered ([] : List (Segment α)) := by
  simp [covered]

@[simp] theorem mem_covered_cons {s : Segment α} {l : List (Segment α)} {x : α} :
    x ∈ covered (s :: l) ↔ x ∈ s.cells ∨ x ∈ covered l := by
  simp [covered]

@[simp] theorem mem_covered_append {l m : List (Segment α)} {x : α} :
    x ∈ covered (l ++ m) ↔ x ∈ covered l ∨ x ∈ covered m := by
  simp [covered, or_and_right, exists_or]

theorem mem_covered_of_mem {s : Segment α} {l : List (Segment α)} {x : α} (hs : s ∈ l)
    (hx : x ∈ s.cells) : x ∈ covered l := ⟨s, hs, hx⟩

/-- In order, and no two of them touch. -/
def Separated (l : List (Segment α)) : Prop := l.Pairwise fun s t => s.stop < t.start

namespace Separated

variable {s t : Segment α} {l m : List (Segment α)} {x y : α}

theorem tail (h : Separated (s :: l)) : Separated l := (List.pairwise_cons.1 h).2

theorem stop_lt (h : Separated (s :: l)) (ht : t ∈ l) : s.stop < t.start :=
  (List.pairwise_cons.1 h).1 t ht

theorem append_left (h : Separated (l ++ m)) : Separated l := (List.pairwise_append.1 h).1

theorem append_right (h : Separated (l ++ m)) : Separated m := (List.pairwise_append.1 h).2.1

/-- Without a segment the list is separated as well. -/
theorem of_middle (h : Separated (l ++ s :: m)) : Separated (l ++ m) :=
  h.sublist ((List.Sublist.refl l).append (List.sublist_cons_self s m))

/-- Behind the first segment there is nothing up to its end, which is free in none. -/
theorem stop_lt_of_mem_covered (h : Separated (s :: l)) (hx : x ∈ covered l) : s.stop < x := by
  obtain ⟨t, ht, hxt⟩ := hx
  exact (h.stop_lt ht).trans_le hxt.1

theorem start_le_of_mem_covered (h : Separated (s :: l)) (hx : x ∈ covered (s :: l)) :
    s.start ≤ x := by
  rcases mem_covered_cons.1 hx with hs | hl
  · exact hs.1
  · exact (s.start_lt_stop.trans (h.stop_lt_of_mem_covered hl)).le

theorem stop_not_mem_covered (h : Separated l) (hs : s ∈ l) : s.stop ∉ covered l := by
  induction l with
  | nil => exact absurd hs List.not_mem_nil
  | cons t l ih =>
      intro hstop
      rcases mem_covered_cons.1 hstop with ht | hl
      · rcases List.mem_cons.1 hs with rfl | hs
        · exact lt_irrefl _ ht.2
        · exact lt_asymm ht.2 ((h.stop_lt hs).trans s.start_lt_stop)
      · rcases List.mem_cons.1 hs with rfl | hs
        · exact lt_irrefl _ (h.stop_lt_of_mem_covered hl)
        · exact ih h.tail hs hl

/-- Cells free in a row are free in one segment. -/
theorem exists_mem_of_Ico_subset (h : Separated l) (hxy : x < y)
    (hsub : Set.Ico x y ⊆ covered l) : ∃ s ∈ l, s.start ≤ x ∧ y ≤ s.stop := by
  obtain ⟨s, hs, hx⟩ := hsub ⟨le_refl x, hxy⟩
  refine ⟨s, hs, hx.1, ?_⟩
  by_contra hstop
  exact h.stop_not_mem_covered hs (hsub ⟨hx.2.le, not_le.1 hstop⟩)

/-- The segments of a separated list are those of the cells it covers. -/
theorem ext (hl : Separated l) (hm : Separated m)
    (heq : ∀ x, x ∈ covered l ↔ x ∈ covered m) : l = m := by
  induction l generalizing m with
  | nil =>
      cases m with
      | nil => rfl
      | cons t m =>
          have ht := (heq t.start).2 (mem_covered_of_mem List.mem_cons_self t.start_mem_cells)
          exact absurd ht not_mem_covered_nil
  | cons s l ih =>
      cases m with
      | nil =>
          have hs := (heq s.start).1 (mem_covered_of_mem List.mem_cons_self s.start_mem_cells)
          exact absurd hs not_mem_covered_nil
      | cons t m =>
          have hs := mem_covered_of_mem (l := s :: l) List.mem_cons_self s.start_mem_cells
          have ht := mem_covered_of_mem (l := t :: m) List.mem_cons_self t.start_mem_cells
          have hstart : s.start = t.start :=
            le_antisymm (hl.start_le_of_mem_covered ((heq _).2 ht))
              (hm.start_le_of_mem_covered ((heq _).1 hs))
          -- the end of the one that is shorter is free in that list and not in the other
          have hstop : s.stop = t.stop := by
            refine le_antisymm (not_lt.1 fun hlt => ?_) (not_lt.1 fun hlt => ?_)
            · refine hm.stop_not_mem_covered List.mem_cons_self ((heq _).1 ?_)
              exact mem_covered_of_mem List.mem_cons_self ⟨hstart ▸ t.start_lt_stop.le, hlt⟩
            · refine hl.stop_not_mem_covered List.mem_cons_self ((heq _).2 ?_)
              exact mem_covered_of_mem List.mem_cons_self ⟨hstart ▸ s.start_lt_stop.le, hlt⟩
          have hst : s = t := Segment.ext hstart hstop
          subst hst
          refine congrArg _ (ih hl.tail hm.tail fun x => ?_)
          have hx := heq x
          rw [mem_covered_cons, mem_covered_cons] at hx
          constructor
          · intro hxl
            refine (hx.1 (.inr hxl)).resolve_left fun hxs => ?_
            exact lt_asymm hxs.2 (hl.stop_lt_of_mem_covered hxl)
          · intro hxm
            refine (hx.2 (.inr hxm)).resolve_left fun hxs => ?_
            exact lt_asymm hxs.2 (hm.stop_lt_of_mem_covered hxm)

end Separated

/-! ## Giving a segment back -/

/-- `b` in front of the list, joined with the first segment where they touch. -/
def putFront (b : Segment α) : List (Segment α) → List (Segment α)
  | [] => [b]
  | s :: l => if h : b.stop = s.start then b.join s h :: l else b :: s :: l

/-- `b` in its place in the list, joined with the segments it touches. -/
def put (b : Segment α) : List (Segment α) → List (Segment α)
  | [] => [b]
  | s :: l =>
      if s.start < b.start then
        if h : s.stop = b.start then putFront (s.join b h) l else s :: put b l
      else putFront b (s :: l)

variable {b s t : Segment α} {l m : List (Segment α)} {x : α}

theorem mem_covered_putFront : x ∈ covered (putFront b l) ↔ x ∈ b.cells ∨ x ∈ covered l := by
  cases l with
  | nil => simp [putFront]
  | cons s l =>
      rw [putFront]
      split
      · rename_i h
        rw [mem_covered_cons, mem_covered_cons, Segment.mem_cells_join h, or_assoc]
      · simp only [mem_covered_cons]

/-- The cells of `b` are free, and those that were. -/
theorem mem_covered_put : x ∈ covered (put b l) ↔ x ∈ b.cells ∨ x ∈ covered l := by
  induction l with
  | nil => simp [put]
  | cons s l ih =>
      rw [put]
      split
      · split
        · rename_i h
          rw [mem_covered_putFront, Segment.mem_cells_join h, mem_covered_cons]
          tauto
        · rw [mem_covered_cons, ih, mem_covered_cons]
          tauto
      · exact mem_covered_putFront

/-- A segment that is put in front starts where `b` does. -/
theorem start_le_of_mem_putFront (hl : ∀ s ∈ l, b.start ≤ s.start) (ht : t ∈ putFront b l) :
    b.start ≤ t.start := by
  cases l with
  | nil => exact le_of_eq (congrArg _ (List.mem_singleton.1 ht).symm)
  | cons s l =>
      rw [putFront] at ht
      split at ht
      · rcases List.mem_cons.1 ht with rfl | ht
        · exact le_refl _
        · exact hl t (List.mem_cons_of_mem _ ht)
      · rcases List.mem_cons.1 ht with rfl | ht
        · exact le_refl _
        · exact hl t ht

theorem separated_putFront (hl : Separated l) (hb : ∀ s ∈ l, b.Before s) :
    Separated (putFront b l) := by
  cases l with
  | nil => exact List.pairwise_singleton _ _
  | cons s l =>
      rw [putFront]
      split
      · exact List.pairwise_cons.2 ⟨fun t ht => hl.stop_lt ht, hl.tail⟩
      · rename_i hne
        have hlt : b.stop < s.start := lt_of_le_of_ne (hb s List.mem_cons_self) hne
        refine List.pairwise_cons.2 ⟨fun t ht => ?_, hl⟩
        rcases List.mem_cons.1 ht with rfl | ht
        · exact hlt
        · exact hlt.trans (s.start_lt_stop.trans (hl.stop_lt ht))

/-- A free list splits at a segment that is in use. -/
theorem Separated.exists_split (hl : Separated l) (hb : ∀ s ∈ l, s.Apart b) :
    ∃ before after, l = before ++ after ∧ (∀ s ∈ before, s.Before b) ∧
      ∀ s ∈ after, b.Before s := by
  induction l with
  | nil => exact ⟨[], [], rfl, by simp, by simp⟩
  | cons s l ih =>
      obtain ⟨before, after, rfl, hbefore, hafter⟩ :=
        ih hl.tail fun t ht => hb t (List.mem_cons_of_mem _ ht)
      rcases hb s List.mem_cons_self with hs | hs
      · refine ⟨s :: before, after, rfl, fun t ht => ?_, hafter⟩
        rcases List.mem_cons.1 ht with rfl | ht
        · exact hs
        · exact hbefore t ht
      · refine ⟨[], s :: (before ++ after), rfl, by simp, fun t ht => ?_⟩
        rcases List.mem_cons.1 ht with rfl | ht
        · exact hs
        · exact hs.trans (s.start_lt_stop.trans (hl.stop_lt ht)).le

/-- Behind segments that end in front of `b` without touching it. -/
theorem put_append_of_lt (hl : ∀ s ∈ l, s.stop < b.start) : put b (l ++ m) = l ++ put b m := by
  induction l with
  | nil => rfl
  | cons s l ih =>
      have hs := hl s List.mem_cons_self
      rw [List.cons_append, put, if_pos (s.start_lt_stop.trans hs), dif_neg hs.ne,
        ih fun t ht => hl t (List.mem_cons_of_mem _ ht), List.cons_append]

theorem put_eq_putFront (hl : ∀ s ∈ l, b.Before s) : put b l = putFront b l := by
  cases l with
  | nil => rfl
  | cons s l =>
      have hs := b.start_lt_stop.trans_le (hl s List.mem_cons_self)
      rw [put, if_neg hs.le.not_gt]

/-- Between what ends in front of it and what starts behind it, where the segment in front
of it does not touch it. -/
theorem put_apart (hl : ∀ s ∈ l, s.stop < b.start) (hm : ∀ s ∈ m, b.Before s) :
    put b (l ++ m) = l ++ putFront b m := by
  rw [put_append_of_lt hl, put_eq_putFront hm]

/-- The same, where the segment in front touches it. -/
theorem put_touching (hl : Separated (l ++ [s])) (h : s.stop = b.start) :
    put b (l ++ s :: m) = l ++ putFront (s.join b h) m := by
  have hlt : ∀ t ∈ l, t.stop < b.start := fun t ht =>
    ((List.pairwise_append.1 hl).2.2 t ht s (List.mem_singleton_self s)).trans
      (h ▸ s.start_lt_stop)
  rw [put_append_of_lt hlt, put, if_pos (h ▸ s.start_lt_stop), dif_pos h]

theorem separated_append_putFront (hl : Separated l) (hm : Separated m)
    (hb : ∀ s ∈ m, b.Before s) (hlb : ∀ s ∈ l, s.stop < b.start) :
    Separated (l ++ putFront b m) := by
  refine List.pairwise_append.2 ⟨hl, separated_putFront hm hb, fun s hs t ht => ?_⟩
  exact (hlb s hs).trans_le
    (start_le_of_mem_putFront (fun u hu => (b.start_lt_stop.trans_le (hb u hu)).le) ht)

/-- Where the last of a separated list touches `b`, the others do not. -/
theorem Separated.stop_lt_of_snoc (hl : Separated (l ++ [s])) (ht : t ∈ l) (h : s.Before b) :
    t.stop < b.start :=
  ((List.pairwise_append.1 hl).2.2 t ht s (List.mem_singleton_self s)).trans
    (s.start_lt_stop.trans_le h)

/-- What is given back leaves the list separated. -/
theorem Separated.put (hl : Separated l) (hb : ∀ s ∈ l, s.Apart b) : Separated (put b l) := by
  obtain ⟨before, after, rfl, hbefore, hafter⟩ := hl.exists_split hb
  rcases List.eq_nil_or_concat before with rfl | ⟨pre, s, rfl⟩
  · rw [List.nil_append, put_eq_putFront hafter]
    exact separated_putFront hl.append_right hafter
  rw [List.concat_eq_append] at hl hbefore ⊢
  have hpre : ∀ t ∈ pre, t.stop < b.start := fun t ht =>
    hl.append_left.stop_lt_of_snoc ht (hbefore s (by simp))
  by_cases h : s.stop = b.start
  · have hbehind : ∀ t ∈ after, (s.join b h).Before t := hafter
    rw [List.append_assoc, List.singleton_append, put_touching hl.append_left h]
    refine separated_append_putFront hl.append_left.append_left hl.append_right hbehind ?_
    exact fun t ht => (List.pairwise_append.1 hl.append_left).2.2 t ht s (List.mem_singleton_self s)
  · have hall : ∀ t ∈ pre ++ [s], t.stop < b.start := by
      intro t ht
      rcases List.mem_append.1 ht with ht | ht
      · exact hpre t ht
      · obtain rfl := List.mem_singleton.1 ht
        exact lt_of_le_of_ne (hbefore t (by simp)) h
    rw [put_apart hall hafter]
    exact separated_append_putFront hl.append_left hl.append_right hafter hall

/-! ## What joining keeps -/

theorem forall_mem_putFront {Q : Segment α → Prop}
    (hQ : ∀ s t h, Q s → Q t → Q (s.join t h)) (hb : Q b) (hl : ∀ s ∈ l, Q s) :
    ∀ s ∈ putFront b l, Q s := by
  cases l with
  | nil => exact List.forall_mem_singleton.2 hb
  | cons s l =>
      obtain ⟨hs, hl⟩ := List.forall_mem_cons.1 hl
      rw [putFront]
      split
      · exact List.forall_mem_cons.2 ⟨hQ _ _ _ hb hs, hl⟩
      · exact List.forall_mem_cons.2 ⟨hb, List.forall_mem_cons.2 ⟨hs, hl⟩⟩

/-- What `b` and the segments have, and what joining keeps, the list has. -/
theorem forall_mem_put {Q : Segment α → Prop}
    (hQ : ∀ s t h, Q s → Q t → Q (s.join t h)) (hb : Q b) (hl : ∀ s ∈ l, Q s) :
    ∀ s ∈ put b l, Q s := by
  induction l with
  | nil => exact List.forall_mem_singleton.2 hb
  | cons s l ih =>
      obtain ⟨hs, hrest⟩ := List.forall_mem_cons.1 hl
      rw [put]
      split
      · split
        · exact forall_mem_putFront hQ (hQ _ _ _ hs hb) hrest
        · exact List.forall_mem_cons.2 ⟨hs, ih hrest⟩
      · exact forall_mem_putFront hQ hb hl

variable {M : Type*} [AddCommMonoid M] {f : Segment α → M}

theorem sum_putFront (hf : ∀ s t h, f (s.join t h) = f s + f t) (b : Segment α)
    (l : List (Segment α)) : ((putFront b l).map f).sum = f b + (l.map f).sum := by
  cases l with
  | nil => rfl
  | cons s l =>
      rw [putFront]
      split
      · simp only [List.map_cons, List.sum_cons, hf, add_assoc]
      · rfl

/-- What adds up where segments are joined, grows by that of `b`. -/
theorem sum_put (hf : ∀ s t h, f (s.join t h) = f s + f t) (b : Segment α)
    (l : List (Segment α)) : ((put b l).map f).sum = f b + (l.map f).sum := by
  induction l with
  | nil => rfl
  | cons s l ih =>
      rw [put]
      split
      · split
        · rw [sum_putFront hf, hf, List.map_cons, List.sum_cons, add_comm (f s), add_assoc]
        · rw [List.map_cons, List.sum_cons, ih, List.map_cons, List.sum_cons, add_left_comm]
      · rw [sum_putFront hf]

/-! ## Sizes -/

/-- The cells of a segment of natural numbers, counted. -/
def Segment.size (s : Segment ℕ) : ℕ := s.stop - s.start

theorem Segment.start_add_size (s : Segment ℕ) : s.start + s.size = s.stop :=
  Nat.add_sub_cancel' s.start_lt_stop.le

theorem Segment.size_join (s t : Segment ℕ) (h : s.stop = t.start) :
    (s.join t h).size = s.size + t.size := by
  have hs := s.start_lt_stop
  have ht := t.start_lt_stop
  simp only [Segment.size, Segment.join_start, Segment.join_stop]
  omega

/-- The cells of a free list, counted. -/
def total (l : List (Segment ℕ)) : ℕ := (l.map Segment.size).sum

theorem total_put (b : Segment ℕ) (l : List (Segment ℕ)) : total (put b l) = b.size + total l :=
  sum_put Segment.size_join b l

theorem size_le_total {s : Segment ℕ} {l : List (Segment ℕ)} (hs : s ∈ l) :
    s.size ≤ total l := by
  obtain ⟨before, after, rfl⟩ := List.append_of_mem hs
  simp only [total, List.map_append, List.map_cons, List.sum_append, List.sum_cons]
  omega

theorem length_le_total (l : List (Segment ℕ)) : l.length ≤ total l := by
  induction l with
  | nil => exact le_refl 0
  | cons s l ih =>
      have hlt := s.start_lt_stop
      simp only [total, List.map_cons, List.sum_cons, List.length_cons, Segment.size] at *
      omega

/-- There are no more cells in them than there is room for. -/
theorem Separated.total_le {l : List (Segment ℕ)} {low high : ℕ} (h : Separated l)
    (hle : low ≤ high) (hl : ∀ s ∈ l, low ≤ s.start ∧ s.stop ≤ high) :
    low + total l ≤ high := by
  induction l generalizing low with
  | nil => exact hle
  | cons s l ih =>
      obtain ⟨hs, hrest⟩ := List.forall_mem_cons.1 hl
      have htotal := ih h.tail hs.2 fun t ht => ⟨(h.stop_lt ht).le, (hrest t ht).2⟩
      have hlt := s.start_lt_stop
      simp only [total, List.map_cons, List.sum_cons, Segment.size] at *
      omega

end BillCounter.Lib.FreeList
