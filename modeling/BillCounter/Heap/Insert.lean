import BillCounter.Heap.Model
import BillCounter.Lib.FreeList
import Mathlib.Tactic.Set

/-!
# The list of free blocks in memory

`FreeList` says of a memory which blocks are free: from `xStart` on, each of them is linked
to the next and has its size, up to `pxEnd`.  `prvInsertBlockIntoFreeList` then is `put`: the
walk ends at the last block in front of the one to insert, and the four ways to link it are
those of a segment that touches the one in front of it, the one behind it, both or none.
-/

namespace BillCounter.Heap

open BillCounter.Lib.FreeList

namespace Memory

@[simp] theorem pxNextFreeBlock_apply (m : Memory) (p : Nat) : m.pxNextFreeBlock p = m p := rfl

@[simp] theorem xBlockSize_apply (m : Memory) (p : Nat) : m.xBlockSize p = m (p + 4) := rfl

end Memory

/-! ## Where the blocks lie -/

namespace Placement

/-- Where the first block starts. -/
def low (P : Placement) : Nat := (P.ucHeap + 7) / 8 * 8

/-- Where `pxEnd` is, behind the last block. -/
def high (P : Placement) : Nat := (P.ucHeap + configTotalHeapSize - 8) / 8 * 8

theorem bounds (P : Placement) :
    P.low % 8 = 0 ∧ P.high % 8 = 0 ∧ P.low + 16 ≤ P.high ∧ P.high ≤ P.low + 16376 ∧
      P.ucHeap ≤ P.low ∧ P.high + 8 ≤ P.ucHeap + 16384 ∧ P.high + 8 ≤ 2 ^ 32 ∧
      (P.xStart + 8 ≤ P.low ∨ P.high + 8 ≤ P.xStart) := by
  have hfits := P.ucHeap_fits
  have hapart := P.xStart_apart
  simp only [low, high, configTotalHeapSize, xHeapStructSize] at *
  omega

end Placement

/-- What every block is: of the heap, aligned, and at least as large as two `BlockLink_t`. -/
structure InHeap (P : Placement) (s : Segment Nat) : Prop where
  low_le : P.low ≤ s.start
  stop_le : s.stop ≤ P.high
  start_aligned : s.start % 8 = 0
  stop_aligned : s.stop % 8 = 0
  start_add_le : s.start + 16 ≤ s.stop

theorem inHeap_join {P : Placement} (s t : Segment Nat) (h : s.stop = t.start)
    (hs : InHeap P s) (ht : InHeap P t) : InHeap P (s.join t h) where
  low_le := hs.low_le
  stop_le := ht.stop_le
  start_aligned := hs.start_aligned
  stop_aligned := ht.stop_aligned
  start_add_le := by
    have hs' := hs.start_add_le
    have ht' := ht.start_add_le
    simp only [Segment.join_start, Segment.join_stop]
    omega

theorem InHeap.size_lt {P : Placement} {s : Segment Nat} (hs : InHeap P s) :
    s.size ≤ 16384 := by
  have hbounds := P.bounds
  have hlow := hs.low_le
  have hstop := hs.stop_le
  unfold Segment.size
  omega

/-- The two words of the `BlockLink_t` are cells of the block. -/
theorem InHeap.header_mem {P : Placement} {s : Segment Nat} (hs : InHeap P s) :
    s.start ∈ s.cells ∧ s.start + 4 ∈ s.cells := by
  have hle := hs.start_add_le
  simp only [Segment.mem_cells]
  omega

theorem InHeap.ne_xStart {P : Placement} {s : Segment Nat} (hs : InHeap P s) {x : Nat}
    (hx : x ∈ s.cells) : x ≠ P.xStart := by
  have hbounds := P.bounds
  have hlow := hs.low_le
  have hstop := hs.stop_le
  simp only [Segment.mem_cells] at hx
  omega

/-! ## Links -/

/-- The pointer to a list that ends with `e`. -/
def first (e : Nat) : List (Segment Nat) → Nat
  | [] => e
  | s :: _ => s.start

@[simp] theorem first_nil (e : Nat) : first e [] = e := rfl

@[simp] theorem first_cons (e : Nat) (s : Segment Nat) (l : List (Segment Nat)) :
    first e (s :: l) = s.start := rfl

theorem first_append (e : Nat) (l k : List (Segment Nat)) :
    first e (l ++ k) = first (first e k) l := by
  cases l <;> rfl

@[simp] theorem first_putFront (e : Nat) (b : Segment Nat) (l : List (Segment Nat)) :
    first e (putFront b l) = b.start := by
  cases l with
  | nil => rfl
  | cons s l =>
      rw [putFront]
      split <;> rfl

/-- Each block has its size and is linked to the next, the last one to `e`. -/
def Linked (m : Memory) (e : Nat) : List (Segment Nat) → Prop
  | [] => True
  | s :: l =>
      m.xBlockSize s.start = s.size ∧ m.pxNextFreeBlock s.start = first e l ∧ Linked m e l

variable {P : Placement} {m m' : Memory} {e : Nat} {s b : Segment Nat}
  {l k before after : List (Segment Nat)}

theorem linked_append : Linked m e (l ++ k) ↔ Linked m (first e k) l ∧ Linked m e k := by
  induction l with
  | nil => simp [Linked]
  | cons s l ih => simp only [List.cons_append, Linked, ih, first_append, and_assoc]

/-- Only the headers of the blocks matter. -/
theorem Linked.congr (h : Linked m e l)
    (hm : ∀ s ∈ l, m' s.start = m s.start ∧ m' (s.start + 4) = m (s.start + 4)) :
    Linked m' e l := by
  induction l with
  | nil => trivial
  | cons s l ih =>
      obtain ⟨hs, hl⟩ := List.forall_mem_cons.1 hm
      exact ⟨hs.2.trans h.1, hs.1.trans h.2.1, ih h.2.2 hl⟩

/-- The last block may be linked anew. -/
theorem Linked.relink (h : Linked m e (l ++ [s])) {e' : Nat} (hnext : m' s.start = e')
    (hsize : m' (s.start + 4) = m (s.start + 4))
    (hm : ∀ t ∈ l, m' t.start = m t.start ∧ m' (t.start + 4) = m (t.start + 4)) :
    Linked m' e' (l ++ [s]) := by
  obtain ⟨hl, hs⟩ := linked_append.1 h
  exact linked_append.2 ⟨hl.congr hm, hsize.trans hs.1, hnext, trivial⟩

/-- The last node of a walk over `l` that starts at `x`. -/
def lastNode (x : Nat) : List (Segment Nat) → Nat
  | [] => x
  | s :: l => lastNode s.start l

theorem lastNode_snoc (x : Nat) (l : List (Segment Nat)) (s : Segment Nat) :
    lastNode x (l ++ [s]) = s.start := by
  induction l generalizing x with
  | nil => rfl
  | cons t l ih => exact ih t.start

/-- The last node of a linked list points to its end. -/
theorem Linked.lastNode_next {x : Nat} (hx : m.pxNextFreeBlock x = first e l)
    (h : Linked m e l) : m.pxNextFreeBlock (lastNode x l) = e := by
  induction l generalizing x with
  | nil => exact hx
  | cons s l ih => exact ih h.2.1 h.2.2

/-- What is free: the blocks between `xStart` and `pxEnd`. -/
structure FreeList (P : Placement) (m : Memory) (l : List (Segment Nat)) : Prop where
  start_next : m.pxNextFreeBlock P.xStart = first P.high l
  start_size : m.xBlockSize P.xStart = 0
  linked : Linked m P.high l
  end_next : m.pxNextFreeBlock P.high = 0
  end_size : m.xBlockSize P.high = 0
  separated : Separated l
  inHeap : ∀ s ∈ l, InHeap P s

/-- A cell that is free is one of the heap. -/
theorem FreeList.bounds_of_mem_covered (h : FreeList P m l) {x : Nat} (hx : x ∈ covered l) :
    P.low ≤ x ∧ x < P.high := by
  obtain ⟨s, hs, hxs⟩ := hx
  exact ⟨(h.inHeap s hs).low_le.trans hxs.1, hxs.2.trans_le (h.inHeap s hs).stop_le⟩

theorem FreeList.total_le (h : FreeList P m l) : P.low + total l ≤ P.high :=
  h.separated.total_le (by have hbounds := P.bounds; omega) fun s hs =>
    ⟨(h.inHeap s hs).low_le, (h.inHeap s hs).stop_le⟩

theorem FreeList.length_lt (h : FreeList P m l) : l.length < configTotalHeapSize := by
  have hbounds := P.bounds
  have htotal := h.total_le
  have hlen := length_le_total l
  simp only [configTotalHeapSize]
  omega

/-! ## Insertion -/

/-- The walk ends at the last block in front of the one to insert. -/
theorem findPlace_eq {x p fuel : Nat} (hx : m.pxNextFreeBlock x = first e (before ++ after))
    (hlinked : Linked m e (before ++ after)) (hbefore : ∀ s ∈ before, s.start < p)
    (hafter : p ≤ first e after) (hfuel : before.length < fuel) :
    findPlace m p fuel x = some (lastNode x before) := by
  induction before generalizing x fuel with
  | nil =>
      obtain ⟨fuel, rfl⟩ := Nat.exists_eq_succ_of_ne_zero (Nat.ne_zero_of_lt hfuel)
      rw [findPlace, hx, List.nil_append, if_neg (Nat.not_lt.2 hafter)]
      rfl
  | cons s before ih =>
      obtain ⟨fuel, rfl⟩ := Nat.exists_eq_succ_of_ne_zero (Nat.ne_zero_of_lt hfuel)
      obtain ⟨hs, hbefore⟩ := List.forall_mem_cons.1 hbefore
      rw [findPlace, hx, List.cons_append, first_cons, if_pos hs]
      exact ih hlinked.2.1 hlinked.2.2 hbefore (Nat.lt_of_succ_lt_succ hfuel)

theorem addSize_eq {x y : Nat} (h : x + y < 2 ^ 32) : addSize x y = x + y := Nat.mod_eq_of_lt h

/-- The block is linked to what is behind it, and joined with the next one if they touch.
Only its own header is written. -/
theorem linkNext_spec (it : Nat) (hnext : m.pxNextFreeBlock it = first P.high l)
    (hsize : m.xBlockSize b.start = b.size) (hlinked : Linked m P.high l)
    (hb : InHeap P b) (hl : ∀ s ∈ l, InHeap P s) (hsep : Separated l)
    (hbefore : ∀ s ∈ l, b.Before s) :
    Linked (linkNext P.high m it b.start) P.high (putFront b l) ∧
      ∀ x, x ≠ b.start → x ≠ b.start + 4 → linkNext P.high m it b.start x = m x := by
  have hadd := b.start_add_size
  have hrest : ∀ m' : Memory, (∀ x, x ≠ b.start → x ≠ b.start + 4 → m' x = m x) →
      ∀ s ∈ l, m' s.start = m s.start ∧ m' (s.start + 4) = m (s.start + 4) := by
    intro m' hm s hs
    have hb' := hb.start_add_le
    have hs' := hbefore s hs
    unfold Segment.Before at hs'
    exact ⟨hm _ (by omega) (by omega), hm _ (by omega) (by omega)⟩
  simp only [linkNext, hnext, hsize, hadd]
  cases l with
  | nil =>
      -- the end marker is not joined, whether it touches or not
      have hmem : ∀ x, x ≠ b.start → m.setNextFreeBlock b.start P.high x = m x := fun x hx =>
        Memory.setNextFreeBlock_of_ne hx ..
      have hlinked' : Linked (m.setNextFreeBlock b.start P.high) P.high [b] :=
        ⟨(hmem _ (by omega)).trans hsize, Memory.setNextFreeBlock_self .., trivial⟩
      rw [first_nil, if_neg (not_not.2 rfl), ite_self]
      exact ⟨hlinked', fun x hx _ => hmem x hx⟩
  | cons s l =>
      obtain ⟨hs, hl'⟩ := List.forall_mem_cons.1 hl
      have hne : s.start ≠ P.high := by
        have hle := hs.start_add_le
        have hle' := hs.stop_le
        omega
      rw [first_cons, if_pos hne, putFront]
      split
      · rename_i h
        have hsum : addSize b.size (m.xBlockSize s.start) = (b.join s h).size := by
          have hb' := hb.size_lt
          have hs' := hs.size_lt
          rw [hlinked.1, Segment.size_join]
          exact addSize_eq (by omega)
        have hmem : ∀ x v v', x ≠ b.start → x ≠ b.start + 4 →
            (m.setBlockSize b.start v).setNextFreeBlock b.start v' x = m x := by
          intro x v v' hx hx'
          rw [Memory.setNextFreeBlock_of_ne hx, Memory.setBlockSize_of_ne hx']
        refine ⟨⟨?_, ?_, ?_⟩, fun x hx hx' => hmem x _ _ hx hx'⟩
        · show (Memory.setNextFreeBlock _ _ _) (b.start + 4) = _
          rw [Memory.setNextFreeBlock_of_ne (by omega), Memory.setBlockSize_self, hsum]
        · show (Memory.setNextFreeBlock _ _ _) b.start = _
          rw [Memory.setNextFreeBlock_self, Memory.pxNextFreeBlock_apply,
            Memory.setBlockSize_of_ne (by
              have hlt := b.start_lt_stop
              have hle := hb.start_add_le
              omega)]
          exact hlinked.2.1
        · refine hlinked.2.2.congr fun t ht => ?_
          exact hrest _ (fun x hx hx' => hmem x _ _ hx hx') t (List.mem_cons_of_mem _ ht)
      · have hmem : ∀ x, x ≠ b.start → x ≠ b.start + 4 →
            m.setNextFreeBlock b.start s.start x = m x := fun x hx _ =>
          Memory.setNextFreeBlock_of_ne hx ..
        refine ⟨⟨?_, Memory.setNextFreeBlock_self .., hlinked.congr (hrest _ hmem)⟩, hmem⟩
        show (Memory.setNextFreeBlock _ _ _) (b.start + 4) = _
        rw [Memory.setNextFreeBlock_of_ne (by omega)]
        exact hsize

/-- Where the header of another block lies: not in a block that is apart from it. -/
theorem header_ne (hs : InHeap P s) (hb : InHeap P b) (h : s.Apart b) :
    s.start ≠ b.start ∧ s.start ≠ b.start + 4 ∧ s.start + 4 ≠ b.start ∧
      s.start + 4 ≠ b.start + 4 := by
  have hs' := hs.start_add_le
  have hb' := hb.start_add_le
  unfold Segment.Apart Segment.Before at h
  omega

theorem xStart_ne (hb : InHeap P b) : P.xStart ≠ b.start ∧ P.xStart ≠ b.start + 4 ∧
    P.xStart + 4 ≠ b.start ∧ P.xStart + 4 ≠ b.start + 4 := by
  have hbounds := P.bounds
  have hlow := hb.low_le
  have hstop := hb.stop_le
  have hb' := hb.start_add_le
  omega

/-- What is left of `FreeList` once the links are there. -/
theorem FreeList.put (h : FreeList P m l) (hb : InHeap P b) (hapart : ∀ s ∈ l, s.Apart b)
    (hnext : m'.pxNextFreeBlock P.xStart = first P.high (put b l))
    (hlinked : Linked m' P.high (put b l))
    (hframe : ∀ x, x ≠ P.xStart → x ∉ covered l → x ∉ b.cells → m' x = m x) :
    FreeList P m' (put b l) := by
  have hbounds := P.bounds
  have hout : ∀ x, x ≠ P.xStart → (x < P.low ∨ P.high ≤ x) → m' x = m x := by
    intro x hne hx
    refine hframe x hne (fun hcov => ?_) fun hcell => ?_
    · have hcov' := h.bounds_of_mem_covered hcov
      omega
    · have hlow := hb.low_le
      have hstop := hb.stop_le
      simp only [Segment.mem_cells] at hcell
      omega
  exact
    { start_next := hnext
      start_size := (hout _ (by omega) (by omega)).trans h.start_size
      linked := hlinked
      end_next := (hout _ (by omega) (by omega)).trans h.end_next
      end_size := (hout _ (by omega) (by omega)).trans h.end_size
      separated := h.separated.put hapart
      inHeap := forall_mem_put inHeap_join hb h.inHeap }

/-- The node in front of the one to insert: `xStart`, or the last block in front of it. -/
theorem lastNode_cases (x : Nat) (before : List (Segment Nat)) :
    before = [] ∧ lastNode x before = x ∨
      ∃ pre s, before = pre ++ [s] ∧ lastNode x before = s.start := by
  rcases List.eq_nil_or_concat before with rfl | ⟨pre, s, rfl⟩
  · exact .inl ⟨rfl, rfl⟩
  · rw [List.concat_eq_append]
    exact .inr ⟨pre, s, rfl, lastNode_snoc ..⟩

/-- It is not a word of a block behind it. -/
theorem lastNode_ne (hs : InHeap P s) (hbefore : ∀ t ∈ before, t.Before s) :
    s.start ≠ lastNode P.xStart before ∧ s.start + 4 ≠ lastNode P.xStart before := by
  rcases lastNode_cases P.xStart before with ⟨_, hlast⟩ | ⟨pre, t, rfl, hlast⟩
  · have hx := xStart_ne hs
    rw [hlast]
    exact ⟨hx.1.symm, fun heq => hx.2.1 heq.symm⟩
  · have hle := hbefore t (by simp)
    have hlt := t.start_lt_stop
    unfold Segment.Before at hle
    omega

/-- What is written at that node alone links it anew, to the node `r`. -/
theorem FreeList.relink (h : FreeList P m (before ++ after)) (m' : Memory) {r : Nat}
    (hnode : m' (lastNode P.xStart before) = r)
    (hm : ∀ x, x ≠ lastNode P.xStart before →
      x = P.xStart ∨ x ∈ covered before → m' x = m x) :
    Linked m' r before ∧ m'.pxNextFreeBlock P.xStart = first r before := by
  have hlinked := (linked_append.1 h.linked).1
  rcases lastNode_cases P.xStart before with ⟨rfl, hlast⟩ | ⟨pre, s, rfl, hlast⟩
  · exact ⟨trivial, hnode⟩
  · rw [hlast] at hnode hm
    have hs := h.inHeap s (by simp)
    have hxs := xStart_ne hs
    constructor
    · refine hlinked.relink hnode (hm _ (by omega) (.inr ?_)) fun t ht => ?_
      · exact mem_covered_of_mem (by simp) hs.header_mem.2
      · have hts : t.stop < s.start := (List.pairwise_append.1 h.separated.append_left).2.2 t ht s
          (List.mem_singleton_self s)
        have ht' := h.inHeap t (by simp [ht])
        have hne := header_ne ht' hs (.inl hts.le)
        exact ⟨hm _ hne.1 (.inr (mem_covered_of_mem (by simp [ht]) ht'.header_mem.1)),
          hm _ hne.2.2.1 (.inr (mem_covered_of_mem (by simp [ht]) ht'.header_mem.2))⟩
    · refine (hm _ hxs.1 (.inl rfl)).trans (h.start_next.trans ?_)
      rw [first_append, first_append, first_append]
      rfl

/-- The block does not touch the one in front of it, or there is none: the node in front is
linked to it. -/
theorem insert_apart (h : FreeList P m (before ++ after)) (hb : InHeap P b)
    (hbefore : ∀ s ∈ before, s.stop < b.start) (hafter : ∀ s ∈ after, b.Before s)
    (hsize : m.xBlockSize b.start = b.size)
    (hm : m' = linkBlock P.high m (lastNode P.xStart before) b.start) :
    FreeList P m' (put b (before ++ after)) ∧
      ∀ x, x ≠ P.xStart → x ∉ covered (before ++ after) → x ∉ b.cells → m' x = m x := by
  have hapart : ∀ s ∈ before ++ after, s.Apart b := fun s hs =>
    (List.mem_append.1 hs).imp (fun hs => (hbefore s hs).le) (hafter s)
  have hlinked := linked_append.1 h.linked
  have hit := hlinked.1.lastNode_next (h.start_next.trans (first_append ..))
  have hbcells := hb.header_mem
  have hne := lastNode_ne hb fun t ht => (hbefore t ht).le
  obtain ⟨hput, hframe⟩ := linkNext_spec _ hit hsize hlinked.2 hb
    (fun s hs => h.inHeap s (List.mem_append_right _ hs)) h.separated.append_right hafter
  rw [linkBlock, if_pos hne.1.symm] at hm
  have hm' : ∀ x, x ≠ lastNode P.xStart before → x ∉ b.cells → m' x = m x := by
    intro x hx hcell
    rw [hm, Memory.setNextFreeBlock_of_ne hx]
    exact hframe x (fun hx => hcell (hx ▸ hbcells.1)) fun hx => hcell (hx ▸ hbcells.2)
  have hframe' : ∀ x, x ≠ P.xStart → x ∉ covered (before ++ after) → x ∉ b.cells →
      m' x = m x := by
    intro x hx hcov hcell
    refine hm' x ?_ hcell
    rcases lastNode_cases P.xStart before with ⟨_, hlast⟩ | ⟨pre, s, rfl, hlast⟩
    · rwa [hlast]
    · rw [hlast]
      intro hxs
      exact hcov (mem_covered_of_mem (s := s) (by simp) (hxs ▸ s.start_mem_cells))
  have hbehind : Linked m' P.high (putFront b after) := by
    refine hput.congr fun s hs => ?_
    have hs' := forall_mem_putFront inHeap_join hb
      (fun t ht => h.inHeap t (List.mem_append_right _ ht)) s hs
    have hle := start_le_of_mem_putFront
      (fun t ht => (b.start_lt_stop.trans_le (hafter t ht)).le) hs
    have hnode := lastNode_ne hs' fun t ht => (hbefore t ht).le.trans hle
    rw [hm, Memory.setNextFreeBlock_of_ne hnode.1, Memory.setNextFreeBlock_of_ne hnode.2]
    exact ⟨rfl, rfl⟩
  have hfront := h.relink m' (r := b.start)
    (by rw [hm]; exact Memory.setNextFreeBlock_self ..) fun x hx hx' => hm' x hx fun hcell => by
      rcases hx' with rfl | ⟨s, hs, hxs⟩
      · have hbounds := P.bounds
        have hlow := hb.low_le
        have hstop := hb.stop_le
        simp only [Segment.mem_cells] at hcell
        omega
      · exact absurd (hxs.2.trans (hbefore s hs)) (not_lt.2 hcell.1)
  have hput' : put b (before ++ after) = before ++ putFront b after := put_apart hbefore hafter
  refine ⟨h.put hb hapart ?_ ?_ hframe', hframe'⟩
  · rw [hput', first_append, first_putFront]
    exact hfront.2
  · rw [hput']
    exact linked_append.2 ⟨(first_putFront P.high b after).symm ▸ hfront.1, hbehind⟩

/-- The block touches the one in front of it, which grows: no node in front is written. -/
theorem insert_touching (h : FreeList P m (before ++ s :: after)) (hb : InHeap P b)
    (htouch : s.stop = b.start) (hafter : ∀ t ∈ after, b.Before t)
    (hsize : m.xBlockSize b.start = b.size)
    (hm : m' = linkBlock P.high (m.setBlockSize s.start
      (addSize (m.xBlockSize s.start) (m.xBlockSize b.start))) s.start s.start) :
    FreeList P m' (put b (before ++ s :: after)) ∧
      ∀ x, x ≠ P.xStart → x ∉ covered (before ++ s :: after) → x ∉ b.cells → m' x = m x := by
  have hs := h.inHeap s (by simp)
  have hlinked := linked_append.1 h.linked
  have hsep := h.separated.append_right
  have hbefore : ∀ t ∈ before, t.stop < s.start := fun t ht =>
    (List.pairwise_append.1 h.separated).2.2 t ht s List.mem_cons_self
  have hjoined : InHeap P (s.join b htouch) := inHeap_join s b htouch hs hb
  have hsum : addSize (m.xBlockSize s.start) (m.xBlockSize b.start) =
      (s.join b htouch).size := by
    have hs' := hs.size_lt
    have hb' := hb.size_lt
    rw [hlinked.2.1, hsize, Segment.size_join]
    exact addSize_eq (by omega)
  have hbehind : ∀ t ∈ after, (s.join b htouch).Before t := hafter
  obtain ⟨hput, hframe⟩ := linkNext_spec (b := s.join b htouch)
    (m := m.setBlockSize s.start (s.join b htouch).size) s.start
    ((Memory.setBlockSize_of_ne (by omega) ..).trans hlinked.2.2.1)
    (Memory.setBlockSize_self ..)
    (hlinked.2.2.2.congr fun t ht => by
      have ht' := h.inHeap t (by simp [ht])
      have hne := header_ne ht' hs (.inr (hsep.stop_lt ht).le)
      exact ⟨Memory.setBlockSize_of_ne hne.2.1 .., Memory.setBlockSize_of_ne hne.2.2.2 ..⟩)
    hjoined (fun t ht => h.inHeap t (by simp [ht])) hsep.tail hbehind
  rw [hsum, linkBlock, if_neg (not_not.2 rfl)] at hm
  have hm' : ∀ x, x ≠ s.start → x ≠ s.start + 4 → m' x = m x := by
    intro x hx hx'
    rw [hm]
    exact (hframe x hx hx').trans (Memory.setBlockSize_of_ne hx' ..)
  have hframe' : ∀ x, x ≠ P.xStart → x ∉ covered (before ++ s :: after) → x ∉ b.cells →
      m' x = m x := by
    intro x _ hcov _
    exact hm' x (fun hx => hcov (mem_covered_of_mem (s := s) (by simp) (hx ▸ hs.header_mem.1)))
      fun hx => hcov (mem_covered_of_mem (s := s) (by simp) (hx ▸ hs.header_mem.2))
  have hput' : put b (before ++ s :: after) = before ++ putFront (s.join b htouch) after :=
    put_touching (h.separated.sublist (by simp)) htouch
  have hapart : ∀ t ∈ before ++ s :: after, t.Apart b := by
    intro t ht
    rcases List.mem_append.1 ht with ht | ht
    · exact .inl ((hbefore t ht).le.trans (s.start_lt_stop.le.trans htouch.le))
    · rcases List.mem_cons.1 ht with rfl | ht
      · exact .inl htouch.le
      · exact .inr (hafter t ht)
  have hfirst : first P.high (putFront (s.join b htouch) after) = first P.high (s :: after) :=
    first_putFront ..
  refine ⟨h.put hb hapart ?_ ?_ hframe', hframe'⟩
  · have hx := xStart_ne hs
    rw [hput', first_append, hfirst, ← first_append]
    exact (hm' _ hx.1 hx.2.1).trans h.start_next
  · rw [hput']
    refine linked_append.2 ⟨hfirst ▸ hlinked.1.congr fun t ht => ?_, hm ▸ hput⟩
    have ht' := h.inHeap t (by simp [ht])
    have hne := header_ne ht' hs (.inl (hbefore t ht).le)
    exact ⟨hm' _ hne.1 hne.2.1, hm' _ hne.2.2.1 hne.2.2.2⟩

/-- `prvInsertBlockIntoFreeList` gives a block back: it ends, the list is that of `put`, and
nothing is written but in `xStart`, in free blocks and in the block. -/
theorem insert_spec (h : FreeList P m l) (hb : InHeap P b) (hapart : ∀ s ∈ l, s.Apart b)
    (hsize : m.xBlockSize b.start = b.size) :
    ∃ m', prvInsertBlockIntoFreeList P P.high m b.start = some m' ∧ FreeList P m' (put b l) ∧
      ∀ x, x ≠ P.xStart → x ∉ covered l → x ∉ b.cells → m' x = m x := by
  obtain ⟨before, after, rfl, hbefore, hafter⟩ := h.separated.exists_split hapart
  have hfirst : b.start ≤ first P.high after := by
    cases after with
    | nil => exact b.start_lt_stop.le.trans hb.stop_le
    | cons s after => exact (b.start_lt_stop.trans_le (hafter s List.mem_cons_self)).le
  have hlen : before.length < configTotalHeapSize := by
    have hall := h.length_lt
    rw [List.length_append] at hall
    omega
  have hfind := findPlace_eq (x := P.xStart) h.start_next h.linked
    (fun s hs => s.start_lt_stop.trans_le (hbefore s hs)) hfirst hlen
  rw [prvInsertBlockIntoFreeList, hfind, Option.map_some]
  refine ⟨_, rfl, ?_⟩
  rcases lastNode_cases P.xStart before with ⟨rfl, hlast⟩ | ⟨pre, s, rfl, hlast⟩
  · -- `xStart` has no size and touches nothing
    have hne : P.xStart + m.xBlockSize P.xStart ≠ b.start := by
      rw [h.start_size]
      exact (xStart_ne hb).1
    rw [hlast, if_neg hne]
    exact insert_apart h hb (by simp) hafter hsize (by rw [hlast])
  · have hs := (linked_append.1 (linked_append.1 h.linked).1).2.1
    have hend : s.start + m.xBlockSize s.start = s.stop := by rw [hs, s.start_add_size]
    have hle : s.stop ≤ b.start := hbefore s (by simp)
    rw [hlast, hend]
    split
    · rename_i htouch
      rw [List.append_assoc, List.singleton_append] at h ⊢
      exact insert_touching h hb htouch hafter hsize rfl
    · rename_i hne
      refine insert_apart h hb (fun t ht => ?_) hafter hsize (by rw [hlast])
      rcases List.mem_append.1 ht with ht | ht
      · exact h.separated.append_left.stop_lt_of_snoc ht hle
      · exact List.mem_singleton.1 ht ▸ lt_of_le_of_ne hle hne

end BillCounter.Heap
