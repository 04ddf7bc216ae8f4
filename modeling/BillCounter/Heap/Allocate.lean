import BillCounter.Heap.Insert
import Mathlib.Data.Nat.Bitwise

/-!
# `pvPortMalloc` and `vPortFree`

The first call sets the heap up as one free block (`prepared_prvHeapInit`).  On a heap that is
set up, a request takes the first block that is large enough out of the list and gives the end
of it back if that makes a block (`malloc_spec`); nothing but free memory is written.  A block
that is freed is put back (`freeInsert_spec`).  Both always end, and no assertion fails.
-/

namespace BillCounter.Heap

open BillCounter.Lib.FreeList

theorem and_mask (x : Nat) : x &&& portByteAlignmentMask = x % 8 :=
  Nat.and_two_pow_sub_one_eq_mod x 3

theorem and_allocatedBit {x : Nat} (h : x < 2 ^ 31) : x &&& 2 ^ 31 = 0 := by
  rw [Nat.and_two_pow, Nat.testBit_lt_two_pow h]
  rfl

theorem and_allocatedBit_ne {x : Nat} (h : 2 ^ 31 ≤ x) (h' : x < 2 ^ 32) :
    x &&& 2 ^ 31 ≠ 0 := by
  rw [Nat.and_two_pow, Nat.testBit_of_two_pow_le_and_two_pow_add_one_gt h h']
  decide

theorem or_allocatedBit {x : Nat} (h : x < 2 ^ 31) : x ||| 2 ^ 31 = x + 2 ^ 31 := by
  rw [Nat.or_comm, Nat.add_comm]
  exact (Nat.two_pow_add_eq_or_of_lt h 1).symm

theorem subSize_eq {x y : Nat} (h : y ≤ x) (hx : x < 2 ^ 32) : subSize x y = x - y := by
  unfold subSize
  omega

/-- The size of the block for a request. -/
def blockFor (xWantedSize : Nat) : Nat := (xWantedSize + 15) / 8 * 8

theorem alignedSize_eq {xWantedSize : Nat} (hpos : 0 < xWantedSize)
    (hlt : xWantedSize < 2 ^ 31) : alignedSize xWantedSize = blockFor xWantedSize := by
  simp only [alignedSize, if_pos hpos, addSize, xHeapStructSize, portByteAlignment, and_mask,
    blockFor]
  split <;> omega

variable {P : Placement} {m m' : Memory} {s b : Segment Nat} {h h' : HeapState}
  {l l' before after : List (Segment Nat)}

/-! ## Setting up -/

/-- All that the heap has. -/
def wholeHeap (P : Placement) : Segment Nat where
  start := P.low
  stop := P.high
  start_lt_stop := by
    have hbounds := P.bounds
    omega

theorem inHeap_wholeHeap (P : Placement) : InHeap P (wholeHeap P) := by
  have hbounds := P.bounds
  exact ⟨le_refl _, le_refl _, hbounds.1, hbounds.2.1, hbounds.2.2.1⟩

/-- The statics say what is free. -/
structure Prepared (P : Placement) (h : HeapState) (l : List (Segment Nat)) : Prop where
  pxEnd_eq : h.pxEnd = P.high
  bit_eq : h.xBlockAllocatedBit = 2 ^ 31
  remaining : h.xFreeBytesRemaining = total l
  free : FreeList P h.memory l

theorem alignedHeap_eq (P : Placement) :
    (if P.ucHeap &&& portByteAlignmentMask ≠ 0 then
      (clearBits (P.ucHeap + (portByteAlignment - 1)) portByteAlignmentMask,
        configTotalHeapSize -
          (clearBits (P.ucHeap + (portByteAlignment - 1)) portByteAlignmentMask - P.ucHeap))
      else (P.ucHeap, configTotalHeapSize)) =
      (P.low, P.ucHeap + configTotalHeapSize - P.low) := by
  simp only [clearBits, and_mask, portByteAlignment, Placement.low, configTotalHeapSize]
  split <;> refine Prod.ext ?_ ?_ <;> simp only <;> omega

/-- The first call leaves one free block. -/
theorem prepared_prvHeapInit (P : Placement) (h : HeapState) :
    Prepared P (prvHeapInit P h) [wholeHeap P] ∧
      (prvHeapInit P h).xMinimumEverFreeBytesRemaining = P.high - P.low := by
  have hbounds := P.bounds
  have hhigh : clearBits (P.low + (P.ucHeap + configTotalHeapSize - P.low) - xHeapStructSize)
      portByteAlignmentMask = P.high := by
    simp only [clearBits, and_mask, configTotalHeapSize, xHeapStructSize, Placement.high] at *
    omega
  have hsize : subSize P.high P.low = P.high - P.low := subSize_eq (by omega) (by omega)
  have hmem : (prvHeapInit P h).memory =
      (((((h.memory.setNextFreeBlock P.xStart P.low).setBlockSize P.xStart 0).setBlockSize
        P.high 0).setNextFreeBlock P.high 0).setBlockSize P.low
          (P.high - P.low)).setNextFreeBlock P.low P.high := by
    simp only [prvHeapInit, alignedHeap_eq, hhigh, hsize]
  have hlow : (prvHeapInit P h).memory (P.low + 4) = P.high - P.low := by
    rw [hmem, Memory.setNextFreeBlock_of_ne (by omega), Memory.setBlockSize_self]
  have hfree : (prvHeapInit P h).xFreeBytesRemaining = P.high - P.low := by
    rw [← hlow, hmem]
    simp only [prvHeapInit, alignedHeap_eq, hhigh, hsize, Memory.xBlockSize_apply]
  have hmin : (prvHeapInit P h).xMinimumEverFreeBytesRemaining = P.high - P.low := hfree
  have hlist : FreeList P (prvHeapInit P h).memory [wholeHeap P] := by
    refine ⟨?_, ?_, ⟨hlow, ?_, trivial⟩, ?_, ?_, List.pairwise_singleton _ _, ?_⟩
    iterate 5
      rw [hmem]
      simp (disch := omega) only [Memory.pxNextFreeBlock_apply, Memory.xBlockSize_apply,
        Memory.setNextFreeBlock_of_ne, Memory.setBlockSize_of_ne, Memory.setNextFreeBlock_self,
        Memory.setBlockSize_self, wholeHeap, first]
    exact List.forall_mem_singleton.2 (inHeap_wholeHeap P)
  refine ⟨⟨?_, rfl, ?_, hlist⟩, hmin⟩
  · simp only [prvHeapInit, alignedHeap_eq, hhigh]
  · rw [hfree]
    rfl

/-! ## Taking a block -/

/-- A node is not `NULL`, if there is a block in front of it. -/
theorem FreeList.first_ne_zero (h : FreeList P m (before ++ s :: after)) :
    first P.high after ≠ 0 := by
  have hs := (h.inHeap s (by simp)).start_add_le
  cases after with
  | nil =>
      have hstop := (h.inHeap s (by simp)).stop_le
      rw [first_nil]
      omega
  | cons t after =>
      have hlt := h.separated.append_right.stop_lt (List.mem_cons_self (a := t) (l := after))
      rw [first_cons]
      omega

/-- The walk stops at the first block that is large enough, or at the end marker. -/
theorem findBlock_eq {w x fuel : Nat} (h : FreeList P m (before ++ l))
    (hfuel : l.length < fuel) :
    ∃ small large, l = small ++ large ∧ (∀ s ∈ small, s.size < w) ∧
      (∀ s, large.head? = some s → w ≤ s.size) ∧
      findBlock m w fuel x (first P.high l) =
        some (lastNode x small, first P.high large) := by
  induction l generalizing before x fuel with
  | nil =>
      obtain ⟨fuel, rfl⟩ := Nat.exists_eq_succ_of_ne_zero (Nat.ne_zero_of_lt hfuel)
      refine ⟨[], [], rfl, by simp, by simp, ?_⟩
      rw [findBlock, first_nil, if_neg fun hmore => hmore.2 h.end_next]
      rfl
  | cons s l ih =>
      obtain ⟨fuel, rfl⟩ := Nat.exists_eq_succ_of_ne_zero (Nat.ne_zero_of_lt hfuel)
      have hs := (linked_append.1 h.linked).2
      have hnext : m.pxNextFreeBlock s.start ≠ 0 := by
        rw [hs.2.1]
        exact h.first_ne_zero
      rw [findBlock, first_cons, hs.1]
      by_cases hsmall : s.size < w
      · rw [if_pos ⟨hsmall, hnext⟩, hs.2.1]
        obtain ⟨small, large, hl, hall, hlarge, hfind⟩ :=
          ih (x := s.start) (show FreeList P m ((before ++ [s]) ++ l) by simpa using h)
            (Nat.lt_of_succ_lt_succ hfuel)
        refine ⟨s :: small, large, congrArg _ hl, ?_, hlarge, hfind⟩
        exact List.forall_mem_cons.2 ⟨hsmall, hall⟩
      · rw [if_neg fun hmore => hsmall hmore.1]
        refine ⟨[], s :: l, rfl, by simp, fun t ht => ?_, rfl⟩
        exact Option.some.inj ht ▸ not_lt.1 hsmall

/-- What is written in a block that is not free leaves the list as it is. -/
theorem FreeList.congr (h : FreeList P m l) (hb : InHeap P b) (hapart : ∀ s ∈ l, s.Apart b)
    (hm : ∀ x, x ∉ b.cells → m' x = m x) : FreeList P m' l := by
  have hbounds := P.bounds
  have hlow := hb.low_le
  have hstop := hb.stop_le
  have hout : ∀ x, x < P.low ∨ P.high ≤ x → m' x = m x := by
    intro x hx
    refine hm x ?_
    simp only [Segment.mem_cells]
    omega
  refine ⟨(hout _ (by omega)).trans h.start_next, (hout _ (by omega)).trans h.start_size, ?_,
    (hout _ (by omega)).trans h.end_next, (hout _ (by omega)).trans h.end_size, h.separated,
    h.inHeap⟩
  refine h.linked.congr fun s hs => ?_
  have hs' := (h.inHeap s hs).start_add_le
  have hsb := hapart s hs
  unfold Segment.Apart Segment.Before at hsb
  refine ⟨hm _ ?_, hm _ ?_⟩
  all_goals
    simp only [Segment.mem_cells]
    omega

/-- The node in front of a block is linked to the one behind it. -/
theorem FreeList.unlink (h : FreeList P m (before ++ s :: after)) :
    FreeList P (m.setNextFreeBlock (lastNode P.xStart before) (first P.high after))
      (before ++ after) := by
  have hbounds := P.bounds
  have hbefore : ∀ t ∈ before, ∀ u ∈ s :: after, t.Before u := fun t ht u hu =>
    ((List.pairwise_append.1 h.separated).2.2 t ht u hu).le
  have hlinked := linked_append.1 h.linked
  obtain ⟨hfront, hstart⟩ := h.relink
    (m.setNextFreeBlock (lastNode P.xStart before) (first P.high after))
    (Memory.setNextFreeBlock_self ..) fun x hx _ => Memory.setNextFreeBlock_of_ne hx ..
  have hnode : lastNode P.xStart before ≠ P.xStart + 4 ∧
      lastNode P.xStart before ≠ P.high ∧ lastNode P.xStart before ≠ P.high + 4 := by
    rcases lastNode_cases P.xStart before with ⟨_, hlast⟩ | ⟨pre, t, rfl, hlast⟩
    · rw [hlast]
      omega
    · have ht := h.inHeap t (by simp)
      have hx := xStart_ne ht
      have hlow := ht.low_le
      have hstop := ht.stop_le
      have hle := ht.start_add_le
      omega
  exact
    { start_next := hstart.trans (first_append ..).symm
      start_size := (Memory.setNextFreeBlock_of_ne hnode.1.symm ..).trans h.start_size
      linked := by
        refine linked_append.2 ⟨hfront, hlinked.2.2.2.congr fun t ht => ?_⟩
        have hne := lastNode_ne (h.inHeap t (by simp [ht])) fun u hu =>
          hbefore u hu t (List.mem_cons_of_mem _ ht)
        exact ⟨Memory.setNextFreeBlock_of_ne hne.1 .., Memory.setNextFreeBlock_of_ne hne.2 ..⟩
      end_next := (Memory.setNextFreeBlock_of_ne hnode.2.1.symm ..).trans h.end_next
      end_size := (Memory.setNextFreeBlock_of_ne hnode.2.2.symm ..).trans h.end_size
      separated := h.separated.of_middle
      inHeap := fun t ht => h.inHeap t (by
        rcases List.mem_append.1 ht with ht | ht <;> simp [ht]) }

/-- The end of the block `s`, which is in no list, has gone to the free blocks as far as it is
not needed, and the block is `b` now. -/
structure Carved (P : Placement) (m m' : Memory) (l l' : List (Segment Nat))
    (s b : Segment Nat) : Prop where
  free : FreeList P m' l'
  inHeap : InHeap P b
  apart : ∀ t ∈ l', t.Apart b
  covered_or : ∀ x, x ∈ covered l' ∨ x ∈ b.cells ↔ x ∈ covered l ∨ x ∈ s.cells
  total_add : total l' + b.size = total l + s.size
  size_eq : m'.xBlockSize b.start = b.size
  frame : ∀ x, x ≠ P.xStart → x ∉ covered l → x ∉ s.cells → m' x = m x

theorem inHeap_front (hs : InHeap P s) {x : Nat} (hmod : x % 8 = 0) (hx : s.start + 16 ≤ x)
    (hx' : x ≤ s.stop) (h : s.start < x) : InHeap P (s.front x h) :=
  ⟨hs.low_le, hx'.trans hs.stop_le, hs.start_aligned, hmod, hx⟩

theorem inHeap_back (hs : InHeap P s) {x : Nat} (hmod : x % 8 = 0) (hx : s.start ≤ x)
    (hx' : x + 16 ≤ s.stop) (h : x < s.stop) : InHeap P (s.back x h) :=
  ⟨hs.low_le.trans hx, hs.stop_le, hmod, hs.stop_aligned, hx'⟩

/-- The end of the block goes back to the free blocks. -/
theorem carved_of_insert {x : Nat} (m₁ : Memory) (h : FreeList P m l) (hs : InHeap P s)
    (hapart : ∀ t ∈ l, t.Apart s) (hfront : s.start < x) (hback : x < s.stop)
    (hb : InHeap P (s.front x hfront)) (hrest : InHeap P (s.back x hback))
    (hm₁ : ∀ y, y ∉ s.cells → m₁ y = m y) (hsize : m₁.xBlockSize s.start = x - s.start)
    (hrestSize : m₁.xBlockSize x = s.stop - x) :
    ∃ m', prvInsertBlockIntoFreeList P P.high m₁ x = some m' ∧
      Carved P m m' l (put (s.back x hback) l) s (s.front x hfront) := by
  have hsplit : ∀ y, y ∈ s.cells ↔ _ := fun y => Segment.mem_cells_split hfront hback
  have hapart' : ∀ t ∈ l, t.Apart (s.back x hback) := fun t ht =>
    Segment.apart_of_disjoint fun y hy hy' =>
      (hapart t ht).not_mem hy ((hsplit y).2 (.inr hy'))
  obtain ⟨m', hinsert, hfree, hframe⟩ :=
    insert_spec (h.congr hs hapart hm₁) hrest hapart' hrestSize
  refine ⟨m', hinsert, hfree, hb, fun t ht => ?_, fun y => ?_, ?_, ?_, fun y hy hcov hcell => ?_⟩
  · refine Segment.apart_of_disjoint fun y hy hy' => ?_
    rcases mem_covered_put.1 (mem_covered_of_mem ht hy) with hyr | ⟨u, hu, hyu⟩
    · exact (Segment.front_apart_back hfront hback).not_mem hy' hyr
    · exact (hapart u hu).not_mem hyu ((hsplit y).2 (.inl hy'))
  · rw [mem_covered_put, hsplit]
    tauto
  · rw [total_put]
    simp only [Segment.size, Segment.front, Segment.back]
    omega
  · refine (hframe _ (xStart_ne hs).2.1.symm ?_ ?_).trans hsize
    · show s.start + 4 ∉ covered l
      rintro ⟨t, ht, hy⟩
      exact (hapart t ht).not_mem hy hs.header_mem.2
    · show s.start + 4 ∉ (s.back x hback).cells
      have hle := hb.start_add_le
      simp only [Segment.mem_cells, Segment.front, Segment.back] at *
      omega
  · exact (hframe y hy hcov fun hyr => hcell ((hsplit y).2 (.inr hyr))).trans (hm₁ y hcell)

theorem splitBlock_spec {w : Nat} (h : FreeList P m l) (hs : InHeap P s)
    (hapart : ∀ t ∈ l, t.Apart s) (hsize : m.xBlockSize s.start = s.size) (hmod : w % 8 = 0)
    (hw : 16 ≤ w) (hle : w ≤ s.size) :
    ∃ m' b l', splitBlock P P.high m w s.start = some m' ∧ Carved P m m' l l' s b ∧
      b.start = s.start ∧ w ≤ b.size ∧ b.size ≤ w + 16 := by
  have hlt := hs.size_lt
  have hadd := s.start_add_size
  have hstart := hs.start_aligned
  have hsub : subSize s.size w = s.size - w := subSize_eq hle (by omega)
  rw [splitBlock, hsize, hsub]
  split
  · rename_i hlarge
    have hlarge : 16 < s.size - w := hlarge
    have hmod' : (s.start + w) % 8 = 0 := by omega
    obtain ⟨m', hinsert, hcarved⟩ := carved_of_insert (x := s.start + w)
      ((m.setBlockSize (s.start + w) (s.size - w)).setBlockSize s.start w)
      h hs hapart (by omega) (by omega)
      (inHeap_front hs hmod' (by omega) (by omega) (by omega))
      (inHeap_back hs hmod' (by omega) (by omega) (by omega))
      (fun y hy => by
        simp only [Segment.mem_cells] at hy
        rw [Memory.setBlockSize_of_ne (by omega), Memory.setBlockSize_of_ne (by omega)])
      (by rw [Memory.xBlockSize_apply, Memory.setBlockSize_self, Nat.add_sub_cancel_left])
      (by
        rw [Memory.xBlockSize_apply, Memory.setBlockSize_of_ne (by omega),
          Memory.setBlockSize_self]
        omega)
    refine ⟨m', _, _, ?_, hcarved, rfl, ?_, ?_⟩
    · have hguard : (s.start + w) &&& portByteAlignmentMask = 0 := (and_mask _).trans hmod'
      simp only [hguard, guard, if_true, Option.pure_def, Option.bind_eq_bind, Option.bind_some]
      exact hinsert
    · simp only [Segment.size, Segment.front]
      omega
    · simp only [Segment.size, Segment.front]
      omega
  · rename_i hsmall
    have hsmall : ¬ 16 < s.size - w := hsmall
    exact ⟨m, s, l, rfl, ⟨h, hs, hapart, fun _ => Iff.rfl, rfl, hsize, fun _ _ _ _ => rfl⟩, rfl,
      hle, by omega⟩

theorem covered_middle {x : Nat} :
    x ∈ covered (before ++ s :: after) ↔ x ∈ covered (before ++ after) ∨ x ∈ s.cells := by
  simp only [mem_covered_append, mem_covered_cons]
  tauto

theorem total_middle (before after : List (Segment Nat)) (s : Segment Nat) :
    total (before ++ s :: after) = total (before ++ after) + s.size := by
  simp only [total, List.map_append, List.map_cons, List.sum_append, List.sum_cons]
  omega

/-- The segments of a separated list are apart. -/
theorem apart_middle (h : Separated (before ++ s :: after)) :
    ∀ t ∈ before ++ after, t.Apart s := by
  intro t ht
  rcases List.mem_append.1 ht with ht | ht
  · exact .inl ((List.pairwise_append.1 h).2.2 t ht s List.mem_cons_self).le
  · exact .inr (h.append_right.stop_lt ht).le

/-- The block `b` is not free any more, and marked. -/
structure Taken (P : Placement) (h h' : HeapState) (l l' : List (Segment Nat))
    (b : Segment Nat) : Prop where
  prepared : Prepared P h' l'
  inHeap : InHeap P b
  apart : ∀ t ∈ l', t.Apart b
  covered_iff : ∀ x, x ∈ covered l ↔ x ∈ covered l' ∨ x ∈ b.cells
  total_eq : total l = total l' + b.size
  next_eq : h'.memory.pxNextFreeBlock b.start = 0
  size_eq : h'.memory.xBlockSize b.start = b.size + 2 ^ 31
  minimum : h'.xMinimumEverFreeBytesRemaining =
    min h.xMinimumEverFreeBytesRemaining h'.xFreeBytesRemaining
  frame : ∀ x, x ≠ P.xStart → x ∉ covered l → h'.memory x = h.memory x

theorem takeBlock_spec {w : Nat} (hp : Prepared P h (before ++ s :: after)) (hmod : w % 8 = 0)
    (hw : 16 ≤ w) (hle : w ≤ s.size) :
    ∃ h' b l', takeBlock P h w (lastNode P.xStart before) s.start = some h' ∧
      Taken P h h' (before ++ s :: after) l' b ∧ b.start = s.start ∧
      w ≤ b.size ∧ b.size ≤ w + 16 := by
  have hbounds := P.bounds
  have hs := hp.free.inHeap s (by simp)
  have hnode := lastNode_ne hs fun t ht =>
    ((List.pairwise_append.1 hp.free.separated).2.2 t ht s List.mem_cons_self).le
  have hlinked := (linked_append.1 hp.free.linked).2
  have hunlinked := hp.free.unlink
  obtain ⟨m₂, b, l', hsplit, hcarved, hstart, hwb, hbw⟩ :=
    splitBlock_spec (w := w) hunlinked hs (apart_middle hp.free.separated)
      ((Memory.setNextFreeBlock_of_ne hnode.2 ..).trans hlinked.1) hmod hw hle
  have htotal : total (before ++ s :: after) = total l' + b.size := by
    rw [total_middle, hcarved.total_add]
  have htotal_le := hp.free.total_le
  have hsize : m₂.xBlockSize s.start = b.size := hstart ▸ hcarved.size_eq
  have hbit : b.size ||| 2 ^ 31 = b.size + 2 ^ 31 := by
    have hlt := hcarved.inHeap.size_lt
    exact or_allocatedBit (by omega)
  have hsub : subSize h.xFreeBytesRemaining b.size = total l' := by
    rw [hp.remaining, htotal, subSize_eq (by omega) (by omega), Nat.add_sub_cancel]
  have hcells := hcarved.inHeap.header_mem
  have hmark : ∀ x, x ∉ b.cells →
      (m₂.setBlockSize s.start (b.size + 2 ^ 31)).setNextFreeBlock s.start 0 x = m₂ x := by
    intro x hx
    rw [← hstart, Memory.setNextFreeBlock_of_ne (by rintro rfl; exact hx hcells.1),
      Memory.setBlockSize_of_ne (by rintro rfl; exact hx hcells.2)]
  refine ⟨{ h with
    memory := (m₂.setBlockSize s.start (b.size + 2 ^ 31)).setNextFreeBlock s.start 0
    xFreeBytesRemaining := total l'
    xMinimumEverFreeBytesRemaining :=
      if total l' < h.xMinimumEverFreeBytesRemaining then total l'
      else h.xMinimumEverFreeBytesRemaining }, b, l', ?_,
    ⟨⟨hp.pxEnd_eq, hp.bit_eq, rfl, hcarved.free.congr hcarved.inHeap hcarved.apart hmark⟩,
      hcarved.inHeap, hcarved.apart, fun x => ?_, htotal, ?_, ?_, ?_, fun x hx hcov => ?_⟩,
    hstart, hwb, hbw⟩
  · rw [takeBlock, hlinked.2.1, hp.pxEnd_eq, hsplit, Option.bind_eq_bind, Option.bind_some]
    simp only [hsize, hsub, hp.bit_eq, hbit]
    rfl
  · rw [covered_middle]
    exact (hcarved.covered_or x).symm
  · rw [hstart]
    exact Memory.setNextFreeBlock_self ..
  · show (Memory.setNextFreeBlock _ _ _) (b.start + 4) = _
    rw [hstart, Memory.setNextFreeBlock_of_ne (by omega), Memory.setBlockSize_self]
  · show (if total l' < h.xMinimumEverFreeBytesRemaining then total l' else _) = min _ (total l')
    split <;> omega
  · have hcov' := hcov
    rw [covered_middle, not_or] at hcov'
    have hb : x ∉ b.cells := fun hxb =>
      hcov (covered_middle.2 ((hcarved.covered_or x).1 (.inr hxb)))
    have hne : x ≠ lastNode P.xStart before := by
      rcases lastNode_cases P.xStart before with ⟨_, hlast⟩ | ⟨pre, t, rfl, hlast⟩
      · rwa [hlast]
      · rw [hlast]
        rintro rfl
        exact hcov (mem_covered_of_mem (s := t) (by simp) t.start_mem_cells)
    exact (hmark x hb).trans ((hcarved.frame x hx hcov'.1 hcov'.2).trans
      (Memory.setNextFreeBlock_of_ne hne ..))

/-- The request of `w` bytes has got the block `b`, the first that is large enough. -/
structure Granted (P : Placement) (h h' : HeapState) (l l' : List (Segment Nat))
    (b : Segment Nat) (w : Nat) : Prop extends Taken P h h' l l' b where
  pos : 0 < w
  lt : w < 2 ^ 31
  le_size : blockFor w ≤ b.size
  size_le : b.size ≤ blockFor w + 16
  first_fit : ∀ s ∈ l, s.start < b.start → s.size < blockFor w

/-- The request has got nothing. -/
def Refused (l : List (Segment Nat)) (w : Nat) : Prop :=
  w = 0 ∨ 2 ^ 31 ≤ w ∨ ∀ s ∈ l, s.size < blockFor w

/-- `pvPortMalloc` ends: with `NULL` and the heap as it was if no free block is large enough,
and else with the first one that is. -/
theorem mallocPrepared_spec {w : Nat} (hp : Prepared P h l) (hw : w < 2 ^ 32) :
    mallocPrepared P h w = some (h, 0) ∧ Refused l w ∨
      ∃ h' b l', mallocPrepared P h w = some (h', b.start + 8) ∧ Granted P h h' l l' b w := by
  rw [mallocPrepared, hp.bit_eq, hp.remaining]
  by_cases hlarge : 2 ^ 31 ≤ w
  · rw [if_neg (and_allocatedBit_ne hlarge hw)]
    exact .inl ⟨rfl, .inr (.inl hlarge)⟩
  have hlt : w < 2 ^ 31 := not_le.1 hlarge
  rw [if_pos (and_allocatedBit hlt)]
  rcases Nat.eq_zero_or_pos w with rfl | hpos
  · exact .inl ⟨rfl, .inl rfl⟩
  have hmod : blockFor w % 8 = 0 := Nat.mul_mod_left ..
  have hge : 16 ≤ blockFor w := by
    unfold blockFor
    omega
  have hguard : blockFor w &&& portByteAlignmentMask = 0 := (and_mask _).trans hmod
  simp only [alignedSize_eq hpos hlt, hguard, guard, if_true, Option.pure_def,
    Option.bind_eq_bind, Option.bind_some]
  by_cases hremaining : blockFor w ≤ total l
  · rw [if_pos ⟨by omega, hremaining⟩, hp.free.start_next]
    have hfree : FreeList P h.memory ([] ++ l) := hp.free
    obtain ⟨small, large, rfl, hsmall, hfit, hfind⟩ :=
      findBlock_eq (w := blockFor w) (x := P.xStart) hfree hp.free.length_lt
    rw [hfind, Option.bind_some, hp.pxEnd_eq]
    cases large with
    | nil =>
        rw [if_neg fun hne => hne rfl]
        rw [List.append_nil]
        exact .inl ⟨rfl, .inr (.inr hsmall)⟩
    | cons s after =>
        have hs := hp.free.inHeap s (by simp)
        have hne : s.start ≠ P.high := by
          have hle := hs.start_add_le
          have hstop := hs.stop_le
          omega
        obtain ⟨h', b, l', htake, htaken, hstart, hle, hle'⟩ :=
          takeBlock_spec hp hmod hge (hfit s rfl)
        have hnext : h.memory.pxNextFreeBlock (lastNode P.xStart small) = s.start :=
          (linked_append.1 hp.free.linked).1.lastNode_next
            (hp.free.start_next.trans (first_append ..))
        have hreturn : (s.start + xHeapStructSize) &&& portByteAlignmentMask = 0 := by
          have halign := hs.start_aligned
          rw [and_mask, xHeapStructSize]
          omega
        refine .inr ⟨h', b, l', ?_, htaken, hpos, hlt, hle, hle', fun t ht hlt => ?_⟩
        · simp only [first_cons]
          rw [if_pos hne, htake, Option.bind_some, hnext, if_pos hreturn, Option.bind_some,
            hstart]
          rfl
        · rcases List.mem_append.1 ht with ht | ht
          · exact hsmall t ht
          · refine absurd hlt (not_lt.2 ?_)
            rw [hstart]
            exact hp.free.separated.append_right.start_le_of_mem_covered
              (mem_covered_of_mem ht t.start_mem_cells)
  · rw [if_neg fun hall => hremaining hall.2]
    exact .inl ⟨rfl, .inr (.inr fun s hs =>
      (size_le_total hs).trans_lt (not_le.1 hremaining))⟩

/-! ## Giving a block back -/

/-- The first half of `vPortFree` clears the mark of a block that has it. -/
theorem freeRelease_spec (hp : Prepared P h l) (hb : InHeap P b) (hapart : ∀ t ∈ l, t.Apart b)
    (hnext : h.memory.pxNextFreeBlock b.start = 0)
    (hsize : h.memory.xBlockSize b.start = b.size + 2 ^ 31) :
    ∃ h', freeRelease h (b.start + 8) = some h' ∧ Prepared P h' l ∧
      h'.memory.xBlockSize b.start = b.size ∧
      h'.xMinimumEverFreeBytesRemaining = h.xMinimumEverFreeBytesRemaining ∧
      ∀ x, x ≠ b.start + 4 → h'.memory x = h.memory x := by
  have hlt := hb.size_lt
  have hbit : (b.size + 2 ^ 31) &&& 2 ^ 31 = 2 ^ 31 := by
    rw [Nat.and_two_pow, Nat.testBit_of_two_pow_le_and_two_pow_add_one_gt (by omega) (by omega)]
    rfl
  have hclear : clearBits (b.size + 2 ^ 31) (2 ^ 31) = b.size := by
    rw [clearBits, hbit, Nat.add_sub_cancel]
  have hm : ∀ x, x ≠ b.start + 4 →
      h.memory.setBlockSize b.start b.size x = h.memory x := fun x hx =>
    Memory.setBlockSize_of_ne hx ..
  refine ⟨{ h with memory := h.memory.setBlockSize b.start b.size }, ?_,
    ⟨hp.pxEnd_eq, hp.bit_eq, hp.remaining, hp.free.congr hb hapart fun x hx => hm x ?_⟩,
    Memory.setBlockSize_self .., rfl, hm⟩
  · simp only [freeRelease, xHeapStructSize, Nat.add_sub_cancel, hsize, hnext, hp.bit_eq, hbit,
      hclear]
    rfl
  · rintro rfl
    exact hx hb.header_mem.2

/-- The second half puts it back. -/
theorem freeInsert_spec (hp : Prepared P h l) (hb : InHeap P b) (hapart : ∀ t ∈ l, t.Apart b)
    (hsize : h.memory.xBlockSize b.start = b.size) :
    ∃ h', freeInsert P h b.start = some h' ∧ Prepared P h' (put b l) ∧
      h'.xMinimumEverFreeBytesRemaining = h.xMinimumEverFreeBytesRemaining ∧
      ∀ x, x ≠ P.xStart → x ∉ covered l → x ∉ b.cells → h'.memory x = h.memory x := by
  have hlt := hb.size_lt
  have htotal := hp.free.total_le
  have hbounds := P.bounds
  obtain ⟨m', hinsert, hfree, hframe⟩ := insert_spec hp.free hb hapart hsize
  refine ⟨{ h with memory := m', xFreeBytesRemaining := addSize h.xFreeBytesRemaining b.size },
    ?_, ⟨hp.pxEnd_eq, hp.bit_eq, ?_, hfree⟩, rfl, hframe⟩
  · rw [freeInsert, hp.pxEnd_eq, hinsert, Option.map_some, hsize]
  · show addSize h.xFreeBytesRemaining b.size = _
    rw [hp.remaining, total_put, addSize_eq (by omega), Nat.add_comm]

end BillCounter.Heap
