import BillCounter.Heap.Allocate
import BillCounter.Lib.Runs

/-!
# The heap among the tasks

`pvPortMalloc` runs with the scheduler suspended, `vPortFree` only in its second half: between
the halves, and between any two calls, the other tasks call, and write what they have been
given.  A task frees a pointer it has, once, and writes no further than it asked for.

`Accounted` is what holds between the steps: the free blocks and the blocks that are out do
not overlap and make up the heap, the headers say so, and the counters add up.
-/

namespace BillCounter.Heap

open BillCounter.Lib.FreeList
open BillCounter.Lib.Runs

/-- What happens to a block that is out. -/
inductive Use
  /-- A task has it, which asked for so many bytes. -/
  | held (xWantedSize : Nat)
  /-- `vPortFree` has cleared its mark. -/
  | freeing

/-- The heap, and the pointers that are out. -/
structure HeapUse where
  heap : HeapState
  out : List (Nat × Use)

inductive HeapLabel
  | malloc (xWantedSize : BitVec 32) (pv : Nat)
  | release (pv : Nat)
  | insert (pv : Nat)
  | write (address value : Nat)

/-- The pointers that are out once a call has returned `pv`. -/
def withGranted (pv xWantedSize : Nat) (out : List (Nat × Use)) : List (Nat × Use) :=
  if pv ≠ 0 then (pv, .held xWantedSize) :: out else out

inductive HeapStep (P : Placement) : HeapUse → HeapLabel → HeapUse → Prop
  | malloc (s : HeapUse) (xWantedSize : BitVec 32) (heap : HeapState) (pv : Nat)
      (h : pvPortMalloc P s.heap xWantedSize = some (heap, pv)) :
      HeapStep P s (.malloc xWantedSize pv) ⟨heap, withGranted pv xWantedSize.toNat s.out⟩
  | release (s : HeapUse) (pv w : Nat) (front back : List (Nat × Use)) (heap : HeapState)
      (hout : s.out = front ++ (pv, .held w) :: back) (h : freeRelease s.heap pv = some heap) :
      HeapStep P s (.release pv) ⟨heap, front ++ (pv, .freeing) :: back⟩
  | insert (s : HeapUse) (pv : Nat) (front back : List (Nat × Use)) (heap : HeapState)
      (hout : s.out = front ++ (pv, .freeing) :: back)
      (h : freeInsert P s.heap (pv - xHeapStructSize) = some heap) :
      HeapStep P s (.insert pv) ⟨heap, front ++ back⟩
  | write (s : HeapUse) (pv w address value : Nat) (hout : (pv, .held w) ∈ s.out)
      (hlow : pv ≤ address) (hhigh : address < pv + w) :
      HeapStep P s (.write address value)
        { s with heap.memory := Function.update s.heap.memory address value }

/-- The heap from the reset on. -/
def heapSystem (P : Placement) : System HeapUse HeapLabel where
  init s := ∃ memory, s = ⟨heapReset memory, []⟩
  step := HeapStep P

variable {P : Placement} {s t : HeapUse} {a : HeapLabel} {l : List (Segment Nat)}
  {blocks : List (Segment Nat × Use)} {m m' : Memory}

/-! ## The invariant -/

/-- The header of a block that is out, and that it is large enough. -/
def Marked (m : Memory) (b : Segment Nat) : Use → Prop
  | .held w =>
      m.pxNextFreeBlock b.start = 0 ∧ m.xBlockSize b.start = b.size + 2 ^ 31 ∧ 0 < w ∧
        blockFor w ≤ b.size ∧ b.size ≤ blockFor w + 16
  | .freeing => m.xBlockSize b.start = b.size

/-- The pointer to a block. -/
def pointerTo (b : Segment Nat × Use) : Nat × Use := (b.1.start + xHeapStructSize, b.2)

/-- The free blocks and the blocks that are out make up the heap. -/
structure Accounted (P : Placement) (s : HeapUse) (l : List (Segment Nat))
    (blocks : List (Segment Nat × Use)) : Prop where
  set_up : s.heap.pxEnd = 0 → blocks = []
  statics : Prepared P (prepared P s.heap) l
  out_eq : s.out = blocks.map pointerTo
  apart : (blocks.map Prod.fst).Pairwise Segment.Apart
  inHeap : ∀ b ∈ blocks, InHeap P b.1
  free_apart : ∀ b ∈ blocks, ∀ t ∈ l, t.Apart b.1
  marked : ∀ b ∈ blocks, Marked (prepared P s.heap).memory b.1 b.2
  covers : ∀ x, P.low ≤ x → x < P.high → x ∈ covered l ∨ x ∈ covered (blocks.map Prod.fst)
  total_eq : total l + total (blocks.map Prod.fst) = P.high - P.low

theorem prepared_of_ne {h : HeapState} (hend : h.pxEnd ≠ 0) : prepared P h = h := if_neg hend

theorem Prepared.pxEnd_ne {h : HeapState} (hp : Prepared P h l) : h.pxEnd ≠ 0 := by
  have hbounds := P.bounds
  rw [hp.pxEnd_eq]
  omega

theorem Marked.congr {b : Segment Nat} {u : Use} (h : Marked m b u)
    (hstart : m' b.start = m b.start) (hsize : m' (b.start + 4) = m (b.start + 4)) :
    Marked m' b u := by
  cases u with
  | held w => exact ⟨hstart.trans h.1, hsize.trans h.2.1, h.2.2⟩
  | freeing => exact hsize.trans h

theorem wanted_le_blockFor (w : Nat) : w + 8 ≤ blockFor w := by
  unfold blockFor
  omega

namespace Accounted

theorem start (P : Placement) (memory : Memory) :
    Accounted P ⟨heapReset memory, []⟩ [wholeHeap P] [] where
  set_up _ := rfl
  statics := (prepared_prvHeapInit P _).1
  out_eq := rfl
  apart := List.Pairwise.nil
  inHeap _ hb := absurd hb List.not_mem_nil
  free_apart _ hb := absurd hb List.not_mem_nil
  marked _ hb := absurd hb List.not_mem_nil
  covers _ hx hx' := .inl (mem_covered_of_mem List.mem_cons_self ⟨hx, hx'⟩)
  total_eq := by simp [total, wholeHeap, Segment.size]

theorem heap_eq (ha : Accounted P s l blocks) (h : blocks ≠ []) : prepared P s.heap = s.heap :=
  prepared_of_ne fun hend => h (ha.set_up hend)

/-- What is written elsewhere leaves the header of a block as it is. -/
theorem marked_of_frame (ha : Accounted P s l blocks) {b : Segment Nat × Use} {c : Segment Nat}
    (hb : b ∈ blocks) (hapart : b.1.Apart c)
    (hm : ∀ x, x ≠ P.xStart → x ∉ covered l → x ∉ c.cells →
      m' x = (prepared P s.heap).memory x) : Marked m' b.1 b.2 := by
  have hheader := (ha.inHeap b hb).header_mem
  have hx := xStart_ne (ha.inHeap b hb)
  have hfree : ∀ x ∈ b.1.cells, x ∉ covered l := fun x hx ⟨t, ht, hxt⟩ =>
    (ha.free_apart b hb t ht).not_mem hxt hx
  refine (ha.marked b hb).congr (hm _ hx.1.symm (hfree _ hheader.1) ?_)
    (hm _ hx.2.1.symm (hfree _ hheader.2) ?_)
  · exact hapart.not_mem hheader.1
  · exact hapart.not_mem hheader.2

/-- A pointer that is out is one to a block. -/
theorem split (ha : Accounted P s l blocks) {front back : List (Nat × Use)} {pv : Nat} {u : Use}
    (hout : s.out = front ++ (pv, u) :: back) :
    ∃ before b after, blocks = before ++ (b, u) :: after ∧ front = before.map pointerTo ∧
      pv = b.start + xHeapStructSize ∧ back = after.map pointerTo := by
  have heq := ha.out_eq.symm.trans hout
  obtain ⟨before, rest, rfl, rfl, hrest⟩ := List.map_eq_append_iff.1 heq
  obtain ⟨b, after, rfl, hb, rfl⟩ := List.map_eq_cons_iff.1 hrest
  obtain ⟨hpv, rfl⟩ := Prod.mk.inj hb
  exact ⟨before, b.1, after, rfl, rfl, hpv.symm, rfl⟩

/-- `pvPortMalloc` returns, with a block or with `NULL`. -/
theorem malloc (ha : Accounted P s l blocks) (w : BitVec 32) :
    pvPortMalloc P s.heap w = some (prepared P s.heap, 0) ∧
        Refused l w.toNat ∧ Accounted P ⟨prepared P s.heap, s.out⟩ l blocks ∨
      ∃ heap b l', pvPortMalloc P s.heap w = some (heap, b.start + xHeapStructSize) ∧
        Granted P (prepared P s.heap) heap l l' b w.toNat ∧
        Accounted P ⟨heap, (b.start + xHeapStructSize, .held w.toNat) :: s.out⟩ l'
          ((b, .held w.toNat) :: blocks) := by
  rcases mallocPrepared_spec ha.statics w.isLt with ⟨hnull, hrefused⟩ | ⟨heap, b, l', hcall, hg⟩
  · refine .inl ⟨hnull, hrefused, { ha with set_up := ?_, statics := ?_, marked := ?_ }⟩
    · exact fun hend => absurd hend ha.statics.pxEnd_ne
    · rw [prepared_of_ne ha.statics.pxEnd_ne]
      exact ha.statics
    · rw [prepared_of_ne ha.statics.pxEnd_ne]
      exact ha.marked
  · have hheap : prepared P heap = heap := prepared_of_ne hg.prepared.pxEnd_ne
    have hapart : ∀ c ∈ blocks, c.1.Apart b := fun c hc =>
      Segment.apart_of_disjoint fun x hx hxb => by
        obtain ⟨t, ht, hxt⟩ := (hg.covered_iff x).2 (.inr hxb)
        exact (ha.free_apart c hc t ht).not_mem hxt hx
    refine .inr ⟨heap, b, l', hcall, hg, ?_⟩
    exact
      { set_up := fun hend => absurd hend hg.prepared.pxEnd_ne
        statics := hheap.symm ▸ hg.prepared
        out_eq := congrArg _ ha.out_eq
        apart := List.pairwise_cons.2 ⟨fun c hc => by
          obtain ⟨d, hd, rfl⟩ := List.mem_map.1 hc
          exact (hapart d hd).symm, ha.apart⟩
        inHeap := List.forall_mem_cons.2 ⟨hg.inHeap, ha.inHeap⟩
        free_apart := List.forall_mem_cons.2 ⟨hg.apart, fun c hc t ht =>
          Segment.apart_of_disjoint fun x hx hxc => by
            obtain ⟨u, hu, hxu⟩ := (hg.covered_iff x).2 (.inl (mem_covered_of_mem ht hx))
            exact (ha.free_apart c hc u hu).not_mem hxu hxc⟩
        marked := by
          rw [hheap]
          refine List.forall_mem_cons.2
            ⟨⟨hg.next_eq, hg.size_eq, hg.pos, hg.le_size, hg.size_le⟩, fun c hc => ?_⟩
          exact ha.marked_of_frame hc (hapart c hc) fun x hx hcov _ => hg.frame x hx hcov
        covers := fun x hx hx' => by
          rw [List.map_cons, mem_covered_cons]
          have hcov := ha.covers x hx hx'
          rw [hg.covered_iff] at hcov
          tauto
        total_eq := by
          have htotal := ha.total_eq
          rw [hg.total_eq] at htotal
          simp only [List.map_cons, total, List.sum_cons] at htotal ⊢
          omega }

/-! A block that is out, and the others. -/

variable {before after : List (Segment Nat × Use)} {b : Segment Nat} {u : Use}

theorem apart_others (ha : Accounted P s l (before ++ (b, u) :: after)) :
    ∀ c ∈ before ++ after, c.1.Apart b := by
  have hapart := ha.apart
  rw [List.map_append, List.map_cons] at hapart
  obtain ⟨_, hafter, hbefore⟩ := List.pairwise_append.1 hapart
  intro c hc
  rcases List.mem_append.1 hc with hc | hc
  · exact hbefore _ (List.mem_map_of_mem hc) _ List.mem_cons_self
  · exact ((List.pairwise_cons.1 hafter).1 _ (List.mem_map_of_mem hc)).symm

theorem mem_others {c : Segment Nat × Use} (hc : c ∈ before ++ after) :
    c ∈ before ++ (b, u) :: after := by
  rcases List.mem_append.1 hc with hc | hc <;> simp [hc]

theorem mem_others_of_ne {c : Segment Nat × Use} (hc : c ∈ before ++ (b, u) :: after)
    (hne : c ≠ (b, u)) : c ∈ before ++ after := by
  rcases List.mem_append.1 hc with hc | hc
  · exact List.mem_append_left _ hc
  · exact List.mem_append_right _ ((List.mem_cons.1 hc).resolve_left hne)

/-- The block gets another use. -/
theorem reuse (ha : Accounted P s l (before ++ (b, u) :: after)) (heap : HeapState) (u' : Use)
    (hstatics : Prepared P heap l) (hmarked : Marked heap.memory b u')
    (hframe : ∀ x, x ∉ b.cells → heap.memory x = s.heap.memory x) :
    Accounted P ⟨heap, before.map pointerTo ++ (b.start + xHeapStructSize, u') ::
      after.map pointerTo⟩ l (before ++ (b, u') :: after) := by
  have hheap : prepared P heap = heap := prepared_of_ne hstatics.pxEnd_ne
  have hmap : (before ++ (b, u') :: after).map Prod.fst =
      (before ++ (b, u) :: after).map Prod.fst := by simp
  have hmem : ∀ c ∈ before ++ (b, u') :: after, c = (b, u') ∨ c ∈ before ++ after := by
    intro c hc
    rcases List.mem_append.1 hc with hc | hc
    · exact .inr (by simp [hc])
    · exact (List.mem_cons.1 hc).imp id fun hc => by simp [hc]
  have hb : (b, u) ∈ before ++ (b, u) :: after := by simp
  have hsegment : ∀ c ∈ before ++ (b, u') :: after,
      ∃ d ∈ before ++ (b, u) :: after, d.1 = c.1 := by
    intro c hc
    rcases hmem c hc with rfl | hc
    · exact ⟨_, hb, rfl⟩
    · exact ⟨c, mem_others hc, rfl⟩
  exact
    { set_up := fun hend => absurd hend hstatics.pxEnd_ne
      statics := hheap.symm ▸ hstatics
      out_eq := by simp [pointerTo]
      apart := hmap ▸ ha.apart
      inHeap := fun c hc => by
        obtain ⟨d, hd, heq⟩ := hsegment c hc
        exact heq ▸ ha.inHeap d hd
      free_apart := fun c hc => by
        obtain ⟨d, hd, heq⟩ := hsegment c hc
        exact heq ▸ ha.free_apart d hd
      marked := fun c hc => by
        rw [hheap]
        rcases hmem c hc with rfl | hc
        · exact hmarked
        · refine ha.marked_of_frame (mem_others hc) (ha.apart_others c hc) fun x _ _ hx => ?_
          rw [ha.heap_eq (by simp)]
          exact hframe x hx
      covers := hmap ▸ ha.covers
      total_eq := hmap ▸ ha.total_eq }

/-- The first half of `vPortFree`, for a block that a task has. -/
theorem release {w : Nat} (ha : Accounted P s l (before ++ (b, .held w) :: after)) :
    ∃ heap, freeRelease s.heap (b.start + xHeapStructSize) = some heap ∧
      Accounted P ⟨heap, before.map pointerTo ++ (b.start + xHeapStructSize, .freeing) ::
        after.map pointerTo⟩ l (before ++ (b, .freeing) :: after) ∧
      heap.xMinimumEverFreeBytesRemaining = s.heap.xMinimumEverFreeBytesRemaining ∧
      ∀ x, x ∉ b.cells → heap.memory x = s.heap.memory x := by
  have hheap := ha.heap_eq (by simp)
  have hstatics := ha.statics
  have hmarked := ha.marked (b, .held w) (by simp)
  have hb := ha.inHeap (b, .held w) (by simp)
  rw [hheap] at hstatics hmarked
  obtain ⟨heap, hcall, hstatics', hsize, hmin, hframe⟩ :=
    freeRelease_spec hstatics hb (ha.free_apart (b, .held w) (by simp)) hmarked.1 hmarked.2.1
  have hframe' : ∀ x, x ∉ b.cells → heap.memory x = s.heap.memory x := fun x hx =>
    hframe x (by rintro rfl; exact hx hb.header_mem.2)
  exact ⟨heap, hcall, ha.reuse heap .freeing hstatics' hsize hframe', hmin, hframe'⟩

/-- The second half. -/
theorem insert (ha : Accounted P s l (before ++ (b, .freeing) :: after)) :
    ∃ heap, freeInsert P s.heap b.start = some heap ∧
      Accounted P ⟨heap, before.map pointerTo ++ after.map pointerTo⟩ (put b l)
        (before ++ after) ∧
      heap.xMinimumEverFreeBytesRemaining = s.heap.xMinimumEverFreeBytesRemaining ∧
      ∀ x, x ≠ P.xStart → x ∉ covered l → x ∉ b.cells → heap.memory x = s.heap.memory x := by
  have hheap := ha.heap_eq (by simp)
  have hstatics := ha.statics
  have hmarked := ha.marked (b, .freeing) (by simp)
  have hb := ha.inHeap (b, .freeing) (by simp)
  have hfree := ha.free_apart (b, .freeing) (by simp)
  rw [hheap] at hstatics hmarked
  obtain ⟨heap, hcall, hstatics', hmin, hframe⟩ := freeInsert_spec hstatics hb hfree hmarked
  have hheap' : prepared P heap = heap := prepared_of_ne hstatics'.pxEnd_ne
  refine ⟨heap, hcall, ?_, hmin, hframe⟩
  exact
    { set_up := fun hend => absurd hend hstatics'.pxEnd_ne
      statics := hheap'.symm ▸ hstatics'
      out_eq := (List.map_append ..).symm
      apart := by
        have hapart := ha.apart
        refine hapart.sublist (List.Sublist.map _ ?_)
        exact (List.Sublist.refl _).append (List.sublist_cons_self ..)
      inHeap := fun c hc => ha.inHeap c (mem_others hc)
      free_apart := fun c hc t ht => Segment.apart_of_disjoint fun x hx hxc => by
        rcases mem_covered_put.1 (mem_covered_of_mem ht hx) with hxb | ⟨d, hd, hxd⟩
        · exact (ha.apart_others c hc).not_mem hxc hxb
        · exact (ha.free_apart c (mem_others hc) d hd).not_mem hxd hxc
      marked := fun c hc => by
        rw [hheap']
        refine ha.marked_of_frame (mem_others hc) (ha.apart_others c hc) fun x hx hcov hxb => ?_
        rw [hheap]
        exact hframe x hx hcov hxb
      covers := fun x hx hx' => by
        have hcov := ha.covers x hx hx'
        rw [mem_covered_put]
        simp only [List.map_append, List.map_cons, mem_covered_append, mem_covered_cons] at hcov ⊢
        tauto
      total_eq := by
        have htotal := ha.total_eq
        rw [total_put]
        simp only [List.map_append, List.map_cons, total, List.sum_append, List.sum_cons]
          at htotal ⊢
        omega }

/-- A task writes what it has been given. -/
theorem write {w address : Nat} (ha : Accounted P s l (before ++ (b, .held w) :: after))
    (hlow : b.start + xHeapStructSize ≤ address)
    (hhigh : address < b.start + xHeapStructSize + w) (value : Nat) :
    address ∈ b.cells ∧
      Accounted P { s with heap.memory := Function.update s.heap.memory address value } l
        (before ++ (b, .held w) :: after) := by
  have hheap := ha.heap_eq (by simp)
  have hstatics := ha.statics
  have hmarked := ha.marked (b, .held w) (by simp)
  have hb := ha.inHeap (b, .held w) (by simp)
  rw [hheap] at hstatics hmarked
  have hcell : address ∈ b.cells := by
    have hwanted := wanted_le_blockFor w
    have hle := hmarked.2.2.2.1
    have hadd := b.start_add_size
    simp only [Segment.mem_cells, xHeapStructSize] at *
    omega
  have hframe : ∀ x, x ≠ address → Function.update s.heap.memory address value x =
      s.heap.memory x := fun x hx => Function.update_of_ne hx ..
  have hframe' : ∀ x, x ∉ b.cells → Function.update s.heap.memory address value x =
      s.heap.memory x := fun x hx => hframe x (by rintro rfl; exact hx hcell)
  refine ⟨hcell, ?_⟩
  have hne : b.start ≠ address ∧ b.start + 4 ≠ address := by
    simp only [xHeapStructSize] at hlow
    omega
  have hreuse := ha.reuse
    { s.heap with memory := Function.update s.heap.memory address value } (.held w)
    ⟨hstatics.pxEnd_eq, hstatics.bit_eq, hstatics.remaining,
      hstatics.free.congr hb (ha.free_apart (b, .held w) (by simp)) hframe'⟩
    (Marked.congr (b := b) hmarked (hframe _ hne.1) (hframe _ hne.2)) hframe'
  exact { hreuse with out_eq := ha.out_eq }

/-- What a task has been given lies in a block. -/
theorem held_cells (ha : Accounted P s l blocks) {pv w : Nat} (hout : (pv, .held w) ∈ s.out) :
    ∃ before b after, blocks = before ++ (b, .held w) :: after ∧
      pv = b.start + xHeapStructSize ∧ pv + w ≤ b.stop := by
  obtain ⟨front, back, hsplit⟩ := List.append_of_mem hout
  obtain ⟨before, b, after, rfl, _, hpv, _⟩ := ha.split hsplit
  refine ⟨before, b, after, rfl, hpv, ?_⟩
  have hmarked := ha.marked (b, .held w) (by simp)
  have hwanted := wanted_le_blockFor w
  have hle := hmarked.2.2.2.1
  have hadd := b.start_add_size
  simp only [xHeapStructSize] at *
  omega

end Accounted

/-! ## Every step -/

theorem accounted_step (ha : Accounted P s l blocks) (hstep : HeapStep P s a t) :
    ∃ l' blocks', Accounted P t l' blocks' := by
  cases hstep with
  | malloc w heap pv h =>
      rcases ha.malloc w with ⟨hcall, _, hacc⟩ | ⟨heap', b, l', hcall, _, hacc⟩
      · obtain ⟨rfl, rfl⟩ := Prod.mk.inj (Option.some.inj (h.symm.trans hcall))
        exact ⟨_, _, hacc⟩
      · obtain ⟨rfl, rfl⟩ := Prod.mk.inj (Option.some.inj (h.symm.trans hcall))
        exact ⟨_, _, hacc⟩
  | release pv w front back heap hout h =>
      obtain ⟨before, b, after, rfl, rfl, rfl, rfl⟩ := ha.split hout
      obtain ⟨heap', hcall, hacc, _, _⟩ := ha.release
      obtain rfl := Option.some.inj (h.symm.trans hcall)
      exact ⟨_, _, hacc⟩
  | insert pv front back heap hout h =>
      obtain ⟨before, b, after, rfl, rfl, rfl, rfl⟩ := ha.split hout
      obtain ⟨heap', hcall, hacc, _, _⟩ := ha.insert
      obtain rfl := Option.some.inj (h.symm.trans hcall)
      exact ⟨_, _, hacc⟩
  | write pv w address value hout hlow hhigh =>
      obtain ⟨before, b, after, rfl, rfl, _⟩ := ha.held_cells hout
      exact ⟨_, _, (ha.write hlow hhigh value).2⟩

/-- What is out lies in the heap as `Accounted` says, in every state that is reached. -/
theorem accounted (h : (heapSystem P).Reachable s) : ∃ l blocks, Accounted P s l blocks := by
  refine System.Reachable.invariant (I := fun s => ∃ l blocks, Accounted P s l blocks) h
    (fun s hs => ?_) fun s a t hs hstep => ?_
  · obtain ⟨memory, rfl⟩ := hs
    exact ⟨_, _, .start P memory⟩
  · obtain ⟨l, blocks, ha⟩ := hs
    exact accounted_step ha hstep

end BillCounter.Heap
