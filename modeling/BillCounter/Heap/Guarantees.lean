import BillCounter.Heap.Safety
import Mathlib.Order.Bounds.Basic

/-!
# What the tasks may rely on

Of every run of the heap, from `Accounted`: what a task has been given is its own and keeps
what is written there, whatever the others do; no call hangs; a request fails only where no
gap in the heap is large enough, and takes the lowest one otherwise; the counters are right;
and once everything is freed the heap is one block again.
-/

namespace BillCounter.Heap

open BillCounter.Lib.FreeList
open BillCounter.Lib.Runs

variable {P : Placement} {s t : HeapUse} {a : HeapLabel} {labels : List HeapLabel}
  {l : List (Segment Nat)} {blocks : List (Segment Nat × Use)}

/-! A heap at the start of the memory, and the first call. -/

def sram : Placement := ⟨0x20000000, 0x20004000, by decide, by decide⟩

def sramReset : HeapUse := ⟨heapReset fun _ => 0, []⟩

theorem run_first_call : ∃ heap,
    pvPortMalloc sram sramReset.heap 100 = some (heap, 0x20000008) ∧
    (heapSystem sram).Run sramReset [.malloc 100 0x20000008]
      ⟨heap, [(0x20000008, .held 100)]⟩ :=
  have hcall : ∃ heap, pvPortMalloc sram sramReset.heap 100 = some (heap, 0x20000008) :=
    ⟨_, rfl⟩
  hcall.elim fun heap hcall => ⟨heap, hcall, .one (.malloc sramReset 100 heap _ hcall)⟩

/-- Behind a second call: two blocks, one behind the other. -/
def twoBlocks (heap : HeapState) : HeapUse :=
  ⟨heap, [(0x20000078, .held 20), (0x20000008, .held 100)]⟩

/-- The two calls. -/
def twoCalls : List HeapLabel := [.malloc 100 0x20000008, .malloc 20 0x20000078]

theorem run_twoCalls : ∃ heap, (heapSystem sram).Run sramReset twoCalls (twoBlocks heap) := by
  have hcalls : ∃ heap heap', pvPortMalloc sram sramReset.heap 100 = some (heap, 0x20000008) ∧
      pvPortMalloc sram heap 20 = some (heap', 0x20000078) := ⟨_, _, rfl, rfl⟩
  obtain ⟨heap, heap', hfirst, hsecond⟩ := hcalls
  exact ⟨heap', .cons (.malloc sramReset 100 heap _ hfirst) (.one (.malloc _ 20 heap' _ hsecond))⟩

theorem reachable_sram {s : HeapUse} {labels : List HeapLabel}
    (hrun : (heapSystem sram).Run sramReset labels s) : (heapSystem sram).Reachable s :=
  ⟨sramReset, labels, ⟨_, rfl⟩, hrun⟩

/-! ## A block is its owner's -/

/-- One step of anything but its owner. -/
theorem kept_step (ha : Accounted P s l blocks) (hstep : HeapStep P s a t) {pv w x : Nat}
    (hout : (pv, .held w) ∈ s.out) (hlow : pv ≤ x) (hhigh : x < pv + w)
    (hrelease : a ≠ .release pv) (hwrite : ∀ v, a ≠ .write x v) :
    (pv, .held w) ∈ t.out ∧ t.heap.memory x = s.heap.memory x := by
  obtain ⟨before, b, after, hblocks, rfl, hstop⟩ := ha.held_cells hout
  have hmem : (b, Use.held w) ∈ blocks := by simp [hblocks]
  have hb : InHeap P b := ha.inHeap (b, .held w) hmem
  have hcell : x ∈ b.cells := ⟨(Nat.le_add_right ..).trans hlow, hhigh.trans_le hstop⟩
  have hxStart : x ≠ P.xStart := hb.ne_xStart hcell
  have hfree : x ∉ covered l := fun ⟨c, hc, hxc⟩ =>
    (ha.free_apart (b, .held w) hmem c hc).not_mem hxc hcell
  cases hstep with
  | malloc w' heap pv h =>
      have hheap := ha.heap_eq (List.ne_nil_of_mem hmem)
      rcases ha.malloc w' with ⟨hcall, _, _⟩ | ⟨heap', b', l', hcall, hg, _⟩
      · obtain ⟨rfl, rfl⟩ := Prod.mk.inj (Option.some.inj (h.symm.trans hcall))
        exact ⟨hout, congrFun (congrArg _ hheap) x⟩
      · obtain ⟨rfl, rfl⟩ := Prod.mk.inj (Option.some.inj (h.symm.trans hcall))
        refine ⟨List.mem_cons_of_mem _ hout, ?_⟩
        exact (hg.frame x hxStart hfree).trans (congrFun (congrArg _ hheap) x)
  | release pv' w' front back heap hout' h =>
      obtain ⟨before', c, after', rfl, rfl, rfl, rfl⟩ := ha.split hout'
      obtain ⟨heap', hcall, _, _, hframe⟩ := ha.release
      obtain rfl := Option.some.inj (h.symm.trans hcall)
      have hother := Accounted.mem_others_of_ne hmem fun heq =>
        hrelease (by rw [(Prod.mk.inj heq).1])
      have hmem' := List.mem_map_of_mem (f := pointerTo) hother
      rw [List.map_append] at hmem'
      refine ⟨?_, hframe x ((ha.apart_others _ hother).not_mem hcell)⟩
      exact (List.mem_append.1 hmem').elim (List.mem_append_left _) fun hback =>
        List.mem_append_right _ (List.mem_cons_of_mem _ hback)
  | insert pv' front back heap hout' h =>
      obtain ⟨before', c, after', rfl, rfl, rfl, rfl⟩ := ha.split hout'
      obtain ⟨heap', hcall, _, _, hframe⟩ := ha.insert
      obtain rfl := Option.some.inj (h.symm.trans hcall)
      have hother := Accounted.mem_others_of_ne hmem nofun
      have hmem' := List.mem_map_of_mem (f := pointerTo) hother
      rw [List.map_append] at hmem'
      exact ⟨hmem', hframe x hxStart hfree ((ha.apart_others _ hother).not_mem hcell)⟩
  | write pv' w' address value hout' hlow' hhigh' =>
      refine ⟨hout, Function.update_of_ne (fun heq => hwrite value ?_) ..⟩
      rw [heq]

/-- What is in a block stays there until its owner writes it or frees the block: through any
calls of the others, in any order, with the two halves of `vPortFree` apart. -/
theorem held_memory_kept (hs : (heapSystem P).Reachable s)
    (hrun : (heapSystem P).Run s labels t) {pv w x : Nat} (hout : (pv, .held w) ∈ s.out)
    (hlow : pv ≤ x) (hhigh : x < pv + w) (hrelease : .release pv ∉ labels)
    (hwrite : ∀ v, .write x v ∉ labels) :
    (pv, .held w) ∈ t.out ∧ t.heap.memory x = s.heap.memory x := by
  induction hrun with
  | nil s => exact ⟨hout, rfl⟩
  | cons hstep hrun ih =>
      simp only [List.mem_cons, not_or] at hrelease hwrite
      obtain ⟨l, blocks, ha⟩ := accounted hs
      obtain ⟨hout', hmem⟩ := kept_step ha hstep hout hlow hhigh (Ne.symm hrelease.1)
        fun v => Ne.symm (hwrite v).1
      obtain ⟨hout'', hmem'⟩ := ih (hs.step hstep) hout' hrelease.2 fun v => (hwrite v).2
      exact ⟨hout'', hmem'.trans hmem⟩

theorem malloc_returns (ha : Accounted P s l blocks) (w : BitVec 32) :
    ∃ heap pv, pvPortMalloc P s.heap w = some (heap, pv) := by
  rcases ha.malloc w with ⟨hcall, _⟩ | ⟨heap, b, _, hcall, _⟩
  · exact ⟨_, _, hcall⟩
  · exact ⟨_, _, hcall⟩

theorem held_memory_kept_secondCall : ∃ s t pv,
    (heapSystem sram).Run s [.malloc 20 pv] t ∧ (0x20000008, .held 100) ∈ t.out ∧
      t.heap.memory 0x2000000c = s.heap.memory 0x2000000c := by
  obtain ⟨heap, _, hrun⟩ := run_first_call
  obtain ⟨l, blocks, ha⟩ := accounted (reachable_sram hrun)
  obtain ⟨heap', pv, hcall⟩ := malloc_returns ha 20
  have hstep : (heapSystem sram).Run _ [.malloc 20 pv] _ := .one (.malloc _ 20 heap' pv hcall)
  exact ⟨_, _, pv, hstep, held_memory_kept (reachable_sram hrun) hstep List.mem_cons_self
    (by decide) (by decide) (by simp) (by simp)⟩

theorem blockSize_eq (ha : Accounted P s l blocks) {b : Segment Nat × Use} (hb : b ∈ blocks) :
    s.heap.memory.xBlockSize b.1.start % 2 ^ 31 = b.1.size := by
  have hmarked := ha.marked b hb
  have hlt := (ha.inHeap b hb).size_lt
  rw [ha.heap_eq (List.ne_nil_of_mem hb)] at hmarked
  rcases b with ⟨b, w | _⟩
  · rw [hmarked.2.1, Nat.add_mod_right]
    exact Nat.mod_eq_of_lt (by omega)
  · rw [hmarked]
    exact Nat.mod_eq_of_lt (by omega)

/-- The size of the block behind a pointer that is out, with its header. -/
def blockSize (s : HeapUse) (pv : Nat) : Nat :=
  s.heap.memory.xBlockSize (pv - xHeapStructSize) % 2 ^ 31

theorem blockSize_pointerTo (ha : Accounted P s l blocks) {b : Segment Nat × Use}
    (hb : b ∈ blocks) : blockSize s (pointerTo b).1 = b.1.size := by
  rw [blockSize, pointerTo, Nat.add_sub_cancel]
  exact blockSize_eq ha hb

/-- A task may free what it has. -/
theorem free_run (ha : Accounted P s l blocks) {pv w : Nat} {front back : List (Nat × Use)}
    (hout : s.out = front ++ (pv, .held w) :: back) :
    ∃ heap, (heapSystem P).Run s [.release pv, .insert pv] ⟨heap, front ++ back⟩ := by
  obtain ⟨before, b, after, rfl, rfl, rfl, rfl⟩ := ha.split hout
  obtain ⟨heap, hrelease, hacc, _, _⟩ := ha.release
  obtain ⟨heap', hinsert, _⟩ := hacc.insert
  refine ⟨heap', .cons (.release s _ w _ _ heap hout hrelease) (.one ?_)⟩
  exact .insert _ _ _ _ heap' rfl (by rw [Nat.add_sub_cancel]; exact hinsert)

theorem free_returns (ha : Accounted P s l blocks) {pv w : Nat} (hout : (pv, .held w) ∈ s.out) :
    ∃ heap, vPortFree P s.heap pv = some heap := by
  obtain ⟨before, b, after, rfl, rfl, _⟩ := ha.held_cells hout
  obtain ⟨heap, hrelease, hacc, _, _⟩ := ha.release
  obtain ⟨heap', hinsert, _⟩ := hacc.insert
  refine ⟨heap', ?_⟩
  rw [vPortFree, if_pos (by simp only [xHeapStructSize]; omega), hrelease, Option.bind_some,
    Nat.add_sub_cancel]
  exact hinsert

/-- What tasks have been given is aligned and lies in the heap, what a task asked for lies in
its block, and no two blocks overlap, with their headers and also while one is being freed;
and every call the tasks may make returns, so that no assertion of the heap fails and none of
its loops goes on for ever. -/
structure BlocksDisjoint (P : Placement) (s : HeapUse) : Prop where
  aligned : ∀ b ∈ s.out, b.1 % 8 = 0
  inside : ∀ b ∈ s.out,
    P.ucHeap + 8 ≤ b.1 ∧ b.1 + blockSize s b.1 ≤ P.ucHeap + configTotalHeapSize
  room : ∀ pv w, (pv, .held w) ∈ s.out → w + 8 ≤ blockSize s pv
  apart : s.out.Pairwise fun b c =>
    b.1 + blockSize s b.1 ≤ c.1 ∨ c.1 + blockSize s c.1 ≤ b.1
  malloc : ∀ w, ∃ heap pv, pvPortMalloc P s.heap w = some (heap, pv)
  free : ∀ pv w, (pv, .held w) ∈ s.out → ∃ heap, vPortFree P s.heap pv = some heap
  insert : ∀ pv, (pv, .freeing) ∈ s.out →
    ∃ heap, freeInsert P s.heap (pv - xHeapStructSize) = some heap

theorem blocks_disjoint (hs : (heapSystem P).Reachable s) : BlocksDisjoint P s := by
  obtain ⟨l, blocks, ha⟩ := accounted hs
  have hout : ∀ p ∈ s.out, ∃ b ∈ blocks, pointerTo b = p := by
    intro p hp
    rw [ha.out_eq] at hp
    exact List.mem_map.1 hp
  constructor
  · intro p hp
    obtain ⟨b, hb, rfl⟩ := hout p hp
    have halign := (ha.inHeap b hb).start_aligned
    simp only [pointerTo, xHeapStructSize]
    omega
  · intro p hp
    obtain ⟨b, hb, rfl⟩ := hout p hp
    have hbounds := P.bounds
    have hlow := (ha.inHeap b hb).low_le
    have hhigh := (ha.inHeap b hb).stop_le
    have hadd := b.1.start_add_size
    rw [blockSize_pointerTo ha hb]
    simp only [pointerTo, xHeapStructSize, configTotalHeapSize] at *
    omega
  · intro pv w hp
    obtain ⟨b, hb, hpointer⟩ := hout _ hp
    have hsize := blockSize_pointerTo ha hb
    obtain ⟨rfl, huse⟩ := Prod.mk.inj hpointer
    obtain ⟨b, u⟩ := b
    obtain rfl : u = .held w := huse
    have hmarked := ha.marked (b, .held w) hb
    have hwanted := wanted_le_blockFor w
    rw [show blockSize s (b.start + xHeapStructSize) = b.size from hsize]
    exact hwanted.trans hmarked.2.2.2.1
  · rw [ha.out_eq, List.pairwise_map]
    refine (List.pairwise_map.1 ha.apart).imp_of_mem fun {b c} hb hc hapart => ?_
    have hb' := b.1.start_add_size
    have hc' := c.1.start_add_size
    rw [blockSize_pointerTo ha hb, blockSize_pointerTo ha hc]
    unfold Segment.Apart Segment.Before at hapart
    simp only [pointerTo] at *
    omega
  · exact malloc_returns ha
  · exact fun pv w hp => free_returns ha hp
  · intro pv hp
    obtain ⟨front, back, hsplit⟩ := List.append_of_mem hp
    obtain ⟨before, b, after, rfl, _, rfl, _⟩ := ha.split hsplit
    obtain ⟨heap, hcall, _⟩ := ha.insert
    rw [Nat.add_sub_cancel]
    exact ⟨heap, hcall⟩

theorem blocks_disjoint_twoCalls : ∃ heap, BlocksDisjoint sram (twoBlocks heap) :=
  run_twoCalls.elim fun heap hrun => ⟨heap, blocks_disjoint (reachable_sram hrun)⟩

/-! ## Requests -/

/-- A byte of a block that is out, with its header. -/
def InUse (s : HeapUse) (x : Nat) : Prop :=
  ∃ b ∈ s.out, b.1 - xHeapStructSize ≤ x ∧
    x < b.1 - xHeapStructSize + s.heap.memory.xBlockSize (b.1 - xHeapStructSize) % 2 ^ 31

/-- So many bytes of the heap from `x` on that are in no block. -/
def Gap (P : Placement) (s : HeapUse) (size x : Nat) : Prop :=
  P.low ≤ x ∧ x + size ≤ P.high ∧ ∀ y, x ≤ y → y < x + size → ¬ InUse s y

theorem inUse_iff (ha : Accounted P s l blocks) {x : Nat} :
    InUse s x ↔ x ∈ covered (blocks.map Prod.fst) := by
  have hbytes : ∀ b ∈ blocks, (pointerTo b).1 - xHeapStructSize ≤ x ∧
      x < (pointerTo b).1 - xHeapStructSize +
        s.heap.memory.xBlockSize ((pointerTo b).1 - xHeapStructSize) % 2 ^ 31 ↔
      x ∈ b.1.cells := by
    intro b hb
    rw [pointerTo, Nat.add_sub_cancel, blockSize_eq ha hb, b.1.start_add_size]
    rfl
  constructor
  · rintro ⟨p, hp, hx⟩
    rw [ha.out_eq] at hp
    obtain ⟨b, hb, rfl⟩ := List.mem_map.1 hp
    exact ⟨b.1, List.mem_map_of_mem hb, (hbytes b hb).1 hx⟩
  · rintro ⟨c, hc, hx⟩
    obtain ⟨b, hb, rfl⟩ := List.mem_map.1 hc
    refine ⟨pointerTo b, ?_, (hbytes b hb).2 hx⟩
    rw [ha.out_eq]
    exact List.mem_map_of_mem hb

/-- What is not in use is free. -/
theorem gap_iff (ha : Accounted P s l blocks) {size x : Nat} :
    Gap P s size x ↔ P.low ≤ x ∧ x + size ≤ P.high ∧ Set.Ico x (x + size) ⊆ covered l := by
  refine and_congr_right fun hlow => and_congr_right fun hhigh => ?_
  constructor
  · intro hfree y hy
    refine (ha.covers y (hlow.trans hy.1) (hy.2.trans_le hhigh)).resolve_right fun huse => ?_
    exact hfree y hy.1 hy.2 ((inUse_iff ha).2 huse)
  · intro hfree y hy hy' huse
    obtain ⟨t, ht, hyt⟩ := hfree ⟨hy, hy'⟩
    obtain ⟨c, hc, hyc⟩ := (inUse_iff ha).1 huse
    obtain ⟨b, hb, rfl⟩ := List.mem_map.1 hc
    exact (ha.free_apart b hb t ht).not_mem hyt hyc

/-- A gap lies in one free block. -/
theorem exists_free_of_gap (ha : Accounted P s l blocks) {size x : Nat} (hsize : 0 < size)
    (hgap : Gap P s size x) : ∃ t ∈ l, t.start ≤ x ∧ x + size ≤ t.stop :=
  ha.statics.free.separated.exists_mem_of_Ico_subset (Nat.lt_add_of_pos_right hsize)
    ((gap_iff ha).1 hgap).2.2

theorem blockFor_pos (w : Nat) : 0 < blockFor w := by
  unfold blockFor
  omega

/-- `pvPortMalloc` returns `NULL` only where it must: for no bytes, for a size that has the top
bit set, or where no gap is large enough; else it takes the lowest gap there is. -/
theorem malloc_lowest_gap (hs : (heapSystem P).Reachable s) {w : BitVec 32} {heap : HeapState}
    {pv : Nat} (hcall : pvPortMalloc P s.heap w = some (heap, pv)) :
    (pv = 0 ↔ w.toNat = 0 ∨ 2 ^ 31 ≤ w.toNat ∨ ∀ x, ¬ Gap P s (blockFor w.toNat) x) ∧
      (pv ≠ 0 → IsLeast {x | Gap P s (blockFor w.toNat) x} (pv - xHeapStructSize)) := by
  obtain ⟨l, blocks, ha⟩ := accounted hs
  have hpos := blockFor_pos w.toNat
  rcases ha.malloc w with ⟨hcall', hrefused, _⟩ | ⟨heap', b, l', hcall', hg, _⟩
  · obtain ⟨rfl, rfl⟩ := Prod.mk.inj (Option.some.inj (hcall.symm.trans hcall'))
    refine ⟨iff_of_true rfl ?_, fun hne => absurd rfl hne⟩
    refine hrefused.imp id fun hrefused => hrefused.imp id fun hsmall x hgap => ?_
    obtain ⟨t, ht, hstart, hstop⟩ := exists_free_of_gap ha hpos hgap
    have hlt := hsmall t ht
    unfold Segment.size at hlt
    omega
  · obtain ⟨rfl, rfl⟩ := Prod.mk.inj (Option.some.inj (hcall.symm.trans hcall'))
    have hsize := hg.le_size
    have hadd := b.start_add_size
    have hlow := hg.inHeap.low_le
    have hhigh := hg.inHeap.stop_le
    have hgap : Gap P s (blockFor w.toNat) b.start := by
      refine (gap_iff ha).2 ⟨hlow, by omega, fun y hy => (hg.covered_iff y).2 (.inr ?_)⟩
      exact ⟨hy.1, hy.2.trans_le (by omega)⟩
    rw [Nat.add_sub_cancel]
    refine ⟨iff_of_false (by simp only [xHeapStructSize]; omega) ?_,
      fun _ => ⟨hgap, fun x hx => ?_⟩⟩
    · rintro (hzero | hlarge | hnone)
      · exact absurd hg.pos (by omega)
      · exact absurd hg.lt (by omega)
      · exact hnone _ hgap
    · obtain ⟨t, ht, hstart, hstop⟩ := exists_free_of_gap ha hpos hx
      refine (not_lt.1 fun hlt => ?_).trans hstart
      have hsmall := hg.first_fit t ht hlt
      unfold Segment.size at hsmall
      omega

theorem malloc_lowest_gap_firstCall :
    IsLeast {x | Gap sram sramReset (blockFor 100) x} 0x20000000 :=
  run_first_call.elim fun _ h =>
    (malloc_lowest_gap (reachable_sram (.nil sramReset)) h.1).2 (by decide)

/-! ## The counters -/

/-- The bytes of the blocks that are out. -/
def usedBytes (s : HeapUse) : Nat :=
  (s.out.map fun b => s.heap.memory.xBlockSize (b.1 - xHeapStructSize) % 2 ^ 31).sum

theorem usedBytes_eq (ha : Accounted P s l blocks) :
    usedBytes s = total (blocks.map Prod.fst) := by
  rw [usedBytes, ha.out_eq, List.map_map, total, List.map_map]
  refine congrArg _ (List.map_congr_left fun b hb => ?_)
  show s.heap.memory.xBlockSize ((pointerTo b).1 - xHeapStructSize) % 2 ^ 31 = b.1.size
  rw [pointerTo, Nat.add_sub_cancel]
  exact blockSize_eq ha hb

/-- Every step leaves the heap set up. -/
theorem pxEnd_ne_of_step (ha : Accounted P s l blocks) (hstep : HeapStep P s a t) :
    t.heap.pxEnd ≠ 0 := by
  cases hstep with
  | malloc w heap pv h =>
      rcases ha.malloc w with ⟨hcall, _, _⟩ | ⟨heap', b, l', hcall, hg, _⟩
      · obtain ⟨rfl, rfl⟩ := Prod.mk.inj (Option.some.inj (h.symm.trans hcall))
        exact ha.statics.pxEnd_ne
      · obtain ⟨rfl, rfl⟩ := Prod.mk.inj (Option.some.inj (h.symm.trans hcall))
        exact hg.prepared.pxEnd_ne
  | release pv w front back heap hout h =>
      obtain ⟨before, b, after, rfl, rfl, rfl, rfl⟩ := ha.split hout
      obtain ⟨heap', hcall, hacc, _, _⟩ := ha.release
      obtain rfl := Option.some.inj (h.symm.trans hcall)
      exact fun hend => absurd (hacc.set_up hend) (by simp)
  | insert pv front back heap hout h =>
      obtain ⟨before, b, after, rfl, rfl, rfl, rfl⟩ := ha.split hout
      obtain ⟨memory, _, rfl⟩ := Option.map_eq_some_iff.1 h
      exact fun hend => absurd (ha.set_up hend) (by simp)
  | write pv w address value hout hlow hhigh =>
      obtain ⟨before, b, after, rfl, rfl, _⟩ := ha.held_cells hout
      exact fun hend => absurd (ha.set_up hend) (by simp)

/-- The low-water mark is not above the free bytes. -/
def MinimumLe (P : Placement) (s : HeapUse) : Prop :=
  (prepared P s.heap).xMinimumEverFreeBytesRemaining ≤ (prepared P s.heap).xFreeBytesRemaining

/-- The low-water mark follows the free bytes down. -/
theorem minimum_step (ha : Accounted P s l blocks) (hmin : MinimumLe P s)
    (hstep : HeapStep P s a t) :
    t.heap.xMinimumEverFreeBytesRemaining =
      min (prepared P s.heap).xMinimumEverFreeBytesRemaining t.heap.xFreeBytesRemaining := by
  have hend := pxEnd_ne_of_step ha hstep
  have hs := ha.statics.remaining
  unfold MinimumLe at hmin
  cases hstep with
  | malloc w heap pv h =>
      rcases ha.malloc w with ⟨hcall, _, _⟩ | ⟨heap', b, l', hcall, hg, _⟩
      · obtain ⟨rfl, rfl⟩ := Prod.mk.inj (Option.some.inj (h.symm.trans hcall))
        exact (min_eq_left hmin).symm
      · obtain ⟨rfl, rfl⟩ := Prod.mk.inj (Option.some.inj (h.symm.trans hcall))
        exact hg.minimum
  | release pv w front back heap hout h =>
      obtain ⟨before, b, after, rfl, rfl, rfl, rfl⟩ := ha.split hout
      obtain ⟨heap', hcall, hacc, hkept, _⟩ := ha.release
      obtain rfl := Option.some.inj (h.symm.trans hcall)
      have ht := hacc.statics.remaining
      rw [prepared_of_ne hend] at ht
      rw [ha.heap_eq (by simp)] at hs hmin ⊢
      exact hkept.trans (min_eq_left (by rw [ht, ← hs]; exact hmin)).symm
  | insert pv front back heap hout h =>
      obtain ⟨before, b, after, rfl, rfl, rfl, rfl⟩ := ha.split hout
      obtain ⟨heap', hcall, hacc, hkept, _⟩ := ha.insert
      obtain rfl := Option.some.inj (h.symm.trans hcall)
      have ht := hacc.statics.remaining
      rw [prepared_of_ne hend, total_put] at ht
      rw [ha.heap_eq (by simp)] at hs hmin ⊢
      exact hkept.trans (min_eq_left (by rw [ht]; omega)).symm
  | write pv w address value hout hlow hhigh =>
      obtain ⟨before, b, after, rfl, rfl, _⟩ := ha.held_cells hout
      rw [ha.heap_eq (by simp)] at hmin ⊢
      exact (min_eq_left hmin).symm

theorem minimumLe (hs : (heapSystem P).Reachable s) : MinimumLe P s := by
  have hall : (∃ l blocks, Accounted P s l blocks) ∧ MinimumLe P s := by
    refine System.Reachable.invariant
      (I := fun s => (∃ l blocks, Accounted P s l blocks) ∧ MinimumLe P s) hs
      (fun s hs => ?_) fun s a t hs hstep => ?_
    · obtain ⟨memory, rfl⟩ := hs
      have hstart := prepared_prvHeapInit P (heapReset memory)
      have hremaining := hstart.1.remaining
      refine ⟨⟨_, _, .start P memory⟩, ?_⟩
      show (prvHeapInit P _).xMinimumEverFreeBytesRemaining ≤
        (prvHeapInit P _).xFreeBytesRemaining
      rw [hstart.2, hremaining]
      simp [total, wholeHeap, Segment.size]
    · obtain ⟨⟨l, blocks, ha⟩, hmin⟩ := hs
      refine ⟨accounted_step ha hstep, ?_⟩
      unfold MinimumLe
      rw [prepared_of_ne (pxEnd_ne_of_step ha hstep), minimum_step ha hmin hstep]
      exact min_le_right ..
  exact hall.2

/-- The mark only sinks. -/
theorem minimum_le_of_run (hs : (heapSystem P).Reachable s) (hset : s.heap.pxEnd ≠ 0)
    (hrun : (heapSystem P).Run s labels t) :
    t.heap.xMinimumEverFreeBytesRemaining ≤ s.heap.xMinimumEverFreeBytesRemaining := by
  induction hrun with
  | nil s => exact le_refl _
  | cons hstep hrun ih =>
      obtain ⟨l, blocks, ha⟩ := accounted hs
      refine (ih (hs.step hstep) (pxEnd_ne_of_step ha hstep)).trans ?_
      rw [minimum_step ha (minimumLe hs) hstep, prepared_of_ne hset]
      exact min_le_left ..

theorem free_add_used (hs : (heapSystem P).Reachable s) (hset : s.heap.pxEnd ≠ 0) :
    s.heap.xFreeBytesRemaining + usedBytes s = P.high - P.low := by
  obtain ⟨l, blocks, ha⟩ := accounted hs
  have hremaining := ha.statics.remaining
  rw [prepared_of_ne hset] at hremaining
  rw [hremaining, usedBytes_eq ha]
  exact ha.total_eq

/-- A run from the reset on that passes a state where just so much was free as the low-water
mark of its last state says. -/
def MarkReached (P : Placement) (memory : Memory) (labels : List HeapLabel) (t : HeapUse) :
    Prop :=
  ∃ as bs u, labels = as ++ bs ∧ (heapSystem P).Run ⟨heapReset memory, []⟩ as u ∧
    (heapSystem P).Run u bs t ∧ u.heap.pxEnd ≠ 0 ∧
    xPortGetFreeHeapSize u.heap = xPortGetMinimumEverFreeHeapSize t.heap

theorem markReached_step {memory : Memory}
    (hrun : (heapSystem P).Run ⟨heapReset memory, []⟩ labels s)
    (hs : s.heap.pxEnd ≠ 0 → MarkReached P memory labels s) (hstep : HeapStep P s a t) :
    MarkReached P memory (labels ++ [a]) t := by
  have hreach : (heapSystem P).Reachable s := ⟨_, _, ⟨memory, rfl⟩, hrun⟩
  obtain ⟨l, blocks, ha⟩ := accounted hreach
  have heq := minimum_step ha (minimumLe hreach) hstep
  have hset := pxEnd_ne_of_step ha hstep
  have hnow : t.heap.xFreeBytesRemaining ≤
      (prepared P s.heap).xMinimumEverFreeBytesRemaining → MarkReached P memory (labels ++ [a]) t :=
    fun hle => ⟨labels ++ [a], [], t, (List.append_nil _).symm, hrun.snoc hstep, .nil t, hset,
      (heq.trans (min_eq_right hle)).symm⟩
  by_cases hset' : s.heap.pxEnd = 0
  · -- the first call: all of the heap is free before it
    refine hnow ?_
    have hwhole : (prepared P s.heap).xMinimumEverFreeBytesRemaining = P.high - P.low := by
      rw [prepared, if_pos hset']
      exact (prepared_prvHeapInit P s.heap).2
    have hle := free_add_used (hreach.step hstep) hset
    omega
  · rcases le_total t.heap.xFreeBytesRemaining
      (prepared P s.heap).xMinimumEverFreeBytesRemaining with hle | hle
    · exact hnow hle
    · obtain ⟨as, bs, u, rfl, hu, hrest, hsetu, hfree⟩ := hs hset'
      refine ⟨as, bs ++ [a], u, (List.append_assoc ..), hu, hrest.snoc hstep, hsetu, ?_⟩
      rw [hfree, xPortGetMinimumEverFreeHeapSize, xPortGetMinimumEverFreeHeapSize, heq,
        min_eq_left hle, prepared_of_ne hset']

theorem markReached {memory : Memory}
    (hrun : (heapSystem P).Run ⟨heapReset memory, []⟩ labels t) (hset : t.heap.pxEnd ≠ 0) :
    MarkReached P memory labels t := by
  have hall : (heapSystem P).Run ⟨heapReset memory, []⟩ labels t ∧
      (t.heap.pxEnd ≠ 0 → MarkReached P memory labels t) := by
    refine System.Run.history (I := fun labels t =>
      (heapSystem P).Run ⟨heapReset memory, []⟩ labels t ∧
        (t.heap.pxEnd ≠ 0 → MarkReached P memory labels t)) hrun
      ⟨.nil _, fun hset => absurd rfl hset⟩ fun labels s a t hs hstep => ?_
    exact ⟨hs.1.snoc hstep, fun _ => markReached_step hs.1 hs.2 hstep⟩
  exact hall.2 hset

/-- Once a call has set the heap up, `xPortGetFreeHeapSize` is what no block that is out takes,
and `xPortGetMinimumEverFreeHeapSize` the least that it was in the run, then or since. -/
theorem counters_right {memory : Memory}
    (hrun : (heapSystem P).Run ⟨heapReset memory, []⟩ labels t) (hset : t.heap.pxEnd ≠ 0) :
    xPortGetFreeHeapSize t.heap + usedBytes t = P.high - P.low ∧
      MarkReached P memory labels t ∧
      ∀ as bs u, labels = as ++ bs → (heapSystem P).Run ⟨heapReset memory, []⟩ as u →
        (heapSystem P).Run u bs t → u.heap.pxEnd ≠ 0 →
        xPortGetMinimumEverFreeHeapSize t.heap ≤ xPortGetFreeHeapSize u.heap := by
  have hreach : ∀ {as u}, (heapSystem P).Run ⟨heapReset memory, []⟩ as u →
      (heapSystem P).Reachable u := fun h => ⟨_, _, ⟨memory, rfl⟩, h⟩
  refine ⟨free_add_used (hreach hrun) hset, markReached hrun hset,
    fun as bs u _ hu hrest hset' => ?_⟩
  have hle := minimumLe (hreach hu)
  unfold MinimumLe at hle
  rw [prepared_of_ne hset'] at hle
  exact (minimum_le_of_run (hreach hu) hset' hrest).trans hle

theorem counters_right_twoCalls : ∃ heap,
    xPortGetFreeHeapSize heap + usedBytes (twoBlocks heap) = sram.high - sram.low ∧
      MarkReached sram (fun _ => 0) twoCalls (twoBlocks heap) ∧
      ∀ as bs u, twoCalls = as ++ bs → (heapSystem sram).Run sramReset as u →
        (heapSystem sram).Run u bs (twoBlocks heap) → u.heap.pxEnd ≠ 0 →
        xPortGetMinimumEverFreeHeapSize heap ≤ xPortGetFreeHeapSize u.heap := by
  obtain ⟨heap, hrun⟩ := run_twoCalls
  obtain ⟨l, blocks, ha⟩ := accounted (reachable_sram hrun)
  have hset : heap.pxEnd ≠ 0 := fun hend => by
    have hout := ha.out_eq
    rw [ha.set_up hend] at hout
    cases hout
  exact ⟨heap, counters_right hrun hset⟩

/-! ## Afterwards -/

/-- Once every block is freed, in whatever order, the heap is one block again: a request for
anything that the heap can hold at all gets the start of it. -/
theorem all_freed (hs : (heapSystem P).Reachable s) (hout : s.out = []) :
    Prepared P (prepared P s.heap) [wholeHeap P] ∧
      ∀ w : BitVec 32, 0 < w.toNat → blockFor w.toNat ≤ P.high - P.low →
        ∃ heap, pvPortMalloc P s.heap w = some (heap, P.low + xHeapStructSize) := by
  obtain ⟨l, blocks, ha⟩ := accounted hs
  have hnil : blocks = [] := List.map_eq_nil_iff.1 (ha.out_eq.symm.trans hout)
  subst hnil
  have hl : l = [wholeHeap P] := by
    refine ha.statics.free.separated.ext (List.pairwise_singleton _ _) fun x => ?_
    rw [mem_covered_cons]
    constructor
    · exact fun hx => .inl (ha.statics.free.bounds_of_mem_covered hx)
    · rintro (hx | hx)
      · exact (ha.covers x hx.1 hx.2).resolve_right not_mem_covered_nil
      · exact absurd hx not_mem_covered_nil
  subst hl
  refine ⟨ha.statics, fun w hpos hfit => ?_⟩
  have hwanted := wanted_le_blockFor w.toNat
  have hbounds := P.bounds
  rcases ha.malloc w with ⟨_, hrefused, _⟩ | ⟨heap, b, l', hcall, hg, _⟩
  · rcases hrefused with hzero | hlarge | hsmall
    · omega
    · omega
    · exact absurd hfit (not_le.2 (hsmall _ (List.mem_singleton_self _)))
  · have hlow := hg.inHeap.low_le
    have hstart : b.start = P.low := by
      refine le_antisymm (not_lt.1 fun hlt => ?_) hlow
      exact absurd hfit (not_le.2 (hg.first_fit _ (List.mem_singleton_self _) hlt))
    exact ⟨heap, by rw [hcall, hstart]⟩

theorem all_freed_again : ∃ heap heap',
    pvPortMalloc sram heap 16000 = some (heap', 0x20000008) := by
  obtain ⟨heap, _, hrun⟩ := run_first_call
  obtain ⟨l, blocks, ha⟩ := accounted (reachable_sram hrun)
  have hout : (HeapUse.mk heap [(0x20000008, .held 100)]).out =
      [] ++ (0x20000008, .held 100) :: [] := rfl
  obtain ⟨heap', hfree⟩ := free_run ha hout
  obtain ⟨_, hagain⟩ := all_freed (reachable_sram (hrun.append hfree)) rfl
  obtain ⟨heap'', hcall⟩ := hagain 16000 (by decide) (by decide)
  exact ⟨heap', heap'', hcall⟩

end BillCounter.Heap
