import Mathlib.Algebra.Group.Nat.Defs
import Mathlib.Logic.Function.Basic

/-!
# The heap of the tasks

`heap_4.c` gives out the blocks of `ucHeap`.  A block starts with a `BlockLink_t`: the next
free block and the size of this one.  Free blocks are linked in the order of their addresses,
from `xStart` to `pxEnd`, which lies behind the last block and ends the list.  A block that is
given out has no next block and the top bit of its size set.

The structures are words in memory and the pointers addresses, as the source has them:
`xStart` is a node like the others, although it lies outside the heap.  `configASSERT` stops
the interrupts and loops; that is `none` here, and so would be a walk that found no end.
-/

namespace BillCounter.Heap

def portByteAlignment : Nat := 8

def portByteAlignmentMask : Nat := 0x0007

/-- `sizeof(BlockLink_t)`, aligned. -/
def xHeapStructSize : Nat := 8

def heapMinimumBlockSize : Nat := xHeapStructSize <<< 1

def configTotalHeapSize : Nat := 4096 * 4

/-- A sum of two `size_t`. -/
def addSize (x y : Nat) : Nat := (x + y) % 2 ^ 32

/-- A difference of two `size_t`. -/
def subSize (x y : Nat) : Nat := (x + (2 ^ 32 - y)) % 2 ^ 32

/-- `x & ~mask` -/
def clearBits (x mask : Nat) : Nat := x - (x &&& mask)

/-- Where the linker puts the heap and the head of the list. -/
structure Placement where
  ucHeap : Nat
  xStart : Nat
  ucHeap_fits : ucHeap + configTotalHeapSize ≤ 2 ^ 32
  xStart_apart : xStart + xHeapStructSize ≤ ucHeap ∨ ucHeap + configTotalHeapSize ≤ xStart

/-- The word at each address that is a multiple of four. -/
abbrev Memory : Type := Nat → Nat

namespace Memory

def pxNextFreeBlock (m : Memory) (p : Nat) : Nat := m p

def xBlockSize (m : Memory) (p : Nat) : Nat := m (p + 4)

def setNextFreeBlock (m : Memory) (p v : Nat) : Memory := Function.update m p v

def setBlockSize (m : Memory) (p v : Nat) : Memory := Function.update m (p + 4) v

@[simp] theorem setNextFreeBlock_self (m : Memory) (p v : Nat) :
    m.setNextFreeBlock p v p = v := Function.update_self ..

@[simp] theorem setBlockSize_self (m : Memory) (p v : Nat) :
    m.setBlockSize p v (p + 4) = v := Function.update_self ..

theorem setNextFreeBlock_of_ne {x p : Nat} (h : x ≠ p) (m : Memory) (v : Nat) :
    m.setNextFreeBlock p v x = m x := Function.update_of_ne h ..

theorem setBlockSize_of_ne {x p : Nat} (h : x ≠ p + 4) (m : Memory) (v : Nat) :
    m.setBlockSize p v x = m x := Function.update_of_ne h ..

end Memory

structure HeapState where
  memory : Memory
  pxEnd : Nat
  xFreeBytesRemaining : Nat
  xMinimumEverFreeBytesRemaining : Nat
  xBlockAllocatedBit : Nat

/-- The statics as the program starts; what is in memory does not matter. -/
def heapReset (memory : Memory) : HeapState := ⟨memory, 0, 0, 0, 0⟩

/-- `prvHeapInit` -/
def prvHeapInit (P : Placement) (h : HeapState) : HeapState :=
  let aligned : Nat × Nat :=
    if P.ucHeap &&& portByteAlignmentMask ≠ 0 then
      let uxAddress := clearBits (P.ucHeap + (portByteAlignment - 1)) portByteAlignmentMask
      (uxAddress, configTotalHeapSize - (uxAddress - P.ucHeap))
    else (P.ucHeap, configTotalHeapSize)
  let pucAlignedHeap := aligned.1
  let xTotalHeapSize := aligned.2
  let memory := h.memory.setNextFreeBlock P.xStart pucAlignedHeap
  let memory := memory.setBlockSize P.xStart 0
  let uxAddress :=
    clearBits (pucAlignedHeap + xTotalHeapSize - xHeapStructSize) portByteAlignmentMask
  let pxEnd := uxAddress
  let memory := memory.setBlockSize pxEnd 0
  let memory := memory.setNextFreeBlock pxEnd 0
  let pxFirstFreeBlock := pucAlignedHeap
  let memory := memory.setBlockSize pxFirstFreeBlock (subSize uxAddress pxFirstFreeBlock)
  let memory := memory.setNextFreeBlock pxFirstFreeBlock pxEnd
  { memory := memory
    pxEnd := pxEnd
    xMinimumEverFreeBytesRemaining := memory.xBlockSize pxFirstFreeBlock
    xFreeBytesRemaining := memory.xBlockSize pxFirstFreeBlock
    xBlockAllocatedBit := 1 <<< 31 }

/-- The `for` of `prvInsertBlockIntoFreeList`: from `pxIterator` on, the last block in front
of the one to insert. -/
def findPlace (memory : Memory) (pxBlockToInsert : Nat) : Nat → Nat → Option Nat
  | 0, _ => none
  | fuel + 1, pxIterator =>
      if memory.pxNextFreeBlock pxIterator < pxBlockToInsert then
        findPlace memory pxBlockToInsert fuel (memory.pxNextFreeBlock pxIterator)
      else some pxIterator

/-- Link the block to insert, which starts at `pxBlockToInsert`, to what is behind
`pxIterator`. -/
def linkNext (pxEnd : Nat) (memory : Memory) (pxIterator pxBlockToInsert : Nat) : Memory :=
  let pxNext := memory.pxNextFreeBlock pxIterator
  if pxBlockToInsert + memory.xBlockSize pxBlockToInsert = pxNext then
    if pxNext ≠ pxEnd then
      let memory := memory.setBlockSize pxBlockToInsert
        (addSize (memory.xBlockSize pxBlockToInsert) (memory.xBlockSize pxNext))
      memory.setNextFreeBlock pxBlockToInsert (memory.pxNextFreeBlock pxNext)
    else memory.setNextFreeBlock pxBlockToInsert pxEnd
  else memory.setNextFreeBlock pxBlockToInsert pxNext

/-- Link the block to both sides. -/
def linkBlock (pxEnd : Nat) (memory : Memory) (pxIterator pxBlockToInsert : Nat) : Memory :=
  let memory := linkNext pxEnd memory pxIterator pxBlockToInsert
  if pxIterator ≠ pxBlockToInsert then memory.setNextFreeBlock pxIterator pxBlockToInsert
  else memory

/-- `prvInsertBlockIntoFreeList`.  There are fewer blocks than bytes. -/
def prvInsertBlockIntoFreeList (P : Placement) (pxEnd : Nat) (memory : Memory)
    (pxBlockToInsert : Nat) : Option Memory :=
  (findPlace memory pxBlockToInsert configTotalHeapSize P.xStart).map fun pxIterator =>
    if pxIterator + memory.xBlockSize pxIterator = pxBlockToInsert then
      -- one block with the one in front
      linkBlock pxEnd
        (memory.setBlockSize pxIterator
          (addSize (memory.xBlockSize pxIterator) (memory.xBlockSize pxBlockToInsert)))
        pxIterator pxIterator
    else linkBlock pxEnd memory pxIterator pxBlockToInsert

/-- The size of the block for a request: with its `BlockLink_t`, and aligned. -/
def alignedSize (xWantedSize : Nat) : Nat :=
  if 0 < xWantedSize then
    let xWantedSize := addSize xWantedSize xHeapStructSize
    if xWantedSize &&& portByteAlignmentMask ≠ 0 then
      addSize xWantedSize (portByteAlignment - (xWantedSize &&& portByteAlignmentMask))
    else xWantedSize
  else xWantedSize

/-- The `while` of `pvPortMalloc`: the first block that is large enough, or the end marker,
with the block in front of it. -/
def findBlock (memory : Memory) (xWantedSize : Nat) : Nat → Nat → Nat → Option (Nat × Nat)
  | 0, _, _ => none
  | fuel + 1, pxPreviousBlock, pxBlock =>
      if memory.xBlockSize pxBlock < xWantedSize ∧ memory.pxNextFreeBlock pxBlock ≠ 0 then
        findBlock memory xWantedSize fuel pxBlock (memory.pxNextFreeBlock pxBlock)
      else some (pxPreviousBlock, pxBlock)

/-- Give the end of `pxBlock` back, where what is left over makes a block. -/
def splitBlock (P : Placement) (pxEnd : Nat) (memory : Memory) (xWantedSize pxBlock : Nat) :
    Option Memory :=
  if subSize (memory.xBlockSize pxBlock) xWantedSize > heapMinimumBlockSize then do
    let pxNewBlockLink := pxBlock + xWantedSize
    guard (pxNewBlockLink &&& portByteAlignmentMask = 0)
    let memory := memory.setBlockSize pxNewBlockLink
      (subSize (memory.xBlockSize pxBlock) xWantedSize)
    let memory := memory.setBlockSize pxBlock xWantedSize
    prvInsertBlockIntoFreeList P pxEnd memory pxNewBlockLink
  else some memory

/-- Take `pxBlock` out of the list, split it and mark it. -/
def takeBlock (P : Placement) (h : HeapState) (xWantedSize pxPreviousBlock pxBlock : Nat) :
    Option HeapState := do
  let memory := h.memory.setNextFreeBlock pxPreviousBlock (h.memory.pxNextFreeBlock pxBlock)
  let memory ← splitBlock P h.pxEnd memory xWantedSize pxBlock
  let xFreeBytesRemaining := subSize h.xFreeBytesRemaining (memory.xBlockSize pxBlock)
  let memory := memory.setBlockSize pxBlock (memory.xBlockSize pxBlock ||| h.xBlockAllocatedBit)
  pure { h with
    memory := memory.setNextFreeBlock pxBlock 0
    xFreeBytesRemaining := xFreeBytesRemaining
    xMinimumEverFreeBytesRemaining :=
      if xFreeBytesRemaining < h.xMinimumEverFreeBytesRemaining then xFreeBytesRemaining
      else h.xMinimumEverFreeBytesRemaining }

/-- `pvPortMalloc`, between `vTaskSuspendAll` and the return, on a heap that is set up. -/
def mallocPrepared (P : Placement) (h : HeapState) (xWantedSize : Nat) :
    Option (HeapState × Nat) :=
  if xWantedSize &&& h.xBlockAllocatedBit = 0 then do
    let xWantedSize := alignedSize xWantedSize
    guard (xWantedSize &&& portByteAlignmentMask = 0)
    if 0 < xWantedSize ∧ xWantedSize ≤ h.xFreeBytesRemaining then do
      let found ← findBlock h.memory xWantedSize configTotalHeapSize P.xStart
        (h.memory.pxNextFreeBlock P.xStart)
      if found.2 ≠ h.pxEnd then do
        let pvReturn := h.memory.pxNextFreeBlock found.1 + xHeapStructSize
        let h ← takeBlock P h xWantedSize found.1 found.2
        guard (pvReturn &&& portByteAlignmentMask = 0)
        pure (h, pvReturn)
      else pure (h, 0)
    else pure (h, 0)
  else pure (h, 0)

/-- The heap, set up by the first call. -/
def prepared (P : Placement) (h : HeapState) : HeapState :=
  if h.pxEnd = 0 then prvHeapInit P h else h

/-- `pvPortMalloc` -/
def pvPortMalloc (P : Placement) (h : HeapState) (xWantedSize : BitVec 32) :
    Option (HeapState × Nat) :=
  mallocPrepared P (prepared P h) xWantedSize.toNat

/-- `vPortFree` of a pointer, up to `vTaskSuspendAll`: other tasks may run behind it.  The two
`if` behind the assertions ask the same again. -/
def freeRelease (h : HeapState) (pv : Nat) : Option HeapState := do
  let pxLink := pv - xHeapStructSize
  guard (h.memory.xBlockSize pxLink &&& h.xBlockAllocatedBit ≠ 0)
  guard (h.memory.pxNextFreeBlock pxLink = 0)
  let xBlockSize := clearBits (h.memory.xBlockSize pxLink) h.xBlockAllocatedBit
  pure { h with memory := h.memory.setBlockSize pxLink xBlockSize }

/-- `vPortFree` behind `vTaskSuspendAll`. -/
def freeInsert (P : Placement) (h : HeapState) (pxLink : Nat) : Option HeapState :=
  (prvInsertBlockIntoFreeList P h.pxEnd h.memory pxLink).map fun memory =>
    { h with
      memory := memory
      xFreeBytesRemaining := addSize h.xFreeBytesRemaining (h.memory.xBlockSize pxLink) }

/-- `vPortFree`, where no other task runs in between. -/
def vPortFree (P : Placement) (h : HeapState) (pv : Nat) : Option HeapState :=
  if pv ≠ 0 then (freeRelease h pv).bind fun h => freeInsert P h (pv - xHeapStructSize)
  else some h

/-- `xPortGetFreeHeapSize` -/
def xPortGetFreeHeapSize (h : HeapState) : Nat := h.xFreeBytesRemaining

/-- `xPortGetMinimumEverFreeHeapSize` -/
def xPortGetMinimumEverFreeHeapSize (h : HeapState) : Nat := h.xMinimumEverFreeBytesRemaining

end BillCounter.Heap
