import BillCounter.Crc16
import BillCounter.Image.Model
import Mathlib.Tactic.ByContra

/-!
# Whether a written slot passes the boot-time CRC test

`IMAGE_Set` and `IMAGE_Init` both take their CRC over
`sizeof(IMAGE_INFO_SLOT) - sizeof(nCRC16)` bytes from `&nIndex`.  `nIndex` is at
offset 4, not 2, so both ranges end two bytes past the slot.  The writer covers
two bytes of its stack there, the reader two bytes of flash, which the erase has
set to `0xFF`; a slot is sure to be accepted only when the stack happened to
hold the same.
-/

namespace BillCounter.Image

open BillCounter.Lib.RawBytes

variable (L : InfoLayout) (crc16Calc : List Byte → BitVec 16) (A : Area)

/-- The slot from `nIndex` to its end, as `IMAGE_Set` fills it. -/
def slotBody (frame : StackFrame L) (nIndex : BitVec 32) (pInfo : ImageInfo) :
    List Byte :=
  (xSlotMembers L frame nIndex pInfo).drop 4

/-- The slot `IMAGE_Set` writes next. -/
def nextSlot (s : ImageState) : Nat := ((s.nCurrent + 1) % A.nMaxCount).toNat

/-- The index `IMAGE_Set` writes next. -/
def nextIndex (s : ImageState) : BitVec 32 :=
  if s.nCurrent ≠ -1 then slotNIndex s.flash (A.slotAddress s.nCurrent) + 1 else 1

/-- Some frame whose CRC is taken over the same bytes on both sides. -/
def StackFrame.erasedLike : StackFrame L := ⟨.replicate _ 0, .replicate 2 0xFF⟩

/-- The two CRC computations agree on whatever is written from this frame. -/
def SelfAccepted (frame : StackFrame L) : Prop :=
  ∀ nIndex pInfo, crc16Calc (slotBody L frame nIndex pInfo ++ frame.after.val) =
    crc16Calc (slotBody L frame nIndex pInfo ++ [0xFF, 0xFF])

/-- The test of `IMAGE_Init` on a slot that reads `xs`, with erased bytes after
it. -/
def slotAccepted (xs : List Byte) : Bool :=
  wordAt 16 (slice xs 0 2) == crc16Calc (xs.drop 4 ++ [0xFF, 0xFF])

/-- What the slot reads as once the first `k` bytes of `xSlot` are written over
erased flash. -/
def partialSlot (frame : StackFrame L) (nIndex : BitVec 32) (pInfo : ImageInfo)
    (k : Nat) : List Byte :=
  (xSlotFinal L crc16Calc frame nIndex pInfo).take k ++
    List.replicate (L.slotBytes - k) 0xFF

theorem selfAccepted_erasedLike : SelfAccepted L crc16Calc (.erasedLike L) :=
  fun _ _ => rfl

variable {L crc16Calc A} {frame : StackFrame L} {nIndex : BitVec 32}
  {pInfo : ImageInfo}

/-- The CRC `IMAGE_Set` stores. -/
theorem slice_nCRC16 : slice (xSlotFinal L crc16Calc frame nIndex pInfo) 0 2 =
    wordBytes 2 (crc16Calc (slotBody L frame nIndex pInfo ++ frame.after.val)) := by
  have hb := L.slotBytes_bounds
  have hlen : (xSlotMembers L frame nIndex pInfo).length = L.slotBytes :=
    length_xSlotMembers
  have hfits : 0 + (wordBytes 2 (crc16Calc (slotBody L frame nIndex pInfo ++
      frame.after.val))).length ≤ (xSlotMembers L frame nIndex pInfo).length := by
    rw [length_wordBytes]
    omega
  have hself := slice_patch_self hfits
  rw [length_wordBytes] at hself
  rw [xSlotFinal, crcRange_eq]
  exact hself

/-- Storing the CRC does not touch the bytes from `nIndex` on. -/
theorem drop_xSlotFinal {o : Nat} (ho : 2 ≤ o) :
    (xSlotFinal L crc16Calc frame nIndex pInfo).drop o =
      (xSlotMembers L frame nIndex pInfo).drop o := by
  have hb := L.slotBytes_bounds
  have hlen : (xSlotMembers L frame nIndex pInfo).length = L.slotBytes :=
    length_xSlotMembers
  exact drop_patch_above (by rw [length_wordBytes]; omega)
    (by rw [length_wordBytes]; omega)

/-- Flash that holds the bytes `xs` at slot `t` and `0xFF` up to the next slot. -/
structure HoldsSlot (A : Area) (flash : Memory) (t : Nat) (xs : List Byte) : Prop where
  written : read flash (A.slotAddress t) xs.length = xs
  erased : ∀ off n, xs.length ≤ off → off + n ≤ slotSize →
    read flash (A.slotAddress t + off) n = List.replicate n 0xFF

theorem HoldsSlot.read_slice {flash : Memory} {t : Nat} {xs : List Byte}
    (h : HoldsSlot A flash t xs) {off n : Nat} (hn : off + n ≤ xs.length) :
    read flash (A.slotAddress t + off) n = slice xs off n := by
  rw [Lib.RawBytes.read_slice hn, h.written]

/-- A write into an erased slot leaves what is written and erased bytes behind
it. -/
theorem holdsSlot_write {flash : Memory} {t : Nat} {xs : List Byte} {m : Nat}
    (h : xs.length + m ≤ slotSize) :
    HoldsSlot A (write (flashIfEraseSignlePage A flash (A.slotAddress t))
      (A.slotAddress t) xs) t (xs ++ List.replicate m 0xFF) where
  written := by
    have hrest : read (write (flashIfEraseSignlePage A flash (A.slotAddress t))
        (A.slotAddress t) xs) (A.slotAddress t + xs.length) m =
        List.replicate m 0xFF := by
      rw [read_write_of_disjoint (by omega), read_erase_inside rfl h]
    rw [List.length_append, List.length_replicate, read_add, read_write_self, hrest]
  erased off n hoff hn := by
    rw [List.length_append] at hoff
    rw [read_write_of_disjoint (by omega), read_erase_inside rfl hn]

/-- What `IMAGE_Init` covers with its CRC: the slot from `nIndex` on, and the two
erased bytes after it. -/
theorem HoldsSlot.read_crcRange {flash : Memory} {t : Nat} {xs : List Byte}
    (h : HoldsSlot A flash t xs) (hlen : xs.length = L.slotBytes) :
    read flash (A.slotAddress t + 4) (crcLength L) = xs.drop 4 ++ [0xFF, 0xFF] := by
  have hb := L.slotBytes_bounds
  have hbody : read flash (A.slotAddress t + 4) (L.slotBytes - 4) = xs.drop 4 := by
    rw [h.read_slice (by omega), slice, List.take_of_length_le
      (Nat.le_of_eq (by rw [List.length_drop, hlen]))]
  have htail : read flash (A.slotAddress t + L.slotBytes) 2 = [0xFF, 0xFF] :=
    h.erased L.slotBytes 2 (by omega) hb.2
  rw [show crcLength L = (L.slotBytes - 4) + 2 by rw [crcLength]; omega,
    read_add, hbody, ← htail]
  congr 2
  omega

/-- The boot-time test on a slot, by what it reads as. -/
theorem HoldsSlot.crcTest_eq {flash : Memory} {t : Nat} {xs : List Byte}
    (h : HoldsSlot A flash t xs) (hlen : xs.length = L.slotBytes) :
    crcTest L crc16Calc flash (A.slotAddress t) = slotAccepted crc16Calc xs := by
  have hb := L.slotBytes_bounds
  have hcrc := h.read_slice (show 0 + 2 ≤ xs.length by omega)
  rw [Nat.add_zero] at hcrc
  rw [crcTest, slotNCRC16, hcrc, h.read_crcRange hlen, slotAccepted]

/-- The boot-time test on a slot as `IMAGE_Set` fills it. -/
theorem slotAccepted_iff :
    slotAccepted crc16Calc (xSlotFinal L crc16Calc frame nIndex pInfo) = true ↔
      crc16Calc (slotBody L frame nIndex pInfo ++ frame.after.val) =
        crc16Calc (slotBody L frame nIndex pInfo ++ [0xFF, 0xFF]) := by
  rw [slotAccepted, slice_nCRC16, wordAt_wordBytes _ (by decide),
    drop_xSlotFinal (by decide), ← slotBody, beq_iff_eq]

theorem partialSlot_whole : partialSlot L crc16Calc frame nIndex pInfo L.slotBytes =
    xSlotFinal L crc16Calc frame nIndex pInfo := by
  rw [partialSlot, List.take_of_length_le (Nat.le_of_eq length_xSlotFinal),
    Nat.sub_self, List.replicate_zero, List.append_nil]

theorem length_partialSlot {k : Nat} (hk : k ≤ L.slotBytes) :
    (partialSlot L crc16Calc frame nIndex pInfo k).length = L.slotBytes := by
  rw [partialSlot, List.length_append, List.length_take, length_xSlotFinal,
    List.length_replicate]
  omega

/-- What `IMAGE_Set` leaves at the slot it writes, when the write stops after `k`
bytes. -/
theorem holdsSlot_imageSetWith (s : ImageState) {k : Nat} (hk : k ≤ L.slotBytes) :
    HoldsSlot A (imageSetWith L crc16Calc A ⟨true, k⟩ frame pInfo s).2.flash
      (nextSlot A s) (partialSlot L crc16Calc frame (nextIndex A s) pInfo k) := by
  have hb := L.slotBytes_bounds
  have hfits : ((xSlotFinal L crc16Calc frame (nextIndex A s) pInfo).take k).length +
      (L.slotBytes - k) ≤ slotSize := by
    rw [List.length_take, length_xSlotFinal]
    omega
  exact holdsSlot_write hfits

/-- What `IMAGE_Set` leaves at the slot it writes. -/
theorem holdsSlot_imageSet (s : ImageState) :
    HoldsSlot A (imageSet L crc16Calc A frame pInfo s).2.flash (nextSlot A s)
      (xSlotFinal L crc16Calc frame (nextIndex A s) pInfo) := by
  rw [← partialSlot_whole]
  exact holdsSlot_imageSetWith s (Nat.le_refl _)

/-- The record of a slot that `IMAGE_Set` wrote, whether or not it is accepted at the next
boot. -/
theorem HoldsSlot.slotInfo_eq {flash : Memory} {t : Nat}
    (h : HoldsSlot A flash t (xSlotFinal L crc16Calc frame nIndex pInfo)) :
    slotInfo L flash (A.slotAddress t) = pInfo := by
  have hb := L.slotBytes_bounds
  have hlen : (xSlotFinal L crc16Calc frame nIndex pInfo).length = L.slotBytes :=
    length_xSlotFinal
  rw [slotInfo, h.read_slice (by omega), slice, drop_xSlotFinal (by decide), ← slice,
    load_slice_info]

/-- Both CRC ranges leave the slot, whatever the record.  They hold equal
contents, and the slot written is accepted by the next boot under every CRC
function, exactly when the two stack bytes after `xSlot` are the two erased bytes
after the slot in flash. -/
theorem slot_accepted_iff (L : InfoLayout) (A : Area) (frame : StackFrame L)
    (pInfo : ImageInfo) (s : ImageState) :
    ((∀ crc16Calc, crcTest L crc16Calc
        (imageSet L crc16Calc A frame pInfo s).2.flash
        (A.slotAddress (imageSet L crc16Calc A frame pInfo s).2.nCurrent) = true) ↔
      frame.after.val = [0xFF, 0xFF]) ∧
    (∀ crc16Calc, read (imageSet L crc16Calc A frame pInfo s).2.flash
        (A.slotAddress (imageSet L crc16Calc A frame pInfo s).2.nCurrent + 4)
        (crcLength L) =
      slice (xSlotMembers L frame (nextIndex A s) pInfo ++ frame.after.val) 4
        (crcLength L) ↔ frame.after.val = [0xFF, 0xFF]) ∧
    ¬ 4 + crcLength L ≤ L.slotBytes := by
  have hb := L.slotBytes_bounds
  have haccept : ∀ crc16Calc, crcTest L crc16Calc
      (imageSet L crc16Calc A frame pInfo s).2.flash
      (A.slotAddress (imageSet L crc16Calc A frame pInfo s).2.nCurrent) = true ↔
      crc16Calc (slotBody L frame (nextIndex A s) pInfo ++ frame.after.val) =
        crc16Calc (slotBody L frame (nextIndex A s) pInfo ++ [0xFF, 0xFF]) :=
    fun crc16Calc => by
      rw [← slotAccepted_iff, ← (holdsSlot_imageSet s).crcTest_eq length_xSlotFinal]
      rfl
  refine ⟨⟨fun h => ?_, fun h crc16Calc => ?_⟩, fun crc16Calc => ?_,
    by rw [crcLength]; omega⟩
  · by_contra hne
    -- a CRC that singles out the bytes the writer covered
    let bytes := slotBody L frame (nextIndex A s) pInfo ++ frame.after.val
    have hcrc := (haccept fun bs => if bs = bytes then 1 else 0).mp (h _)
    have hdiff : slotBody L frame (nextIndex A s) pInfo ++ [0xFF, 0xFF] ≠ bytes :=
      fun heq => hne (List.append_cancel_left heq).symm
    rw [if_pos rfl, if_neg hdiff] at hcrc
    exact absurd hcrc (by decide)
  · rw [haccept, h]
  · have hholds : HoldsSlot A (imageSet L crc16Calc A frame pInfo s).2.flash
        (nextSlot A s) (xSlotFinal L crc16Calc frame (nextIndex A s) pInfo) :=
      holdsSlot_imageSet s
    have hread := hholds.read_crcRange length_xSlotFinal
    rw [drop_xSlotFinal (by decide), ← slotBody] at hread
    have haddr : A.slotAddress (nextSlot A s) =
        A.slotAddress (imageSet L crc16Calc A frame pInfo s).2.nCurrent := rfl
    rw [crcRange_eq, ← slotBody, ← haddr, hread]
    exact ⟨fun h => (List.append_cancel_left h).symm, fun h => by rw [h]⟩

/-- Two slots, each an erase unit of its own. -/
def twoUnits : Area where
  nBaseAddress := 0x1000
  nMaxCount := 2
  pageSlots := 1
  count_pos := by decide
  pageSlots_pos := by decide
  aligned := rfl
  fits := by decide

/-- With zeros on the stack after `xSlot` the slot just written is not accepted,
and the bytes the two sides cover differ. -/
theorem slot_not_accepted_over_zeros :
    let frame : StackFrame armLayout := ⟨.replicate _ 0, .replicate 2 0⟩
    let s : ImageState := ⟨fun _ => 0xFF, -1⟩
    let s' := (imageSet armLayout Crc16.crc16Calc twoUnits frame blankInfo s).2
    crcTest armLayout Crc16.crc16Calc s'.flash (twoUnits.slotAddress s'.nCurrent) =
        false ∧
      armLayout.slotBytes < 4 + crcLength armLayout ∧
      read s'.flash (twoUnits.slotAddress s'.nCurrent + 4) (crcLength armLayout) ≠
        slice (xSlotMembers armLayout frame (nextIndex twoUnits s) blankInfo ++
          frame.after.val) 4 (crcLength armLayout) := by
  decide +kernel

end BillCounter.Image
