import BillCounter.Lib.RawBytes

/-!
# The image record slots of `image.c`

`image.c` keeps a small record about the installed firmware image in one of
`nMaxCount` slots of flash, 256 bytes apart.  `IMAGE_Set` writes the next slot
in rotation under an index one above the current one; `IMAGE_Init` scans the
slots after a reset.  The record type, the CRC routine and the two flash
routines come from headers that are not part of the repository: the layout of
`IMAGE_INFO` and `CRC16_Calc` are parameters here, and the flash routines do
what their names say on byte-addressed memory.

The local `xSlot` of `IMAGE_Set` is uninitialised when the function starts, and
the CRC it computes covers the two bytes after it, so a call also takes the
bytes it finds on the stack (`StackFrame`).
-/

namespace BillCounter.Image

open BillCounter.Lib.RawBytes

/-- `IMAGE_INFO`. -/
structure ImageInfo where
  nFlags : BitVec 32
  nStart : BitVec 32
  nSize : BitVec 32
  nCRC16 : BitVec 16
deriving DecidableEq, Repr

/-- The record `IMAGE_Init` writes when no slot passes its test. -/
def blankInfo : ImageInfo := ⟨0, 0, 0, 0⟩

/-- How the compiler lays out `IMAGE_INFO`: its size, what assigning the four
members does to the bytes of an object, and what reading them yields. -/
structure InfoLayout where
  size : Nat
  store : ImageInfo → List Byte → List Byte
  load : List Byte → ImageInfo
  size_le : size ≤ 0xF0
  length_store : ∀ x bs, bs.length = size → (store x bs).length = size
  load_store : ∀ x bs, bs.length = size → load (store x bs) = x

/-- `IMAGE_INFO_SLOT_SIZE`: the distance between slots. -/
def slotSize : Nat := 0x100

/-- `sizeof(IMAGE_INFO_SLOT)`: `nCRC16` at offset 0, `nIndex` at offset 4, the
record at offset 8, rounded up to the alignment of `nIndex`. -/
def InfoLayout.slotBytes (L : InfoLayout) : Nat := (8 + L.size + 3) / 4 * 4

/-- The statics `nBaseAddress` and `nMaxCount`, which `IMAGE_Init` sets to the
same values after every reset, and the erase geometry of the flash. -/
structure Area where
  nBaseAddress : Nat
  nMaxCount : Nat
  pageSlots : Nat
  count_pos : 0 < nMaxCount
  pageSlots_pos : 0 < pageSlots
  aligned : nBaseAddress % slotSize = 0
  fits : nBaseAddress + nMaxCount * slotSize ≤ 2 ^ 32

/-- `nBaseAddress + n * IMAGE_INFO_SLOT_SIZE`. -/
def Area.slotAddress (A : Area) (n : Int) : Nat :=
  A.nBaseAddress + n.toNat * slotSize

/-- The erase unit slot `i` lies in. -/
def Area.page (A : Area) (i : Nat) : Nat :=
  (A.nBaseAddress / slotSize + i) / A.pageSlots

/-- `FLASH_If_EraseSignlePage`: erase the unit containing the address. -/
def flashIfEraseSignlePage (A : Area) (flash : Memory) (a : Nat) : Memory :=
  let pageBytes := A.pageSlots * slotSize
  fill flash (a / pageBytes * pageBytes) pageBytes 0xFF

/-- The image flash, and the static `nCurrent` (`-1` until a slot is chosen). -/
structure ImageState where
  flash : Memory
  nCurrent : Int

/-- What `IMAGE_Set` finds on its stack: the bytes of the uninitialised local
`xSlot`, and the two bytes that follow it. -/
structure StackFrame (L : InfoLayout) where
  xSlot : Bytes L.slotBytes
  after : Bytes 2

/-- How far the flash routines get: whether the erase takes effect, and how
many bytes of the slot are written. -/
structure FlashOutcome where
  erased : Bool
  written : Nat

/-- Both routines succeed. -/
def FlashOutcome.success (L : InfoLayout) : FlashOutcome := ⟨true, L.slotBytes⟩

section Functions

variable (L : InfoLayout) (crc16Calc : List Byte → BitVec 16)
  (IMAGE_INFO_AUTO_BOOT : BitVec 32) (A : Area)

/-- `pSlot->nCRC16` of the slot at address `a`. -/
def slotNCRC16 (flash : Memory) (a : Nat) : BitVec 16 :=
  wordAt 16 (read flash a 2)

/-- `pSlot->nIndex`. -/
def slotNIndex (flash : Memory) (a : Nat) : BitVec 32 :=
  wordAt 32 (read flash (a + 4) 4)

/-- `pSlot->xInfo`. -/
def slotInfo (flash : Memory) (a : Nat) : ImageInfo :=
  L.load (read flash (a + 8) L.size)

/-- The length both CRC computations use:
`sizeof(IMAGE_INFO_SLOT) - sizeof(pSlot->nCRC16)`. -/
def crcLength : Nat := L.slotBytes - 2

/-- The test of `IMAGE_Init`: `nCRC16` against the CRC over `crcLength` bytes
from `&pSlot->nIndex`. -/
def crcTest (flash : Memory) (a : Nat) : Bool :=
  slotNCRC16 flash a == crc16Calc (read flash (a + 4) (crcLength L))

/-- `xSlot` once `nIndex` and the four members of `xInfo` are assigned. -/
def xSlotMembers (frame : StackFrame L) (nIndex : BitVec 32) (pInfo : ImageInfo) :
    List Byte :=
  let xSlot := patch frame.xSlot.val 4 (wordBytes 4 nIndex)
  patch xSlot 8 (L.store pInfo (slice xSlot 8 L.size))

/-- `xSlot` as it is written: the CRC runs over `crcLength` bytes of the stack
from `&xSlot.nIndex`. -/
def xSlotFinal (frame : StackFrame L) (nIndex : BitVec 32) (pInfo : ImageInfo) :
    List Byte :=
  let xSlot := xSlotMembers L frame nIndex pInfo
  let nCRC16 := crc16Calc (slice (xSlot ++ frame.after.val) 4 (crcLength L))
  patch xSlot 0 (wordBytes 2 nCRC16)

/-- `IMAGE_Set`, with the flash routines getting as far as `o` says.  Their
results are not looked at. -/
def imageSetWith (o : FlashOutcome) (frame : StackFrame L) (pInfo : ImageInfo)
    (s : ImageState) : Bool × ImageState :=
  let nIndex :=
    if s.nCurrent ≠ -1 then slotNIndex s.flash (A.slotAddress s.nCurrent) + 1
    else 1
  let xSlot := xSlotFinal L crc16Calc frame nIndex pInfo
  let nCurrent := (s.nCurrent + 1) % A.nMaxCount
  let a := A.slotAddress nCurrent
  let flash := if o.erased then flashIfEraseSignlePage A s.flash a else s.flash
  (true, ⟨write flash a (xSlot.take o.written), nCurrent⟩)

/-- `IMAGE_Set` with the flash routines succeeding. -/
def imageSet (frame : StackFrame L) (pInfo : ImageInfo) (s : ImageState) :
    Bool × ImageState :=
  imageSetWith L crc16Calc A (.success L) frame pInfo s

/-- One round of the loop of `IMAGE_Init`. -/
def imageInitStep (flash : Memory) (nCurrent : Int) (i : Nat) : Int :=
  if crcTest L crc16Calc flash (A.slotAddress i) then
    if nCurrent = -1 then i
    else if slotNIndex flash (A.slotAddress i) <
        slotNIndex flash (A.slotAddress nCurrent) then i
    else nCurrent
  else nCurrent

/-- `IMAGE_Init`: the scan, and a blank record where it finds nothing. -/
def imageInit (frame : StackFrame L) (s : ImageState) : Bool × ImageState :=
  let nCurrent :=
    (List.range A.nMaxCount).foldl (imageInitStep L crc16Calc A s.flash) s.nCurrent
  if nCurrent = -1 then
    imageSet L crc16Calc A frame blankInfo ⟨s.flash, nCurrent⟩
  else (true, ⟨s.flash, nCurrent⟩)

/-- `IMAGE_Get`: the record it stores through `pInfo`, if it returns true. -/
def imageGet (s : ImageState) : Option ImageInfo :=
  if s.nCurrent = -1 then none
  else some (slotInfo L s.flash (A.slotAddress s.nCurrent))

/-- The change `IMAGE_SetAutoBoot` makes to the record it read, if any. -/
def autoBootChange (bEnable : Bool) (xInfo : ImageInfo) : Option ImageInfo :=
  if bEnable then
    if xInfo.nFlags &&& IMAGE_INFO_AUTO_BOOT = IMAGE_INFO_AUTO_BOOT then none
    else some { xInfo with nFlags := xInfo.nFlags ||| IMAGE_INFO_AUTO_BOOT }
  else
    if xInfo.nFlags &&& IMAGE_INFO_AUTO_BOOT ≠ IMAGE_INFO_AUTO_BOOT then none
    else some { xInfo with nFlags := xInfo.nFlags &&& ~~~IMAGE_INFO_AUTO_BOOT }

/-- `IMAGE_SetAutoBoot`. -/
def imageSetAutoBoot (bEnable : Bool) (frame : StackFrame L) (s : ImageState) :
    Bool × ImageState :=
  match imageGet L A s with
  | none => (false, s)
  | some xInfo =>
      match autoBootChange IMAGE_INFO_AUTO_BOOT bEnable xInfo with
      | none => (true, s)
      | some xInfo => imageSet L crc16Calc A frame xInfo s

end Functions

/-! ## Geometry -/

section Geometry

variable {A : Area}

/-- A slot address counted in slots. -/
theorem Area.slotAddress_eq (A : Area) (i : Nat) :
    A.slotAddress i = (A.nBaseAddress / slotSize + i) * slotSize := by
  have h := Nat.div_add_mod A.nBaseAddress slotSize
  rw [A.aligned, Nat.add_zero, Nat.mul_comm] at h
  rw [Area.slotAddress, Int.toNat_natCast, Nat.add_mul, h]

/-- The erase unit of a slot starts at this address. -/
theorem Area.page_start (A : Area) (i : Nat) :
    A.slotAddress i / (A.pageSlots * slotSize) * (A.pageSlots * slotSize) =
      A.page i * A.pageSlots * slotSize := by
  rw [A.slotAddress_eq, Nat.mul_div_mul_right _ _ (by decide), ← Nat.mul_assoc,
    Area.page]

/-- Every slot lies wholly inside its erase unit. -/
theorem Area.slot_within_page (A : Area) (i : Nat) :
    A.page i * A.pageSlots * slotSize ≤ A.slotAddress i ∧
      A.slotAddress i + slotSize ≤
        A.page i * A.pageSlots * slotSize + A.pageSlots * slotSize := by
  have hlow := Nat.div_mul_le_self (A.nBaseAddress / slotSize + i) A.pageSlots
  have hhigh := Nat.lt_div_mul_add A.pageSlots_pos
    (a := A.nBaseAddress / slotSize + i)
  rw [A.slotAddress_eq]
  refine ⟨Nat.mul_le_mul_right _ hlow, ?_⟩
  rw [← Nat.succ_mul, ← Nat.add_mul]
  exact Nat.mul_le_mul_right _ hhigh

/-- A slot in another erase unit is disjoint from this one. -/
theorem Area.slot_outside_page (A : Area) {i t : Nat} (h : A.page i ≠ A.page t) :
    A.slotAddress i + slotSize ≤ A.page t * A.pageSlots * slotSize ∨
      A.page t * A.pageSlots * slotSize + A.pageSlots * slotSize ≤
        A.slotAddress i := by
  obtain ⟨hlow, hhigh⟩ := A.slot_within_page i
  rcases Nat.lt_or_gt_of_ne h with hlt | hgt
  · have hstep := Nat.mul_le_mul_right slotSize
      (Nat.mul_le_mul_right A.pageSlots (Nat.succ_le_of_lt hlt))
    rw [Nat.succ_mul, Nat.add_mul] at hstep
    exact .inl (Nat.le_trans hhigh hstep)
  · have hstep := Nat.mul_le_mul_right slotSize
      (Nat.mul_le_mul_right A.pageSlots (Nat.succ_le_of_lt hgt))
    rw [Nat.succ_mul, Nat.add_mul] at hstep
    exact .inr (Nat.le_trans hstep hlow)

/-- Different slots do not overlap. -/
theorem Area.slot_disjoint (A : Area) {i t : Nat} (h : i ≠ t) :
    A.slotAddress i + slotSize ≤ A.slotAddress t ∨
      A.slotAddress t + slotSize ≤ A.slotAddress i := by
  rw [A.slotAddress_eq, A.slotAddress_eq]
  simp only [slotSize]
  omega

/-- The erase clears every slot of its unit. -/
theorem read_erase_inside {flash : Memory} {i t off n : Nat}
    (h : A.page i = A.page t) (hn : off + n ≤ slotSize) :
    read (flashIfEraseSignlePage A flash (A.slotAddress t))
      (A.slotAddress i + off) n = List.replicate n 0xFF := by
  have hin := A.slot_within_page i
  rw [flashIfEraseSignlePage, A.page_start]
  apply read_fill_inside
  rw [h] at hin
  omega

/-- The erase leaves every slot of another unit alone. -/
theorem read_erase_outside {flash : Memory} {i t off n : Nat}
    (h : A.page i ≠ A.page t) (hn : off + n ≤ slotSize) :
    read (flashIfEraseSignlePage A flash (A.slotAddress t))
      (A.slotAddress i + off) n = read flash (A.slotAddress i + off) n := by
  have hout := A.slot_outside_page h
  rw [flashIfEraseSignlePage, A.page_start]
  apply read_fill_of_disjoint
  omega

/-- A write into one slot leaves the others alone. -/
theorem read_write_other {flash : Memory} {i t off n : Nat} {bs : List Byte}
    (h : i ≠ t) (hbs : bs.length ≤ slotSize) (hn : off + n ≤ slotSize) :
    read (write flash (A.slotAddress t) bs) (A.slotAddress i + off) n =
      read flash (A.slotAddress i + off) n := by
  have hdisj := A.slot_disjoint h
  apply read_write_of_disjoint
  omega

end Geometry

/-! ## Layout of a slot -/

section Layout

variable {L : InfoLayout} {crc16Calc : List Byte → BitVec 16}
  {frame : StackFrame L} {nIndex : BitVec 32} {pInfo : ImageInfo}

/-- A slot leaves room for the record, and for two more bytes before the next
slot. -/
theorem InfoLayout.slotBytes_bounds (L : InfoLayout) :
    8 + L.size ≤ L.slotBytes ∧ L.slotBytes + 2 ≤ slotSize := by
  have := L.size_le
  simp only [InfoLayout.slotBytes, slotSize]
  omega

/-- `xSlot` with `nIndex` assigned, and the record inside it. -/
private theorem indexed_bytes (frame : StackFrame L) (nIndex : BitVec 32) :
    (patch frame.xSlot.val 4 (wordBytes 4 nIndex)).length = L.slotBytes ∧
      (slice (patch frame.xSlot.val 4 (wordBytes 4 nIndex)) 8 L.size).length = L.size := by
  have hb := L.slotBytes_bounds
  have hx := frame.xSlot.property
  have hlen : (patch frame.xSlot.val 4 (wordBytes 4 nIndex)).length = L.slotBytes := by
    rw [length_patch (by rw [length_wordBytes]; omega), hx]
  exact ⟨hlen, length_slice (by omega)⟩

theorem length_xSlotMembers : (xSlotMembers L frame nIndex pInfo).length = L.slotBytes := by
  have hb := L.slotBytes_bounds
  obtain ⟨hlen, hinfo⟩ := indexed_bytes frame nIndex
  rw [xSlotMembers, length_patch (by rw [L.length_store _ _ hinfo]; omega), hlen]

theorem length_xSlotFinal :
    (xSlotFinal L crc16Calc frame nIndex pInfo).length = L.slotBytes := by
  have hb := L.slotBytes_bounds
  have hlen : (xSlotMembers L frame nIndex pInfo).length = L.slotBytes :=
    length_xSlotMembers
  rw [xSlotFinal, length_patch (by rw [length_wordBytes]; omega), hlen]

/-- What `IMAGE_Set` covers with its CRC: the slot from `nIndex` on, and the two
bytes after `xSlot`. -/
theorem crcRange_eq (frame : StackFrame L) (nIndex : BitVec 32) (pInfo : ImageInfo) :
    slice (xSlotMembers L frame nIndex pInfo ++ frame.after.val) 4 (crcLength L) =
      (xSlotMembers L frame nIndex pInfo).drop 4 ++ frame.after.val := by
  have hb := L.slotBytes_bounds
  have hlen : (xSlotMembers L frame nIndex pInfo).length = L.slotBytes :=
    length_xSlotMembers
  have hafter := frame.after.property
  rw [slice, List.drop_append_of_le_length (by omega), List.take_of_length_le]
  rw [List.length_append, List.length_drop, hlen, hafter, crcLength]
  omega

theorem slice_nIndex :
    slice (xSlotMembers L frame nIndex pInfo) 4 4 = wordBytes 4 nIndex := by
  have hb := L.slotBytes_bounds
  have hx := frame.xSlot.property
  obtain ⟨hlen, hinfo⟩ := indexed_bytes frame nIndex
  have hself : slice (patch frame.xSlot.val 4 (wordBytes 4 nIndex)) 4
      (wordBytes 4 nIndex).length = wordBytes 4 nIndex :=
    slice_patch_self (by rw [length_wordBytes]; omega)
  rw [length_wordBytes] at hself
  rw [xSlotMembers, slice_patch_below (by rw [L.length_store _ _ hinfo]; omega)
    (by omega), hself]

theorem load_slice_info :
    L.load (slice (xSlotMembers L frame nIndex pInfo) 8 L.size) = pInfo := by
  have hb := L.slotBytes_bounds
  obtain ⟨hlen, hinfo⟩ := indexed_bytes frame nIndex
  have hstore := L.length_store pInfo _ hinfo
  have hself : ∀ bs v : List Byte, 8 + v.length ≤ bs.length →
      slice (patch bs 8 v) 8 v.length = v := fun _ _ h => slice_patch_self h
  have hinside := hself (patch frame.xSlot.val 4 (wordBytes 4 nIndex)) _
    (Nat.le_trans (Nat.le_of_eq (congrArg (8 + ·) hstore)) (by omega))
  rw [hstore] at hinside
  rw [xSlotMembers, hinside, L.load_store _ _ hinfo]

end Layout

/-- The layout a compiler for a 32-bit target chooses when the three words come
first: the fourth member at offset 12, two bytes of padding after it. -/
def armLayout : InfoLayout where
  size := 16
  store x bs := wordBytes 4 x.nFlags ++ wordBytes 4 x.nStart ++ wordBytes 4 x.nSize ++
    wordBytes 2 x.nCRC16 ++ bs.drop 14
  load bs := ⟨wordAt 32 (slice bs 0 4), wordAt 32 (slice bs 4 4),
    wordAt 32 (slice bs 8 4), wordAt 16 (slice bs 12 2)⟩
  size_le := by decide
  length_store x bs h := by simp [h]
  load_store x bs _ := by
    have h4 (v : BitVec 32) : wordAt 32 (wordBytes 4 v) = v :=
      wordAt_wordBytes v (by decide)
    have h2 : wordAt 16 (wordBytes 2 x.nCRC16) = x.nCRC16 :=
      wordAt_wordBytes _ (by decide)
    have hnil {n k : Nat} (v : BitVec 32) (h : 4 ≤ k) :
        List.take n (List.drop k (wordBytes 4 v)) = [] := by
      rw [List.drop_eq_nil_of_le (by simpa using h), List.take_nil]
    simp [slice, List.take_append, List.drop_append, h4, h2, hnil]

end BillCounter.Image
