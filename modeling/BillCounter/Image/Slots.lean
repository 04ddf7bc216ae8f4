import BillCounter.Image.Acceptance
import BillCounter.Lib.RecordLog
import Mathlib.Data.Nat.Basic

/-!
# The image slots as a rotating record log

`view` forgets the bytes: a slot holds what it says when it passes the CRC test
and nothing otherwise.  Under the two CRC facts the slots rely on — a slot
`IMAGE_Set` wrote passes the test, an erased one fails it — every function of
`image.c` acts on the view as the operation of `Lib.RecordLog` it implements.
-/

namespace BillCounter.Image

open BillCounter.Lib.RawBytes
open BillCounter.Lib.LeastKey
open BillCounter.Lib.RecordLog

variable (L : InfoLayout) (crc16Calc : List Byte → BitVec 16) (A : Area)

/-- The log `image.c` implements: indices count up from 1 modulo `2^32`. -/
def shape : Shape Nat ImageInfo where
  slots := A.nMaxCount
  page := A.page
  first := 1
  next k := (k + 1) % 2 ^ 32
  blank := blankInfo
  slots_pos := A.count_pos

/-- What slot `i` holds, if it passes the CRC test. -/
def slotView (flash : Memory) (i : Nat) : Option (Nat × ImageInfo) :=
  if i < A.nMaxCount ∧ crcTest L crc16Calc flash (A.slotAddress i) = true then
    some ((slotNIndex flash (A.slotAddress i)).toNat,
      slotInfo L flash (A.slotAddress i))
  else none

/-- The log a state of `image.c` stands for. -/
def view (s : ImageState) : Log Nat ImageInfo where
  slot := slotView L crc16Calc A s.flash
  current := if s.nCurrent = -1 then none else some s.nCurrent.toNat

/-- An erased slot fails the CRC test. -/
def ErasedFails : Prop :=
  crc16Calc (List.replicate (crcLength L) 0xFF) ≠ 0xFFFF

instance : Decidable (ErasedFails L crc16Calc) := inferInstanceAs (Decidable (_ ≠ _))

/-- Among the slots in `kept` that pass the CRC test the one of least `nIndex`,
the lowest such slot, holds the record `r`. -/
def OldestSlotHolds (kept : Nat → Bool) (flash : Memory) (r : ImageInfo) : Prop :=
  ∃ c : Nat, IsFirstLeast
    (fun i : Nat => kept i && crcTest L crc16Calc flash (A.slotAddress i))
    (fun i : Nat => (slotNIndex flash (A.slotAddress i)).toNat) A.nMaxCount c ∧
    slotInfo L flash (A.slotAddress c) = r

/-- A slot has been chosen and it is readable. -/
structure Running (s : ImageState) : Prop where
  nonneg : 0 ≤ s.nCurrent
  wf : Wf (shape A) (view L crc16Calc A s)

/-- No slot chosen yet, as after a reset, or one that is readable. -/
def Ready (s : ImageState) : Prop := s.nCurrent = -1 ∨ Running L crc16Calc A s

variable {L crc16Calc A}

/-! ## Slots and reads -/

/-- A slot that reads the same holds the same. -/
theorem slotView_congr {flash flash' : Memory} {i : Nat}
    (h : ∀ off n, off + n ≤ slotSize →
      read flash (A.slotAddress i + off) n = read flash' (A.slotAddress i + off) n) :
    slotView L crc16Calc A flash i = slotView L crc16Calc A flash' i := by
  have hb := L.slotBytes_bounds
  have hcrc := h 0 2 (by decide)
  rw [Nat.add_zero] at hcrc
  have htest : crcTest L crc16Calc flash (A.slotAddress i) =
      crcTest L crc16Calc flash' (A.slotAddress i) := by
    rw [crcTest, slotNCRC16, hcrc, h 4 (crcLength L) (by rw [crcLength]; omega)]
    rfl
  have hidx : slotNIndex flash (A.slotAddress i) =
      slotNIndex flash' (A.slotAddress i) := by
    rw [slotNIndex, h 4 4 (by decide), slotNIndex]
  have hinfo : slotInfo L flash (A.slotAddress i) =
      slotInfo L flash' (A.slotAddress i) := by
    rw [slotInfo, h 8 L.size (by omega), slotInfo]
  rw [slotView, htest, hidx, hinfo, slotView]

/-- A slot that reads as erased holds nothing. -/
theorem slotView_erased (herased : ErasedFails L crc16Calc) {flash : Memory} {i : Nat}
    (h : ∀ off n, off + n ≤ slotSize →
      read flash (A.slotAddress i + off) n = List.replicate n 0xFF) :
    slotView L crc16Calc A flash i = none := by
  have hb := L.slotBytes_bounds
  have hcrc := h 0 2 (by decide)
  have hcover := h 4 (crcLength L) (by rw [crcLength]; omega)
  rw [Nat.add_zero] at hcrc
  have hword : wordAt 16 (List.replicate 2 (0xFF : Byte)) = 0xFFFF := by decide
  have htest : crcTest L crc16Calc flash (A.slotAddress i) = false := by
    rw [crcTest, slotNCRC16, hcrc, hcover, hword, beq_eq_false_iff_ne]
    exact fun heq => herased heq.symm
  simp [slotView, htest]

/-- A slot `IMAGE_Set` wrote holds its index and record. -/
theorem slotView_written {frame : StackFrame L} {nIndex : BitVec 32}
    {pInfo : ImageInfo} (haccept : SelfAccepted L crc16Calc frame) {flash : Memory}
    {t : Nat} (ht : t < A.nMaxCount)
    (h : HoldsSlot A flash t (xSlotFinal L crc16Calc frame nIndex pInfo)) :
    slotView L crc16Calc A flash t = some (nIndex.toNat, pInfo) := by
  have hb := L.slotBytes_bounds
  have hlen : (xSlotFinal L crc16Calc frame nIndex pInfo).length = L.slotBytes :=
    length_xSlotFinal
  have htest := (h.crcTest_eq hlen).trans (slotAccepted_iff.mpr (haccept nIndex pInfo))
  have hidx : slotNIndex flash (A.slotAddress t) = nIndex := by
    rw [slotNIndex, h.read_slice (by omega), slice, drop_xSlotFinal (by decide), ← slice,
      slice_nIndex, wordAt_wordBytes _ (by decide)]
  rw [slotView, if_pos ⟨ht, htest⟩, hidx, h.slotInfo_eq]

/-- The oldest slot of the log is the oldest slot of the code. -/
theorem oldestHolds_iff {kept : Nat → Bool} {flash : Memory} {r : ImageInfo} :
    OldestHolds (shape A)
        (fun i => if kept i then slotView L crc16Calc A flash i else none) r ↔
      OldestSlotHolds L crc16Calc A kept flash r := by
  let slot := fun i => if kept i then slotView L crc16Calc A flash i else none
  let ok := fun i : Nat => kept i && crcTest L crc16Calc flash (A.slotAddress i)
  have hsome : ∀ i, i < A.nMaxCount → (slot i).isSome = ok i := by
    intro i hi
    simp only [slot, ok, slotView, hi, true_and]
    cases kept i <;> cases crcTest L crc16Calc flash (A.slotAddress i) <;> rfl
  have hslot : ∀ i, i < A.nMaxCount → ok i = true →
      slot i = some ((slotNIndex flash (A.slotAddress i)).toNat,
        slotInfo L flash (A.slotAddress i)) := by
    intro i hi hok
    obtain ⟨hkept, htest⟩ := Bool.and_eq_true_iff.mp hok
    simp only [slot, hkept, if_true, slotView, hi, htest, and_self]
  have hkey : ∀ i, i < A.nMaxCount → ok i = true →
      slotKey (shape A) slot i = (slotNIndex flash (A.slotAddress i)).toNat := by
    intro i hi hok
    rw [slotKey, hslot i hi hok, Option.elim_some]
  constructor
  · rintro ⟨c, ⟨hlt, hok, hleast⟩, hr⟩
    have hokc := (hsome c hlt).symm.trans hok
    refine ⟨c, ⟨hlt, hokc, fun i hi hoki => ?_⟩, ?_⟩
    · rw [← hkey c hlt hokc, ← hkey i hi hoki]
      exact hleast i hi ((hsome i hi).trans hoki)
    · have hrec : (slot c).map Prod.snd = some r := hr
      rw [hslot c hlt hokc] at hrec
      exact Option.some.inj hrec
  · rintro ⟨c, ⟨hlt, hok, hleast⟩, hr⟩
    refine ⟨c, ⟨hlt, (hsome c hlt).trans hok, fun i hi hoki => ?_⟩, ?_⟩
    · have htest := (hsome i hi).symm.trans hoki
      rw [hkey c hlt hok, hkey i hi htest]
      exact hleast i hi htest
    · show (slot c).map Prod.snd = some r
      rw [hslot c hlt hok, ← hr]
      rfl

/-- What an erase of slot `t`'s unit followed by a write inside slot `t` leaves
in the other slots. -/
theorem slotView_erase_write (herased : ErasedFails L crc16Calc) {flash : Memory}
    {i t : Nat} (hi : i ≠ t) {bs : List Byte} (hbs : bs.length ≤ slotSize) :
    slotView L crc16Calc A
        (write (flashIfEraseSignlePage A flash (A.slotAddress t))
          (A.slotAddress t) bs) i =
      wipe (shape A) t (slotView L crc16Calc A flash) i := by
  show _ = if A.page i = A.page t then none else slotView L crc16Calc A flash i
  by_cases hpage : A.page i = A.page t
  · rw [if_pos hpage]
    apply slotView_erased herased
    intro off n hn
    rw [read_write_other hi hbs hn, read_erase_inside hpage hn]
  · rw [if_neg hpage]
    apply slotView_congr
    intro off n hn
    rw [read_write_other hi hbs hn, read_erase_outside hpage hn]

/-! ## `IMAGE_Set` -/

theorem view_current {s : ImageState} (h : 0 ≤ s.nCurrent) :
    (view L crc16Calc A s).current = some s.nCurrent.toNat := by
  rw [view, if_neg (by omega)]

/-- The slot a running state is in. -/
theorem Running.slot {s : ImageState} (h : Running L crc16Calc A s) :
    ∃ c : Nat, s.nCurrent = c ∧ slotView L crc16Calc A s.flash c =
      some ((slotNIndex s.flash (A.slotAddress c)).toNat,
        slotInfo L s.flash (A.slotAddress c)) := by
  obtain ⟨c, hc, _, hsome⟩ := h.wf
  rw [view_current h.nonneg, Option.some.injEq] at hc
  refine ⟨c, by have := h.nonneg; omega, ?_⟩
  simp only [view, slotView] at hsome ⊢
  split at hsome
  · rename_i hok
    rw [if_pos hok]
  · exact absurd hsome Bool.false_ne_true

theorem nextSlot_lt (s : ImageState) : nextSlot A s < A.nMaxCount := by
  have hpos := A.count_pos
  have hlt := Int.emod_lt_of_pos (s.nCurrent + 1)
    (Int.natCast_pos.mpr hpos)
  have hnn := Int.emod_nonneg (s.nCurrent + 1)
    (show (A.nMaxCount : Int) ≠ 0 by omega)
  simp only [nextSlot]
  omega

/-- The rotation of the code is the rotation of the log. -/
theorem target_view {s : ImageState} (h : Ready L crc16Calc A s) :
    target (shape A) (view L crc16Calc A s) = nextSlot A s := by
  rcases h with hnone | hrun
  · simp [target, view, hnone, nextSlot]
  · obtain ⟨c, hc, _⟩ := hrun.slot
    have hsucc : ((c : Int) + 1) % (A.nMaxCount : Int) =
        (((c + 1) % A.nMaxCount : Nat) : Int) := by
      push_cast
      rfl
    rw [target, view_current hrun.nonneg, nextSlot, hc, hsucc]
    rfl

/-- So is the next index. -/
theorem nextKey_view {s : ImageState} (h : Ready L crc16Calc A s) :
    nextKey (shape A) (view L crc16Calc A s) = (nextIndex A s).toNat := by
  rcases h with hnone | hrun
  · simp [nextKey, view, hnone, nextIndex, shape]
  · obtain ⟨c, hc, hslot⟩ := hrun.slot
    have hview : (view L crc16Calc A s).slot c = _ := hslot
    rw [nextKey, view_current hrun.nonneg, hc, nextIndex, if_pos (by omega), hc,
      BitVec.toNat_add]
    simp only [Int.toNat_natCast, hview, Option.elim_some]
    rfl

/-- The other slots after an `IMAGE_Set` whose write stops after `k` bytes. -/
theorem slotView_other (herased : ErasedFails L crc16Calc) {frame : StackFrame L}
    (pInfo : ImageInfo) (s : ImageState) (k : Nat) {i : Nat} (hi : i ≠ nextSlot A s) :
    slotView L crc16Calc A
        (imageSetWith L crc16Calc A ⟨true, k⟩ frame pInfo s).2.flash i =
      wipe (shape A) (nextSlot A s) (slotView L crc16Calc A s.flash) i := by
  have hb := L.slotBytes_bounds
  refine slotView_erase_write herased hi ?_
  rw [List.length_take, length_xSlotFinal]
  exact Nat.le_trans (Nat.min_le_right _ _) (by omega)

/-- A write that left the whole slot in flash left the slots of a `put`. -/
theorem slotView_put (herased : ErasedFails L crc16Calc) {frame : StackFrame L}
    (haccept : SelfAccepted L crc16Calc frame) {pInfo : ImageInfo} {s : ImageState}
    (h : Ready L crc16Calc A s) {k : Nat} (hk : k ≤ L.slotBytes)
    (hwhole : partialSlot L crc16Calc frame (nextIndex A s) pInfo k =
      xSlotFinal L crc16Calc frame (nextIndex A s) pInfo) :
    slotView L crc16Calc A
        (imageSetWith L crc16Calc A ⟨true, k⟩ frame pInfo s).2.flash =
      (put (shape A) pInfo (view L crc16Calc A s)).slot := by
  funext i
  simp only [put, target_view h, nextKey_view h]
  by_cases hi : i = nextSlot A s
  · rw [if_pos hi, hi]
    exact slotView_written haccept (nextSlot_lt s)
      (hwhole ▸ holdsSlot_imageSetWith s hk)
  · rw [if_neg hi]
    exact slotView_other herased pInfo s k hi

/-- `IMAGE_Set` writes the log. -/
theorem view_imageSet (herased : ErasedFails L crc16Calc) {frame : StackFrame L}
    (haccept : SelfAccepted L crc16Calc frame) (pInfo : ImageInfo) {s : ImageState}
    (h : Ready L crc16Calc A s) :
    view L crc16Calc A (imageSet L crc16Calc A frame pInfo s).2 =
      put (shape A) pInfo (view L crc16Calc A s) := by
  have hnn : (0 : Int) ≤ (s.nCurrent + 1) % A.nMaxCount :=
    Int.emod_nonneg _ (by have := A.count_pos; omega)
  have hslot : slotView L crc16Calc A (imageSet L crc16Calc A frame pInfo s).2.flash =
      (put (shape A) pInfo (view L crc16Calc A s)).slot :=
    slotView_put herased haccept h (Nat.le_refl _) partialSlot_whole
  have hcur : (view L crc16Calc A (imageSet L crc16Calc A frame pInfo s).2).current =
      some (nextSlot A s) := by
    have hne : (imageSet L crc16Calc A frame pInfo s).2.nCurrent ≠ -1 := by
      simp only [imageSet, imageSetWith]
      omega
    simp only [view, hne, if_false]
    rfl
  rw [view, hslot]
  simp only [put, ← target_view h] at hcur ⊢
  exact congrArg _ hcur

theorem running_imageSet (herased : ErasedFails L crc16Calc) {frame : StackFrame L}
    (haccept : SelfAccepted L crc16Calc frame) (pInfo : ImageInfo) {s : ImageState}
    (h : Ready L crc16Calc A s) :
    Running L crc16Calc A (imageSet L crc16Calc A frame pInfo s).2 where
  nonneg := Int.emod_nonneg _ (by have := A.count_pos; omega)
  wf := view_imageSet herased haccept pInfo h ▸ wf_put (shape A) _ _

/-! ## `IMAGE_Init` -/

/-- The scan of `IMAGE_Init` is the scan of the log. -/
theorem imageInit_scan (L crc16Calc A) (flash : Memory) (n : Nat) (hn : n ≤ A.nMaxCount) :
    (List.range n).foldl (imageInitStep L crc16Calc A flash) (-1) =
      (scan (fun i => (slotView L crc16Calc A flash i).isSome)
        (slotKey (shape A) (slotView L crc16Calc A flash)) n).elim (-1) Nat.cast := by
  induction n with
  | zero => rfl
  | succ n ih =>
      rw [List.range_succ, List.foldl_append, List.foldl_cons, List.foldl_nil,
        ih (Nat.le_of_succ_le hn), scan_succ, imageInitStep]
      have hlt : n < A.nMaxCount := hn
      cases htest : crcTest L crc16Calc flash (A.slotAddress n) with
      | false => simp [scanStep, slotView, htest]
      | true =>
          have hview : slotView L crc16Calc A flash n =
              some ((slotNIndex flash (A.slotAddress n)).toNat,
                slotInfo L flash (A.slotAddress n)) := by
            rw [slotView, if_pos ⟨hlt, htest⟩]
          rcases scan_spec (fun i => (slotView L crc16Calc A flash i).isSome)
            (slotKey (shape A) (slotView L crc16Calc A flash)) n with
            ⟨c, hc, hleast⟩ | ⟨hnone, _⟩
          · -- the index kept so far passed the test, so its key is its `nIndex`
            have hkey : slotKey (shape A) (slotView L crc16Calc A flash) c =
                (slotNIndex flash (A.slotAddress c)).toNat := by
              have hsome := hleast.admissible
              simp only [slotView] at hsome
              split at hsome
              · rename_i hok
                rw [slotKey, slotView, if_pos hok]
                rfl
              · exact absurd hsome Bool.false_ne_true
            have hne : ¬ (c : Int) = -1 := by omega
            simp only [scanStep, hview, hc, Option.elim_some, if_true,
              Option.isSome_some, hne, if_false, slotKey, BitVec.lt_def]
            rw [← slotKey, hkey]
            split <;> rfl
          · simp [scanStep, hview, hnone]

theorem view_imageInit (herased : ErasedFails L crc16Calc) {frame : StackFrame L}
    (haccept : SelfAccepted L crc16Calc frame) {s : ImageState}
    (hreset : s.nCurrent = -1) :
    view L crc16Calc A (imageInit L crc16Calc A frame s).2 =
        boot (shape A) (slotView L crc16Calc A s.flash) ∧
      Running L crc16Calc A (imageInit L crc16Calc A frame s).2 := by
  have hscan := imageInit_scan L crc16Calc A s.flash A.nMaxCount (Nat.le_refl _)
  suffices hview : view L crc16Calc A (imageInit L crc16Calc A frame s).2 =
      boot (shape A) (slotView L crc16Calc A s.flash) ∧
      0 ≤ (imageInit L crc16Calc A frame s).2.nCurrent from
    ⟨hview.1, hview.2, hview.1 ▸ wf_boot (shape A) _⟩
  rw [imageInit, hreset, hscan, boot, oldest]
  cases h : scan (fun i => (slotView L crc16Calc A s.flash i).isSome)
      (slotKey (shape A) (slotView L crc16Calc A s.flash)) (shape A).slots with
  | none =>
      have hready : Ready L crc16Calc A ⟨s.flash, -1⟩ := .inl rfl
      have hnone : scan (fun i => (slotView L crc16Calc A s.flash i).isSome)
        (slotKey (shape A) (slotView L crc16Calc A s.flash)) A.nMaxCount = none := h
      simp only [hnone, Option.elim_none, if_true]
      exact ⟨view_imageSet herased haccept _ hready,
        (running_imageSet herased haccept _ hready).nonneg⟩
  | some c =>
      have hsome : scan (fun i => (slotView L crc16Calc A s.flash i).isSome)
        (slotKey (shape A) (slotView L crc16Calc A s.flash)) A.nMaxCount = some c := h
      have hne : ¬ (c : Int) = -1 := by omega
      simp only [hsome, Option.elim_some, if_neg hne]
      refine ⟨?_, Int.natCast_nonneg c⟩
      simp [view, hne]

/-! ## `IMAGE_Get` and `IMAGE_SetAutoBoot` -/

theorem imageGet_view {s : ImageState} (h : Running L crc16Calc A s) :
    imageGet L A s = (view L crc16Calc A s).get := by
  obtain ⟨c, hc, hslot⟩ := h.slot
  have hview : (view L crc16Calc A s).slot c = _ := hslot
  rw [imageGet, if_neg (by omega), Log.get, view_current h.nonneg, hc]
  simp [hview]

theorem view_imageSetAutoBoot (IMAGE_INFO_AUTO_BOOT : BitVec 32)
    (herased : ErasedFails L crc16Calc) {frame : StackFrame L}
    (haccept : SelfAccepted L crc16Calc frame) (bEnable : Bool) {s : ImageState}
    (h : Running L crc16Calc A s) :
    view L crc16Calc A
        (imageSetAutoBoot L crc16Calc IMAGE_INFO_AUTO_BOOT A bEnable frame s).2 =
        amend (shape A) (autoBootChange IMAGE_INFO_AUTO_BOOT bEnable)
          (view L crc16Calc A s) ∧
      Running L crc16Calc A
        (imageSetAutoBoot L crc16Calc IMAGE_INFO_AUTO_BOOT A bEnable frame s).2 := by
  have hget := imageGet_view h
  obtain ⟨r, hr⟩ := wf_get (shape A) h.wf
  rw [hr] at hget
  rw [imageSetAutoBoot, hget, amend, hr, Option.bind_some]
  cases hchange : autoBootChange IMAGE_INFO_AUTO_BOOT bEnable r with
  | none => exact ⟨by simp [hchange], by simpa [hchange] using h⟩
  | some r' =>
      simp only [hchange]
      exact ⟨view_imageSet herased haccept r' (.inr h),
        running_imageSet herased haccept r' (.inr h)⟩

end BillCounter.Image
