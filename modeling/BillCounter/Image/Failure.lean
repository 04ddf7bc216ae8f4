import BillCounter.Image.PowerFail

/-!
# When the flash routines fail

`FLASH_If_EraseSignlePage` and `FLASH_If_Write` may fail.  `IMAGE_Set` looks at neither
result, has moved `nCurrent` on by then, and returns `true`.
-/

namespace BillCounter.Image

open BillCounter.Lib.RawBytes
open BillCounter.Lib.RecordLog

section Definitions

variable (L : InfoLayout) (crc16Calc : List Byte → BitVec 16) (A : Area)

/-- One of the two routines fails: the erase does not take effect, or the slot is not
written to its end. -/
def FlashFails (o : FlashOutcome) : Prop := o.erased = false ∨ o.written < L.slotBytes

instance (o : FlashOutcome) : Decidable (FlashFails L o) :=
  inferInstanceAs (Decidable (_ ∨ _))

/-- What `IMAGE_Set` is to make of the outcome `o`: a failure is reported, and the record
`old` is still there; and `true` means that the new one is. -/
structure SetReports (o : FlashOutcome) (frame : StackFrame L) (pInfo : ImageInfo)
    (s : ImageState) (old : ImageInfo) : Prop where
  reported : FlashFails L o → (imageSetWith L crc16Calc A o frame pInfo s).1 = false
  kept : FlashFails L o →
    imageGet L A (imageSetWith L crc16Calc A o frame pInfo s).2 = some old
  done : (imageSetWith L crc16Calc A o frame pInfo s).1 = true →
    imageGet L A (imageSetWith L crc16Calc A o frame pInfo s).2 = some pInfo

end Definitions

variable {L : InfoLayout} {crc16Calc : List Byte → BitVec 16} {A : Area}
  {frame : StackFrame L}

/-- `IMAGE_Set` leaves a slot in use. -/
theorem nCurrent_imageSetWith (o : FlashOutcome) (frame : StackFrame L) (pInfo : ImageInfo)
    (s : ImageState) :
    (imageSetWith L crc16Calc A o frame pInfo s).2.nCurrent = (nextSlot A s : Nat) := by
  have hnn : (0 : Int) ≤ (s.nCurrent + 1) % A.nMaxCount :=
    Int.emod_nonneg _ (by have := A.count_pos; omega)
  exact (Int.toNat_of_nonneg hnn).symm

/-- What was set is what `IMAGE_Get` returns. -/
theorem imageGet_imageSet (frame : StackFrame L) (pInfo : ImageInfo) (s : ImageState) :
    imageGet L A (imageSet L crc16Calc A frame pInfo s).2 = some pInfo := by
  have hcur : (imageSet L crc16Calc A frame pInfo s).2.nCurrent = (nextSlot A s : Nat) :=
    nCurrent_imageSetWith (.success L) frame pInfo s
  have hholds : HoldsSlot A (imageSet L crc16Calc A frame pInfo s).2.flash (nextSlot A s)
      (xSlotFinal L crc16Calc frame (nextIndex A s) pInfo) := holdsSlot_imageSet s
  have hslot := hholds.slotInfo_eq
  rw [imageGet, hcur, if_neg (by omega), hslot]

/-- A slot written to its end. -/
theorem imageSetWith_of_not_fails {o : FlashOutcome} (h : ¬ FlashFails L o)
    (pInfo : ImageInfo) (s : ImageState) :
    imageSetWith L crc16Calc A o frame pInfo s = imageSet L crc16Calc A frame pInfo s := by
  obtain ⟨erased, written⟩ := o
  rw [FlashFails, not_or, Bool.not_eq_false, Nat.not_lt] at h
  obtain ⟨rfl, hwritten⟩ := h
  have hle : L.slotBytes ≤ written := hwritten
  have htake : ∀ nIndex, (xSlotFinal L crc16Calc frame nIndex pInfo).take written =
      (xSlotFinal L crc16Calc frame nIndex pInfo).take L.slotBytes := by
    intro nIndex
    have hlen : (xSlotFinal L crc16Calc frame nIndex pInfo).length = L.slotBytes :=
      length_xSlotFinal
    rw [List.take_of_length_le (by omega), List.take_of_length_le (by omega)]
  simp only [imageSet, imageSetWith, FlashOutcome.success, htake]

/-- `IMAGE_Set` does what it is to do exactly when neither routine fails. -/
theorem setReports_iff (o : FlashOutcome) (frame : StackFrame L) (pInfo : ImageInfo)
    (s : ImageState) (old : ImageInfo) :
    SetReports L crc16Calc A o frame pInfo s old ↔ ¬ FlashFails L o := by
  constructor
  · intro h hfails
    have htrue : (imageSetWith L crc16Calc A o frame pInfo s).1 = true := rfl
    rw [h.reported hfails] at htrue
    cases htrue
  · intro h
    refine ⟨fun hfails => absurd hfails h, fun hfails => absurd hfails h, fun _ => ?_⟩
    rw [imageSetWith_of_not_fails h]
    exact imageGet_imageSet frame pInfo s

/-- The first write of a record, on a board with two slots. -/
theorem write_failure_hidden :
    (powerSystem armLayout Crc16.crc16Calc 1 twoUnits).Reachable (setOnce twoUnits).state ∧
      imageGet armLayout twoUnits (setOnce twoUnits).state = some ⟨1, 0, 0, 0⟩ ∧
      crcTest armLayout Crc16.crc16Calc (setOnce twoUnits).state.flash
        (twoUnits.slotAddress (setOnce twoUnits).state.nCurrent) = true ∧
      ¬ SetReports armLayout Crc16.crc16Calc twoUnits ⟨true, 0⟩ (.erasedLike armLayout)
        ⟨2, 0, 0, 0⟩ (setOnce twoUnits).state ⟨1, 0, 0, 0⟩ := by
  refine ⟨reachable_setOnce twoUnits, by decide +kernel, by decide +kernel, fun h => ?_⟩
  exact absurd (h.reported (.inr (by decide))) (by decide +kernel)

end BillCounter.Image
