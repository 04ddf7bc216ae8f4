import BillCounter.Image.AutoBoot

/-!
# Whether the image is verified

`IMAGE_IsVerified` compares the check sum in the current record with that of the image in
place.  It has `!=` where `==` belongs: of two images with a record each, it accepts the
corrupt one and rejects the other.
-/

namespace BillCounter.Image

open BillCounter.Lib.RawBytes

section Definitions

variable (L : InfoLayout) (crc16Calc : List Byte → BitVec 16)
  (IMAGE_INFO_AUTO_BOOT : BitVec 32) (A : Area)

/-- The `nSize` bytes at `nStart`. -/
def imageBytes (flash : Memory) (xInfo : ImageInfo) : List Byte :=
  read flash xInfo.nStart.toNat xInfo.nSize.toNat

/-- `IMAGE_IsVerified`. -/
def imageIsVerified (s : ImageState) : Bool :=
  match imageGet L A s with
  | none => false
  | some xInfo => xInfo.nSize ≠ 0 ∧ xInfo.nCRC16 ≠ crc16Calc (imageBytes s.flash xInfo)

/-- The check sum in the record is that of the image in place. -/
structure Intact (flash : Memory) (xInfo : ImageInfo) : Prop where
  nSize_pos : 0 < xInfo.nSize
  nCRC16 : crc16Calc (imageBytes flash xInfo) = xInfo.nCRC16

/-- No byte of the image lies in an erase unit that has a slot. -/
def Apart (xInfo : ImageInfo) : Prop :=
  ∀ i : Nat, i < A.nMaxCount →
    xInfo.nStart.toNat + xInfo.nSize.toNat ≤ A.page i * A.pageSlots * slotSize ∨
      A.page i * A.pageSlots * slotSize + A.pageSlots * slotSize ≤ xInfo.nStart.toNat

/-- What `IMAGE_IsVerified` is to return: whether the image is intact.  So it stays `true`
when the auto-boot bit is switched, and is `false` once the image has another check sum. -/
structure VerifiesImage (s : ImageState) : Prop where
  exact : imageIsVerified L crc16Calc A s = true ↔
    ∃ r, imageGet L A s = some r ∧ Intact crc16Calc s.flash r
  kept : ∀ r, imageGet L A s = some r → Intact crc16Calc s.flash r → Apart A r →
    ∀ calls, imageIsVerified L crc16Calc A
      (imageSetAutoBoots L crc16Calc IMAGE_INFO_AUTO_BOOT A s calls) = true
  noticed : ∀ r flash', imageGet L A s = some r → Intact crc16Calc s.flash r →
    imageGet L A ⟨flash', s.nCurrent⟩ = some r →
    crc16Calc (imageBytes flash' r) ≠ crc16Calc (imageBytes s.flash r) →
      imageIsVerified L crc16Calc A ⟨flash', s.nCurrent⟩ = false

end Definitions

variable {L : InfoLayout} {crc16Calc : List Byte → BitVec 16} {A : Area}
  {IMAGE_INFO_AUTO_BOOT : BitVec 32}

/-- What it returns is the opposite, but for an empty image. -/
theorem imageIsVerified_iff {s : ImageState} {r : ImageInfo} (hget : imageGet L A s = some r)
    (hsize : r.nSize ≠ 0) :
    imageIsVerified L crc16Calc A s = true ↔ ¬ Intact crc16Calc s.flash r := by
  rw [imageIsVerified, hget, decide_eq_true_eq]
  constructor
  · rintro ⟨_, hne⟩ hintact
    exact hne hintact.nCRC16.symm
  · intro hcorrupt
    refine ⟨hsize, fun heq => hcorrupt ⟨?_, heq.symm⟩⟩
    rw [BitVec.lt_def]
    exact Nat.pos_of_ne_zero fun hzero => hsize (BitVec.eq_of_toNat_eq hzero)

theorem imageIsVerified_empty {s : ImageState}
    (hempty : ∀ r, imageGet L A s = some r → r.nSize = 0) :
    imageIsVerified L crc16Calc A s = false := by
  rw [imageIsVerified]
  cases hget : imageGet L A s with
  | none => rfl
  | some r => exact decide_eq_false fun h => h.1 (hempty r hget)

theorem Intact.nSize_ne_zero {flash : Memory} {r : ImageInfo} (h : Intact crc16Calc flash r) :
    r.nSize ≠ 0 := by
  intro hzero
  have hpos := h.nSize_pos
  rw [hzero] at hpos
  exact absurd hpos (by decide)

/-- In any state the answer is right exactly if the current record is of an empty image. -/
theorem verifiesImage_of_state (s : ImageState) :
    VerifiesImage L crc16Calc IMAGE_INFO_AUTO_BOOT A s ↔
      ∀ r, imageGet L A s = some r → r.nSize = 0 := by
  constructor
  · intro h r hget
    by_contra hsize
    have hanswer : imageIsVerified L crc16Calc A s = true ↔ ¬ Intact crc16Calc s.flash r :=
      imageIsVerified_iff hget hsize
    rw [h.exact, hget] at hanswer
    by_cases hintact : Intact crc16Calc s.flash r
    · exact hanswer.mp ⟨r, rfl, hintact⟩ hintact
    · obtain ⟨r', hr', hintact'⟩ := hanswer.mpr hintact
      cases hr'
      exact hintact hintact'
  · intro hempty
    have hnone : ∀ r, imageGet L A s = some r → ¬ Intact crc16Calc s.flash r :=
      fun r hget hintact => hintact.nSize_ne_zero (hempty r hget)
    refine ⟨?_, fun r hget hintact => absurd hintact (hnone r hget),
      fun r _ hget hintact => absurd hintact (hnone r hget)⟩
    rw [imageIsVerified_empty hempty]
    constructor
    · intro h
      cases h
    · rintro ⟨r, hget, hintact⟩
      exact absurd hintact (hnone r hget)

/-- `IMAGE_IsVerified` is right exactly if the current record is of an empty image; so, behind
`IMAGE_Set`, if the record set is. -/
theorem verifiesImage_iff (L : InfoLayout) (crc16Calc : List Byte → BitVec 16)
    (IMAGE_INFO_AUTO_BOOT : BitVec 32) (A : Area) (s : ImageState) :
    (VerifiesImage L crc16Calc IMAGE_INFO_AUTO_BOOT A s ↔
      ∀ r, imageGet L A s = some r → r.nSize = 0) ∧
    ∀ frame pInfo, VerifiesImage L crc16Calc IMAGE_INFO_AUTO_BOOT A
      (imageSet L crc16Calc A frame pInfo s).2 ↔ pInfo.nSize = 0 := by
  refine ⟨verifiesImage_of_state s, fun frame pInfo => ?_⟩
  rw [verifiesImage_of_state, imageGet_imageSet]
  constructor
  · exact fun h => h pInfo rfl
  · rintro h r ⟨⟩
    exact h

/-- The record of an image of four erased bytes. -/
def fourErased : ImageInfo :=
  ⟨0, 0x8000, 4, Crc16.crc16Calc (List.replicate 4 0xFF)⟩

/-- The image is in place, and not verified. -/
theorem intact_not_verified :
    ∃ s, (powerSystem armLayout Crc16.crc16Calc 1 oneUnit).Reachable s ∧
      imageGet armLayout oneUnit s = some fourErased ∧
      Intact Crc16.crc16Calc s.flash fourErased ∧
      ¬ VerifiesImage armLayout Crc16.crc16Calc 1 oneUnit s := by
  have haccept := selfAccepted_erasedLike armLayout Crc16.crc16Calc
  have hstart : (powerSystem armLayout Crc16.crc16Calc 1 oneUnit).Reachable
      (bootedOnce oneUnit).state := .start ⟨_, _, haccept, rfl⟩
  refine ⟨_, hstart.step (a := .call (.imageSet (.erasedLike armLayout) fourErased))
    ⟨haccept, rfl⟩, by decide +kernel, ⟨by decide, by decide +kernel⟩, fun h => ?_⟩
  have htrue := h.exact.mpr ⟨fourErased, by decide +kernel, by decide, by decide +kernel⟩
  exact absurd htrue (by decide +kernel)

end BillCounter.Image
