import BillCounter.Image.Failure

/-!
# The auto-boot bit

`IMAGE_SetAutoBoot` reads the current record, and writes it again with the bit changed if
it is not as asked for.  `IMAGE_Get` and `IMAGE_IsAutoBoot` read the slot `nCurrent` points
to and check nothing, so what follows holds in every state, whatever the slots hold and the
next boot would make of them.

`IMAGE_INFO_AUTO_BOOT` comes from a header that is not part of the repository; it is one bit.
-/

namespace BillCounter.Image

open BillCounter.Lib.RawBytes

section Definitions

variable (L : InfoLayout) (crc16Calc : List Byte → BitVec 16)
  (IMAGE_INFO_AUTO_BOOT : BitVec 32) (A : Area)

/-- `IMAGE_IsAutoBoot`. -/
def imageIsAutoBoot (s : ImageState) : Bool :=
  match imageGet L A s with
  | none => false
  | some xInfo => xInfo.nFlags &&& IMAGE_INFO_AUTO_BOOT ≠ 0

/-- A call of a flash routine. -/
inductive FlashOp
  | erase (a : Nat)
  | write (a : Nat) (bs : List Byte)

def FlashOp.apply (flash : Memory) : FlashOp → Memory
  | .erase a => flashIfEraseSignlePage A flash a
  | .write a bs => Lib.RawBytes.write flash a bs

/-- The calls `IMAGE_Set` makes. -/
def imageSetOps (frame : StackFrame L) (pInfo : ImageInfo) (s : ImageState) : List FlashOp :=
  [.erase (A.slotAddress (nextSlot A s)),
   .write (A.slotAddress (nextSlot A s)) (xSlotFinal L crc16Calc frame (nextIndex A s) pInfo)]

/-- The calls `IMAGE_SetAutoBoot` makes. -/
def imageSetAutoBootOps (bEnable : Bool) (frame : StackFrame L) (s : ImageState) :
    List FlashOp :=
  match imageGet L A s with
  | none => []
  | some xInfo =>
      match autoBootChange IMAGE_INFO_AUTO_BOOT bEnable xInfo with
      | none => []
      | some xInfo => imageSetOps L crc16Calc A frame xInfo s

/-- One call of `IMAGE_SetAutoBoot` after the other. -/
def imageSetAutoBoots (s : ImageState) (calls : List (StackFrame L × Bool)) : ImageState :=
  calls.foldl (fun s c => (imageSetAutoBoot L crc16Calc IMAGE_INFO_AUTO_BOOT A c.2 c.1 s).2) s

/-- Records that differ in the auto-boot bit alone. -/
structure SameButAutoBoot (r r' : ImageInfo) : Prop where
  nFlags : r'.nFlags &&& ~~~IMAGE_INFO_AUTO_BOOT = r.nFlags &&& ~~~IMAGE_INFO_AUTO_BOOT
  nStart : r'.nStart = r.nStart
  nSize : r'.nSize = r.nSize
  nCRC16 : r'.nCRC16 = r.nCRC16

/-- What a call is to do in the state `s₁` that other calls led to from `s`. -/
structure SwitchesOneBit (s s₁ : ImageState) (bEnable : Bool) (frame : StackFrame L) :
    Prop where
  isAutoBoot : imageIsAutoBoot L IMAGE_INFO_AUTO_BOOT A
    (imageSetAutoBoot L crc16Calc IMAGE_INFO_AUTO_BOOT A bEnable frame s₁).2 = bEnable
  record : ∃ r r', imageGet L A s = some r ∧
    imageGet L A (imageSetAutoBoot L crc16Calc IMAGE_INFO_AUTO_BOOT A bEnable frame s₁).2 =
      some r' ∧ SameButAutoBoot IMAGE_INFO_AUTO_BOOT r r'
  operations : (imageSetAutoBoot L crc16Calc IMAGE_INFO_AUTO_BOOT A bEnable frame s₁).2.flash =
    (imageSetAutoBootOps L crc16Calc IMAGE_INFO_AUTO_BOOT A bEnable frame s₁).foldl
      (FlashOp.apply A) s₁.flash
  untouched : imageIsAutoBoot L IMAGE_INFO_AUTO_BOOT A s₁ = bEnable →
    imageSetAutoBootOps L crc16Calc IMAGE_INFO_AUTO_BOOT A bEnable frame s₁ = [] ∧
      (imageSetAutoBoot L crc16Calc IMAGE_INFO_AUTO_BOOT A bEnable frame s₁).2 = s₁

end Definitions

variable {L : InfoLayout} {crc16Calc : List Byte → BitVec 16} {A : Area}
  {IMAGE_INFO_AUTO_BOOT : BitVec 32}

/-! ## Flash operations -/

/-- The calls account for what `IMAGE_Set` does to the flash, -/
theorem imageSet_flash (frame : StackFrame L) (pInfo : ImageInfo) (s : ImageState) :
    (imageSet L crc16Calc A frame pInfo s).2.flash =
      (imageSetOps L crc16Calc A frame pInfo s).foldl (FlashOp.apply A) s.flash := by
  have hwhole : (xSlotFinal L crc16Calc frame (nextIndex A s) pInfo).take L.slotBytes =
      xSlotFinal L crc16Calc frame (nextIndex A s) pInfo :=
    List.take_of_length_le (Nat.le_of_eq length_xSlotFinal)
  rw [imageSetOps, List.foldl_cons, List.foldl_cons, List.foldl_nil, FlashOp.apply,
    FlashOp.apply, ← hwhole]
  rfl

/-- and `IMAGE_SetAutoBoot`. -/
theorem imageSetAutoBoot_flash (bEnable : Bool) (frame : StackFrame L) (s : ImageState) :
    (imageSetAutoBoot L crc16Calc IMAGE_INFO_AUTO_BOOT A bEnable frame s).2.flash =
      (imageSetAutoBootOps L crc16Calc IMAGE_INFO_AUTO_BOOT A bEnable frame s).foldl
        (FlashOp.apply A) s.flash := by
  rw [imageSetAutoBoot, imageSetAutoBootOps]
  cases imageGet L A s with
  | none => rfl
  | some xInfo =>
      cases hchange : autoBootChange IMAGE_INFO_AUTO_BOOT bEnable xInfo with
      | none => simp only [hchange, List.foldl_nil]
      | some xInfo' =>
          simp only [hchange]
          exact imageSet_flash frame xInfo' s

/-! ## The bit -/

/-- The record after a call, changed or not. -/
def switched (IMAGE_INFO_AUTO_BOOT : BitVec 32) (bEnable : Bool) (xInfo : ImageInfo) :
    ImageInfo :=
  (autoBootChange IMAGE_INFO_AUTO_BOOT bEnable xInfo).getD xInfo

theorem SameButAutoBoot.refl (r : ImageInfo) : SameButAutoBoot IMAGE_INFO_AUTO_BOOT r r :=
  ⟨rfl, rfl, rfl, rfl⟩

theorem SameButAutoBoot.trans {r r' r'' : ImageInfo}
    (h : SameButAutoBoot IMAGE_INFO_AUTO_BOOT r r')
    (h' : SameButAutoBoot IMAGE_INFO_AUTO_BOOT r' r'') :
    SameButAutoBoot IMAGE_INFO_AUTO_BOOT r r'' :=
  ⟨h'.nFlags.trans h.nFlags, h'.nStart.trans h.nStart, h'.nSize.trans h.nSize,
    h'.nCRC16.trans h.nCRC16⟩

/-- No other bit of the record changes. -/
theorem sameButAutoBoot_switched (bEnable : Bool) (r : ImageInfo) :
    SameButAutoBoot IMAGE_INFO_AUTO_BOOT r (switched IMAGE_INFO_AUTO_BOOT bEnable r) := by
  have hset : (r.nFlags ||| IMAGE_INFO_AUTO_BOOT) &&& ~~~IMAGE_INFO_AUTO_BOOT =
      r.nFlags &&& ~~~IMAGE_INFO_AUTO_BOOT := by
    ext i hi
    simp only [BitVec.getElem_and, BitVec.getElem_or, BitVec.getElem_not]
    cases r.nFlags[i] <;> cases IMAGE_INFO_AUTO_BOOT[i] <;> rfl
  have hclear : r.nFlags &&& ~~~IMAGE_INFO_AUTO_BOOT &&& ~~~IMAGE_INFO_AUTO_BOOT =
      r.nFlags &&& ~~~IMAGE_INFO_AUTO_BOOT := by
    rw [BitVec.and_assoc, BitVec.and_self]
  unfold switched autoBootChange
  cases bEnable with
  | true =>
      rw [if_pos rfl]
      split
      · exact .refl r
      · exact ⟨hset, rfl, rfl, rfl⟩
  | false =>
      rw [if_neg Bool.false_ne_true]
      split
      · exact .refl r
      · exact ⟨hclear, rfl, rfl, rfl⟩

section OneBit

variable (hbit : ∃ k < 32, IMAGE_INFO_AUTO_BOOT = BitVec.twoPow 32 k)
include hbit

theorem autoBoot_ne_zero : IMAGE_INFO_AUTO_BOOT ≠ 0#32 := by
  obtain ⟨k, hk, rfl⟩ := hbit
  intro hzero
  have hk' := BitVec.getLsbD_twoPow (w := 32) k k
  rw [hzero] at hk'
  simp [hk] at hk'

/-- The bit is set or clear; there is nothing between. -/
theorem and_autoBoot (nFlags : BitVec 32) :
    nFlags &&& IMAGE_INFO_AUTO_BOOT = IMAGE_INFO_AUTO_BOOT ∨
      nFlags &&& IMAGE_INFO_AUTO_BOOT = 0#32 := by
  obtain ⟨k, _, rfl⟩ := hbit
  rw [BitVec.and_twoPow]
  split
  · exact .inl rfl
  · exact .inr rfl

/-- The bit is as asked for. -/
theorem switched_and (bEnable : Bool) (r : ImageInfo) :
    decide ((switched IMAGE_INFO_AUTO_BOOT bEnable r).nFlags &&& IMAGE_INFO_AUTO_BOOT ≠ 0) =
      bEnable := by
  have hne := autoBoot_ne_zero hbit
  have hset : (r.nFlags ||| IMAGE_INFO_AUTO_BOOT) &&& IMAGE_INFO_AUTO_BOOT =
      IMAGE_INFO_AUTO_BOOT := by
    ext i hi
    simp only [BitVec.getElem_and, BitVec.getElem_or]
    cases r.nFlags[i] <;> cases IMAGE_INFO_AUTO_BOOT[i] <;> rfl
  have hclear : r.nFlags &&& ~~~IMAGE_INFO_AUTO_BOOT &&& IMAGE_INFO_AUTO_BOOT = 0#32 := by
    rw [BitVec.and_assoc, BitVec.not_and_self]
    exact BitVec.and_zero
  unfold switched autoBootChange
  rcases and_autoBoot hbit r.nFlags with hone | hzero
  · cases bEnable with
    | true => simp [hone, hne]
    | false => simp [hone, hclear]
  · cases bEnable with
    | true => simp [hzero, hne.symm, hset, hne]
    | false => simp [hzero, hne.symm]

/-- Nothing is changed if the bit is so already. -/
theorem autoBootChange_eq_none {bEnable : Bool} {r : ImageInfo}
    (h : decide (r.nFlags &&& IMAGE_INFO_AUTO_BOOT ≠ 0) = bEnable) :
    autoBootChange IMAGE_INFO_AUTO_BOOT bEnable r = none := by
  have hne := autoBoot_ne_zero hbit
  subst h
  unfold autoBootChange
  rcases and_autoBoot hbit r.nFlags with hone | hzero
  · simp [hone, hne]
  · simp [hzero, hne.symm]

end OneBit

/-! ## Calls -/

/-- What a call makes of the record. -/
theorem imageGet_imageSetAutoBoot (crc16Calc : List Byte → BitVec 16) (A : Area)
    (IMAGE_INFO_AUTO_BOOT : BitVec 32) (bEnable : Bool) (frame : StackFrame L) (s : ImageState) :
    imageGet L A (imageSetAutoBoot L crc16Calc IMAGE_INFO_AUTO_BOOT A bEnable frame s).2 =
      (imageGet L A s).map (switched IMAGE_INFO_AUTO_BOOT bEnable) := by
  rw [imageSetAutoBoot]
  cases hget : imageGet L A s with
  | none => exact hget
  | some r =>
      rw [Option.map_some, switched]
      cases hchange : autoBootChange IMAGE_INFO_AUTO_BOOT bEnable r with
      | none => simpa only [hchange, Option.getD_none] using hget
      | some r' =>
          simp only [hchange, Option.getD_some]
          exact imageGet_imageSet frame r' s

/-- Any number of calls change nothing but the bit. -/
theorem imageGet_imageSetAutoBoots (crc16Calc : List Byte → BitVec 16) (A : Area)
    (IMAGE_INFO_AUTO_BOOT : BitVec 32) (s : ImageState) (calls : List (StackFrame L × Bool)) :
    (imageGet L A s = none ∧
      imageGet L A (imageSetAutoBoots L crc16Calc IMAGE_INFO_AUTO_BOOT A s calls) = none) ∨
    ∃ r r', imageGet L A s = some r ∧
      imageGet L A (imageSetAutoBoots L crc16Calc IMAGE_INFO_AUTO_BOOT A s calls) = some r' ∧
      SameButAutoBoot IMAGE_INFO_AUTO_BOOT r r' := by
  induction calls generalizing s with
  | nil =>
      cases hget : imageGet L A s with
      | none => exact .inl ⟨rfl, hget⟩
      | some r => exact .inr ⟨r, r, rfl, hget, .refl r⟩
  | cons c calls ih =>
      have hcall := imageGet_imageSetAutoBoot crc16Calc A IMAGE_INFO_AUTO_BOOT c.2 c.1 s
      rcases ih (imageSetAutoBoot L crc16Calc IMAGE_INFO_AUTO_BOOT A c.2 c.1 s).2 with
        ⟨hnone, hnone'⟩ | ⟨r', r'', hsome, hsome', hsame⟩
      · rw [hcall, Option.map_eq_none_iff] at hnone
        exact .inl ⟨hnone, hnone'⟩
      · rw [hcall, Option.map_eq_some_iff] at hsome
        obtain ⟨r, hget, rfl⟩ := hsome
        exact .inr ⟨r, r'', hget, hsome', (sameButAutoBoot_switched c.2 r).trans hsame⟩

theorem imageSetAutoBoot_fst (bEnable : Bool) (frame : StackFrame L) (s : ImageState) :
    (imageSetAutoBoot L crc16Calc IMAGE_INFO_AUTO_BOOT A bEnable frame s).1 =
      (imageGet L A s).isSome := by
  rw [imageSetAutoBoot]
  cases imageGet L A s with
  | none => rfl
  | some r =>
      cases hchange : autoBootChange IMAGE_INFO_AUTO_BOOT bEnable r with
      | none => simp only [hchange, Option.isSome_some]
      | some r' =>
          simp only [hchange, Option.isSome_some]
          rfl

/-- From any state, behind any calls: a call that returns `true` switches the bit and nothing
else, and does nothing if the bit is so already. -/
theorem setAutoBoot_switchesOneBit (hbit : ∃ k < 32, IMAGE_INFO_AUTO_BOOT = BitVec.twoPow 32 k)
    (s : ImageState) (calls : List (StackFrame L × Bool)) (bEnable : Bool)
    (frame : StackFrame L)
    (htrue : (imageSetAutoBoot L crc16Calc IMAGE_INFO_AUTO_BOOT A bEnable frame
      (imageSetAutoBoots L crc16Calc IMAGE_INFO_AUTO_BOOT A s calls)).1 = true) :
    SwitchesOneBit L crc16Calc IMAGE_INFO_AUTO_BOOT A s
      (imageSetAutoBoots L crc16Calc IMAGE_INFO_AUTO_BOOT A s calls) bEnable frame := by
  have hcalls := imageGet_imageSetAutoBoots crc16Calc A IMAGE_INFO_AUTO_BOOT s calls
  generalize imageSetAutoBoots L crc16Calc IMAGE_INFO_AUTO_BOOT A s calls = s₁ at htrue hcalls ⊢
  rw [imageSetAutoBoot_fst] at htrue
  rcases hcalls with ⟨_, hnone⟩ | ⟨r, r₁, hget, hget₁, hsame⟩
  · rw [hnone] at htrue
    cases htrue
  · have hget₂ :=
      imageGet_imageSetAutoBoot crc16Calc A IMAGE_INFO_AUTO_BOOT bEnable frame s₁
    rw [hget₁, Option.map_some] at hget₂
    constructor
    · rw [imageIsAutoBoot, hget₂]
      exact switched_and hbit bEnable r₁
    · exact ⟨r, _, hget, hget₂, hsame.trans (sameButAutoBoot_switched bEnable r₁)⟩
    · exact imageSetAutoBoot_flash bEnable frame s₁
    · intro hsaid
      rw [imageIsAutoBoot, hget₁] at hsaid
      have hnone := autoBootChange_eq_none hbit hsaid
      rw [imageSetAutoBootOps, imageSetAutoBoot, hget₁]
      simp only [hnone, and_self]

/-- One slot, in an erase unit of its own. -/
def oneSlot : Area where
  nBaseAddress := 0x3000
  nMaxCount := 1
  pageSlots := 1
  count_pos := Nat.one_pos
  pageSlots_pos := Nat.one_pos
  aligned := rfl
  fits := by decide

/-- In the only slot, set and clear and set again. -/
theorem setAutoBoot_oneSlot :
    SwitchesOneBit armLayout Crc16.crc16Calc 1 oneSlot (setOnce oneSlot).state
      (imageSetAutoBoots armLayout Crc16.crc16Calc 1 oneSlot (setOnce oneSlot).state
        [(.erasedLike armLayout, true), (.erasedLike armLayout, false)]) true
      (.erasedLike armLayout) :=
  setAutoBoot_switchesOneBit ⟨0, by decide, rfl⟩ _ _ _ _ (by decide +kernel)

end BillCounter.Image
