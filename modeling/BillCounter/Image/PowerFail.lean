import BillCounter.Image.Recency

/-!
# Losing power inside `IMAGE_Set`

`IMAGE_Set` erases and then writes; power can be lost before the erase, after it
or after any prefix of the slot.  The next boot should find the record that was
current or the new one.  Whether it does is decided before the call: what the
boot's scan prefers must be the current record as things stand, and again among
the slots outside the erase unit of the slot that comes next.
-/

namespace BillCounter.Image

open BillCounter.Lib.RawBytes
open BillCounter.Lib.RecordLog
open BillCounter.Lib.Runs

/-- The points at which power can be lost: nothing is written before the erase,
any prefix of the slot after it. -/
def PowerLossPoint (L : InfoLayout) (o : FlashOutcome) : Prop :=
  o.written ≤ L.slotBytes ∧ (o.erased = false → o.written = 0)

/-- What can happen to the image record. -/
inductive Event (L : InfoLayout)
  | call (c : Call L)
  | powerLoss (o : FlashOutcome) (frame : StackFrame L) (pInfo : ImageInfo)
      (bootFrame : StackFrame L)

section Definitions

variable (L : InfoLayout) (crc16Calc : List Byte → BitVec 16)
  (IMAGE_INFO_AUTO_BOOT : BitVec 32) (A : Area)

/-- Power is lost at the point `o` of `IMAGE_Set`, and the next boot runs
`IMAGE_Init`. -/
def bootAfterPowerLoss (o : FlashOutcome) (frame : StackFrame L) (pInfo : ImageInfo)
    (bootFrame : StackFrame L) (s : ImageState) : ImageState :=
  (imageInit L crc16Calc A bootFrame
    ⟨(imageSetWith L crc16Calc A o frame pInfo s).2.flash, -1⟩).2

/-- The runs of `image.c` with losses of power. -/
def powerSystem : System ImageState (Event L) where
  init s := ∃ flash frame, SelfAccepted L crc16Calc frame ∧
    s = (restart L crc16Calc A frame flash none).state
  step s e s' :=
    match e with
    | .call c => SelfAccepted L crc16Calc c.frame ∧
        (recordedStep L crc16Calc IMAGE_INFO_AUTO_BOOT A ⟨s, none⟩ c).state = s'
    | .powerLoss o frame pInfo bootFrame => PowerLossPoint L o ∧
        SelfAccepted L crc16Calc bootFrame ∧
        bootAfterPowerLoss L crc16Calc A o frame pInfo bootFrame s = s'

/-- A slot of which `k` bytes were written fails the CRC test, unless the bytes
that are missing are erased ones. -/
def PartialFails (frame : StackFrame L) (nIndex : BitVec 32) (pInfo : ImageInfo)
    (k : Nat) : Prop :=
  partialSlot L crc16Calc frame nIndex pInfo k ≠
      xSlotFinal L crc16Calc frame nIndex pInfo →
    slotAccepted crc16Calc (partialSlot L crc16Calc frame nIndex pInfo k) = false

/-- Every interruption of every `IMAGE_Set` leaves a record the next boot finds:
the old one or the new one. -/
def SetIsAtomic (s : ImageState) (old : ImageInfo) : Prop :=
  ∀ o frame pInfo bootFrame, PowerLossPoint L o → SelfAccepted L crc16Calc frame →
    SelfAccepted L crc16Calc bootFrame →
    PartialFails L crc16Calc frame (nextIndex A s) pInfo o.written →
    imageGet L A (bootAfterPowerLoss L crc16Calc A o frame pInfo bootFrame s) =
        some old ∨
      imageGet L A (bootAfterPowerLoss L crc16Calc A o frame pInfo bootFrame s) =
        some pInfo

/-- A boot that has only the slots in `kept` finds `r`: the oldest of them holds
it, or none is readable and `r` is the blank record. -/
def BootFinds (kept : Nat → Bool) (flash : Memory) (r : ImageInfo) : Prop :=
  OldestSlotHolds L crc16Calc A kept flash r ∨
    (∀ i : Nat, i < A.nMaxCount → kept i = true →
      crcTest L crc16Calc flash (A.slotAddress i) = false) ∧ r = blankInfo

/-- The condition on the state before the call. -/
def PowerLossSafe (s : ImageState) (old : ImageInfo) : Prop :=
  BootFinds L crc16Calc A (fun _ => true) s.flash old ∧
    BootFinds L crc16Calc A (fun i => A.page i != A.page (nextSlot A s)) s.flash old

end Definitions

variable {L : InfoLayout} {crc16Calc : List Byte → BitVec 16}
  {IMAGE_INFO_AUTO_BOOT : BitVec 32} {A : Area}

/-! ## Reachable states -/

/-- In every reachable state a readable slot is in use. -/
theorem running_of_reachable (herased : ErasedFails L crc16Calc) {s : ImageState}
    (h : (powerSystem L crc16Calc IMAGE_INFO_AUTO_BOOT A).Reachable s) :
    Running L crc16Calc A s := by
  refine h.invariant (fun s hinit => ?_) fun s e s' hrun hstep => ?_
  · obtain ⟨flash, frame, haccept, rfl⟩ := hinit
    exact (tracked_restart herased haccept flash none).2
  · cases e with
    | call c =>
        obtain ⟨haccept, rfl⟩ := hstep
        exact (tracked_step IMAGE_INFO_AUTO_BOOT herased haccept (t := ⟨s, none⟩) hrun).2
    | powerLoss o frame pInfo bootFrame =>
        obtain ⟨_, haccept, rfl⟩ := hstep
        exact (view_imageInit herased haccept rfl).2

/-! ## What each point of interruption leaves -/

/-- The record the next boot finds is the one the log's restart finds. -/
theorem imageGet_bootAfterPowerLoss (herased : ErasedFails L crc16Calc)
    {bootFrame : StackFrame L} (haccept : SelfAccepted L crc16Calc bootFrame)
    (o : FlashOutcome) (frame : StackFrame L) (pInfo : ImageInfo) (s : ImageState) :
    imageGet L A (bootAfterPowerLoss L crc16Calc A o frame pInfo bootFrame s) =
      (boot (shape A) (slotView L crc16Calc A
        (imageSetWith L crc16Calc A o frame pInfo s).2.flash)).get := by
  obtain ⟨hview, hrun⟩ := view_imageInit (A := A) herased haccept
    (s := ⟨(imageSetWith L crc16Calc A o frame pInfo s).2.flash, -1⟩) rfl
  rw [bootAfterPowerLoss, imageGet_view hrun, hview]

/-- Before the erase nothing has changed. -/
theorem slotView_before (frame : StackFrame L) (pInfo : ImageInfo) (s : ImageState) :
    slotView L crc16Calc A
        (imageSetWith L crc16Calc A ⟨false, 0⟩ frame pInfo s).2.flash =
      torn (shape A) (view L crc16Calc A s) .before := by
  have hnil : ∀ a, write s.flash a [] = s.flash := by
    intro a
    funext x
    exact write_of_disjoint (by rw [List.length_nil]; omega)
  exact congrArg (slotView L crc16Calc A) (hnil _)

/-- A slot written in part and failing the test leaves the slots of a wipe. -/
theorem slotView_partial (herased : ErasedFails L crc16Calc) {frame : StackFrame L}
    {pInfo : ImageInfo} {s : ImageState} (h : Ready L crc16Calc A s) {k : Nat}
    (hk : k ≤ L.slotBytes)
    (hfail : slotAccepted crc16Calc
      (partialSlot L crc16Calc frame (nextIndex A s) pInfo k) = false) :
    slotView L crc16Calc A
        (imageSetWith L crc16Calc A ⟨true, k⟩ frame pInfo s).2.flash =
      torn (shape A) (view L crc16Calc A s) .wiped := by
  funext i
  rw [torn, target_view h]
  by_cases hi : i = nextSlot A s
  · have hholds : HoldsSlot A (imageSetWith L crc16Calc A ⟨true, k⟩ frame pInfo s).2.flash
        (nextSlot A s) (partialSlot L crc16Calc frame (nextIndex A s) pInfo k) :=
      holdsSlot_imageSetWith s hk
    have htest : crcTest L crc16Calc
        (imageSetWith L crc16Calc A ⟨true, k⟩ frame pInfo s).2.flash
        (A.slotAddress (nextSlot A s)) = false :=
      (hholds.crcTest_eq (length_partialSlot hk)).trans hfail
    simp [hi, slotView, htest, wipe]
  · exact slotView_other herased pInfo s k hi

/-- Straight after the erase the slot fails the test. -/
theorem partialSlot_erased_fails (herased : ErasedFails L crc16Calc)
    (frame : StackFrame L) (nIndex : BitVec 32) (pInfo : ImageInfo) :
    slotAccepted crc16Calc (partialSlot L crc16Calc frame nIndex pInfo 0) = false := by
  have hb := L.slotBytes_bounds
  have hword : wordAt 16 (List.replicate 2 (0xFF : Byte)) = 0xFFFF := by decide
  have hslice : slice (List.replicate L.slotBytes (0xFF : Byte)) 0 2 =
      List.replicate 2 0xFF := by
    rw [slice, List.drop_zero, List.take_replicate, Nat.min_eq_left (by omega)]
  have hrange : List.replicate (L.slotBytes - 4) (0xFF : Byte) ++ [0xFF, 0xFF] =
      List.replicate (crcLength L) 0xFF := by
    rw [show crcLength L = L.slotBytes - 4 + 2 by rw [crcLength]; omega,
      ← List.replicate_append_replicate]
    rfl
  rw [partialSlot, List.take_zero, List.nil_append, Nat.sub_zero, slotAccepted,
    List.drop_replicate, hslice, hword, hrange, beq_eq_false_iff_ne]
  exact fun heq => herased heq.symm

/-- Every point of interruption leaves the slots of some interruption of the
log's write, or of the whole write. -/
theorem slotView_powerLoss (herased : ErasedFails L crc16Calc) {o : FlashOutcome}
    (ho : PowerLossPoint L o) {frame : StackFrame L}
    (haccept : SelfAccepted L crc16Calc frame) {pInfo : ImageInfo} {s : ImageState}
    (h : Ready L crc16Calc A s)
    (hpart : PartialFails L crc16Calc frame (nextIndex A s) pInfo o.written) :
    (∃ e, slotView L crc16Calc A
        (imageSetWith L crc16Calc A o frame pInfo s).2.flash =
          torn (shape A) (view L crc16Calc A s) e) ∨
      slotView L crc16Calc A
        (imageSetWith L crc16Calc A o frame pInfo s).2.flash =
          (put (shape A) pInfo (view L crc16Calc A s)).slot := by
  obtain ⟨erased, k⟩ := o
  obtain ⟨hk, hzero⟩ := ho
  cases erased with
  | false =>
      obtain rfl : k = 0 := hzero rfl
      exact .inl ⟨_, slotView_before frame pInfo s⟩
  | true =>
      by_cases hwhole : partialSlot L crc16Calc frame (nextIndex A s) pInfo k =
          xSlotFinal L crc16Calc frame (nextIndex A s) pInfo
      · exact .inr (slotView_put herased haccept h hk hwhole)
      · exact .inl ⟨_, slotView_partial herased h hk (hpart hwhole)⟩

/-! ## The condition -/

theorem bootsTo_iff {kept : Nat → Bool} {flash : Memory} {r : ImageInfo} :
    BootsTo (shape A) (fun i => if kept i then slotView L crc16Calc A flash i else none) r ↔
      BootFinds L crc16Calc A kept flash r := by
  have hempty : Empty (shape A)
        (fun i => if kept i then slotView L crc16Calc A flash i else none) ↔
      ∀ i : Nat, i < A.nMaxCount → kept i = true →
        crcTest L crc16Calc flash (A.slotAddress i) = false := by
    refine forall_congr' fun i => forall_congr' fun hi => ?_
    have hlt : i < A.nMaxCount := hi
    cases hkept : kept i <;> simp [slotView, hlt, hkept]
  rw [BootsTo, BootFinds, oldestHolds_iff, hempty]
  rfl

/-- The condition is the log's. -/
theorem powerLossSafe_iff {s : ImageState} (h : Ready L crc16Calc A s)
    (old : ImageInfo) :
    PowerSafe (shape A) (view L crc16Calc A s) old ↔
      PowerLossSafe L crc16Calc A s old := by
  have hbefore : BootsTo (shape A) (view L crc16Calc A s).slot old ↔
      BootFinds L crc16Calc A (fun _ => true) s.flash old := by
    rw [← bootsTo_iff]
    rfl
  have hwipe : wipe (shape A) (nextSlot A s) (slotView L crc16Calc A s.flash) =
      fun i => if A.page i != A.page (nextSlot A s) then
        slotView L crc16Calc A s.flash i else none := by
    funext i
    by_cases hi : A.page i = A.page (nextSlot A s) <;> simp [wipe, shape, hi]
  have hafter : BootsTo (shape A)
      (wipe (shape A) (nextSlot A s) (view L crc16Calc A s).slot) old ↔
      BootFinds L crc16Calc A (fun i => A.page i != A.page (nextSlot A s)) s.flash old := by
    rw [← bootsTo_iff, ← hwipe]
    rfl
  rw [PowerSafe, PowerLossSafe, target_view h, hbefore, hafter]

/-- `IMAGE_Set` is atomic in exactly the reachable states that meet the
condition. -/
theorem setIsAtomic_iff (herased : ErasedFails L crc16Calc) {s : ImageState}
    (hs : (powerSystem L crc16Calc IMAGE_INFO_AUTO_BOOT A).Reachable s) :
    ∀ old, imageGet L A s = some old →
      (SetIsAtomic L crc16Calc A s old ↔ PowerLossSafe L crc16Calc A s old) := by
  intro old _
  have hready : Ready L crc16Calc A s := .inr (running_of_reachable herased hs)
  have hne : ∀ x : ImageInfo, ∃ y, y ≠ x := by
    intro x
    refine ⟨{ x with nFlags := x.nFlags + 1 }, fun h => ?_⟩
    have hflags := congrArg ImageInfo.nFlags h
    exact absurd (BitVec.add_right_eq_self.mp hflags) (by decide)
  rw [← powerLossSafe_iff hready, ← powerSafe_iff (shape A) _ old hne]
  constructor
  · intro h pInfo
    have haccept := selfAccepted_erasedLike L crc16Calc
    refine ⟨fun e x hx => ?_, fun x hx => ?_⟩
    · cases e with
      | before =>
          have hget := h ⟨false, 0⟩ (.erasedLike L) pInfo (.erasedLike L)
            ⟨Nat.zero_le _, fun _ => rfl⟩ haccept haccept
            fun _ => partialSlot_erased_fails herased _ _ _
          rw [imageGet_bootAfterPowerLoss herased haccept, slotView_before, hx] at hget
          exact hget.imp Option.some.inj Option.some.inj
      | wiped =>
          have hfail := partialSlot_erased_fails herased (.erasedLike L)
            (nextIndex A s) pInfo
          have hget := h ⟨true, 0⟩ (.erasedLike L) pInfo (.erasedLike L)
            ⟨Nat.zero_le _, fun _ => rfl⟩ haccept haccept fun _ => hfail
          rw [imageGet_bootAfterPowerLoss herased haccept,
            slotView_partial herased hready (Nat.zero_le _) hfail, hx] at hget
          exact hget.imp Option.some.inj Option.some.inj
    · have hget := h (.success L) (.erasedLike L) pInfo (.erasedLike L)
        ⟨Nat.le_refl _, fun h => Bool.noConfusion h⟩ haccept haccept
        fun hne => absurd partialSlot_whole hne
      rw [imageGet_bootAfterPowerLoss herased haccept, FlashOutcome.success,
        slotView_put herased haccept hready (Nat.le_refl _) partialSlot_whole, hx] at hget
      exact hget.imp Option.some.inj Option.some.inj
  · intro h o frame pInfo bootFrame ho haccept hboot hpart
    obtain ⟨htorn, hput⟩ := h pInfo
    rw [imageGet_bootAfterPowerLoss herased hboot]
    rcases slotView_powerLoss herased ho haccept hready hpart with ⟨e, he⟩ | hwhole
    · obtain ⟨x, hx, _⟩ := boot_get (shape A) (torn (shape A) (view L crc16Calc A s) e)
      rw [he, hx]
      exact (htorn e x hx).imp (congrArg some) (congrArg some)
    · obtain ⟨x, hx, _⟩ := boot_get (shape A)
        (put (shape A) pInfo (view L crc16Calc A s)).slot
      rw [hwhole, hx]
      exact (hput x hx).imp (congrArg some) (congrArg some)

theorem reachable_setOnce (A : Area) :
    (powerSystem armLayout Crc16.crc16Calc 1 A).Reachable (setOnce A).state := by
  have haccept := selfAccepted_erasedLike armLayout Crc16.crc16Calc
  have hstart : (powerSystem armLayout Crc16.crc16Calc 1 A).Reachable
      (bootedOnce A).state := .start ⟨_, _, haccept, rfl⟩
  exact hstart.step (a := .call (.imageSet (.erasedLike armLayout) ⟨1, 0, 0, 0⟩))
    ⟨haccept, rfl⟩

theorem setIsAtomic_iff_oneUnit :
    SetIsAtomic armLayout Crc16.crc16Calc oneUnit (setOnce oneUnit).state ⟨1, 0, 0, 0⟩ ↔
      PowerLossSafe armLayout Crc16.crc16Calc oneUnit (setOnce oneUnit).state ⟨1, 0, 0, 0⟩ :=
  setIsAtomic_iff (by decide +kernel) (reachable_setOnce oneUnit) _ (by decide +kernel)

/-- On the target, where the four slots share one erase unit: power is lost right
after the erase, and the next boot finds neither the record that was current nor
the new one. -/
theorem set_not_atomic_oneUnit :
    ¬ ∀ s old, (powerSystem armLayout Crc16.crc16Calc 1 oneUnit).Reachable s →
      imageGet armLayout oneUnit s = some old →
      SetIsAtomic armLayout Crc16.crc16Calc oneUnit s old := by
  intro h
  have haccept := selfAccepted_erasedLike armLayout Crc16.crc16Calc
  have hset := h (setOnce oneUnit).state ⟨1, 0, 0, 0⟩ (reachable_setOnce oneUnit)
    (by decide +kernel) ⟨true, 0⟩ (.erasedLike armLayout) ⟨2, 0, 0, 0⟩
    (.erasedLike armLayout) ⟨Nat.zero_le _, fun _ => rfl⟩ haccept haccept
    fun _ => by decide +kernel
  have hblank : imageGet armLayout oneUnit (bootAfterPowerLoss armLayout Crc16.crc16Calc
      oneUnit ⟨true, 0⟩ (.erasedLike armLayout) ⟨2, 0, 0, 0⟩ (.erasedLike armLayout)
      (setOnce oneUnit).state) = some blankInfo := by decide +kernel
  rw [hblank] at hset
  exact absurd hset (by decide)

end BillCounter.Image
