import BillCounter.Image.Slots

/-!
# Recency of the image record across resets

A run is a reset, then any calls of `IMAGE_Set` and `IMAGE_SetAutoBoot` and any
further resets.  `IMAGE_Get` should return the record set last.  The scan of
`IMAGE_Init` keeps the slot of *smaller* `nIndex`, so a reset goes back to the
oldest slot that survived: the record set last is safe on every run exactly when
an erase leaves no older slot behind, and on a given run when every reset finds
it in the oldest slot.
-/

namespace BillCounter.Image

open BillCounter.Lib.RawBytes
open BillCounter.Lib.LeastKey
open BillCounter.Lib.RecordLog
open BillCounter.Lib.Runs

/-- A call on the image record, with the stack it finds, or a reset. -/
inductive Call (L : InfoLayout)
  | imageSet (frame : StackFrame L) (pInfo : ImageInfo)
  | imageSetAutoBoot (frame : StackFrame L) (bEnable : Bool)
  | reset (frame : StackFrame L)

def Call.frame {L : InfoLayout} : Call L → StackFrame L
  | .imageSet frame _ => frame
  | .imageSetAutoBoot frame _ => frame
  | .reset frame => frame

/-- The state of `image.c`, and the record of the last `IMAGE_Set` so far. -/
structure Recorded where
  state : ImageState
  last : Option ImageInfo

section Runs

variable (L : InfoLayout) (crc16Calc : List Byte → BitVec 16)
  (IMAGE_INFO_AUTO_BOOT : BitVec 32) (A : Area)

/-- A reset: `nCurrent` is `-1` again and `IMAGE_Init` runs on the flash. -/
def restart (frame : StackFrame L) (flash : Memory) (last : Option ImageInfo) :
    Recorded where
  state := (imageInit L crc16Calc A frame ⟨flash, -1⟩).2
  last :=
    if (List.range A.nMaxCount).foldl (imageInitStep L crc16Calc A flash) (-1) = -1 then
      some blankInfo
    else last

def recordedStep (t : Recorded) : Call L → Recorded
  | .imageSet frame pInfo =>
      ⟨(imageSet L crc16Calc A frame pInfo t.state).2, some pInfo⟩
  | .imageSetAutoBoot frame bEnable =>
      ⟨(imageSetAutoBoot L crc16Calc IMAGE_INFO_AUTO_BOOT A bEnable frame t.state).2,
        ((imageGet L A t.state).bind
          (autoBootChange IMAGE_INFO_AUTO_BOOT bEnable)).or t.last⟩
  | .reset frame => restart L crc16Calc A frame t.state.flash t.last

/-- The runs of `image.c` in which every slot `IMAGE_Set` writes is accepted by
the next boot. -/
def imageSystem : System Recorded (Call L) where
  init t := ∃ flash frame, SelfAccepted L crc16Calc frame ∧
    t = restart L crc16Calc A frame flash none
  step t c t' := SelfAccepted L crc16Calc c.frame ∧
    recordedStep L crc16Calc IMAGE_INFO_AUTO_BOOT A t c = t'

/-- `IMAGE_Get` returns the record of the last `IMAGE_Set`. -/
def LastRecord (t : Recorded) : Prop :=
  ∀ r, t.last = some r → imageGet L A t.state = some r

/-- No index in the slots has reached `2^32 - 1`. -/
def IndexFree (flash : Memory) : Prop :=
  ∀ i : Nat, i < A.nMaxCount → crcTest L crc16Calc flash (A.slotAddress i) = true →
    slotNIndex flash (A.slotAddress i) ≠ 0xFFFFFFFF

instance (flash : Memory) : Decidable (IndexFree L crc16Calc A flash) :=
  inferInstanceAs (Decidable (∀ i : Nat, i < A.nMaxCount → _))

/-- Steps before and after which no index has. -/
def KeepsIndexFree (t : Recorded) (c : Call L) : Prop :=
  IndexFree L crc16Calc A t.state.flash ∧
    IndexFree L crc16Calc A
      (recordedStep L crc16Calc IMAGE_INFO_AUTO_BOOT A t c).state.flash

/-- The condition on a step: a reset finds the record set last in the oldest
slot. -/
def ResetSafe (t : Recorded) : Call L → Prop
  | .reset _ => ∀ r, t.last = some r →
      OldestSlotHolds L crc16Calc A (fun _ => true) t.state.flash r
  | _ => True

end Runs

variable {L : InfoLayout} {crc16Calc : List Byte → BitVec 16}
  {IMAGE_INFO_AUTO_BOOT : BitVec 32} {A : Area}

/-! ## Runs of the code are runs of the log -/

/-- The log a recorded state stands for. -/
def tracked (L : InfoLayout) (crc16Calc : List Byte → BitVec 16) (A : Area)
    (t : Recorded) : Tracked Nat ImageInfo :=
  ⟨view L crc16Calc A t.state, t.last⟩

/-- The operation on the log a call is. -/
def Call.op (IMAGE_INFO_AUTO_BOOT : BitVec 32) : Call L → Op ImageInfo
  | .imageSet _ pInfo => .put pInfo
  | .imageSetAutoBoot _ bEnable => .amend (autoBootChange IMAGE_INFO_AUTO_BOOT bEnable)
  | .reset _ => .reboot

theorem tracked_restart (herased : ErasedFails L crc16Calc) {frame : StackFrame L}
    (haccept : SelfAccepted L crc16Calc frame) (flash : Memory)
    (last : Option ImageInfo) :
    tracked L crc16Calc A (restart L crc16Calc A frame flash last) =
        reboot (shape A) (slotView L crc16Calc A flash) last ∧
      Running L crc16Calc A (restart L crc16Calc A frame flash last).state := by
  obtain ⟨hview, hrun⟩ := view_imageInit (A := A) herased haccept
    (s := ⟨flash, -1⟩) rfl
  have hscan := imageInit_scan L crc16Calc A flash A.nMaxCount (Nat.le_refl _)
  refine ⟨?_, hrun⟩
  rw [tracked, restart, hview, hscan, reboot, oldest]
  congr 1
  show _ = if scan _ _ A.nMaxCount = none then _ else _
  cases scan (fun i => (slotView L crc16Calc A flash i).isSome)
      (slotKey (shape A) (slotView L crc16Calc A flash)) A.nMaxCount with
  | none => rfl
  | some c =>
      have hne : ¬ (c : Int) = -1 := by omega
      simp [hne]

/-- Every call acts on the log as its operation. -/
theorem tracked_step (IMAGE_INFO_AUTO_BOOT : BitVec 32)
    (herased : ErasedFails L crc16Calc) {t : Recorded} {c : Call L}
    (haccept : SelfAccepted L crc16Calc c.frame)
    (hrun : Running L crc16Calc A t.state) :
    tracked L crc16Calc A (recordedStep L crc16Calc IMAGE_INFO_AUTO_BOOT A t c) =
        step (shape A) (tracked L crc16Calc A t) (c.op IMAGE_INFO_AUTO_BOOT) ∧
      Running L crc16Calc A
        (recordedStep L crc16Calc IMAGE_INFO_AUTO_BOOT A t c).state := by
  cases c with
  | imageSet frame pInfo =>
      refine ⟨?_, running_imageSet herased haccept pInfo (.inr hrun)⟩
      exact congrArg (Tracked.mk · _)
        (view_imageSet herased haccept pInfo (.inr hrun))
  | imageSetAutoBoot frame bEnable =>
      obtain ⟨hview, hrun'⟩ := view_imageSetAutoBoot IMAGE_INFO_AUTO_BOOT herased
        haccept bEnable hrun
      refine ⟨?_, hrun'⟩
      simp only [tracked, recordedStep, Call.op, step, imageGet_view hrun]
      exact congrArg (Tracked.mk · _) hview
  | reset frame => exact tracked_restart herased haccept t.state.flash t.last

/-- The relation between a recorded state and its log. -/
def Tracks (L : InfoLayout) (crc16Calc : List Byte → BitVec 16) (A : Area)
    (t : Recorded) (a : Tracked Nat ImageInfo) : Prop :=
  tracked L crc16Calc A t = a ∧ Running L crc16Calc A t.state

/-- Runs of the code simulate runs of the log. -/
theorem simulation (herased : ErasedFails L crc16Calc) :
    Simulation (imageSystem L crc16Calc IMAGE_INFO_AUTO_BOOT A) (system (shape A))
      (fun c => some (c.op IMAGE_INFO_AUTO_BOOT)) (Tracks L crc16Calc A) where
  step := by
    rintro t c t' a ⟨rfl, hrun⟩ ⟨haccept, rfl⟩
    obtain ⟨hview, hrun'⟩ := tracked_step IMAGE_INFO_AUTO_BOOT herased haccept hrun
    exact .inl ⟨_, _, rfl, rfl, hview, hrun'⟩

theorem tracks_init (herased : ErasedFails L crc16Calc) {t : Recorded}
    (h : (imageSystem L crc16Calc IMAGE_INFO_AUTO_BOOT A).init t) :
    ∃ a, (system (shape A)).init a ∧ Tracks L crc16Calc A t a := by
  obtain ⟨flash, frame, haccept, rfl⟩ := h
  obtain ⟨hview, hrun⟩ := tracked_restart (A := A) herased haccept flash none
  exact ⟨_, ⟨_, rfl⟩, hview, hrun⟩

/-- Recency of the log is recency of the record. -/
theorem Tracks.lastRecord_iff {t : Recorded} {a : Tracked Nat ImageInfo}
    (h : Tracks L crc16Calc A t a) : LastRecord L A t ↔ Recent a := by
  obtain ⟨rfl, hrun⟩ := h
  rw [LastRecord, Recent, imageGet_view hrun]
  rfl

/-! ## The reset condition -/

/-- Every run whose resets find the record set last in the oldest slot keeps
it. -/
theorem lastRecord_of_resetSafe (herased : ErasedFails L crc16Calc) {t t' : Recorded}
    {calls : List (Call L)}
    (hinit : (imageSystem L crc16Calc IMAGE_INFO_AUTO_BOOT A).init t)
    (hrun : ((imageSystem L crc16Calc IMAGE_INFO_AUTO_BOOT A).restrict
      (ResetSafe L crc16Calc A)).Run t calls t') : LastRecord L A t' := by
  obtain ⟨a, ha, htracks⟩ := tracks_init herased hinit
  have hsafe : ∀ t c a op, Tracks L crc16Calc A t a → ResetSafe L crc16Calc A t c →
      some (c.op IMAGE_INFO_AUTO_BOOT) = some op → RestartSafe (shape A) a op := by
    rintro t c _ _ ⟨rfl, _⟩ h ⟨⟩
    cases c with
    | imageSet frame pInfo => trivial
    | imageSetAutoBoot frame bEnable => trivial
    | reset frame => exact fun r hr => oldestHolds_iff.mpr (h r hr)
  obtain ⟨a', hrun', htracks'⟩ := ((simulation herased).restrict hsafe).run hrun htracks
  exact htracks'.lastRecord_iff.mpr (recent_of_run (shape A) ha hrun')

/-! ## One erase unit -/

/-- With one erase unit no run loses the record set last. -/
theorem lastRecord_of_onePage (herased : ErasedFails L crc16Calc)
    (hone : OnePage (shape A)) {t t' : Recorded} {calls : List (Call L)}
    (hinit : (imageSystem L crc16Calc IMAGE_INFO_AUTO_BOOT A).init t)
    (hrun : (imageSystem L crc16Calc IMAGE_INFO_AUTO_BOOT A).Run t calls t') :
    LastRecord L A t' := by
  obtain ⟨a, ha, htracks⟩ := tracks_init herased hinit
  obtain ⟨a', hrun', htracks'⟩ := (simulation herased).run hrun htracks
  exact htracks'.lastRecord_iff.mpr (recent_of_onePage (shape A) hone ha hrun')

/-- The call a write or a restart of the log is made by. -/
def callOf (L : InfoLayout) : Op ImageInfo → Option (Call L)
  | .put r => some (.imageSet (.erasedLike L) r)
  | .amend _ => none
  | .reboot => some (.reset (.erasedLike L))

theorem indexFree_of_unwrapped {t : Recorded}
    (h : Unwrapped (shape A) (view L crc16Calc A t.state)) :
    IndexFree L crc16Calc A t.state.flash := by
  intro i hi htest hmax
  have hview : (view L crc16Calc A t.state).slot i =
      some ((slotNIndex t.state.flash (A.slotAddress i)).toNat,
        slotInfo L t.state.flash (A.slotAddress i)) := if_pos ⟨hi, htest⟩
  have hlt := h i _ hi hview
  simp [shape, hmax] at hlt

/-- Every run of writes and restarts of the log is a run of the code. -/
theorem simulation_plain (herased : ErasedFails L crc16Calc) :
    Simulation ((system (shape A)).restrict (Plain (shape A)))
      ((imageSystem L crc16Calc IMAGE_INFO_AUTO_BOOT A).restrict
        (KeepsIndexFree L crc16Calc IMAGE_INFO_AUTO_BOOT A))
      (callOf L) (fun a t => Tracks L crc16Calc A t a) where
  step := by
    rintro _ op a' t ⟨rfl, hrun⟩ ⟨⟨hbefore, hafter, hop⟩, rfl⟩
    have haccept := selfAccepted_erasedLike L crc16Calc
    obtain ⟨c, hc, hcop, hframe⟩ : ∃ c, callOf L op = some c ∧
        c.op IMAGE_INFO_AUTO_BOOT = op ∧ c.frame = .erasedLike L := by
      rcases hop with rfl | ⟨r, rfl⟩
      · exact ⟨_, rfl, rfl, rfl⟩
      · exact ⟨_, rfl, rfl, rfl⟩
    rw [← hframe] at haccept
    obtain ⟨hview, hrun'⟩ := tracked_step IMAGE_INFO_AUTO_BOOT herased haccept hrun
    rw [hcop] at hview
    rw [← hview] at hafter
    exact .inl ⟨c, _, hc, ⟨⟨indexFree_of_unwrapped hbefore,
      indexFree_of_unwrapped hafter⟩, haccept, rfl⟩, hview, hrun'⟩

theorem iterate_next (j : Nat) (hj : j + 1 < 2 ^ 32) :
    (shape A).next^[j] (shape A).first = j + 1 := by
  induction j with
  | zero => rfl
  | succ j ih =>
      rw [Function.iterate_succ_apply', ih (by omega)]
      exact Nat.mod_eq_of_lt hj

/-- If no run loses the record set last, there is one erase unit. -/
theorem onePage_of_lastRecord (herased : ErasedFails L crc16Calc)
    (h : ∀ t calls t', (imageSystem L crc16Calc IMAGE_INFO_AUTO_BOOT A).init t →
      ((imageSystem L crc16Calc IMAGE_INFO_AUTO_BOOT A).restrict
        (KeepsIndexFree L crc16Calc IMAGE_INFO_AUTO_BOOT A)).Run t calls t' →
      LastRecord L A t') : OnePage (shape A) := by
  have haccept := selfAccepted_erasedLike L crc16Calc
  have hcount : A.nMaxCount ≤ 2 ^ 24 := by
    have hfits := A.fits
    rw [slotSize] at hfits
    omega
  have hempty : slotView L crc16Calc A (fun _ => 0xFF) = fun _ => none := by
    funext i
    apply slotView_erased herased
    intro off n _
    simp [Lib.RawBytes.read, List.map_const']
  obtain ⟨hview, hrun⟩ := tracked_restart (A := A) herased haccept (fun _ => 0xFF) none
  rw [hempty] at hview
  have hblank : (⟨1, 0, 0, 0⟩ : ImageInfo) ≠ blankInfo := by decide
  refine onePage_of_recent (shape A) (fun j hj => ?_) hblank
    fun ops a' hlog => ?_
  · have hlt : j ≤ A.nMaxCount := hj
    rw [iterate_next j (by omega), iterate_next (j + 1) (by omega)]
    omega
  · obtain ⟨t', hrun', htracks⟩ := (simulation_plain herased).run hlog ⟨hview, hrun⟩
    exact htracks.lastRecord_iff.mp (h _ _ t' ⟨_, _, haccept, rfl⟩ hrun')

/-- The record set last survives every run exactly when all slots lie in one
erase unit; and it survives each run whose resets find it in the oldest slot. -/
theorem lastRecord_iff_one_unit_and_of_resetSafe (herased : ErasedFails L crc16Calc) :
    ((∀ t calls t', (imageSystem L crc16Calc IMAGE_INFO_AUTO_BOOT A).init t →
        ((imageSystem L crc16Calc IMAGE_INFO_AUTO_BOOT A).restrict
          (KeepsIndexFree L crc16Calc IMAGE_INFO_AUTO_BOOT A)).Run t calls t' →
        LastRecord L A t') ↔
      ∀ i j, i < A.nMaxCount → j < A.nMaxCount → A.page i = A.page j) ∧
    (∀ t calls t', (imageSystem L crc16Calc IMAGE_INFO_AUTO_BOOT A).init t →
      ((imageSystem L crc16Calc IMAGE_INFO_AUTO_BOOT A).restrict
        (ResetSafe L crc16Calc A)).Run t calls t' → LastRecord L A t') := by
  refine ⟨⟨fun h => onePage_of_lastRecord herased h, fun hone t calls t' hinit hrun => ?_⟩,
    fun t calls t' hinit hrun => lastRecord_of_resetSafe herased hinit hrun⟩
  exact lastRecord_of_onePage herased hone hinit hrun.of_restrict

/-- Four slots in one erase unit of eight, as on the target. -/
def oneUnit : Area where
  nBaseAddress := 0x2000
  nMaxCount := 4
  pageSlots := 8
  count_pos := by decide
  pageSlots_pos := by decide
  aligned := rfl
  fits := by decide

/-- The board after its first boot, with erased flash. -/
def bootedOnce (A : Area) : Recorded :=
  restart armLayout Crc16.crc16Calc A (.erasedLike armLayout) (fun _ => 0xFF) none

/-- The same board after a record is set, and after a reset behind that. -/
def setOnce (A : Area) : Recorded :=
  recordedStep armLayout Crc16.crc16Calc 1 A (bootedOnce A)
    (.imageSet (.erasedLike armLayout) ⟨1, 0, 0, 0⟩)

def resetOnce (A : Area) : Recorded :=
  recordedStep armLayout Crc16.crc16Calc 1 A (setOnce A)
    (.reset (.erasedLike armLayout))

theorem run_resetOnce {A : Area}
    (h₀ : IndexFree armLayout Crc16.crc16Calc A (bootedOnce A).state.flash)
    (h₁ : IndexFree armLayout Crc16.crc16Calc A (setOnce A).state.flash)
    (h₂ : IndexFree armLayout Crc16.crc16Calc A (resetOnce A).state.flash) :
    ∃ calls, (imageSystem armLayout Crc16.crc16Calc 1 A).init (bootedOnce A) ∧
      ((imageSystem armLayout Crc16.crc16Calc 1 A).restrict
        (KeepsIndexFree armLayout Crc16.crc16Calc 1 A)).Run (bootedOnce A) calls
        (resetOnce A) := by
  have haccept := selfAccepted_erasedLike armLayout Crc16.crc16Calc
  have hset : ((imageSystem armLayout Crc16.crc16Calc 1 A).restrict
      (KeepsIndexFree armLayout Crc16.crc16Calc 1 A)).step (bootedOnce A)
      (.imageSet (.erasedLike armLayout) ⟨1, 0, 0, 0⟩) (setOnce A) :=
    ⟨⟨h₀, h₁⟩, haccept, rfl⟩
  have hreset : ((imageSystem armLayout Crc16.crc16Calc 1 A).restrict
      (KeepsIndexFree armLayout Crc16.crc16Calc 1 A)).step (setOnce A)
      (.reset (.erasedLike armLayout)) (resetOnce A) := ⟨⟨h₁, h₂⟩, haccept, rfl⟩
  exact ⟨_, ⟨_, _, haccept, rfl⟩, .cons hset (.one hreset)⟩

/-- In one erase unit a record set after the first boot is there after the
second. -/
theorem lastRecord_oneUnit : LastRecord armLayout oneUnit (resetOnce oneUnit) := by
  have hone : ∀ i j, i < oneUnit.nMaxCount → j < oneUnit.nMaxCount →
      oneUnit.page i = oneUnit.page j := by
    intro i j hi hj
    simp only [oneUnit, Area.page, slotSize] at hi hj ⊢
    omega
  have herased : ErasedFails armLayout Crc16.crc16Calc := by decide +kernel
  obtain ⟨calls, hinit, hrun⟩ := run_resetOnce (A := oneUnit) (by decide +kernel)
    (by decide +kernel) (by decide +kernel)
  exact (lastRecord_iff_one_unit_and_of_resetSafe herased).1.mpr hone _ calls _ hinit hrun

/-- On erased flash with two erase units: the record set after the first boot is
gone after the second, which finds the blank record of the first again. -/
theorem lastRecord_lost_twoUnits :
    ¬ ∀ t calls t', (imageSystem armLayout Crc16.crc16Calc 1 twoUnits).init t →
      ((imageSystem armLayout Crc16.crc16Calc 1 twoUnits).restrict
        (KeepsIndexFree armLayout Crc16.crc16Calc 1 twoUnits)).Run t calls t' →
      LastRecord armLayout twoUnits t' := by
  intro h
  obtain ⟨calls, hinit, hrun⟩ := run_resetOnce (A := twoUnits) (by decide +kernel)
    (by decide +kernel) (by decide +kernel)
  have hlast := h _ calls _ hinit hrun ⟨1, 0, 0, 0⟩ (by decide +kernel)
  have hblank : imageGet armLayout twoUnits (resetOnce twoUnits).state = some blankInfo := by
    decide +kernel
  exact absurd (hlast.symm.trans hblank) (by decide)

end BillCounter.Image
