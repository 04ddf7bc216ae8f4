import BillCounter.Driver.Port
import Mathlib.Data.BitVec

/-!
# The driver of the J-305

The counter repeats a frame of 13 bytes.  The driver takes 26 of them, which hold a whole
frame wherever it starts, looks for the start, and then reads the digits of the count from
the front of the buffer all the same.  It puts them together in base 256, and its message
has room for the lowest byte.
-/

namespace BillCounter.Driver

open BillCounter.Lib.Positional
open BillCounter.Lib.RawBytes

/-! ## The driver -/

/-- `BC_J305_STX`. -/
def bcJ305Stx : Byte := 0x45

/-- `BC_J305_FRAME_SIZE`. -/
def bcJ305FrameSize : Nat := 13

/-- `BC_J305`.  `pInfo` is left out: `BC_getInstance` gives a driver its own entry, and that
is what the `ASSERT`s check. -/
structure BcJ305 where
  ulCount : BitVec 32
deriving DecidableEq

/-- `nStartIndex`, or `none` if it is still `-1` after the loop. -/
def nStartIndex (pFrame : List Byte) : Option Nat :=
  (List.range bcJ305FrameSize).find? fun i =>
    pFrame.getD i 0 = bcJ305Stx ∧ pFrame.getD (i + bcJ305FrameSize - 1) 0 ≠ bcJ305Stx ∧
      pFrame.getD (i + bcJ305FrameSize) 0 = bcJ305Stx

/-- `nValue` for a byte of the count, or `none` if it stands for no digit. -/
def digitCode (c : Byte) : Option Byte :=
  if c < 8 then some c
  else if c = 0x18 then some 8
  else if c = 0x19 then some 9
  else if c = 0x45 then some 0
  else none

/-- The loop over the bytes of the count.  `ulCount` keeps what it holds when the loop ends
early. -/
def bcJ305Digits (ulCount : BitVec 32) : List Byte → Bool × BitVec 32
  | [] => (true, ulCount)
  | c :: cs =>
      match digitCode c with
      | some nValue => bcJ305Digits (ulCount <<< 8 + nValue.setWidth 32) cs
      | none => (false, ulCount)

/-- `BC_J305_input` behind its `SERIAL_gets`.  The loop reads `pFrame[i]`, wherever the
frame starts. -/
def bcJ305Frame (pJ305 : BcJ305) (pFrame : List Byte) : Bool × BcJ305 :=
  match nStartIndex pFrame with
  | none => (false, pJ305)
  | some _ =>
      let (ret, ulCount) := bcJ305Digits 0 (pFrame.take 4)
      (ret, { pJ305 with ulCount := ulCount })

/-- `BC_J305_input`. -/
def bcJ305Input (pJ305 : BcJ305) (hSerial : Arrivals) : Bool × BcJ305 × Arrivals :=
  let (pFrame, hSerial) := serialGets (bcJ305FrameSize * 2) hSerial
  if pFrame.length ≠ bcJ305FrameSize * 2 then (false, pJ305, hSerial)
  else
    let (ret, pJ305) := bcJ305Frame pJ305 pFrame
    (ret, pJ305, hSerial)

/-- `BC_J305_getMessage`. -/
def bcJ305GetMessage (pJ305 : BcJ305) : List Byte :=
  [1, 0, 0, (pJ305.ulCount &&& 0xff).setWidth 8, 0, 0, 0]

/-! ## The digits -/

/-- The digits up to the first byte that stands for none. -/
def leadingDigits : List Byte → List Byte
  | [] => []
  | c :: cs =>
      match digitCode c with
      | some nValue => nValue :: leadingDigits cs
      | none => []

/-- All of the bytes stand for digits. -/
def allDigits (cs : List Byte) : Bool := cs.all fun c => (digitCode c).isSome

/-- Their values. -/
def digitValues (cs : List Byte) : List Nat := (leadingDigits cs).map BitVec.toNat

/-- The number they denote in base `b`. -/
def countIn (b : Nat) (cs : List Byte) : Nat := value b (digitValues cs)

variable {pJ305 : BcJ305} {line : Arrivals} {cs : List Byte}

theorem digitCode_lt {c d : Byte} (h : digitCode c = some d) : d.toNat < 10 := by
  have hall : ∀ c : Byte, ((digitCode c).map BitVec.toNat).getD 0 < 10 := by decide
  have hd := hall c
  rwa [h] at hd

theorem digitValues_lt (cs : List Byte) : ∀ d ∈ digitValues cs, d < 10 := by
  induction cs with
  | nil => exact fun d hd => absurd hd List.not_mem_nil
  | cons c cs ih =>
      rw [digitValues, leadingDigits]
      cases hc : digitCode c with
      | none => exact fun d hd => absurd hd List.not_mem_nil
      | some nValue =>
          rw [List.map_cons, List.forall_mem_cons]
          exact ⟨digitCode_lt hc, ih⟩

theorem length_leadingDigits_le (cs : List Byte) : (leadingDigits cs).length ≤ cs.length := by
  induction cs with
  | nil => exact Nat.le_refl 0
  | cons c cs ih =>
      rw [leadingDigits]
      cases digitCode c with
      | none => exact Nat.zero_le _
      | some nValue => exact Nat.succ_le_succ ih

/-- The loop goes through when all bytes are digits, and shifts the leading ones in. -/
theorem bcJ305Digits_eq (ulCount : BitVec 32) (cs : List Byte) :
    bcJ305Digits ulCount cs =
      (allDigits cs,
        ((leadingDigits cs).map (BitVec.setWidth 32)).foldl (fun n d => n * 256 + d) ulCount) := by
  induction cs generalizing ulCount with
  | nil => rfl
  | cons c cs ih =>
      rw [bcJ305Digits, leadingDigits, allDigits, List.all_cons]
      cases digitCode c with
      | none => rfl
      | some nValue =>
          have hshift : ulCount <<< 8 = ulCount * 256 := by
            rw [BitVec.shiftLeft_eq_mul_twoPow]
            rfl
          dsimp only
          rw [ih, hshift]
          rfl

/-- Four digits fit. -/
theorem toNat_bcJ305Digits (hlen : cs.length ≤ 4) :
    (bcJ305Digits 0 cs).2.toNat = countIn 256 cs := by
  have hlt : countIn 256 cs < 2 ^ 32 := by
    have hdigits := value_lt (b := 256) (by decide) fun d hd =>
      Nat.lt_of_lt_of_le (digitValues_lt cs d hd) (by decide)
    refine Nat.lt_of_lt_of_le hdigits ?_
    rw [digitValues, List.length_map, show 2 ^ 32 = 256 ^ 4 by decide]
    exact Nat.pow_le_pow_right (by decide) (Nat.le_trans (length_leadingDigits_le cs) hlen)
  have hloop := toNat_accumulate_bytes (w := 32) (by decide) 256 (leadingDigits cs)
  rw [bcJ305Digits_eq]
  exact hloop.trans (Nat.mod_eq_of_lt hlt)

/-- Wherever the frame starts, the digits are those at the front. -/
theorem bcJ305Input_eq {bs : List Byte} {start : Nat} (hlen : bs.length = 26)
    (hstart : nStartIndex bs = some start) (pJ305 : BcJ305) (line : Arrivals) :
    bcJ305Input pJ305 (inTime bs ++ line) =
      (allDigits (bs.take 4), ⟨(bcJ305Digits 0 (bs.take 4)).2⟩, line) := by
  have hgets := serialGets_inTime bs line
  have hall : (bcJ305Digits 0 (bs.take 4)).1 = allDigits (bs.take 4) := by rw [bcJ305Digits_eq]
  rw [hlen] at hgets
  rw [bcJ305Input, bcJ305FrameSize, hgets]
  dsimp only
  rw [hlen, bcJ305Frame, hstart, ← hall]
  rfl

/-! ## Where the read starts -/

/-- A frame as the counter repeats it: `0x45` at the start, and nowhere behind another
byte. -/
structure J305Frame where
  val : Bytes 13
  stx : val.val.getD 0 0 = bcJ305Stx
  last : val.val.getD 12 0 ≠ bcJ305Stx
  row : ∀ i < 12, val.val.getD (i + 1) 0 = bcJ305Stx → val.val.getD i 0 = bcJ305Stx

/-- The 26 bytes from `k` bytes into the repeated frame on. -/
def J305Frame.window (F : J305Frame) (k : Nat) : List Byte :=
  (List.range 26).map fun i => F.val.val.getD ((k + i) % 13) 0

variable {F : J305Frame} {k : Fin 13}

theorem length_window (F : J305Frame) (k : Nat) : (F.window k).length = 26 := by
  rw [J305Frame.window, List.length_map, List.length_range]

theorem window_getD (k : Nat) {i : Nat} (hi : i < 26) :
    (F.window k).getD i 0 = F.val.val.getD ((k + i) % 13) 0 := by
  simp [J305Frame.window, hi]

/-- The start is found, in every phase. -/
theorem nStartIndex_window (F : J305Frame) (k : Fin 13) :
    nStartIndex (F.window k) = some ((13 - k.val) % 13) := by
  have hk := k.isLt
  rw [nStartIndex, List.find?_range_eq_some, bcJ305FrameSize]
  refine ⟨?_, List.mem_range.mpr (by omega), fun j hj => ?_⟩
  · rw [decide_eq_true_eq, window_getD _ (by omega), window_getD _ (by omega),
      window_getD _ (by omega), show (k.val + (13 - k.val) % 13) % 13 = 0 by omega,
      show (k.val + ((13 - k.val) % 13 + 13 - 1)) % 13 = 12 by omega,
      show (k.val + ((13 - k.val) % 13 + 13)) % 13 = 0 by omega]
    exact ⟨F.stx, F.last, F.stx⟩
  · rw [Bool.not_eq_true', decide_eq_false_iff_not, window_getD _ (by omega),
      window_getD _ (by omega)]
    rintro ⟨hstx, hne, _⟩
    have hrow := F.row ((k.val + (j + 13 - 1)) % 13) (by omega)
    rw [show (k.val + (j + 13 - 1)) % 13 + 1 = (k.val + j) % 13 by omega] at hrow
    exact hne (hrow hstx)

/-- The result and the count are those of the read that starts with the frame. -/
structure PhaseIndependent (pJ305 : BcJ305) (F : J305Frame) (k : Fin 13) (line : Arrivals) :
    Prop where
  result : (bcJ305Input pJ305 (inTime (F.window k) ++ line)).1 =
    (bcJ305Input pJ305 (inTime (F.window 0) ++ line)).1
  ulCount : (bcJ305Input pJ305 (inTime (F.window k) ++ line)).2.1.ulCount =
    (bcJ305Input pJ305 (inTime (F.window 0) ++ line)).2.1.ulCount

/-- Both are digits or neither, and up to the first byte that is none the digits are the
same, leading zeros apart. -/
structure SameDigits (cs ds : List Byte) : Prop where
  allDigits : allDigits cs = allDigits ds
  digitValues : (digitValues cs).dropWhile (· = 0) = (digitValues ds).dropWhile (· = 0)

/-- Where the read starts makes no difference exactly if the first four bytes read denote
the same there. -/
theorem phaseIndependent_iff (pJ305 : BcJ305) (F : J305Frame) (k : Fin 13) (line : Arrivals) :
    PhaseIndependent pJ305 F k line ↔
      SameDigits ((F.window k).take 4) ((F.window 0).take 4) := by
  have hinput : ∀ k : Fin 13, bcJ305Input pJ305 (inTime (F.window k) ++ line) = _ := fun k =>
    bcJ305Input_eq (length_window F k) (nStartIndex_window F k) pJ305 line
  have hzero : bcJ305Input pJ305 (inTime (F.window 0) ++ line) = _ := hinput 0
  have hcount : (bcJ305Digits 0 ((F.window k).take 4)).2 =
      (bcJ305Digits 0 ((F.window 0).take 4)).2 ↔
        (digitValues ((F.window k).take 4)).dropWhile (· = 0) =
          (digitValues ((F.window 0).take 4)).dropWhile (· = 0) := by
    have hbase : ∀ cs, ∀ d ∈ digitValues cs, d < 256 := fun cs d hd =>
      Nat.lt_of_lt_of_le (digitValues_lt cs d hd) (by decide)
    rw [← BitVec.toNat_inj, toNat_bcJ305Digits (List.length_take_le _ _),
      toNat_bcJ305Digits (List.length_take_le _ _)]
    exact value_eq_iff (by decide) (hbase _) (hbase _)
  constructor
  · rintro ⟨hret, hul⟩
    rw [hzero, hinput] at hret hul
    exact ⟨hret, hcount.mp hul⟩
  · rintro ⟨hall, hdigits⟩
    constructor
    · rw [hzero, hinput]
      exact hall
    · rw [hzero, hinput]
      exact hcount.mpr hdigits

/-- A frame that shows 12. -/
def frameOf12 : J305Frame where
  val := ⟨[0x45, 0, 1, 2, 0, 0, 0, 0, 0, 0, 0, 0, 0], rfl⟩
  stx := by decide
  last := by decide
  row := by decide

/-- Read from its second byte on it shows something else. -/
theorem phase_one_differs : ¬ PhaseIndependent ⟨0⟩ frameOf12 1 [] := by
  intro h
  exact absurd h.ulCount (by decide)

/-! ## The message -/

/-- A read of 26 bytes that is accepted, and starts with the frame. -/
structure J305Window where
  val : Bytes 26
  start : nStartIndex val.val = some 0
  accepted : ∀ pJ305, (bcJ305Input pJ305 (inTime val.val)).1 = true

/-- The number its digits denote. -/
def J305Window.shown (w : J305Window) : Nat := countIn 10 (w.val.val.take 4)

/-- The message behind it. -/
def J305Window.message (w : J305Window) (pJ305 : BcJ305) : List Byte :=
  bcJ305GetMessage (bcJ305Input pJ305 (inTime w.val.val)).2.1

/-- In either base the last digit is the last digit. -/
theorem countIn_mod (cs : List Byte) : countIn 256 cs % 256 = countIn 10 cs % 10 := by
  have hlt := digitValues_lt cs
  rw [countIn, countIn]
  rcases List.eq_nil_or_concat (digitValues cs) with hnil | ⟨ds, d, hconcat⟩
  · rw [hnil]
    rfl
  · rw [List.concat_eq_append] at hconcat
    have hd := hlt d (by rw [hconcat]; exact List.mem_append_right _ List.mem_cons_self)
    rw [hconcat, value_snoc, value_snoc]
    omega

/-- The message has the last digit in it. -/
theorem message_eq (w : J305Window) (pJ305 : BcJ305) :
    w.message pJ305 = [1, 0, 0, BitVec.ofNat 8 (w.shown % 10), 0, 0, 0] := by
  have hinput := bcJ305Input_eq w.val.property w.start pJ305 []
  have hbyte : ((bcJ305Digits 0 (w.val.val.take 4)).2 &&& 0xff).setWidth 8 =
      BitVec.ofNat 8 (w.shown % 10) := by
    apply BitVec.eq_of_toNat_eq
    have hmod := countIn_mod (w.val.val.take 4)
    have hcount := toNat_bcJ305Digits (List.length_take_le 4 w.val.val)
    rw [setWidth_and_ff, BitVec.toNat_setWidth, hcount, BitVec.toNat_ofNat, J305Window.shown]
    omega
  rw [List.append_nil] at hinput
  rw [J305Window.message, hinput, bcJ305GetMessage, hbyte]

theorem counted_message (w : J305Window) (pJ305 : BcJ305) :
    counted (w.message pJ305) = w.shown % 10 := by
  rw [message_eq, counted_cons, BitVec.toNat_ofNat]
  simp
  omega

/-- The message has the count shown exactly if that is below ten, and of two windows with
different counts it has different ones exactly if their last digits differ. -/
theorem count_intact_iff (pJ305 pJ305' : BcJ305) (w w' : J305Window) :
    (counted (w.message pJ305) = w.shown ↔ w.shown < 10) ∧
      ((w.shown ≠ w'.shown → w.message pJ305 ≠ w'.message pJ305') ↔
        w.shown = w'.shown ∨ w.shown % 10 ≠ w'.shown % 10) := by
  have hsame : w.message pJ305 = w'.message pJ305' ↔ w.shown % 10 = w'.shown % 10 := by
    constructor
    · intro h
      have hcounted := congrArg counted h
      rwa [counted_message, counted_message] at hcounted
    · intro h
      rw [message_eq, message_eq, h]
  constructor
  · rw [counted_message]
    omega
  · rw [ne_eq, ne_eq, hsame]
    omega

/-- The read that starts with the frame. -/
def windowOf12 : J305Window where
  val := ⟨frameOf12.window 0, length_window frameOf12 0⟩
  start := nStartIndex_window frameOf12 0
  accepted := fun pJ305 => by
    have hinput := bcJ305Input_eq (length_window frameOf12 0) (nStartIndex_window frameOf12 0)
      pJ305 []
    rw [List.append_nil] at hinput
    exact (congrArg Prod.fst hinput).trans (by decide)

/-- 12 is sent as 2. -/
theorem twelve_sent_as_two : counted (windowOf12.message ⟨0⟩) ≠ windowOf12.shown := by
  rw [counted_message]
  decide

end BillCounter.Driver
