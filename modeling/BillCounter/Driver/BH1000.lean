import BillCounter.Driver.Port

/-!
# The driver of the BH1000

A frame of 17 bytes has the count in four decimal digits and the sum in eight.  Both are
read right.  The message has three bytes for the count, and uses one of them.
-/

namespace BillCounter.Driver

open BillCounter.Lib.Positional
open BillCounter.Lib.RawBytes

/-! ## The driver -/

/-- `BC_BH1000_STX`. -/
def bcBH1000Stx : Byte := 0x02

/-- `BC_BH1000_FRAME_SIZE`. -/
def bcBH1000FrameSize : Nat := 17

/-- `BC_BH1000`, without `pInfo`: see `BcJ305`. -/
structure BcBH1000 where
  ulCount : BitVec 32
  ulSum : BitVec 32
deriving DecidableEq

/-- Either loop over the digits, up to a byte that is none. -/
def bcBH1000Digits (n : BitVec 32) : List Byte → BitVec 32
  | [] => n
  | c :: cs =>
      if c < 0x30 ∨ 0x39 < c then n
      else bcBH1000Digits (n * 10 + c.setWidth 32 - 0x30) cs

/-- `BC_BH1000_input` behind its `SERIAL_gets`. -/
def bcBH1000Frame (pFrame : List Byte) : BcBH1000 where
  ulCount := bcBH1000Digits 0 (slice pFrame 4 4)
  ulSum := bcBH1000Digits 0 (slice pFrame 8 8)

/-- `BC_BH1000_input`. -/
def bcBH1000Input (pBH1000 : BcBH1000) (hSerial : Arrivals) : Bool × BcBH1000 × Arrivals :=
  match serialGetc hSerial with
  | (none, hSerial) => (false, pBH1000, hSerial)
  | (some stx, hSerial) =>
      if stx ≠ bcBH1000Stx then (false, pBH1000, hSerial)
      else
        let (bs, hSerial) := serialGets (bcBH1000FrameSize - 1) hSerial
        if 1 + bs.length ≠ bcBH1000FrameSize then (false, pBH1000, hSerial)
        else (true, bcBH1000Frame (stx :: bs), hSerial)

/-- `BC_BH1000_getMessage`. -/
def bcBH1000GetMessage (pBH1000 : BcBH1000) : List Byte :=
  [1, 0, 0, (pBH1000.ulCount &&& 0xff).setWidth 8] ++ wordInMessage pBH1000.ulSum

/-! ## The digits -/

variable {ds : List Byte}

theorem step_digit {c : Byte} (h : IsDecimal c) (n : BitVec 32) :
    n * 10 + c.setWidth 32 - 0x30 = n * 10 + digitWord 32 c := by
  have hall : ∀ c : Byte, IsDecimal c → c.setWidth 32 - 0x30 = digitWord 32 c := by decide
  rw [BitVec.sub_eq_add_neg, BitVec.add_assoc, ← BitVec.sub_eq_add_neg, hall c h]

/-- Digits are all read. -/
theorem bcBH1000Digits_eq (h : ∀ c ∈ ds, IsDecimal c) (n : BitVec 32) :
    bcBH1000Digits n ds = (ds.map (digitWord 32)).foldl (fun n d => n * 10 + d) n := by
  induction ds generalizing n with
  | nil => rfl
  | cons c ds ih =>
      have hc := h c List.mem_cons_self
      have hrange : ¬ (c < 0x30 ∨ 0x39 < c) := by
        rw [not_or, BitVec.not_lt, BitVec.not_lt]
        exact hc
      rw [bcBH1000Digits, if_neg hrange, step_digit hc,
        ih fun d hd => h d (List.mem_cons_of_mem c hd)]
      rfl

theorem toNat_bcBH1000Digits (h : ∀ c ∈ ds, IsDecimal c) (hlen : ds.length ≤ 8) :
    (bcBH1000Digits 0 ds).toNat = decimal ds := by
  have hlt : decimal ds < 2 ^ 32 := by
    refine Nat.lt_of_lt_of_le (decimal_lt h) ?_
    exact Nat.le_trans (Nat.pow_le_pow_right (by decide) hlen) (by decide)
  rw [bcBH1000Digits_eq h, ← Nat.mod_eq_of_lt hlt]
  exact toNat_accumulate_decimal (by decide) ds

/-- No round of the loop overflows. -/
def NoOverflow (ds : List Byte) : Prop :=
  ∀ k < ds.length,
    (bcBH1000Digits 0 (ds.take k)).toNat * 10 + (ds.getD k 0).toNat < 2 ^ 32

theorem noOverflow_digits (h : ∀ c ∈ ds, IsDecimal c) (hlen : ds.length ≤ 8) :
    NoOverflow ds := by
  intro k hk
  have hfront : ∀ c ∈ ds.take k, IsDecimal c := fun c hc => h c (List.mem_of_mem_take hc)
  have hlen_take : (ds.take k).length ≤ 7 := by
    rw [List.length_take]
    omega
  have hlt : decimal (ds.take k) < 10 ^ 7 :=
    Nat.lt_of_lt_of_le (decimal_lt hfront) (Nat.pow_le_pow_right (by decide) hlen_take)
  have hbyte := (ds.getD k 0).isLt
  rw [toNat_bcBH1000Digits hfront (by omega)]
  omega

/-! ## The frame -/

/-- A frame with digits in the places of count and sum. -/
structure BH1000Frame where
  val : Bytes 17
  stx : val.val.head? = some bcBH1000Stx
  count : ∀ c ∈ slice val.val 4 4, IsDecimal c
  sum : ∀ c ∈ slice val.val 8 8, IsDecimal c

variable {pBH1000 : BcBH1000} {F : BH1000Frame} {line : Arrivals}

/-- A frame is accepted. -/
theorem bcBH1000Input_frame (pBH1000 : BcBH1000) (F : BH1000Frame) (line : Arrivals) :
    bcBH1000Input pBH1000 (inTime F.val.val ++ line) = (true, bcBH1000Frame F.val.val, line) := by
  obtain ⟨bs, hbs, hlen, hgets⟩ := frame_arrives F.val F.stx line
  rw [hbs, bcBH1000Input, serialGetc_inTime]
  simp [bcBH1000FrameSize, hgets, hlen]

/-- The message has the lowest byte of the count. -/
theorem counted_bcBH1000 (pBH1000 : BcBH1000) :
    counted (bcBH1000GetMessage pBH1000) = pBH1000.ulCount.toNat % 256 := by
  rw [bcBH1000GetMessage, setWidth_and_ff]
  exact (counted_cons _ _ _ _ _).trans (by simp)

/-- What is to become of a frame. -/
structure SentIntact (pBH1000 : BcBH1000) (F : BH1000Frame) (line : Arrivals) : Prop where
  accepted : (bcBH1000Input pBH1000 (inTime F.val.val ++ line)).1 = true
  count : counted (bcBH1000GetMessage (bcBH1000Input pBH1000 (inTime F.val.val ++ line)).2.1) =
    decimal (slice F.val.val 4 4)
  sum : beValue (slice (bcBH1000GetMessage
    (bcBH1000Input pBH1000 (inTime F.val.val ++ line)).2.1) 4 4) = decimal (slice F.val.val 8 8)
  countFits : NoOverflow (slice F.val.val 4 4)
  sumFits : NoOverflow (slice F.val.val 8 8)

/-- Count and sum reach the server exactly if the count is below 256. -/
theorem sentIntact_iff (pBH1000 : BcBH1000) (F : BH1000Frame) (line : Arrivals) :
    SentIntact pBH1000 F line ↔ decimal (slice F.val.val 4 4) < 256 := by
  have hlen : ∀ off n, (slice F.val.val off n).length ≤ n := fun off n => by
    rw [slice, List.length_take]
    exact Nat.min_le_left _ _
  have hcount : counted (bcBH1000GetMessage (bcBH1000Frame F.val.val)) =
      decimal (slice F.val.val 4 4) % 256 := by
    rw [counted_bcBH1000]
    exact congrArg (· % 256) (toNat_bcBH1000Digits F.count (Nat.le_trans (hlen 4 4) (by decide)))
  constructor
  · intro h
    have hsent := h.count
    rw [bcBH1000Input_frame, hcount] at hsent
    omega
  · intro hlt
    have hinput := bcBH1000Input_frame pBH1000 F line
    constructor
    · rw [hinput]
    · rw [hinput, hcount, Nat.mod_eq_of_lt hlt]
    · rw [hinput]
      show beValue (wordInMessage (bcBH1000Frame F.val.val).ulSum) = _
      rw [beValue_wordInMessage]
      exact toNat_bcBH1000Digits F.sum (hlen 8 8)
    · exact noOverflow_digits F.count (Nat.le_trans (hlen 4 4) (by decide))
    · exact noOverflow_digits F.sum (hlen 8 8)

/-- A count of 300. -/
def frameOf300 : BH1000Frame where
  val := ⟨[0x02, 0, 0, 0, 0x30, 0x33, 0x30, 0x30, 0x30, 0x30, 0x30, 0x30, 0x30, 0x30, 0x30, 0x30,
    0x03], rfl⟩
  stx := rfl
  count := by decide
  sum := by decide

/-- 300 is sent as 44. -/
theorem count_300_sent_as_44 : ¬ SentIntact ⟨0, 0⟩ frameOf300 [] := by
  intro h
  exact absurd h.count (by decide)

end BillCounter.Driver
