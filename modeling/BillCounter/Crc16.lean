import BillCounter.Lib.RawBytes
import BillCounter.Lib.Lfsr

/-!
# The check sum of `crc16.c`

`CRC16_calc` is the table-driven form of a sixteen-bit shift register with the
feedback word `0xA001`, fed with the bits of each byte from the low end.  The
table is the one of the source; `pTable_eq` says that its entry for a byte is
that byte shifted eight times, and `crc16Calc_eq_feed` that the whole function
is the register of `Lib.Lfsr`.  `crc16Loop` is the loop with its `int` index, and
`crc16Bitwise` the sum one bit at a time.
-/

namespace BillCounter.Crc16

open BillCounter.Lib.RawBytes
open BillCounter.Lib.Lfsr

/-- `pTable`. -/
def pTable : List (BitVec 16) := [
    0x0000, 0xC0C1, 0xC181, 0x0140, 0xC301, 0x03C0, 0x0280, 0xC241,
    0xC601, 0x06C0, 0x0780, 0xC741, 0x0500, 0xC5C1, 0xC481, 0x0440,
    0xCC01, 0x0CC0, 0x0D80, 0xCD41, 0x0F00, 0xCFC1, 0xCE81, 0x0E40,
    0x0A00, 0xCAC1, 0xCB81, 0x0B40, 0xC901, 0x09C0, 0x0880, 0xC841,
    0xD801, 0x18C0, 0x1980, 0xD941, 0x1B00, 0xDBC1, 0xDA81, 0x1A40,
    0x1E00, 0xDEC1, 0xDF81, 0x1F40, 0xDD01, 0x1DC0, 0x1C80, 0xDC41,
    0x1400, 0xD4C1, 0xD581, 0x1540, 0xD701, 0x17C0, 0x1680, 0xD641,
    0xD201, 0x12C0, 0x1380, 0xD341, 0x1100, 0xD1C1, 0xD081, 0x1040,
    0xF001, 0x30C0, 0x3180, 0xF141, 0x3300, 0xF3C1, 0xF281, 0x3240,
    0x3600, 0xF6C1, 0xF781, 0x3740, 0xF501, 0x35C0, 0x3480, 0xF441,
    0x3C00, 0xFCC1, 0xFD81, 0x3D40, 0xFF01, 0x3FC0, 0x3E80, 0xFE41,
    0xFA01, 0x3AC0, 0x3B80, 0xFB41, 0x3900, 0xF9C1, 0xF881, 0x3840,
    0x2800, 0xE8C1, 0xE981, 0x2940, 0xEB01, 0x2BC0, 0x2A80, 0xEA41,
    0xEE01, 0x2EC0, 0x2F80, 0xEF41, 0x2D00, 0xEDC1, 0xEC81, 0x2C40,
    0xE401, 0x24C0, 0x2580, 0xE541, 0x2700, 0xE7C1, 0xE681, 0x2640,
    0x2200, 0xE2C1, 0xE381, 0x2340, 0xE101, 0x21C0, 0x2080, 0xE041,
    0xA001, 0x60C0, 0x6180, 0xA141, 0x6300, 0xA3C1, 0xA281, 0x6240,
    0x6600, 0xA6C1, 0xA781, 0x6740, 0xA501, 0x65C0, 0x6480, 0xA441,
    0x6C00, 0xACC1, 0xAD81, 0x6D40, 0xAF01, 0x6FC0, 0x6E80, 0xAE41,
    0xAA01, 0x6AC0, 0x6B80, 0xAB41, 0x6900, 0xA9C1, 0xA881, 0x6840,
    0x7800, 0xB8C1, 0xB981, 0x7940, 0xBB01, 0x7BC0, 0x7A80, 0xBA41,
    0xBE01, 0x7EC0, 0x7F80, 0xBF41, 0x7D00, 0xBDC1, 0xBC81, 0x7C40,
    0xB401, 0x74C0, 0x7580, 0xB541, 0x7700, 0xB7C1, 0xB681, 0x7640,
    0x7200, 0xB2C1, 0xB381, 0x7340, 0xB101, 0x71C0, 0x7080, 0xB041,
    0x5000, 0x90C1, 0x9181, 0x5140, 0x9301, 0x53C0, 0x5280, 0x9241,
    0x9601, 0x56C0, 0x5780, 0x9741, 0x5500, 0x95C1, 0x9481, 0x5440,
    0x9C01, 0x5CC0, 0x5D80, 0x9D41, 0x5F00, 0x9FC1, 0x9E81, 0x5E40,
    0x5A00, 0x9AC1, 0x9B81, 0x5B40, 0x9901, 0x59C0, 0x5880, 0x9841,
    0x8801, 0x48C0, 0x4980, 0x8941, 0x4B00, 0x8BC1, 0x8A81, 0x4A40,
    0x4E00, 0x8EC1, 0x8F81, 0x4F40, 0x8D01, 0x4DC0, 0x4C80, 0x8C41,
    0x4400, 0x84C1, 0x8581, 0x4540, 0x8701, 0x47C0, 0x4680, 0x8641,
    0x8201, 0x42C0, 0x4380, 0x8341, 0x4100, 0x81C1, 0x8081, 0x4040]

/-- One round of the loop of `CRC16_calc`. -/
def crc16Step (nCRC : BitVec 16) (b : Byte) : BitVec 16 :=
  let nTemp : BitVec 8 := b ^^^ nCRC.setWidth 8
  nCRC >>> 8 ^^^ pTable.getD nTemp.toNat 0

/-- `CRC16_calc`. -/
def crc16Calc (pData : List Byte) : BitVec 16 := pData.foldl crc16Step 0xFFFF

/-! ## The register behind the table -/

/-- The feedback word the table was made with. -/
def poly : BitVec 16 := 0xA001

/-- The bits of a byte string in the order they are fed: low end of each byte
first, bytes in address order. -/
def bits (bs : List Byte) : List Bool := bs.flatMap (lowBits 8)

@[simp] theorem bits_cons (b : Byte) (bs : List Byte) :
    bits (b :: bs) = lowBits 8 b ++ bits bs := List.flatMap_cons

@[simp] theorem length_bits (bs : List Byte) : (bits bs).length = 8 * bs.length := by
  induction bs with
  | nil => rfl
  | cons b bs ih =>
      rw [bits_cons, List.length_append, length_lowBits, ih, List.length_cons]
      omega

/-- The entry for a byte is the byte shifted eight times. -/
theorem pTable_eq (b : Byte) : pTable.getD b.toNat 0 = steps poly 8 (b.setWidth 16) := by
  have h : ∀ i : Fin 256, pTable.getD i.val 0 = steps poly 8 (BitVec.ofNat 16 i.val) := by
    decide +kernel
  have hb : BitVec.ofNat 16 b.toNat = b.setWidth 16 := by
    apply BitVec.eq_of_toNat_eq
    rw [BitVec.toNat_ofNat, BitVec.toNat_setWidth]
  rw [← hb]
  exact h ⟨b.toNat, b.isLt⟩

/-- A word of the register, as its high and its low half. -/
private theorem split_halves (x : BitVec 16) :
    x = (x >>> 8) <<< 8 ^^^ (x.setWidth 8).setWidth 16 := by
  apply BitVec.eq_of_getLsbD_eq
  intro i hi
  simp only [BitVec.getLsbD_xor, BitVec.getLsbD_shiftLeft, BitVec.getLsbD_ushiftRight,
    BitVec.getLsbD_setWidth]
  by_cases h : i < 8
  · simp [h, hi]
  · simp [h, hi, show 8 + (i - 8) = i by omega]

/-- A round of the loop shifts the byte into the register. -/
theorem crc16Step_eq (nCRC : BitVec 16) (b : Byte) :
    crc16Step nCRC b = steps poly 8 (nCRC ^^^ b.setWidth 16) := by
  have hlow : (nCRC ^^^ b.setWidth 16).setWidth 8 = b ^^^ nCRC.setWidth 8 := by
    apply BitVec.eq_of_getLsbD_eq
    intro i hi
    simp [hi, show i < 16 by omega, Bool.xor_comm]
  have hhigh : (nCRC ^^^ b.setWidth 16) >>> 8 = nCRC >>> 8 := by
    apply BitVec.eq_of_getLsbD_eq
    intro i hi
    simp [BitVec.getLsbD_ushiftRight]
  have hclear : ∀ i, i < 8 → (nCRC >>> 8 <<< 8).getLsbD i = false := by
    intro i hi
    simp [hi]
  have hback : nCRC >>> 8 <<< 8 >>> 8 = nCRC >>> 8 := by
    apply BitVec.eq_of_getLsbD_eq
    intro i hi
    by_cases h : 8 + i < 16
    · simp [BitVec.getLsbD_ushiftRight, h]
    · simp [BitVec.getLsbD_ushiftRight, h, BitVec.getLsbD_of_ge nCRC (8 + i) (by omega)]
  rw [split_halves (nCRC ^^^ b.setWidth 16), steps_xor, hhigh, hlow,
    steps_of_low_clear poly 8 _ hclear, hback, ← pTable_eq, crc16Step]

/-- In bits: the loop feeds the byte, low end first. -/
theorem crc16Step_eq_feed (nCRC : BitVec 16) (b : Byte) :
    crc16Step nCRC b = feed poly nCRC (lowBits 8 b) := by
  have hbits : lowBits 8 b = lowBits 8 (b.setWidth 16) := by
    apply List.ext_getElem (by simp)
    intro i h₁ h₂
    have hi : i < 8 := by simpa using h₁
    rw [getElem_lowBits, getElem_lowBits]
    simp [show i < 16 by omega]
  rw [crc16Step_eq, hbits, feed_lowBits]
  intro i hi
  simp [BitVec.getLsbD_of_ge b i hi]

theorem crc16Fold_eq_feed (nCRC : BitVec 16) (bs : List Byte) :
    bs.foldl crc16Step nCRC = feed poly nCRC (bits bs) := by
  induction bs generalizing nCRC with
  | nil => rfl
  | cons b bs ih =>
      rw [List.foldl_cons, ih, crc16Step_eq_feed, bits_cons, feed_append]

/-- `CRC16_calc` is the register, started from all ones. -/
theorem crc16Calc_eq_feed (bs : List Byte) : crc16Calc bs = feed poly 0xFFFF (bits bs) :=
  crc16Fold_eq_feed 0xFFFF bs

/-- Appending a check sum to what it was computed over leaves nothing in the
register. -/
theorem feed_append_crc (x y : BitVec 16) (bs : List Bool) :
    feed poly x (bs ++ lowBits 16 y) = 0#16 ↔ feed poly x bs = y := by
  have htop : poly.getLsbD (16 - 1) = true := by decide
  rw [feed_append, feed_lowBits poly 16 _ _ fun i hi => BitVec.getLsbD_of_ge y i hi]
  constructor
  · intro h
    have hxor := steps_eq_zero poly (by decide) htop h
    calc
      feed poly x bs = feed poly x bs ^^^ y ^^^ y := by
        rw [BitVec.xor_assoc, BitVec.xor_self, BitVec.xor_zero]
      _ = y := by rw [hxor, BitVec.zero_xor]
  · intro h
    rw [h, BitVec.xor_self, steps_zero]

/-! ## Bit by bit -/

/-- One bit: shift right, and exclusive-or `0xA001` if the bit shifted out was a one. -/
def crc16Bit (nCRC : BitVec 16) : BitVec 16 :=
  if nCRC.getLsbD 0 then nCRC >>> 1 ^^^ 0xA001 else nCRC >>> 1

/-- A byte: exclusive-or it into the low end, and eight bits. -/
def crc16Byte (nCRC : BitVec 16) (b : Byte) : BitVec 16 :=
  crc16Bit^[8] (nCRC ^^^ b.setWidth 16)

/-- The reflected CRC-16 with the polynomial `0xA001`, started from `0xFFFF`. -/
def crc16Bitwise (pData : List Byte) : BitVec 16 := pData.foldl crc16Byte 0xFFFF

theorem crc16Step_eq_byte (nCRC : BitVec 16) (b : Byte) :
    crc16Step nCRC b = crc16Byte nCRC b := crc16Step_eq nCRC b

/-- `CRC16_calc` with its `int32_t` index, which is compared as a `uint32_t`, and with the
exclusive or of a byte and `nCRC` as an `int`, cut to eight bits.  `none` when the fuel is
out, or the index has run over. -/
def crc16Loop (pData : List Byte) (ulDataLength : BitVec 32) :
    Nat → BitVec 32 → BitVec 16 → Option (BitVec 16)
  | 0, _, _ => none
  | fuel + 1, i, nCRC =>
      if i < ulDataLength then
        if i.msb then none
        else
          let nTemp : BitVec 8 :=
            ((pData.getD i.toNat 0).setWidth 32 ^^^ nCRC.setWidth 32).setWidth 8
          crc16Loop pData ulDataLength fuel (i + 1) (nCRC >>> 8 ^^^ pTable.getD nTemp.toNat 0)
      else some nCRC

theorem setWidth_xor_low (nCRC : BitVec 16) (b : Byte) :
    (b.setWidth 32 ^^^ nCRC.setWidth 32).setWidth 8 = b ^^^ nCRC.setWidth 8 := by
  rw [BitVec.setWidth_xor, BitVec.setWidth_setWidth_of_le b (by decide), BitVec.setWidth_eq,
    BitVec.setWidth_setWidth_of_le nCRC (by decide)]

/-- From any index on the loop goes through the rest of the data. -/
theorem crc16Loop_eq {pData : List Byte} (hlen : pData.length < 2 ^ 31) (n fuel : Nat)
    (nCRC : BitVec 16) (hn : n ≤ pData.length) (hfuel : pData.length - n < fuel) :
    crc16Loop pData (BitVec.ofNat 32 pData.length) fuel (BitVec.ofNat 32 n) nCRC =
      some ((pData.drop n).foldl crc16Step nCRC) := by
  induction fuel generalizing n nCRC with
  | zero => exact absurd hfuel (Nat.not_lt_zero _)
  | succ fuel ih =>
      have hi : (BitVec.ofNat 32 n).toNat = n := Nat.mod_eq_of_lt (by omega)
      have hend : (BitVec.ofNat 32 pData.length).toNat = pData.length :=
        Nat.mod_eq_of_lt (by omega)
      have hmsb : (BitVec.ofNat 32 n).msb = false := by
        rw [BitVec.msb_eq_decide, hi]
        exact decide_eq_false (by omega)
      have hcond : BitVec.ofNat 32 n < BitVec.ofNat 32 pData.length ↔ n < pData.length := by
        rw [BitVec.lt_def, hi, hend]
      rw [crc16Loop]
      by_cases hlt : n < pData.length
      · have hnext : BitVec.ofNat 32 n + 1 = BitVec.ofNat 32 (n + 1) := by
          rw [BitVec.ofNat_add]
          rfl
        have hget : pData.getD n 0 = pData[n] := by
          rw [List.getD_eq_getElem?_getD, List.getElem?_eq_getElem hlt, Option.getD_some]
        rw [if_pos (hcond.mpr hlt), hmsb, if_neg Bool.false_ne_true, hi, hnext,
          setWidth_xor_low, hget]
        rw [List.drop_eq_getElem_cons hlt, List.foldl_cons]
        exact ih (n + 1) _ hlt (by omega)
      · rw [if_neg (mt hcond.mp hlt), List.drop_of_length_le (by omega)]
        rfl

/-- The loop ends, and leaves the bitwise check sum. -/
theorem crc16Calc_eq_bitwise (pData : List Byte) (hlen : pData.length < 2 ^ 31) :
    crc16Calc pData = crc16Bitwise pData ∧
      ∀ fuel, pData.length < fuel →
        crc16Loop pData (BitVec.ofNat 32 pData.length) fuel 0 0xFFFF =
          some (crc16Bitwise pData) := by
  have hfold : crc16Calc pData = crc16Bitwise pData := by
    rw [crc16Calc, crc16Bitwise]
    congr 1
    funext nCRC b
    exact crc16Step_eq_byte nCRC b
  refine ⟨hfold, fun fuel hfuel => ?_⟩
  rw [← hfold]
  exact crc16Loop_eq hlen 0 fuel 0xFFFF (Nat.zero_le _) (by omega)

/-- The digits `1` to `9` have the check sum `0x4B37`. -/
theorem crc16Calc_digits :
    crc16Calc [0x31, 0x32, 0x33, 0x34, 0x35, 0x36, 0x37, 0x38, 0x39] = 0x4B37 ∧
      crc16Loop [0x31, 0x32, 0x33, 0x34, 0x35, 0x36, 0x37, 0x38, 0x39] 9 10 0 0xFFFF =
        some 0x4B37 := by
  have hdigits : crc16Bitwise [0x31, 0x32, 0x33, 0x34, 0x35, 0x36, 0x37, 0x38, 0x39] = 0x4B37 := by
    decide +kernel
  rw [← hdigits]
  have h := crc16Calc_eq_bitwise [0x31, 0x32, 0x33, 0x34, 0x35, 0x36, 0x37, 0x38, 0x39]
    (by decide)
  exact ⟨h.1, h.2 10 (by decide)⟩

end BillCounter.Crc16
