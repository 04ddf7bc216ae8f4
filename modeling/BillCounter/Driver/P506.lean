import BillCounter.Driver.Port
import BillCounter.Lib.CString

/-!
# The driver of the P-506

A frame of 27 bytes has two displays and four counts.  The counts are read and sent right.
The second display is written over the first: the loop for it was copied, and stores to
`pDisplay` still.
-/

namespace BillCounter.Driver

open BillCounter.Lib.CString
open BillCounter.Lib.Positional
open BillCounter.Lib.RawBytes

/-! ## The driver -/

/-- `BC_MODEL_P506`. -/
def bcModelP506 : BitVec 32 := 6

/-- `BC_P506_STX`. -/
def bcP506Stx : Byte := 0x80

/-- `BC_P506_FRAME_SIZE`. -/
def bcP506FrameSize : Nat := 27

/-- `BC_P506`, with the model its `pInfo` points to. -/
structure BcP506 where
  xModel : BitVec 32
  xType : BitVec 32
  pDisplay : Bytes 5
  pSubdisplay : Bytes 4
  pCount : Fin 4 → BitVec 32

/-- `BC_P506_create`, on the static `_P506`. -/
def bcP506Create (xModel : BitVec 32) : BcP506 :=
  ⟨xModel, 0, .replicate 5 0, .replicate 4 0, fun _ => 0⟩

/-- The character for a byte of a display. -/
def displayChar (c : Byte) : Byte :=
  if c = 0x25 then ascii ' ' else if c < 10 then ascii '0' + c else ascii '?'

/-- A loop over a display, and the NUL behind it. -/
def bcP506Display {n : Nat} (pDisplay : Bytes n) (codes : List Byte) : Bytes n :=
  store (codes.zipIdx.foldl (fun d p => store d p.2 (displayChar p.1)) pDisplay) codes.length 0

/-- `BC_P506_input` behind its `SERIAL_gets`.  Both loops store to `pDisplay`. -/
def bcP506Frame (pP506 : BcP506) (pFrame : List Byte) : BcP506 :=
  { pP506 with
    xType := (pFrame.getD 3 0).setWidth 32
    pDisplay := bcP506Display (bcP506Display pP506.pDisplay (slice pFrame 6 4)) (slice pFrame 10 3)
    pCount := fun i => (pFrame.getD (19 + i.val * 2) 0).setWidth 32 }

/-- `BC_P506_input`.  `RET_INVALID_ARGUMENT` is a `true`. -/
def bcP506Input (pP506 : BcP506) (hSerial : Arrivals) : Bool × BcP506 × Arrivals :=
  if pP506.xModel ≠ bcModelP506 then (true, pP506, hSerial)
  else
    match serialGetc hSerial with
    | (none, hSerial) => (false, pP506, hSerial)
    | (some stx, hSerial) =>
        if stx ≠ bcP506Stx then (false, pP506, hSerial)
        else
          let (bs, hSerial) := serialGets (bcP506FrameSize - 1) hSerial
          if 1 + bs.length ≠ bcP506FrameSize then (false, pP506, hSerial)
          else (true, bcP506Frame pP506 (stx :: bs), hSerial)

/-- `ulTotal`. -/
def bcP506Total (pCount : Fin 4 → BitVec 32) : BitVec 32 :=
  ([0, 1, 2, 3] : List (Fin 4)).foldl (fun ulTotal i => ulTotal + pCount i) 0

/-- `BC_P506_getMessage`. -/
def bcP506GetMessage (pP506 : BcP506) : List Byte :=
  (1 :: countBytes (bcP506Total pP506.pCount)) ++
    ([0, 1, 2, 3] : List (Fin 4)).flatMap fun i =>
      BitVec.ofNat 8 (i.val + 1) :: countBytes (pP506.pCount i)

/-! ## What is to become of a frame -/

/-- A frame, with its first byte in place. -/
structure P506Frame where
  val : Bytes 27
  stx : val.val.head? = some bcP506Stx

/-- The count in a frame, and in a message. -/
def P506Frame.count (F : P506Frame) (i : Fin 4) : Nat := (F.val.val.getD (19 + 2 * i.val) 0).toNat

/-- A record of a message: its index, and a number of 16 bits. -/
def record (index count : Nat) : List Byte :=
  [BitVec.ofNat 8 index, BitVec.ofNat 8 (count / 256), BitVec.ofNat 8 count]

/-- The counts are in the driver, and in its message with their total. -/
structure CountsDecoded (F : P506Frame) (pP506 : BcP506) : Prop where
  pCount : ∀ i, (pP506.pCount i).toNat = F.count i
  message : bcP506GetMessage pP506 =
    record 1 (F.count 0 + F.count 1 + F.count 2 + F.count 3) ++
      (record 1 (F.count 0) ++ record 2 (F.count 1) ++ record 3 (F.count 2) ++ record 4 (F.count 3))
  total : beValue (slice (bcP506GetMessage pP506) 1 2) =
    beValue (slice (bcP506GetMessage pP506) 4 2) + beValue (slice (bcP506GetMessage pP506) 7 2) +
      beValue (slice (bcP506GetMessage pP506) 10 2) + beValue (slice (bcP506GetMessage pP506) 13 2)

/-- Displays and counts are decoded. -/
structure DecodedCompletely (F : P506Frame) (pP506 : BcP506) : Prop extends
    CountsDecoded F pP506 where
  pDisplay : pP506.pDisplay.val = (slice F.val.val 6 4).map displayChar ++ [0]
  pSubdisplay : pP506.pSubdisplay.val = (slice F.val.val 10 3).map displayChar ++ [0]

variable {pP506 : BcP506} {F : P506Frame} {line : Arrivals}

theorem bcP506Input_frame (hmodel : pP506.xModel = bcModelP506) (F : P506Frame)
    (line : Arrivals) :
    bcP506Input pP506 (inTime F.val.val ++ line) = (true, bcP506Frame pP506 F.val.val, line) := by
  obtain ⟨bs, hbs, hlen, hgets⟩ := frame_arrives F.val F.stx line
  rw [hbs, bcP506Input, if_neg (not_not_intro hmodel), serialGetc_inTime]
  simp [bcP506FrameSize, hgets, hlen]

/-! ## The counts -/

theorem countBytes_eq {n : BitVec 32} {v : Nat} (h : n.toNat = v) :
    countBytes n = [BitVec.ofNat 8 (v / 256), BitVec.ofNat 8 v] := by
  have hhi : (n >>> 8).setWidth 8 = BitVec.ofNat 8 (v / 256) := by
    apply BitVec.eq_of_toNat_eq
    simp [Nat.shiftRight_eq_div_pow, h]
  have hlo : n.setWidth 8 = BitVec.ofNat 8 v := by
    apply BitVec.eq_of_toNat_eq
    simp [h]
  rw [countBytes, setWidth_and_ff, setWidth_and_ff, hhi, hlo]

/-- Counts of 16 bits are read back from their records. -/
theorem beValue_ofNat {v : Nat} (h : v < 2 ^ 16) :
    beValue [BitVec.ofNat 8 (v / 256), BitVec.ofNat 8 v] = v := by
  simp [beValue, value, Nat.ofDigits]
  omega

theorem count_lt (F : P506Frame) (i : Fin 4) : F.count i < 2 ^ 8 := BitVec.isLt _

theorem toNat_pCount (pP506 : BcP506) (F : P506Frame) (i : Fin 4) :
    ((bcP506Frame pP506 F.val.val).pCount i).toNat = F.count i := by
  have hlt := count_lt F i
  have hbyte : ((bcP506Frame pP506 F.val.val).pCount i).toNat = F.count i % 2 ^ 32 := by
    rw [P506Frame.count, Nat.mul_comm]
    exact BitVec.toNat_setWidth _ _
  omega

theorem toNat_bcP506Total {pCount : Fin 4 → BitVec 32} (h : ∀ i, (pCount i).toNat < 2 ^ 8) :
    (bcP506Total pCount).toNat =
      (pCount 0).toNat + (pCount 1).toNat + (pCount 2).toNat + (pCount 3).toNat := by
  have h₀ := h 0
  have h₁ := h 1
  have h₂ := h 2
  have h₃ := h 3
  have hzero : (0 : BitVec 32).toNat = 0 := rfl
  simp only [bcP506Total, List.foldl_cons, List.foldl_nil, BitVec.toNat_add, hzero]
  omega

/-- The counts of a frame are decoded. -/
theorem countsDecoded_frame (pP506 : BcP506) (F : P506Frame) :
    CountsDecoded F (bcP506Frame pP506 F.val.val) := by
  have hcount := toNat_pCount pP506 F
  have htotal := toNat_bcP506Total fun i => (hcount i).symm ▸ count_lt F i
  rw [hcount, hcount, hcount, hcount] at htotal
  have hlt := count_lt F
  have hmessage : bcP506GetMessage (bcP506Frame pP506 F.val.val) =
      record 1 (F.count 0 + F.count 1 + F.count 2 + F.count 3) ++
        (record 1 (F.count 0) ++ record 2 (F.count 1) ++ record 3 (F.count 2) ++
          record 4 (F.count 3)) := by
    simp only [bcP506GetMessage, List.flatMap_cons, List.flatMap_nil, countBytes_eq htotal,
      countBytes_eq (hcount _)]
    rfl
  refine ⟨hcount, hmessage, ?_⟩
  have h₀ := hlt 0
  have h₁ := hlt 1
  have h₂ := hlt 2
  have h₃ := hlt 3
  rw [hmessage]
  simp only [record, slice, List.cons_append, List.nil_append, List.drop_succ_cons, List.drop_zero,
    List.take_succ_cons, List.take_zero]
  rw [beValue_ofNat (by omega), beValue_ofNat (by omega), beValue_ofNat (by omega),
    beValue_ofNat (by omega), beValue_ofNat (by omega)]

/-! ## The displays -/

theorem displayChar_ne_zero (c : Byte) : displayChar c ≠ 0 := by
  revert c
  decide

/-- A display is written to the front of an array. -/
theorem bcP506Display_val {n : Nat} (pDisplay : Bytes n) {codes : List Byte}
    (hlen : codes.length < n) :
    (bcP506Display pDisplay codes).val =
      codes.map displayChar ++ 0 :: pDisplay.val.drop (codes.length + 1) := by
  have hloop : (codes.zipIdx.foldl (fun d p => store d p.2 (displayChar p.1)) pDisplay).val = _ :=
    foldl_store_val displayChar pDisplay (by omega)
  have hfits : codes.length < pDisplay.val.length := by rwa [pDisplay.property]
  rw [List.take_zero, List.nil_append, Nat.zero_add, List.drop_eq_getElem_cons hfits] at hloop
  show List.set _ codes.length 0 = _
  rw [hloop, List.set_append_right _ _ (by rw [List.length_map]), List.length_map, Nat.sub_self,
    List.set_cons_zero]

/-- The second display is written over the first, and its own array is left alone. -/
theorem displays_frame (pP506 : BcP506) (F : P506Frame) :
    (bcP506Frame pP506 F.val.val).pDisplay.val =
        (slice F.val.val 10 3).map displayChar ++ [0, 0] ∧
      (bcP506Frame pP506 F.val.val).pSubdisplay = pP506.pSubdisplay := by
  have hfirst : (slice F.val.val 6 4).length = 4 := length_slice (by rw [F.val.property]; decide)
  have hsecond : (slice F.val.val 10 3).length = 3 := length_slice (by rw [F.val.property]; decide)
  have hend : pP506.pDisplay.val.drop 5 = [] :=
    List.drop_eq_nil_of_le (by rw [pP506.pDisplay.property])
  have hfour : ((slice F.val.val 6 4).map displayChar ++ 0 :: pP506.pDisplay.val.drop 5).drop 4 =
      [0] := by
    rw [List.drop_left' (by rw [List.length_map, hfirst]), hend]
  refine ⟨?_, rfl⟩
  show (bcP506Display (bcP506Display pP506.pDisplay _) _).val = _
  rw [bcP506Display_val _ (by omega), bcP506Display_val _ (by omega), hfirst, hsecond, hfour]

/-- No frame is decoded completely. -/
theorem never_decodedCompletely (hmodel : pP506.xModel = bcModelP506) (F : P506Frame)
    (line : Arrivals) :
    ¬ DecodedCompletely F (bcP506Input pP506 (inTime F.val.val ++ line)).2.1 := by
  intro h
  have hdisplay := h.pDisplay
  rw [bcP506Input_frame hmodel, (displays_frame pP506 F).1, List.append_cons] at hdisplay
  -- the fourth character is the NUL behind the three of the second display
  have hfourth := List.append_cancel_right hdisplay
  have hmem : (0 : Byte) ∈ (slice F.val.val 6 4).map displayChar := by
    rw [← hfourth]
    exact List.mem_append_right _ List.mem_cons_self
  obtain ⟨c, _, hc⟩ := List.mem_map.mp hmem
  exact displayChar_ne_zero c hc

/-- Displays that show 1234 and 567. -/
def frameOf1234 : P506Frame where
  val := ⟨[0x80, 0, 0, 0, 0, 0, 1, 2, 3, 4, 5, 6, 7, 0, 0, 0, 0, 0, 0, 1, 0, 2, 0, 3, 0, 4, 0], rfl⟩
  stx := rfl

theorem never_decoded_1234 :
    ¬ DecodedCompletely frameOf1234
      (bcP506Input (bcP506Create bcModelP506) (inTime frameOf1234.val.val ++ [none])).2.1 :=
  never_decodedCompletely rfl frameOf1234 [none]

/-- 567 is what the first display shows. -/
theorem display_shows_567 :
    ¬ DecodedCompletely frameOf1234
      (bcP506Input (bcP506Create bcModelP506) (inTime frameOf1234.val.val)).2.1 := by
  intro h
  exact absurd h.pDisplay (by decide)

end BillCounter.Driver
