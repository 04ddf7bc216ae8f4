import BillCounter.Driver.Port
import Mathlib.Data.BitVec
import Mathlib.Logic.Function.Basic

/-!
# The driver of the P16

The counter sends a frame of five bytes for each of its five counts, one to clear them,
and a frame of six bytes at the end of a reading.  Each ends in seven bits of checksum.

The specification reads the frames of a line from the last one back: a count is that
of the latest frame for it that no clear is behind.
-/

namespace BillCounter.Driver

open BillCounter.Lib.RawBytes

/-! ## The driver -/

/-- `BC_MODEL_P16`. -/
def bcModelP16 : BitVec 32 := 9

/-- `BC_P16_STX_1`. -/
def bcP16Stx1 : Byte := 0x7a

/-- `BC_P16_STX_2`. -/
def bcP16Stx2 : Byte := 0x7d

/-- `BC_P16_FRAME_SIZE_1`. -/
def bcP16FrameSize1 : Nat := 5

/-- `BC_P16_FRAME_SIZE_2`. -/
def bcP16FrameSize2 : Nat := 6

/-- `BC_P16`, with the model its `pInfo` points to. -/
structure BcP16 where
  xModel : BitVec 32
  pCount : Fin 5 → BitVec 32

/-- `BC_P16_create`, on the static `_P16`. -/
def bcP16Create (xModel : BitVec 32) : BcP16 := ⟨xModel, fun _ => 0⟩

/-- `nCRC`, over the bytes between the first and the last. -/
def nCRC (pFrame : List Byte) : Byte := ((pFrame.drop 1).dropLast).foldl (· + ·) 0

/-- The `switch` on `pFrame[1]`. -/
def bcP16Count (pP16 : BcP16) (pFrame : List Byte) : BcP16 :=
  let index := (pFrame.getD 1 0).toNat
  if h : index < 5 then
    { pP16 with
      pCount := Function.update pP16.pCount ⟨index, h⟩
        ((pFrame.getD 2 0).setWidth 32 <<< 8 ||| (pFrame.getD 3 0).setWidth 32) }
  else if index = 0x71 then { pP16 with pCount := fun _ => 0 }
  else pP16

/-- `BC_P16_input` behind its `SERIAL_gets`, with the `ulReadLength` bytes in `pFrame`. -/
def bcP16Frame (pP16 : BcP16) (pFrame : List Byte) : Bool × BcP16 :=
  if nCRC pFrame &&& 0x7f ≠ pFrame.getLastD 0 then (false, pP16)
  else if pFrame.getD 0 0 = bcP16Stx1 then (false, bcP16Count pP16 pFrame)
  else (decide (pFrame.getD 0 0 = bcP16Stx2), pP16)

/-- `BC_P16_input`.  `pFrame` is static, but nothing is read of it that the call has not
written.  `RET_INVALID_ARGUMENT` is a `true`. -/
def bcP16Input (pP16 : BcP16) (hSerial : Arrivals) : Bool × BcP16 × Arrivals :=
  if pP16.xModel ≠ bcModelP16 then (true, pP16, hSerial)
  else
    match serialGetc hSerial with
    | (none, hSerial) => (false, pP16, hSerial)
    | (some stx, hSerial) =>
        if stx = bcP16Stx1 then
          let (bs, hSerial) := serialGets (bcP16FrameSize1 - 1) hSerial
          if 1 + bs.length ≠ bcP16FrameSize1 then (false, pP16, hSerial)
          else
            let (ret, pP16) := bcP16Frame pP16 (stx :: bs)
            (ret, pP16, hSerial)
        else if stx = bcP16Stx2 then
          let (bs, hSerial) := serialGets (bcP16FrameSize2 - 1) hSerial
          if 1 + bs.length ≠ bcP16FrameSize2 then (false, pP16, hSerial)
          else
            let (ret, pP16) := bcP16Frame pP16 (stx :: bs)
            (ret, pP16, hSerial)
        else (false, pP16, hSerial)

/-- `BC_P16_getMessage`: the bytes it stores from `pBuffer[0]` on, as many as it
returns. -/
def bcP16GetMessage (pP16 : BcP16) : List Byte :=
  (1 :: countBytes (pP16.pCount 0)) ++
    ([1, 2, 3, 4] : List (Fin 5)).flatMap fun i =>
      BitVec.ofNat 8 i.val :: countBytes (pP16.pCount i)

/-! ## The protocol -/

/-- What is on the line. -/
inductive Item
  /-- A frame behind `0x7a`. -/
  | count (index hi lo check : Byte)
  /-- A frame behind `0x7d`. -/
  | finish (b₁ b₂ b₃ b₄ check : Byte)
  /-- A byte between the frames. -/
  | gap (b : Byte) (ne_stx1 : b ≠ bcP16Stx1) (ne_stx2 : b ≠ bcP16Stx2)
  /-- Nothing, for as long as a call waits. -/
  | silence

/-- How an item arrives. -/
def Item.arrivals : Item → Arrivals
  | .count index hi lo check => inTime [0x7a, index, hi, lo, check]
  | .finish b₁ b₂ b₃ b₄ check => inTime [0x7d, b₁, b₂, b₃, b₄, check]
  | .gap b _ _ => inTime [b]
  | .silence => [none]

/-- The checksum of what a frame holds. -/
def checksum (bs : List Byte) : Byte := bs.sum &&& 0x7f

/-- A frame that clears the counts. -/
def Item.clears : Item → Bool
  | .count index hi lo check => index = 0x71 ∧ checksum [index, hi, lo] = check
  | _ => false

/-- The count a frame has for `i`. -/
def Item.value (i : Fin 5) : Item → Option (BitVec 16)
  | .count index hi lo check =>
      if index.toNat = i.val ∧ checksum [index, hi, lo] = check then some (hi ++ lo) else none
  | _ => none

/-- The end of a reading. -/
def Item.finishes : Item → Bool
  | .finish b₁ b₂ b₃ b₄ check => checksum [b₁, b₂, b₃, b₄] = check
  | _ => false

/-- The latest count for `i` since the last clear, and 0 if there is none. -/
def latest (items : List Item) (i : Fin 5) : BitVec 16 :=
  ((items.reverse.takeWhile fun item => !item.clears).findSome? (Item.value i)).getD 0

/-- The message for the counts `n`: the tag and the count of each, the first two tagged
alike. -/
def report (n : Fin 5 → BitVec 16) : List Byte :=
  [1, (n 0).extractLsb' 8 8, (n 0).extractLsb' 0 8,
   1, (n 1).extractLsb' 8 8, (n 1).extractLsb' 0 8,
   2, (n 2).extractLsb' 8 8, (n 2).extractLsb' 0 8,
   3, (n 3).extractLsb' 8 8, (n 3).extractLsb' 0 8,
   4, (n 4).extractLsb' 8 8, (n 4).extractLsb' 0 8]

/-- What there is to report when an item has arrived, behind those `before`: each end
of a reading is reported, once. -/
def reportsFrom (before : List Item) : List Item → List (Option (List Byte))
  | [] => []
  | item :: items =>
      (if item.finishes then some (report (latest before)) else none) ::
        reportsFrom (before ++ [item]) items

/-! ## A call -/

/-- A call of `BC_P16_input`, and of `BC_P16_getMessage` if that is `true`. -/
def bcP16Poll (x : BcP16 × Arrivals) : Option (List Byte) × BcP16 × Arrivals :=
  let r := bcP16Input x.1 x.2
  (if r.1 then some (bcP16GetMessage r.2.1) else none, r.2)

/-- What `n` calls come to. -/
def bcP16Polls : Nat → BcP16 × Arrivals → List (Option (List Byte))
  | 0, _ => []
  | n + 1, x => (bcP16Poll x).1 :: bcP16Polls n (bcP16Poll x).2

variable {pP16 : BcP16} {line : Arrivals} {before : List Item} {item : Item}

theorem latest_snoc (before : List Item) (item : Item) (i : Fin 5) :
    latest (before ++ [item]) i =
      if item.clears then 0 else (item.value i).getD (latest before i) := by
  rw [latest, List.reverse_append, List.reverse_singleton, List.singleton_append]
  cases hclears : item.clears with
  | true => simp [hclears]
  | false =>
      rw [List.takeWhile_cons_of_pos (by simp [hclears]), List.findSome?_cons]
      cases item.value i with
      | some n => rfl
      | none => rfl

/-- The driver's counts are the latest ones. -/
structure Agrees (pP16 : BcP16) (before : List Item) : Prop where
  xModel : pP16.xModel = bcModelP16
  pCount : ∀ i, pP16.pCount i = (latest before i).setWidth 32

theorem agrees_create : Agrees (bcP16Create bcModelP16) [] where
  xModel := rfl
  pCount _ := rfl

theorem countBytes_setWidth (n : BitVec 16) :
    countBytes (n.setWidth 32) = [n.extractLsb' 8 8, n.extractLsb' 0 8] := by
  have hhi : (n.setWidth 32 >>> 8).setWidth 8 = n.extractLsb' 8 8 := by
    ext i hi
    have hlt : i + 8 < 32 := by omega
    simp [Nat.add_comm, hlt]
  have hlo : (n.setWidth 32).setWidth 8 = n.extractLsb' 0 8 := by
    ext i hi
    simp
  rw [countBytes, setWidth_and_ff, setWidth_and_ff, hhi, hlo]

theorem shiftLeft_or_setWidth (hi lo : Byte) :
    hi.setWidth 32 <<< 8 ||| lo.setWidth 32 = (hi ++ lo).setWidth 32 := by
  ext i h
  have happend := BitVec.getLsbD_append (x := hi) (y := lo) (i := i)
  rw [BitVec.getElem_setWidth, happend]
  by_cases hlow : i < 8
  · simp [hlow]
  · simp [hlow, BitVec.getLsbD_of_ge lo i (by omega)]

theorem getMessage_of_agrees (h : Agrees pP16 before) :
    bcP16GetMessage pP16 = report (latest before) := by
  simp only [bcP16GetMessage, h.pCount, countBytes_setWidth]
  rfl

/-! ## One item -/

theorem nCRC_eq (stx check : Byte) (bs : List Byte) :
    nCRC (stx :: (bs ++ [check])) = bs.sum := by
  rw [nCRC, List.drop_one, List.tail_cons, List.dropLast_concat, List.sum_eq_foldl]

theorem bcP16Frame_item (pP16 : BcP16) (stx check : Byte) (bs : List Byte) :
    bcP16Frame pP16 (stx :: (bs ++ [check])) =
      if checksum bs ≠ check then (false, pP16)
      else if stx = bcP16Stx1 then (false, bcP16Count pP16 (stx :: (bs ++ [check])))
      else (decide (stx = bcP16Stx2), pP16) := by
  rw [bcP16Frame, nCRC_eq, ← List.cons_append, List.getLastD_concat]
  rfl

/-- The driver's state behind an item. -/
def bcP16Behind (pP16 : BcP16) : Item → BcP16
  | .count index hi lo check =>
      if checksum [index, hi, lo] = check then
        bcP16Count pP16 [0x7a, index, hi, lo, check]
      else pP16
  | _ => pP16

section Call

variable (hmodel : pP16.xModel = bcModelP16)
include hmodel

theorem bcP16Input_stx1 {bs : List Byte} (hlen : bs.length = 4) :
    bcP16Input pP16 (inTime (0x7a :: bs) ++ line) =
      ((bcP16Frame pP16 (0x7a :: bs)).1, (bcP16Frame pP16 (0x7a :: bs)).2, line) := by
  have hgets := serialGets_inTime bs line
  rw [hlen] at hgets
  rw [bcP16Input, if_neg (not_not_intro hmodel), serialGetc_inTime]
  simp [bcP16Stx1, bcP16FrameSize1, hgets, hlen]

theorem bcP16Input_stx2 {bs : List Byte} (hlen : bs.length = 5) :
    bcP16Input pP16 (inTime (0x7d :: bs) ++ line) =
      ((bcP16Frame pP16 (0x7d :: bs)).1, (bcP16Frame pP16 (0x7d :: bs)).2, line) := by
  have hgets := serialGets_inTime bs line
  rw [hlen] at hgets
  rw [bcP16Input, if_neg (not_not_intro hmodel), serialGetc_inTime]
  simp [bcP16Stx1, bcP16Stx2, bcP16FrameSize2, hgets, hlen]

/-- A call takes one item off the line. -/
theorem bcP16Input_item :
    bcP16Input pP16 (item.arrivals ++ line) = (item.finishes, bcP16Behind pP16 item, line) := by
  cases item with
  | silence => simp [bcP16Input, hmodel, Item.arrivals, serialGetc, Item.finishes, bcP16Behind]
  | gap b hne₁ hne₂ =>
      simp [bcP16Input, hmodel, Item.arrivals, inTime, serialGetc, hne₁, hne₂, Item.finishes,
        bcP16Behind]
  | count index hi lo check =>
      have hframe := bcP16Frame_item pP16 0x7a check [index, hi, lo]
      rw [Item.arrivals, bcP16Input_stx1 hmodel rfl]
      rw [show [index, hi, lo, check] = [index, hi, lo] ++ [check] from rfl, hframe]
      by_cases hcheck : checksum [index, hi, lo] = check
      · simp [hcheck, Item.finishes, bcP16Behind, bcP16Stx1]
      · simp [hcheck, Item.finishes, bcP16Behind]
  | finish b₁ b₂ b₃ b₄ check =>
      have hframe := bcP16Frame_item pP16 0x7d check [b₁, b₂, b₃, b₄]
      rw [Item.arrivals, bcP16Input_stx2 hmodel rfl]
      rw [show [b₁, b₂, b₃, b₄, check] = [b₁, b₂, b₃, b₄] ++ [check] from rfl, hframe]
      by_cases hcheck : checksum [b₁, b₂, b₃, b₄] = check
      · simp [hcheck, Item.finishes, bcP16Behind, bcP16Stx1, bcP16Stx2]
      · simp [hcheck, Item.finishes, bcP16Behind]

end Call

/-! ## Whole lines -/

theorem agrees_ignored (h : Agrees pP16 before) (hclears : item.clears = false)
    (hvalue : ∀ i, item.value i = none) : Agrees pP16 (before ++ [item]) where
  xModel := h.xModel
  pCount i := by
    rw [latest_snoc, hclears, hvalue]
    exact h.pCount i

/-- A frame whose checksum is right leaves the driver with the latest counts. -/
theorem agrees_count (h : Agrees pP16 before) {index hi lo check : Byte}
    (hcheck : checksum [index, hi, lo] = check) :
    Agrees (bcP16Count pP16 [0x7a, index, hi, lo, check])
      (before ++ [.count index hi lo check]) := by
  by_cases hindex : index.toNat < 5
  · -- a count: the one stored is the latest, the others are as before
    have hne : index ≠ 0x71 := by
      intro heq
      rw [heq] at hindex
      exact absurd hindex (by decide)
    have hclears : (Item.count index hi lo check).clears = false :=
      decide_eq_false fun hboth => hne hboth.1
    constructor
    · simp [bcP16Count, hindex, h.xModel]
    · intro i
      rw [latest_snoc, hclears]
      by_cases hi' : i = ⟨index.toNat, hindex⟩
      · simp [bcP16Count, hindex, hi', Item.value, hcheck, shiftLeft_or_setWidth]
      · have hvalue : index.toNat ≠ i.val := fun heq => hi' (Fin.ext heq.symm)
        simp [bcP16Count, hindex, hi', Item.value, hvalue, h.pCount]
  · by_cases hclear : index = 0x71
    · -- a clear
      have hclears : (Item.count index hi lo check).clears = true :=
        decide_eq_true ⟨hclear, hcheck⟩
      constructor
      · simp [bcP16Count, hclear, h.xModel]
      · intro i
        rw [latest_snoc, hclears]
        simp [bcP16Count, hclear]
    · -- any other index
      have hne : index.toNat ≠ 0x71 := fun heq => hclear (BitVec.eq_of_toNat_eq heq)
      have hcount : bcP16Count pP16 [0x7a, index, hi, lo, check] = pP16 := by
        simp [bcP16Count, hindex, hne]
      rw [hcount]
      apply agrees_ignored h
      · exact decide_eq_false fun hboth => hclear hboth.1
      · intro i
        have hlt := i.isLt
        exact if_neg fun hboth => hindex (by omega)

/-- An item leaves the driver with the latest counts. -/
theorem agrees_behind (h : Agrees pP16 before) :
    Agrees (bcP16Behind pP16 item) (before ++ [item]) := by
  cases item with
  | count index hi lo check =>
      by_cases hcheck : checksum [index, hi, lo] = check
      · rw [bcP16Behind, if_pos hcheck]
        exact agrees_count h hcheck
      · rw [bcP16Behind, if_neg hcheck]
        apply agrees_ignored h
        · simp [Item.clears, hcheck]
        · simp [Item.value, hcheck]
  | finish | gap | silence => exact agrees_ignored h rfl fun _ => rfl

theorem bcP16Poll_item (h : Agrees pP16 before) :
    bcP16Poll (pP16, item.arrivals ++ line) =
      (if item.finishes then some (report (latest before)) else none,
        bcP16Behind pP16 item, line) := by
  rw [bcP16Poll, bcP16Input_item h.xModel]
  cases item with
  | finish b₁ b₂ b₃ b₄ check => rw [← getMessage_of_agrees h]; rfl
  | _ => rfl

/-- A call on a quiet line. -/
theorem bcP16Poll_nil (hmodel : pP16.xModel = bcModelP16) :
    bcP16Poll (pP16, []) = (none, pP16, []) := by
  simp [bcP16Poll, bcP16Input, hmodel, serialGetc]

theorem take_append_replicate {α : Type} (xs : List α) (x : α) (n : Nat) :
    (xs ++ List.replicate (n + 1) x).take n = (xs ++ List.replicate n x).take n := by
  rw [List.replicate_succ', ← List.append_assoc, List.take_append_of_le_length]
  simp

/-- The calls behind some items report the ones behind these. -/
theorem polls_from (h : Agrees pP16 before) (items : List Item) (n : Nat) :
    bcP16Polls n (pP16, items.flatMap Item.arrivals) =
      (reportsFrom before items ++ List.replicate n none).take n := by
  induction n generalizing pP16 before items with
  | zero => rfl
  | succ n ih =>
      rw [bcP16Polls]
      cases items with
      | nil =>
          have hnil := ih h []
          rw [List.flatMap_nil] at hnil ⊢
          rw [bcP16Poll_nil h.xModel, hnil, reportsFrom, List.nil_append, List.nil_append]
          simp [List.replicate_succ]
      | cons item items =>
          rw [List.flatMap_cons, bcP16Poll_item h, ih (agrees_behind h), reportsFrom,
            List.cons_append, List.take_succ_cons, take_append_replicate]

/-- Over any line, a call reports the counts at each end of a reading, and none reports
anything else. -/
theorem polls_items (items : List Item) (n : Nat) :
    bcP16Polls n (bcP16Create bcModelP16, items.flatMap Item.arrivals) =
      (reportsFrom [] items ++ List.replicate n none).take n :=
  polls_from agrees_create items n

end BillCounter.Driver
