import BillCounter.Driver.BH1000
import BillCounter.Driver.J305
import BillCounter.Driver.P16
import BillCounter.Driver.P506

/-!
# The drivers behind `BILL_COUNTER`

`counterif.c` polls the counter through `fInput`, and sends what `fGetMessage` makes of the
driver's record when that is `true`.  When it is `false` the record is to be what it was.
The driver of the KL1850 is not among them: its `fInput` does not return.
-/

namespace BillCounter.Driver

open BillCounter.Lib.RawBytes

/-- A `BILL_COUNTER`, as `BC_getInstance` returns it. -/
inductive BcInstance
  | bh1000 (pBH1000 : BcBH1000)
  | j305 (pJ305 : BcJ305)
  | p506 (pP506 : BcP506)
  | p16 (pP16 : BcP16)

/-- `pBC->pInfo->fInput`. -/
def BcInstance.fInput (hSerial : Arrivals) : BcInstance → Bool × BcInstance
  | .bh1000 pBH1000 =>
      ((bcBH1000Input pBH1000 hSerial).1, .bh1000 (bcBH1000Input pBH1000 hSerial).2.1)
  | .j305 pJ305 => ((bcJ305Input pJ305 hSerial).1, .j305 (bcJ305Input pJ305 hSerial).2.1)
  | .p506 pP506 => ((bcP506Input pP506 hSerial).1, .p506 (bcP506Input pP506 hSerial).2.1)
  | .p16 pP16 => ((bcP16Input pP16 hSerial).1, .p16 (bcP16Input pP16 hSerial).2.1)

/-- `pBC->pInfo->fGetMessage`. -/
def BcInstance.fGetMessage : BcInstance → List Byte
  | .bh1000 pBH1000 => bcBH1000GetMessage pBH1000
  | .j305 pJ305 => bcJ305GetMessage pJ305
  | .p506 pP506 => bcP506GetMessage pP506
  | .p16 pP16 => bcP16GetMessage pP16

theorem length_fGetMessage (pBC : BcInstance) :
    7 ≤ pBC.fGetMessage.length ∧ pBC.fGetMessage.length ≤ 15 := by
  cases pBC <;> simp [BcInstance.fGetMessage, bcBH1000GetMessage, bcJ305GetMessage,
    bcP506GetMessage, bcP16GetMessage, wordInMessage, countBytes]

/-- What comes in for a P16 is a count, and its checksum is right. -/
def BcInstance.TakesCount (hSerial : Arrivals) : BcInstance → Prop
  | .p16 _ => ∃ index hi lo check line,
      hSerial = (Item.count index hi lo check).arrivals ++ line ∧
        checksum [index, hi, lo] = check
  | _ => False

/-- A call that is `false`, other than for a count of a P16, leaves the record and so the
message as they were. -/
def RejectsCleanly (pBC : BcInstance) (hSerial : Arrivals) : Prop :=
  (pBC.fInput hSerial).1 = false → ¬ pBC.TakesCount hSerial →
    (pBC.fInput hSerial).2 = pBC ∧ (pBC.fInput hSerial).2.fGetMessage = pBC.fGetMessage

/-- A J-305 gets 26 bytes with a frame in them, one of the first four is no digit, and those
in front of it denote another number, in base 256, than the count it has. -/
def BcInstance.TakesBadDigit (hSerial : Arrivals) : BcInstance → Prop
  | .j305 pJ305 => ∃ bs line start, hSerial = inTime bs ++ line ∧ bs.length = 26 ∧
      nStartIndex bs = some start ∧ allDigits (bs.take 4) = false ∧
        countIn 256 (bs.take 4) ≠ pJ305.ulCount.toNat
  | _ => False

variable {hSerial : Arrivals}

/-! ## Each driver -/

theorem bcBH1000Input_rejected {pBH1000 : BcBH1000}
    (h : (bcBH1000Input pBH1000 hSerial).1 = false) :
    (bcBH1000Input pBH1000 hSerial).2.1 = pBH1000 := by
  revert h
  unfold bcBH1000Input
  cases serialGetc hSerial with
  | mk b hSerial =>
      cases b with
      | none => exact fun _ => rfl
      | some stx =>
          dsimp only
          split
          · exact fun _ => rfl
          · split
            · exact fun _ => rfl
            · exact fun h => (nomatch h)

theorem bcP506Input_rejected {pP506 : BcP506} (h : (bcP506Input pP506 hSerial).1 = false) :
    (bcP506Input pP506 hSerial).2.1 = pP506 := by
  revert h
  unfold bcP506Input
  split
  · exact fun _ => rfl
  · cases serialGetc hSerial with
    | mk b hSerial =>
        cases b with
        | none => exact fun _ => rfl
        | some stx =>
            dsimp only
            split
            · exact fun _ => rfl
            · split
              · exact fun _ => rfl
              · exact fun h => (nomatch h)

/-- A frame behind `0x7d` changes nothing. -/
theorem bcP16Frame_stx2 (pP16 : BcP16) (bs : List Byte) :
    (bcP16Frame pP16 (bcP16Stx2 :: bs)).2 = pP16 := by
  unfold bcP16Frame
  split
  · rfl
  · rw [if_neg (by rw [List.getD_cons_zero]; decide)]

/-- One behind `0x7a` does if its checksum is right. -/
theorem bcP16Frame_stx1 {pP16 : BcP16} {index hi lo check : Byte}
    (h : checksum [index, hi, lo] ≠ check) :
    (bcP16Frame pP16 [bcP16Stx1, index, hi, lo, check]).2 = pP16 := by
  have hframe := bcP16Frame_item pP16 bcP16Stx1 check [index, hi, lo]
  rw [if_pos h] at hframe
  exact congrArg Prod.snd hframe

theorem exists_four {bs : List Byte} (h : bs.length = 4) : ∃ a b c d, bs = [a, b, c, d] := by
  rcases bs with _ | ⟨a, _ | ⟨b, _ | ⟨c, _ | ⟨d, _ | ⟨e, bs⟩⟩⟩⟩⟩
  case cons.cons.cons.cons.nil => exact ⟨a, b, c, d, rfl⟩
  all_goals simp at h

theorem bcP16Input_rejected {pP16 : BcP16} (h : (bcP16Input pP16 hSerial).1 = false)
    (hcount : ¬ (BcInstance.p16 pP16).TakesCount hSerial) :
    (bcP16Input pP16 hSerial).2.1 = pP16 := by
  revert h
  unfold bcP16Input
  split
  · exact fun _ => rfl
  · cases hSerial with
    | nil => exact fun _ => rfl
    | cons b line =>
        cases b with
        | none => exact fun _ => rfl
        | some stx =>
            rw [serialGetc]
            dsimp only
            by_cases hone : stx = bcP16Stx1
            · rw [if_pos hone, hone]
              split
              · exact fun _ => rfl
              · rename_i hlen
                have hfour : (serialGets (bcP16FrameSize1 - 1) line).1.length = 4 := by
                  rw [bcP16FrameSize1] at hlen ⊢
                  omega
                have hline := eq_of_serialGets hfour
                obtain ⟨index, hi, lo, check, hbs⟩ := exists_four hfour
                intro _
                rw [hbs] at hline ⊢
                apply bcP16Frame_stx1
                intro hcheck
                exact hcount ⟨index, hi, lo, check, _, by rw [hone, hline]; rfl, hcheck⟩
            · rw [if_neg hone]
              by_cases htwo : stx = bcP16Stx2
              · rw [if_pos htwo, htwo]
                split
                · exact fun _ => rfl
                · exact fun _ => bcP16Frame_stx2 pP16 _
              · rw [if_neg htwo]
                exact fun _ => rfl

/-- What a read for a J-305 takes off the line is fixed. -/
theorem takesBadDigit_iff {pJ305 : BcJ305} :
    (BcInstance.j305 pJ305).TakesBadDigit hSerial ↔
      (serialGets 26 hSerial).1.length = 26 ∧
        (∃ start, nStartIndex (serialGets 26 hSerial).1 = some start) ∧
        allDigits ((serialGets 26 hSerial).1.take 4) = false ∧
        countIn 256 ((serialGets 26 hSerial).1.take 4) ≠ pJ305.ulCount.toNat := by
  constructor
  · rintro ⟨bs, line, start, rfl, hlen, hstart, hbad, hcount⟩
    have hgets := serialGets_inTime bs line
    rw [hlen] at hgets
    rw [hgets]
    exact ⟨hlen, ⟨start, hstart⟩, hbad, hcount⟩
  · rintro ⟨hlen, ⟨start, hstart⟩, hbad, hcount⟩
    exact ⟨_, _, start, eq_of_serialGets hlen, hlen, hstart, hbad, hcount⟩

/-- A J-305 that rejects has its count as it was, unless it is partly through another. -/
theorem bcJ305Input_rejected_iff {pJ305 : BcJ305} :
    ((bcJ305Input pJ305 hSerial).1 = false → (bcJ305Input pJ305 hSerial).2.1 = pJ305) ↔
      ¬ (BcInstance.j305 pJ305).TakesBadDigit hSerial := by
  rw [takesBadDigit_iff]
  by_cases hlen : (serialGets 26 hSerial).1.length = 26
  · cases hstart : nStartIndex (serialGets 26 hSerial).1 with
    | none =>
        have hframe : bcJ305Frame pJ305 (serialGets 26 hSerial).1 = (false, pJ305) := by
          rw [bcJ305Frame, hstart]
        have hinput : bcJ305Input pJ305 hSerial = (false, pJ305, (serialGets 26 hSerial).2) :=
          (if_neg (not_not_intro hlen)).trans (congrArg (fun r => (r.1, r.2, _)) hframe)
        rw [hinput]
        simp
    | some start =>
        have hinput := bcJ305Input_eq hlen hstart pJ305 (serialGets 26 hSerial).2
        have hcount := toNat_bcJ305Digits (List.length_take_le 4 (serialGets 26 hSerial).1)
        rw [← eq_of_serialGets hlen] at hinput
        have hrecord : (⟨(bcJ305Digits 0 ((serialGets 26 hSerial).1.take 4)).2⟩ : BcJ305) = pJ305 ↔
            countIn 256 ((serialGets 26 hSerial).1.take 4) = pJ305.ulCount.toNat := by
          rw [← hcount, BitVec.toNat_inj, BcJ305.mk.injEq]
        rw [hinput]
        constructor
        · rintro h ⟨_, _, hbad, hne⟩
          exact hne (hrecord.mp (h hbad))
        · intro h hbad
          by_contra hne
          exact h ⟨hlen, ⟨start, rfl⟩, hbad, mt hrecord.mpr hne⟩
  · have hinput : bcJ305Input pJ305 hSerial = (false, pJ305, (serialGets 26 hSerial).2) :=
      if_pos hlen
    rw [hinput]
    simp [hlen]

/-! ## All of them -/

/-- A rejected input leaves the record alone, unless it is a frame of a J-305 with a byte that
is no digit. -/
theorem rejectsCleanly_iff (pBC : BcInstance) (hSerial : Arrivals) :
    RejectsCleanly pBC hSerial ↔ ¬ pBC.TakesBadDigit hSerial := by
  have hclean : RejectsCleanly pBC hSerial ↔
      ((pBC.fInput hSerial).1 = false → ¬ pBC.TakesCount hSerial →
        (pBC.fInput hSerial).2 = pBC) := by
    refine ⟨fun h hfalse hcount => (h hfalse hcount).1, fun h hfalse hcount => ?_⟩
    have hrecord := h hfalse hcount
    exact ⟨hrecord, congrArg BcInstance.fGetMessage hrecord⟩
  rw [hclean]
  cases pBC with
  | bh1000 pBH1000 =>
      refine ⟨fun _ hbad => hbad.elim, fun _ hfalse _ => ?_⟩
      exact congrArg BcInstance.bh1000 (bcBH1000Input_rejected hfalse)
  | p506 pP506 =>
      refine ⟨fun _ hbad => hbad.elim, fun _ hfalse _ => ?_⟩
      exact congrArg BcInstance.p506 (bcP506Input_rejected hfalse)
  | p16 pP16 =>
      refine ⟨fun _ hbad => hbad.elim, fun _ hfalse hcount => ?_⟩
      exact congrArg BcInstance.p16 (bcP16Input_rejected hfalse hcount)
  | j305 pJ305 =>
      rw [← bcJ305Input_rejected_iff]
      constructor
      · exact fun h hfalse => BcInstance.j305.inj (h hfalse fun hcount => hcount.elim)
      · exact fun h hfalse _ => congrArg BcInstance.j305 (h hfalse)

/-- A J-305 that shows 5, and then a frame whose third digit is none. -/
theorem count_lost_on_bad_digit :
    ¬ RejectsCleanly (.j305 ⟨5⟩)
      (inTime (List.replicate 2 [0x45, 1, 0xFF, 0, 0, 0, 0, 0, 0, 0, 0, 0, 0]).flatten) := by
  intro h
  have hrecord := (h (by decide) fun hcount => hcount).1
  exact absurd (BcInstance.j305.inj hrecord) (by decide)

end BillCounter.Driver
