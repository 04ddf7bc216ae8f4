import BillCounter.Driver.Table

/-!
# A line polled to its end

`CNTIF_main` calls `fInput` again and again.  Each call takes something off a line that is
not at its end, and no more than a frame and a half of the longest kind; so the calls come
to the end of any line, and what they decode of it does not depend on how many more there
are.
-/

namespace BillCounter.Driver

open BillCounter.Lib.RawBytes

/-! ## Calls -/

/-- What a call of `fInput` leaves on the line. -/
def BcInstance.restOfLine (hSerial : Arrivals) : BcInstance → Arrivals
  | .bh1000 pBH1000 => (bcBH1000Input pBH1000 hSerial).2.2
  | .j305 pJ305 => (bcJ305Input pJ305 hSerial).2.2
  | .p506 pP506 => (bcP506Input pP506 hSerial).2.2
  | .p16 pP16 => (bcP16Input pP16 hSerial).2.2

/-- A call of `fInput`, and of `fGetMessage` if that is `true`. -/
def BcInstance.poll (x : BcInstance × Arrivals) : Option (List Byte) × BcInstance × Arrivals :=
  let r := x.1.fInput x.2
  (if r.1 then some r.2.fGetMessage else none, r.2, x.1.restOfLine x.2)

/-- What `n` calls come to. -/
def BcInstance.polls : Nat → BcInstance × Arrivals → List (Option (List Byte))
  | 0, _ => []
  | n + 1, x => (poll x).1 :: polls n (poll x).2

/-- The driver and the line behind `n` calls. -/
def BcInstance.behind : Nat → BcInstance × Arrivals → BcInstance × Arrivals
  | 0, x => x
  | n + 1, x => behind n (poll x).2

/-- The messages of `n` calls. -/
def BcInstance.decoded (n : Nat) (x : BcInstance × Arrivals) : List (List Byte) :=
  (polls n x).filterMap id

theorem decoded_succ (n : Nat) (x : BcInstance × Arrivals) :
    BcInstance.decoded (n + 1) x =
      (BcInstance.poll x).1.toList ++ BcInstance.decoded n (BcInstance.poll x).2 := by
  rw [BcInstance.decoded, BcInstance.polls, List.filterMap_cons, BcInstance.decoded, id]
  cases (BcInstance.poll x).1 <;> rfl

/-! A call more, at the other end. -/

theorem polls_succ (n : Nat) (x : BcInstance × Arrivals) :
    BcInstance.polls (n + 1) x =
      BcInstance.polls n x ++ [(BcInstance.poll (BcInstance.behind n x)).1] := by
  induction n generalizing x with
  | zero => rfl
  | succ n ih =>
      rw [BcInstance.polls, ih, BcInstance.polls, List.cons_append]
      rfl

theorem behind_succ (n : Nat) (x : BcInstance × Arrivals) :
    BcInstance.behind (n + 1) x = (BcInstance.poll (BcInstance.behind n x)).2 := by
  induction n generalizing x with
  | zero => rfl
  | succ n ih =>
      rw [BcInstance.behind, ih]
      rfl

theorem decoded_succ_back (n : Nat) (x : BcInstance × Arrivals) :
    BcInstance.decoded (n + 1) x =
      BcInstance.decoded n x ++ (BcInstance.poll (BcInstance.behind n x)).1.toList := by
  rw [BcInstance.decoded, polls_succ, List.filterMap_append, BcInstance.decoded]
  cases (BcInstance.poll (BcInstance.behind n x)).1 <;> rfl

theorem decoded_begins_add (n k : Nat) (x : BcInstance × Arrivals) :
    BcInstance.decoded n x <+: BcInstance.decoded (n + k) x := by
  induction k with
  | zero => exact List.prefix_rfl
  | succ k ih =>
      rw [← Nat.add_assoc, decoded_succ_back]
      exact ih.trans (List.prefix_append _ _)

/-- The driver has the model its `fInput` checks for. -/
def BcInstance.Ready : BcInstance → Prop
  | .p506 pP506 => pP506.xModel = bcModelP506
  | .p16 pP16 => pP16.xModel = bcModelP16
  | _ => True

variable {pBC : BcInstance} {hSerial : Arrivals} {n : Nat}

/-- `BC_getInstance` gives each driver its own model. -/
theorem ready_bcGetInstance {ulModel : Nat} (h : bcGetInstance ulModel = some (.polled pBC)) :
    pBC.Ready := by
  unfold bcGetInstance at h
  split at h
  · rename_i pInfo hentry
    have hmem : some pInfo ∈ pBillCounterInfo := List.mem_of_getElem? hentry
    simp only [pBillCounterInfo, List.mem_cons, Option.some.injEq, reduceCtorEq, false_or,
      List.not_mem_nil, or_false] at hmem
    rcases hmem with rfl | rfl | rfl | rfl | rfl <;> cases h <;> first
      | rfl
      | trivial
  · cases h

/-! ## What a call takes -/

/-- A call took something off the line, but no more than 27 bytes or pauses. -/
def Takes (hSerial rest : Arrivals) : Prop :=
  rest <:+ hSerial ∧ rest.length < hSerial.length ∧ hSerial.length ≤ rest.length + 27

theorem serialGets_suffix (n : Nat) (hSerial : Arrivals) :
    (serialGets n hSerial).2 <:+ hSerial ∧
      hSerial.length ≤ (serialGets n hSerial).2.length + n := by
  induction n generalizing hSerial with
  | zero => cases hSerial <;> exact ⟨List.suffix_rfl, Nat.le_refl _⟩
  | succ n ih =>
      cases hSerial with
      | nil => exact ⟨List.suffix_rfl, Nat.le_add_right _ _⟩
      | cons b line =>
          cases b with
          | none => exact ⟨List.suffix_cons _ _, by simp [serialGets]⟩
          | some b =>
              obtain ⟨hsuffix, hlen⟩ := ih line
              exact ⟨hsuffix.trans (List.suffix_cons _ _), by simp [serialGets]; omega⟩

/-- A byte, and then up to 26 more. -/
theorem takes_cons (b : Option Byte) (line : Arrivals) (hn : n ≤ 26) :
    Takes (b :: line) (serialGets n line).2 := by
  obtain ⟨hsuffix, hlen⟩ := serialGets_suffix n line
  have hle := hsuffix.length_le
  refine ⟨hsuffix.trans (List.suffix_cons _ _), ?_, ?_⟩ <;>
    rw [List.length_cons] <;> omega

theorem takes_one (b : Option Byte) (line : Arrivals) : Takes (b :: line) line :=
  ⟨List.suffix_cons _ _, Nat.lt_succ_self _, by rw [List.length_cons]; omega⟩

/-- Up to 26 bytes. -/
theorem takes_window (b : Option Byte) (line : Arrivals) :
    Takes (b :: line) (serialGets 26 (b :: line)).2 := by
  cases b with
  | none => exact takes_one none line
  | some b => exact takes_cons (some b) line (n := 25) (by decide)

theorem takes_bcBH1000 (pBH1000 : BcBH1000) (b : Option Byte) (line : Arrivals) :
    Takes (b :: line) (bcBH1000Input pBH1000 (b :: line)).2.2 := by
  cases b with
  | none => exact takes_one none line
  | some stx =>
      rw [bcBH1000Input, serialGetc]
      dsimp only
      split
      · exact takes_one _ line
      · split <;> exact takes_cons _ line (by decide)

theorem takes_bcP506 {pP506 : BcP506} (h : pP506.xModel = bcModelP506) (b : Option Byte)
    (line : Arrivals) : Takes (b :: line) (bcP506Input pP506 (b :: line)).2.2 := by
  rw [bcP506Input, if_neg (not_not_intro h)]
  cases b with
  | none => exact takes_one none line
  | some stx =>
      rw [serialGetc]
      dsimp only
      split
      · exact takes_one _ line
      · split <;> exact takes_cons _ line (by decide)

theorem takes_bcP16 {pP16 : BcP16} (h : pP16.xModel = bcModelP16) (b : Option Byte)
    (line : Arrivals) : Takes (b :: line) (bcP16Input pP16 (b :: line)).2.2 := by
  rw [bcP16Input, if_neg (not_not_intro h)]
  cases b with
  | none => exact takes_one none line
  | some stx =>
      rw [serialGetc]
      dsimp only
      split
      · split <;> exact takes_cons _ line (by decide)
      · split
        · split <;> exact takes_cons _ line (by decide)
        · exact takes_one _ line

theorem takes_bcJ305 (pJ305 : BcJ305) (b : Option Byte) (line : Arrivals) :
    Takes (b :: line) (bcJ305Input pJ305 (b :: line)).2.2 := by
  rw [bcJ305Input]
  dsimp only
  split <;> exact takes_window b line

/-- A call takes something, if there is anything. -/
theorem takes_fInput (hready : pBC.Ready) (b : Option Byte) (line : Arrivals) :
    Takes (b :: line) (pBC.restOfLine (b :: line)) := by
  cases pBC with
  | bh1000 pBH1000 => exact takes_bcBH1000 pBH1000 b line
  | j305 pJ305 => exact takes_bcJ305 pJ305 b line
  | p506 pP506 => exact takes_bcP506 hready b line
  | p16 pP16 => exact takes_bcP16 hready b line

/-- The model stays. -/
theorem ready_fInput (hready : pBC.Ready) (hSerial : Arrivals) :
    (pBC.fInput hSerial).2.Ready := by
  cases pBC with
  | bh1000 | j305 => trivial
  | p506 pP506 =>
      show (bcP506Input pP506 hSerial).2.1.xModel = bcModelP506
      unfold bcP506Input
      split
      · exact hready
      · cases serialGetc hSerial with
        | mk b line => cases b <;> dsimp only <;> (repeat' split) <;> exact hready
  | p16 pP16 =>
      show (bcP16Input pP16 hSerial).2.1.xModel = bcModelP16
      have hframe : ∀ bs, (bcP16Frame pP16 bs).2.xModel = bcModelP16 := by
        intro bs
        unfold bcP16Frame bcP16Count
        dsimp only
        repeat' split
        all_goals exact hready
      unfold bcP16Input
      split
      · exact hready
      · cases serialGetc hSerial with
        | mk b line =>
            cases b <;> dsimp only <;> (repeat' split) <;> first
              | exact hready
              | exact hframe _

/-- A call on a quiet line. -/
theorem poll_nil (hready : pBC.Ready) : BcInstance.poll (pBC, []) = (none, pBC, []) := by
  cases pBC with
  | bh1000 | j305 => rfl
  | p506 pP506 =>
      have hmodel : pP506.xModel = bcModelP506 := hready
      have hinput : bcP506Input pP506 [] = (false, pP506, []) := by
        rw [bcP506Input, if_neg (not_not_intro hmodel)]
        rfl
      simp [BcInstance.poll, BcInstance.fInput, BcInstance.restOfLine, hinput]
  | p16 pP16 =>
      have hmodel : pP16.xModel = bcModelP16 := hready
      have hinput : bcP16Input pP16 [] = (false, pP16, []) := by
        rw [bcP16Input, if_neg (not_not_intro hmodel)]
        rfl
      simp [BcInstance.poll, BcInstance.fInput, BcInstance.restOfLine, hinput]

/-! ## To the end -/

theorem behind_nil (hready : pBC.Ready) (n : Nat) :
    BcInstance.behind n (pBC, []) = (pBC, []) ∧ BcInstance.decoded n (pBC, []) = [] := by
  induction n with
  | zero => exact ⟨rfl, rfl⟩
  | succ n ih =>
      rw [BcInstance.behind, decoded_succ, poll_nil hready]
      exact ih

/-- As many calls as the line is long come to its end, and no more is decoded of it by any
further ones. -/
theorem polled_to_end (hready : pBC.Ready) (hn : hSerial.length ≤ n) :
    (BcInstance.behind n (pBC, hSerial)).2 = [] ∧
      BcInstance.decoded n (pBC, hSerial) =
        BcInstance.decoded hSerial.length (pBC, hSerial) := by
  induction hlen : hSerial.length using Nat.strongRecOn generalizing pBC hSerial n with
  | ind len ih =>
      cases hSerial with
      | nil =>
          cases hlen
          rw [(behind_nil hready n).1, (behind_nil hready n).2]
          exact ⟨rfl, rfl⟩
      | cons b line =>
          obtain ⟨_, hshorter, _⟩ := takes_fInput hready b line
          have hready' := ready_fInput hready (b :: line)
          rw [List.length_cons] at hn hshorter hlen
          obtain ⟨k, rfl⟩ := Nat.exists_eq_add_of_le' hn
          subst hlen
          have hall := ih _ hshorter (n := k + line.length) hready' (by omega) rfl
          have hfew := ih _ hshorter (n := line.length) hready' (by omega) rfl
          refine ⟨hall.1, ?_⟩
          rw [← Nat.add_assoc, decoded_succ, decoded_succ]
          exact congrArg _ (hall.2.trans hfew.2.symm)

theorem ready_behind (hready : pBC.Ready) (hSerial : Arrivals) (n : Nat) :
    (BcInstance.behind n (pBC, hSerial)).1.Ready := by
  induction n with
  | zero => exact hready
  | succ n ih =>
      rw [behind_succ]
      exact ready_fInput ih _

/-- Whatever is on the line, each call of a driver of the table takes something off it, up to
27 bytes or pauses, as long as anything is left; so as many calls as the line is long come to
its end, and any more decode nothing. -/
theorem line_polled_to_end (ulModel : Nat) (hpBC : bcGetInstance ulModel = some (.polled pBC))
    (hSerial : Arrivals) :
    (∀ n, (BcInstance.behind n (pBC, hSerial)).2 = [] ∨
      Takes (BcInstance.behind n (pBC, hSerial)).2 (BcInstance.behind (n + 1) (pBC, hSerial)).2) ∧
      ∀ n ≥ hSerial.length, (BcInstance.behind n (pBC, hSerial)).2 = [] ∧
        BcInstance.decoded n (pBC, hSerial) =
          BcInstance.decoded hSerial.length (pBC, hSerial) := by
  have hready := ready_bcGetInstance hpBC
  refine ⟨fun n => ?_, fun n hn => polled_to_end hready hn⟩
  have hready' := ready_behind hready hSerial n
  rw [behind_succ]
  cases hline : BcInstance.behind n (pBC, hSerial) with
  | mk pBC' line =>
      rw [hline] at hready'
      cases line with
      | nil => exact .inl rfl
      | cons b line => exact .inr (takes_fInput hready' b line)

/-- A byte in front of a frame of the BH1000. -/
theorem line_polled_to_end_bh1000 :
    (∀ n, (BcInstance.behind n (.bh1000 ⟨0, 0⟩, some 7 :: inTime frameOf300.val.val)).2 = [] ∨
      Takes (BcInstance.behind n (.bh1000 ⟨0, 0⟩, some 7 :: inTime frameOf300.val.val)).2
        (BcInstance.behind (n + 1) (.bh1000 ⟨0, 0⟩, some 7 :: inTime frameOf300.val.val)).2) ∧
      ∀ n ≥ 18, (BcInstance.behind n (.bh1000 ⟨0, 0⟩, some 7 :: inTime frameOf300.val.val)).2 = [] ∧
        BcInstance.decoded n (.bh1000 ⟨0, 0⟩, some 7 :: inTime frameOf300.val.val) =
          BcInstance.decoded 18 (.bh1000 ⟨0, 0⟩, some 7 :: inTime frameOf300.val.val) :=
  line_polled_to_end 11 rfl (some 7 :: inTime frameOf300.val.val)

end BillCounter.Driver
