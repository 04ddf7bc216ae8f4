import BillCounter.Driver.Dispatch
import BillCounter.Driver.KL1850
import BillCounter.Server.Delivery
import BillCounter.Server.Ownership
import BillCounter.Trace.Dump

/-!
# Who prints dumps

All drivers but the one of the P16 print the frames they read, and `SVRIF_client` those it
sends.  None of them asks for columns, so a dump is one row, and there is room for it as long
as a frame has no more than 42 bytes.  The frames of the counters have at most 27; those sent
have the message of a driver in them, of at most 15 bytes, and 10 more.
-/

namespace BillCounter.Trace

open BillCounter.Driver
open BillCounter.Lib.RawBytes
open BillCounter.Lib.Runs
open BillCounter.Server

/-! ## The drivers -/

/-- A call of a driver, and its call of `TRACE_printDump`. -/
structure Traced (α : Type) where
  result : Bool × α × Arrivals
  dump : Option Dump

/-- `BC_BH1000_input`, with the static `pFrame` as it was. -/
def tracedBcBH1000Input (pFrame : Bytes (bcBH1000FrameSize * 2)) (pBH1000 : BcBH1000)
    (hSerial : Arrivals) : Traced BcBH1000 :=
  match serialGetc hSerial with
  | (none, hSerial) => ⟨(false, pBH1000, hSerial), none⟩
  | (some stx, hSerial) =>
      if stx ≠ bcBH1000Stx then ⟨(false, pBH1000, hSerial), none⟩
      else
        let (bs, hSerial) := serialGets (bcBH1000FrameSize - 1) hSerial
        if 1 + bs.length ≠ bcBH1000FrameSize then ⟨(false, pBH1000, hSerial), none⟩
        else
          ⟨(true, bcBH1000Frame (stx :: bs), hSerial),
            some ⟨patch pFrame.val 0 (stx :: bs), BitVec.ofNat 32 bcBH1000FrameSize, 0⟩⟩

/-- `BC_J305_input`.  All of `pFrame` is read. -/
def tracedBcJ305Input (pJ305 : BcJ305) (hSerial : Arrivals) : Traced BcJ305 :=
  let (pFrame, hSerial) := serialGets (bcJ305FrameSize * 2) hSerial
  if pFrame.length ≠ bcJ305FrameSize * 2 then ⟨(false, pJ305, hSerial), none⟩
  else
    let (ret, pJ305) := bcJ305Frame pJ305 pFrame
    ⟨(ret, pJ305, hSerial),
      (nStartIndex pFrame).map fun start =>
        ⟨pFrame.drop start, BitVec.ofNat 32 bcJ305FrameSize, 0⟩⟩

/-- `BC_P506_input`, with the static `pFrame` as it was. -/
def tracedBcP506Input (pFrame : Bytes bcP506FrameSize) (pP506 : BcP506) (hSerial : Arrivals) :
    Traced BcP506 :=
  if pP506.xModel ≠ bcModelP506 then ⟨(true, pP506, hSerial), none⟩
  else
    match serialGetc hSerial with
    | (none, hSerial) => ⟨(false, pP506, hSerial), none⟩
    | (some stx, hSerial) =>
        if stx ≠ bcP506Stx then ⟨(false, pP506, hSerial), none⟩
        else
          let (bs, hSerial) := serialGets (bcP506FrameSize - 1) hSerial
          if 1 + bs.length ≠ bcP506FrameSize then ⟨(false, pP506, hSerial), none⟩
          else
            ⟨(true, bcP506Frame pP506 (stx :: bs), hSerial),
              some ⟨patch pFrame.val 0 (stx :: bs), BitVec.ofNat 32 (1 + bs.length), 0⟩⟩

variable {hSerial : Arrivals} {d : Dump}

/-- Without its dump a call is the one of the driver. -/
theorem tracedBcBH1000Input_result (pFrame : Bytes (bcBH1000FrameSize * 2)) (pBH1000 : BcBH1000)
    (hSerial : Arrivals) :
    (tracedBcBH1000Input pFrame pBH1000 hSerial).result = bcBH1000Input pBH1000 hSerial := by
  unfold tracedBcBH1000Input bcBH1000Input
  rcases serialGetc hSerial with ⟨_ | stx, line⟩
  · rfl
  · dsimp only
    split
    · rfl
    · split <;> rfl

theorem tracedBcJ305Input_result (pJ305 : BcJ305) (hSerial : Arrivals) :
    (tracedBcJ305Input pJ305 hSerial).result = bcJ305Input pJ305 hSerial := by
  unfold tracedBcJ305Input bcJ305Input
  dsimp only
  split <;> rfl

theorem tracedBcP506Input_result (pFrame : Bytes bcP506FrameSize) (pP506 : BcP506)
    (hSerial : Arrivals) :
    (tracedBcP506Input pFrame pP506 hSerial).result = bcP506Input pP506 hSerial := by
  unfold tracedBcP506Input bcP506Input
  split
  · rfl
  · rcases serialGetc hSerial with ⟨_ | stx, line⟩
    · rfl
    · dsimp only
      split
      · rfl
      · split <;> rfl

/-- One row of up to 42 bytes. -/
theorem short_of_le {pValue : List Byte} {n : Nat} (hread : n ≤ pValue.length) (hn : n ≤ 42) :
    Dump.Short ⟨pValue, BitVec.ofNat 32 n, 0⟩ := by
  have hcount : (BitVec.ofNat 32 n).toNat = n := by
    rw [BitVec.toNat_ofNat]
    omega
  constructor
  · rw [hcount]
    exact hread
  · show (BitVec.ofNat 32 n).toNat ≤ 42
    rw [hcount]
    exact hn

/-- A dump of the array the frame was read into. -/
theorem short_patch {k n : Nat} (pFrame : Bytes k) {bs : List Byte} (hbs : bs.length ≤ k)
    (hk : n ≤ k) (hn : n ≤ 42) : Dump.Short ⟨patch pFrame.val 0 bs, BitVec.ofNat 32 n, 0⟩ := by
  apply short_of_le _ hn
  rw [length_patch (by rw [pFrame.property]; omega), pFrame.property]
  exact hk

/-- The dump of a driver is short. -/
theorem short_bcBH1000 {pFrame : Bytes (bcBH1000FrameSize * 2)} {pBH1000 : BcBH1000}
    (h : (tracedBcBH1000Input pFrame pBH1000 hSerial).dump = some d) : d.Short := by
  revert h
  unfold tracedBcBH1000Input
  rcases serialGetc hSerial with ⟨_ | stx, line⟩
  · exact nofun
  · dsimp only
    split
    · exact nofun
    · split
      · exact nofun
      · rename_i hlen
        intro h
        cases h
        exact short_patch pFrame (by rw [List.length_cons]; omega) (by decide) (by decide)

theorem short_bcJ305 {pJ305 : BcJ305} (h : (tracedBcJ305Input pJ305 hSerial).dump = some d) :
    d.Short := by
  unfold tracedBcJ305Input at h
  dsimp only at h
  split at h
  · cases h
  · rename_i hlen
    obtain ⟨start, hstart, rfl⟩ := Option.map_eq_some_iff.mp h
    have hmem := List.mem_of_find?_eq_some hstart
    rw [List.mem_range] at hmem
    apply short_of_le
    · rw [List.length_drop]
      omega
    · decide

theorem short_bcP506 {pFrame : Bytes bcP506FrameSize} {pP506 : BcP506}
    (h : (tracedBcP506Input pFrame pP506 hSerial).dump = some d) : d.Short := by
  revert h
  unfold tracedBcP506Input
  split
  · exact nofun
  · rcases serialGetc hSerial with ⟨_ | stx, line⟩
    · exact nofun
    · dsimp only
      split
      · exact nofun
      · split
        · exact nofun
        · rename_i hlen
          rw [ne_eq, not_not] at hlen
          intro h
          cases h
          rw [hlen]
          exact short_patch pFrame (by rw [List.length_cons]; omega) (Nat.le_refl _) (by decide)

/-! ## The messages -/

/-- What `fGetMessage` of some driver makes of some record. -/
def FromDriver (m : Message) : Prop :=
  (∃ pBC : BcInstance, m.pData = pBC.fGetMessage) ∨
    ∃ pKL1850 : BcKL1850, m.pData = bcKL1850GetMessage pKL1850

theorem FromDriver.length_le {m : Message} (h : FromDriver m) : m.pData.length ≤ 15 := by
  rcases h with ⟨pBC, hm⟩ | ⟨pKL1850, hm⟩
  · rw [hm]
    exact (length_fGetMessage pBC).2
  · rw [hm]
    exact Nat.le_add_right 7 8

variable {s t : ServerState} {a : Label} {labels : List Label} {P : Message → Prop}

/-- The blocks with a sender, on the queue and with the client. -/
def blocks (s : ServerState) : List Block :=
  s.sends.map Send.block ++ s.xMessageQ.getD [] ++ s.client.holds

/-- What is known of the messages given to `SVRIF_send` is known of all on their way. -/
theorem blocks_step (h : Step s a t) (ha : ∀ m, a = .malloc m → P m)
    (hs : ∀ pMsg ∈ blocks s, P pMsg.message) : ∀ pMsg ∈ blocks t, P pMsg.message := by
  intro pMsg hmem
  cases h with
  | mallocFails | timeout => exact hs pMsg hmem
  | malloc m =>
      rcases List.mem_cons.mp hmem with rfl | hold
      · exact ha m rfl
      · exact hs pMsg hold
  | enqueue pMsg' before after q hsends hq hroom =>
      apply hs
      simp only [blocks, hsends, hq, List.map_append, List.map_cons, Send.block,
        Option.getD_some, List.mem_append, List.mem_cons] at hmem ⊢
      tauto
  | full pMsg' before after q hsends hq hfull =>
      apply hs
      simpa [blocks, hsends, Send.block] using hmem
  | freeRefused pMsg' before after hsends =>
      apply hs
      simp only [blocks, hsends, List.map_append, List.map_cons, Send.block, List.mem_append,
        List.mem_cons] at hmem ⊢
      tauto
  | receive pMsg' q hc hq =>
      apply hs
      simp only [blocks, hc, hq, ClientPoint.holds, Option.getD_some, List.mem_append,
        List.mem_cons] at hmem ⊢
      tauto
  | linkUp hc | linkDown hc | delay hc | build _ _ hc | write _ _ _ hc | close hc =>
      apply hs
      simpa [blocks, hc, ClientPoint.holds] using hmem
  | socket opened hc | connect opened hc =>
      apply hs
      split at hmem <;> simpa [blocks, hc, ClientPoint.holds] using hmem
  | release pMsg' nSentLength hc =>
      apply hs
      apply List.mem_append_left
      split at hmem <;> simpa [blocks, ClientPoint.holds] using hmem

theorem blocks_run (hrun : server.Run svrifStart labels s) (hP : ∀ m, .malloc m ∈ labels → P m) :
    ∀ pMsg ∈ blocks s, P pMsg.message := by
  refine hrun.history (I := fun as t => (∀ m, .malloc m ∈ as → P m) →
    ∀ pMsg ∈ blocks t, P pMsg.message) ?_ ?_ hP
  · exact fun _ pMsg hmem => absurd hmem List.not_mem_nil
  · intro as u a v hu hstep hall
    have hbefore := hu fun m hm => hall m (List.mem_append_left _ hm)
    exact blocks_step hstep
      (fun m ha => hall m (ha ▸ List.mem_append_right _ List.mem_cons_self)) hbefore

/-! ## The calls -/

/-- The calls of `TRACE_printDump`: the drivers dump a frame, and `SVRIF_client` its `pBuffer`
behind a write that does not fail. -/
inductive Call : Dump → Prop
  | bh1000 (pFrame : Bytes (bcBH1000FrameSize * 2)) (pBH1000 : BcBH1000) (hSerial : Arrivals)
      (d : Dump) : (tracedBcBH1000Input pFrame pBH1000 hSerial).dump = some d → Call d
  | j305 (pJ305 : BcJ305) (hSerial : Arrivals) (d : Dump) :
      (tracedBcJ305Input pJ305 hSerial).dump = some d → Call d
  | p506 (pFrame : Bytes bcP506FrameSize) (pP506 : BcP506) (hSerial : Arrivals) (d : Dump) :
      (tracedBcP506Input pFrame pP506 hSerial).dump = some d → Call d
  | kl1850 (fuel : Nat) (pKL1850 : BcKL1850) (hSerial : Feed) (r : KL1850Outcome)
      (nStartIndex : Int) (ulCount : Nat) (pValue : List Byte) :
      bcKL1850Input fuel true pKL1850 hSerial = some r → r.pDump = some (nStartIndex, ulCount) →
      Call ⟨pValue, BitVec.ofNat 32 ulCount, 0⟩
  | svrifClient (labels : List Label) (s t : ServerState) (m : Message) (bytes : List Byte)
      (nSentLength : Int) : server.Run svrifStart labels s →
      (∀ m, .malloc m ∈ labels → FromDriver m) → Step s (.write m bytes nSentLength) t →
      0 ≤ nSentLength →
      Call ⟨read t.pBuffer 0 sizeofBuffer, BitVec.ofNat 32 bytes.length, 0⟩

/-- A frame sent has the message of a driver in it. -/
theorem length_written_le {m : Message} {bytes : List Byte} {nSentLength : Int}
    (hrun : server.Run svrifStart labels s) (hP : ∀ m, .malloc m ∈ labels → FromDriver m)
    (hstep : Step s (.write m bytes nSentLength) t) : bytes.length ≤ 25 := by
  have hblocks := blocks_run hrun hP
  obtain ⟨pMAC, hframe⟩ := framed_writes (hrun.snoc hstep) m bytes nSentLength
    (List.mem_append_right _ List.mem_cons_self)
  have hm : FromDriver m := by
    cases hstep with
    | write pMsg nLen _ hc hle =>
        apply hblocks
        rw [blocks, hc]
        exact List.mem_append_right _ List.mem_cons_self
  have hlen := hm.length_le
  rw [hframe, length_frame]
  omega

theorem short_of_call (h : Call d) : d.Short := by
  cases h with
  | bh1000 pFrame pBH1000 hSerial _ hdump => exact short_bcBH1000 hdump
  | j305 pJ305 hSerial _ hdump => exact short_bcJ305 hdump
  | p506 pFrame pP506 hSerial _ hdump => exact short_bcP506 hdump
  | kl1850 fuel pKL1850 hSerial r nStartIndex ulCount pValue hreturns hdump =>
      rw [bcKL1850Input_eq_none] at hreturns
      cases hreturns
  | svrifClient labels s t m bytes nSentLength hrun hP hstep hsent =>
      have hlen := length_written_le hrun hP hstep
      refine short_of_le ?_ (by omega)
      rw [length_read, sizeofBuffer]
      omega

/-- The frame the driver of the KL1850 would dump behind its endless loop is short as well. -/
theorem short_behind {bTrace : Bool} {pKL1850 : BcKL1850} {hSerial : Feed} {x : Int × Nat}
    (h : x ∈ (bcKL1850Behind bTrace pKL1850 hSerial).pDump) : x.2 ≤ 42 := by
  rcases bcKL1850Behind_cases bTrace pKL1850 hSerial with ⟨bs, -, hout⟩ | ⟨-, n, -, hout⟩
  · rw [hout] at h
    cases bTrace with
    | false => cases h
    | true =>
        cases h
        decide
  · rw [hout] at h
    cases h

/-- A dump with no more than 42 bytes in a row is printed completely, and all dumps of the
drivers and of the client are such. -/
theorem dumps_complete :
    (∀ d : Dump, d.Short → d.Completes) ∧
    (∀ d : Dump, Call d → d.Short) ∧
    ∀ bTrace pKL1850 hSerial, ∀ x ∈ (bcKL1850Behind bTrace pKL1850 hSerial).pDump, x.2 ≤ 42 :=
  ⟨fun _ => completes_of_short, fun _ => short_of_call, fun _ _ _ _ => short_behind⟩

/-- Three bytes in two columns, and a frame of a BH1000. -/
theorem dumps_complete_three :
    (Dump.mk [0x01, 0xab, 0x03] 3 2).Completes ∧
      (Dump.mk (0x02 :: List.replicate 33 0x30) 17 0).Short :=
  ⟨dumps_complete.1 _ ⟨by decide, by decide⟩,
    dumps_complete.2.1 _ (.bh1000 (.replicate 34 0x30) ⟨0, 0⟩
      (inTime (0x02 :: List.replicate 16 0x30)) _ rfl)⟩

end BillCounter.Trace
