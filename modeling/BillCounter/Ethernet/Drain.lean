import BillCounter.Ethernet.Receive
import Mathlib.Data.List.Basic

/-!
# The loop of the receive task

Behind a signal `ETH_taskMain` calls `ETH_lowLevelInput` for one frame after the other, and
takes `NULL` for the end of them.  But `NULL` is returned as well for a frame that got no
pbuf: its descriptors are handed back, and the frames behind it are left for the next signal.
-/

namespace BillCounter.Ethernet

open BillCounter.Lib.RawBytes

/-! ## The task -/

/-- A frame in the receive buffers, as `HAL_ETH_GetReceivedFrame_IT` will describe it, and
what is answered for it: the chain `pbuf_alloc` returns, whether `SVRIF_input` returns
`ERR_OK`, and the flag `ETH_DMASR_RBUS`. -/
structure PendingFrame (N : Nat) where
  RxFrameInfos : RxFrameInfos N
  pbufAlloc : BitVec 16 → Option (List Pbuf)
  inputOk : Bool
  rbus : Bool

/-- What the task asks of the HAL and of lwIP. -/
inductive TaskCall
  | HAL_ETH_GetReceivedFrame_IT (halOk : Bool)
  | SVRIF_input (p : List Pbuf)
  | pbuf_free (p : List Pbuf)

/-- Where a loop leaves off, with the frames still in the receive buffers. -/
structure TaskResult (N : Nat) where
  state : RxState N
  rest : List (PendingFrame N)
  calls : List TaskCall
  ethCalls : List EthCall

variable {N : Nat}

/-- `if (SVRIF_input(p) != ERR_OK) pbuf_free(p)`. -/
def svrifInput (f : PendingFrame N) (p : List Pbuf) : List TaskCall :=
  .SVRIF_input p :: if f.inputOk then [] else [.pbuf_free p]

/-- `do … while(p!=NULL)`.  Each call of `HAL_ETH_GetReceivedFrame_IT` finds the next frame;
it returns `HAL_OK` as long as there is one. -/
def ethTaskLoop (x : RxState N) : List (PendingFrame N) → TaskResult N
  | [] =>
      let y := ethLowLevelInput x false (fun _ => none) false
      ⟨y.state, [], [.HAL_ETH_GetReceivedFrame_IT false], y.calls⟩
  | f :: frames =>
      let y := ethLowLevelInput { x with RxFrameInfos := f.RxFrameInfos } true f.pbufAlloc f.rbus
      match y.p with
      | none => ⟨y.state, frames, [.HAL_ETH_GetReceivedFrame_IT true], y.calls⟩
      | some p =>
          let z := ethTaskLoop y.state frames
          { z with
            calls := .HAL_ETH_GetReceivedFrame_IT true :: (svrifInput f p ++ z.calls)
            ethCalls := y.calls ++ z.ethCalls }

/-- `ETH_taskMain`, for a number of signals, each with the frames that have come in since the
one before it. -/
def ethTaskMain (x : RxState N) (waiting : List (PendingFrame N)) :
    List (List (PendingFrame N)) → TaskResult N
  | [] => ⟨x, waiting, [], []⟩
  | frames :: signals =>
      let y := ethTaskLoop x (waiting ++ frames)
      let z := ethTaskMain y.state y.rest signals
      { z with calls := y.calls ++ z.calls, ethCalls := y.ethCalls ++ z.ethCalls }

/-! ## What is to become of a batch -/

/-- The length of a frame, as `ETH_lowLevelInput` takes it. -/
def PendingFrame.len (f : PendingFrame N) : BitVec 16 := f.RxFrameInfos.length.setWidth 16

/-- The frame is not empty, and there is a pbuf for it. -/
def PendingFrame.allocated (f : PendingFrame N) : Bool :=
  0 < f.len.toNat && (f.pbufAlloc f.len).isSome

/-- The chain with the frame in it. -/
def PendingFrame.chain (x : RxState N) (f : PendingFrame N) : Option (List Pbuf) :=
  (ethLowLevelInput { x with RxFrameInfos := f.RxFrameInfos } true f.pbufAlloc f.rbus).p

/-- The calls for a frame. -/
def PendingFrame.calls (x : RxState N) (f : PendingFrame N) : List TaskCall :=
  .HAL_ETH_GetReceivedFrame_IT true :: (f.chain x).elim [] (svrifInput f)

/-- The chain passed to `SVRIF_input`. -/
def TaskCall.passed : TaskCall → Option (List Pbuf)
  | .SVRIF_input p => some p
  | _ => none

/-- The chain freed. -/
def TaskCall.freed : TaskCall → Option (List Pbuf)
  | .pbuf_free p => some p
  | _ => none

/-- The loop ends when no frame is left.  Each frame with a pbuf is passed on once, in order,
and its pbuf freed when it is refused. -/
structure Drains (x : RxState N) (frames : List (PendingFrame N)) : Prop where
  ends : (ethTaskLoop x frames).calls.getLast? = some (.HAL_ETH_GetReceivedFrame_IT false)
  rest : (ethTaskLoop x frames).rest = []
  passed : (ethTaskLoop x frames).calls.filterMap TaskCall.passed =
    frames.filterMap (PendingFrame.chain x)
  freed : (ethTaskLoop x frames).calls.filterMap TaskCall.freed =
    (frames.filter fun f => !f.inputOk).filterMap (PendingFrame.chain x)

variable {x y : RxState N} {f : PendingFrame N} {frames : List (PendingFrame N)}

/-! ## The receive buffers -/

/-- Handing descriptors back leaves the bytes, and where they are read, as they were. -/
structure SameBuffers (x y : RxState N) : Prop where
  bufSize : y.table.bufSize = x.table.bufSize
  buffers : y.buffers = x.buffers

theorem SameBuffers.refl (x : RxState N) : SameBuffers x x := ⟨rfl, rfl⟩

theorem SameBuffers.trans {z : RxState N} (h : SameBuffers x y) (h' : SameBuffers y z) :
    SameBuffers x z :=
  ⟨h'.bufSize.trans h.bufSize, h'.buffers.trans h.buffers⟩

theorem bufSize_releaseDescs (n : Nat) (d : Fin N) (r : DescTable N) :
    (releaseDescs n d r).bufSize = r.bufSize := by
  induction n generalizing d r with
  | zero => rfl
  | succ n ih => exact ih _ _

theorem sameBuffers_lowLevelInput (x : RxState N) (halOk : Bool)
    (pbufAlloc : BitVec 16 → Option (List Pbuf)) (rbus : Bool) :
    SameBuffers x (ethLowLevelInput x halOk pbufAlloc rbus).state := by
  cases halOk with
  | false => exact .refl x
  | true => exact ⟨bufSize_releaseDescs _ _ _, rfl⟩

theorem copyFullRx_congr {r r' : DescTable N} (h : r'.bufSize = r.bufSize) (buffers : Buffers N)
    (s : RxCursor N) (left offset : Nat) (payload : Memory) :
    copyFullRx r' buffers s left offset payload = copyFullRx r buffers s left offset payload := by
  induction s, left, offset, payload using copyFullRx.induct r buffers with
  | case1 s left offset payload hlt n payload₁ d ih =>
      have hnext : (r'.desc s.dmarxdesc).Buffer2NextDescAddr = d :=
        (r'.chained _).trans (r.chained _).symm
      have hbuffer : (r'.desc d).Buffer1Addr = (r.desc d).Buffer1Addr :=
        (r'.buffer d).trans (r.buffer d).symm
      have hlt' : r'.bufSize < left + s.bufferoffset := by rwa [h]
      rw [copyFullRx.eq_def r', if_pos hlt', copyFullRx.eq_def r, if_pos hlt, hnext, h]
      dsimp only
      rw [hbuffer]
      exact ih
  | case2 s left offset payload hge =>
      have hge' : ¬ r'.bufSize < left + s.bufferoffset := by rwa [h]
      rw [copyFullRx.eq_def r', if_neg hge', copyFullRx.eq_def r, if_neg hge]

theorem copyChainRx_congr {r r' : DescTable N} (h : r'.bufSize = r.bufSize) (buffers : Buffers N)
    (p : List Pbuf) (s : RxCursor N) :
    copyChainRx r' buffers p s = copyChainRx r buffers p s := by
  induction p generalizing s with
  | nil => rfl
  | cons q p ih => rw [copyChainRx, copyChainRx, copyFullRx_congr h, ih]

/-- The chain of a frame does not depend on the frames before it. -/
theorem SameBuffers.chain (h : SameBuffers x y) (f : PendingFrame N) : f.chain y = f.chain x := by
  show Option.map _ _ = Option.map _ _
  rw [h.buffers]
  congr 1
  funext p
  exact copyChainRx_congr h.bufSize _ _ _

theorem SameBuffers.calls (h : SameBuffers x y) :
    PendingFrame.calls y = PendingFrame.calls x := by
  funext f
  rw [PendingFrame.calls, PendingFrame.calls, h.chain]

/-- There is a chain when a pbuf is allocated. -/
theorem isSome_chain (x : RxState N) (f : PendingFrame N) :
    (f.chain x).isSome = f.allocated := by
  show (Option.map _ (if 0 < f.len.toNat then f.pbufAlloc f.len else none)).isSome = _
  by_cases hpos : 0 < f.len.toNat
  · simp [PendingFrame.allocated, hpos]
  · simp [PendingFrame.allocated, hpos]

/-! ## The loop -/

theorem ethTaskLoop_of_none (frames : List (PendingFrame N)) (h : f.chain x = none) :
    SameBuffers x (ethTaskLoop x (f :: frames)).state ∧
      (ethTaskLoop x (f :: frames)).rest = frames ∧
      (ethTaskLoop x (f :: frames)).calls = f.calls x := by
  have hsame := sameBuffers_lowLevelInput { x with RxFrameInfos := f.RxFrameInfos } true
    f.pbufAlloc f.rbus
  rw [PendingFrame.calls, h, ethTaskLoop]
  rw [PendingFrame.chain] at h
  rw [h]
  exact ⟨⟨hsame.bufSize, hsame.buffers⟩, rfl, rfl⟩

theorem ethTaskLoop_of_some (frames : List (PendingFrame N)) {p : List Pbuf}
    (h : f.chain x = some p) :
    ∃ y, SameBuffers x y ∧
      (ethTaskLoop x (f :: frames)).state = (ethTaskLoop y frames).state ∧
      (ethTaskLoop x (f :: frames)).rest = (ethTaskLoop y frames).rest ∧
      (ethTaskLoop x (f :: frames)).calls = f.calls x ++ (ethTaskLoop y frames).calls := by
  have hsame := sameBuffers_lowLevelInput { x with RxFrameInfos := f.RxFrameInfos } true
    f.pbufAlloc f.rbus
  refine ⟨_, ⟨hsame.bufSize, hsame.buffers⟩, ?_⟩
  rw [PendingFrame.calls, h, ethTaskLoop]
  rw [PendingFrame.chain] at h
  rw [h]
  exact ⟨rfl, rfl, rfl⟩

/-- The loop goes through the batch, or stops behind the first frame without a pbuf. -/
theorem ethTaskLoop_cases (x : RxState N) (frames : List (PendingFrame N)) :
    ((∀ f ∈ frames, f.allocated = true) ∧ (ethTaskLoop x frames).rest = [] ∧
      (ethTaskLoop x frames).calls =
        frames.flatMap (PendingFrame.calls x) ++ [.HAL_ETH_GetReceivedFrame_IT false]) ∨
    ∃ before f behind, frames = before ++ f :: behind ∧
      (∀ g ∈ before, g.allocated = true) ∧ f.allocated = false ∧
      (ethTaskLoop x frames).rest = behind ∧
      (ethTaskLoop x frames).calls = (before ++ [f]).flatMap (PendingFrame.calls x) := by
  induction frames generalizing x with
  | nil => exact .inl ⟨fun f hf => absurd hf List.not_mem_nil, rfl, rfl⟩
  | cons f frames ih =>
      have hsome := isSome_chain x f
      cases hchain : f.chain x with
      | none =>
          obtain ⟨-, hrest, hcalls⟩ := ethTaskLoop_of_none frames hchain
          rw [hchain] at hsome
          refine .inr ⟨[], f, frames, rfl, fun g hg => absurd hg List.not_mem_nil, hsome.symm,
            hrest, ?_⟩
          rw [hcalls, List.nil_append, List.flatMap_singleton]
      | some p =>
          obtain ⟨y, hsame, -, hrest, hcalls⟩ := ethTaskLoop_of_some frames hchain
          rw [hchain] at hsome
          have hfirst : ∀ {gs : List (PendingFrame N)}, (∀ g ∈ gs, g.allocated = true) →
              ∀ g ∈ f :: gs, g.allocated = true :=
            fun hgs => List.forall_mem_cons.mpr ⟨hsome.symm, hgs⟩
          rw [hrest, hcalls]
          rcases ih y with ⟨hall, hnil, hloop⟩ | ⟨before, g, behind, rfl, hall, hg, hbehind, hloop⟩
          · refine .inl ⟨hfirst hall, hnil, ?_⟩
            rw [hloop, hsame.calls, List.flatMap_cons, List.append_assoc]
          · refine .inr ⟨f :: before, g, behind, rfl, hfirst hall, hg, hbehind, ?_⟩
            rw [hloop, hsame.calls, List.cons_append, List.flatMap_cons]

theorem passed_calls (x : RxState N) (frames : List (PendingFrame N)) :
    (frames.flatMap (PendingFrame.calls x)).filterMap TaskCall.passed =
      frames.filterMap (PendingFrame.chain x) := by
  have hframe : ∀ f : PendingFrame N,
      (f.calls x).filterMap TaskCall.passed = (f.chain x).toList := by
    intro f
    rw [PendingFrame.calls]
    cases f.chain x with
    | none => rfl
    | some p =>
        rw [Option.elim_some, svrifInput]
        cases f.inputOk <;> rfl
  rw [List.filterMap_flatMap, List.filterMap_eq_flatMap_toList]
  simp only [hframe]

theorem freed_calls (x : RxState N) (frames : List (PendingFrame N)) :
    (frames.flatMap (PendingFrame.calls x)).filterMap TaskCall.freed =
      (frames.filter fun f => !f.inputOk).filterMap (PendingFrame.chain x) := by
  have hframe : ∀ f : PendingFrame N, (f.calls x).filterMap TaskCall.freed =
      if f.inputOk then [] else (f.chain x).toList := by
    intro f
    rw [PendingFrame.calls]
    cases f.chain x with
    | none => cases f.inputOk <;> rfl
    | some p =>
        rw [Option.elim_some, svrifInput]
        cases f.inputOk <;> rfl
  induction frames with
  | nil => rfl
  | cons f frames ih =>
      rw [List.flatMap_cons, List.filterMap_append, hframe, ih, List.filter_cons]
      cases f.inputOk with
      | true => rfl
      | false => cases hchain : f.chain x <;> simp [hchain]

/-- The frames `taken` are those at the front, and each had its calls. -/
structure Taken (x : RxState N) (frames taken : List (PendingFrame N)) (r : TaskResult N) :
    Prop where
  inOrder : frames = taken ++ r.rest
  passed : r.calls.filterMap TaskCall.passed = taken.filterMap (PendingFrame.chain x)
  freed : r.calls.filterMap TaskCall.freed =
    (taken.filter fun f => !f.inputOk).filterMap (PendingFrame.chain x)

theorem taken_ethTaskLoop (x : RxState N) (frames : List (PendingFrame N)) :
    ∃ taken, Taken x frames taken (ethTaskLoop x frames) := by
  rcases ethTaskLoop_cases x frames with
    ⟨-, hrest, hcalls⟩ | ⟨before, f, behind, rfl, -, -, hrest, hcalls⟩
  · refine ⟨frames, ?_, ?_, ?_⟩
    · rw [hrest, List.append_nil]
    · rw [hcalls, List.filterMap_append, passed_calls]
      exact List.append_nil _
    · rw [hcalls, List.filterMap_append, freed_calls]
      exact List.append_nil _
  · refine ⟨before ++ [f], ?_, ?_, ?_⟩
    · rw [hrest, ← List.append_cons]
    · rw [hcalls, passed_calls]
    · rw [hcalls, freed_calls]

theorem drains_of_allocated (hall : ∀ f ∈ frames, f.allocated = true) : Drains x frames := by
  rcases ethTaskLoop_cases x frames with ⟨-, hrest, hcalls⟩ | ⟨before, f, behind, rfl, -, hf, -⟩
  · obtain ⟨taken, htaken⟩ := taken_ethTaskLoop x frames
    have heq := htaken.inOrder
    rw [hrest, List.append_nil] at heq
    subst heq
    refine ⟨?_, hrest, htaken.passed, htaken.freed⟩
    rw [hcalls, List.getLast?_concat]
  · have hmem := hall f (List.mem_append_right _ List.mem_cons_self)
    rw [hf] at hmem
    cases hmem

/-- The loop drains the receive buffers exactly when there is a pbuf for each frame. -/
theorem drains_iff (x : RxState N) (frames : List (PendingFrame N)) :
    Drains x frames ↔ ∀ f ∈ frames, f.allocated = true := by
  refine ⟨fun h => ?_, drains_of_allocated⟩
  rcases ethTaskLoop_cases x frames with ⟨hall, -⟩ | ⟨before, f, behind, rfl, -, hf, -, hcalls⟩
  · exact hall
  · -- the last call was answered with a frame, and no pbuf was got for it
    have hnone : f.chain x = none := by
      rw [← Option.not_isSome_iff_eq_none, isSome_chain, hf]
      decide
    have hlast : f.calls x = [.HAL_ETH_GetReceivedFrame_IT true] := by
      rw [PendingFrame.calls, hnone]
      rfl
    have hends := h.ends
    rw [hcalls, List.flatMap_append, List.flatMap_singleton, hlast, List.getLast?_concat] at hends
    cases hends

/-- A frame in each of two buffers. -/
def twoReceived : RxState 2 where
  table :=
    { bufSize := 1524
      bufSize_pos := Nat.succ_pos 1523
      desc := fun d => ⟨false, d, nextDesc d⟩
      buffer := fun _ => rfl
      chained := fun _ => rfl }
  RxFrameInfos := ⟨0, 0, 0, 0⟩
  buffers := fun _ _ => 0

/-- There is no pbuf for the first of them. -/
def twoPending : List (PendingFrame 2) :=
  [{ RxFrameInfos := ⟨0, 1, 60, 0⟩, pbufAlloc := fun _ => none, inputOk := true, rbus := false },
   { RxFrameInfos := ⟨1, 1, 60, 1⟩, pbufAlloc := fun n => some [⟨n, fun _ => 0⟩], inputOk := true,
     rbus := false }]

/-- The second is left behind. -/
theorem frame_stranded : ¬ Drains twoReceived twoPending := by
  intro h
  have hrest := congrArg List.length h.rest
  exact absurd hrest (by decide)

/-! ## The frames -/

/-- The bytes of a frame. -/
def PendingFrame.bytes (x : RxState N) (f : PendingFrame N) : List Byte :=
  RxState.frame { x with RxFrameInfos := f.RxFrameInfos }

/-- The HAL describes a frame in the receive buffers, and a pbuf is as long as was asked
for. -/
structure PendingFrame.Received (x : RxState N) (f : PendingFrame N) : Prop where
  buffer : f.RxFrameInfos.buffer = (x.table.desc f.RxFrameInfos.FSRxDesc).Buffer1Addr
  len_le : f.len.toNat ≤ f.RxFrameInfos.SegCount * x.table.bufSize
  tot_len : ∀ p, f.pbufAlloc f.len = some p → totalLength p = f.len.toNat

/-- What `SVRIF_input` is given are the frames, in order. -/
theorem passed_bytes (hall : ∀ f ∈ frames, f.allocated = true)
    (hreceived : ∀ f ∈ frames, f.Received x) :
    ((ethTaskLoop x frames).calls.filterMap TaskCall.passed).map chainBytes =
      frames.map (PendingFrame.bytes x) := by
  rw [(drains_of_allocated hall).passed]
  induction frames with
  | nil => rfl
  | cons f frames ih =>
      rw [List.forall_mem_cons] at hall hreceived
      have hsome := isSome_chain x f
      rw [hall.1] at hsome
      obtain ⟨p, hp⟩ := Option.isSome_iff_exists.mp hsome
      have hbytes : chainBytes p = f.bytes x :=
        chainBytes_lowLevelInput (x := { x with RxFrameInfos := f.RxFrameInfos })
          hreceived.1.buffer hreceived.1.len_le hreceived.1.tot_len hp
      rw [List.filterMap_cons_some hp, List.map_cons, List.map_cons, hbytes,
        ih hall.2 hreceived.2]

/-! ## One signal after the other -/

/-- No frame is left behind exactly when there is a pbuf for each but the last. -/
theorem rest_eq_nil_iff (x : RxState N) (frames : List (PendingFrame N)) :
    (ethTaskLoop x frames).rest = [] ↔ ∀ f ∈ frames.dropLast, f.allocated = true := by
  rcases ethTaskLoop_cases x frames with
    ⟨hall, hrest, -⟩ | ⟨before, f, behind, rfl, hall, hf, hrest, -⟩
  · exact ⟨fun _ f hmem => hall f (List.dropLast_subset frames hmem), fun _ => hrest⟩
  · rw [hrest, List.dropLast_append_cons]
    cases behind with
    | nil => simpa using hall
    | cons g behind =>
        have hmem : f ∈ before ++ (f :: g :: behind).dropLast :=
          List.mem_append_right _ List.mem_cons_self
        constructor
        · intro hnil
          cases hnil
        · intro hdrop
          have hsome := hdrop f hmem
          rw [hf] at hsome
          cases hsome

theorem sameBuffers_ethTaskLoop (x : RxState N) (frames : List (PendingFrame N)) :
    SameBuffers x (ethTaskLoop x frames).state := by
  induction frames generalizing x with
  | nil => exact .refl x
  | cons f frames ih =>
      cases hchain : f.chain x with
      | none => exact (ethTaskLoop_of_none frames hchain).1
      | some p =>
          obtain ⟨y, hsame, hstate, -⟩ := ethTaskLoop_of_some frames hchain
          rw [hstate]
          exact hsame.trans (ih y)

/-- Over any number of signals no frame is passed on twice, overtaken or lost: what is not yet
handled is still waiting. -/
theorem taken_ethTaskMain (x : RxState N) (waiting : List (PendingFrame N))
    (signals : List (List (PendingFrame N))) :
    ∃ taken, Taken x (waiting ++ signals.flatten) taken (ethTaskMain x waiting signals) := by
  induction signals generalizing x waiting with
  | nil => exact ⟨[], List.append_nil _, rfl, rfl⟩
  | cons frames signals ih =>
      obtain ⟨first, hfirst⟩ := taken_ethTaskLoop x (waiting ++ frames)
      have hsame := sameBuffers_ethTaskLoop x (waiting ++ frames)
      obtain ⟨later, hlater⟩ := ih (ethTaskLoop x (waiting ++ frames)).state
        (ethTaskLoop x (waiting ++ frames)).rest
      have hchain : PendingFrame.chain (ethTaskLoop x (waiting ++ frames)).state =
          PendingFrame.chain x := funext hsame.chain
      refine ⟨first ++ later, ?_, ?_, ?_⟩
      · rw [List.flatten_cons, ← List.append_assoc, hfirst.inOrder, List.append_assoc,
          hlater.inOrder, List.append_assoc]
        rfl
      · rw [ethTaskMain, List.filterMap_append, hfirst.passed, hlater.passed, hchain,
          List.filterMap_append]
      · rw [ethTaskMain, List.filterMap_append, hfirst.freed, hlater.freed, hchain,
          List.filter_append, List.filterMap_append]

end BillCounter.Ethernet
