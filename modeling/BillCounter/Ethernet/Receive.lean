import BillCounter.Ethernet.Model

/-!
# The chain gets the frame, and the DMA its descriptors

The loops of `ETH_lowLevelInput` read the receive buffers behind each other: whatever
the lengths of the pbufs, each gets the next bytes of the frame.  Behind them, with or
without a chain, every descriptor of the frame is handed back.
-/

namespace BillCounter.Ethernet

open BillCounter.Lib.RawBytes
open BillCounter.Lib.Segments

variable {N : Nat} {r : DescTable N} {first : Fin N} {buffers : Buffers N}

/-- The bytes of the receive buffers behind each other. -/
abbrev received (r : DescTable N) (first : Fin N) (buffers : Buffers N) : Memory :=
  flat r.bufSize (descAfter first) buffers

/-- The loops are in buffer `k`, at an offset inside or at its end. -/
structure InBuffer (r : DescTable N) (first : Fin N) (s : RxCursor N) (k : Nat) : Prop where
  desc : s.dmarxdesc = descAfter first k
  buffer : s.buffer = descAfter first k
  offset_le : s.bufferoffset ≤ r.bufSize

/-- The position of the next byte. -/
def RxCursor.position (s : RxCursor N) (r : DescTable N) (k : Nat) : Nat :=
  k * r.bufSize + s.bufferoffset

/-- A `memcpy` inside a buffer reads the bytes at the position. -/
theorem read_received {s : RxCursor N} {k n : Nat} (h : InBuffer r first s k)
    (hn : s.bufferoffset + n ≤ r.bufSize) :
    read (buffers s.buffer) s.bufferoffset n =
      read (received r first buffers) (s.position r k) n := by
  rw [h.buffer]
  exact (read_flat hn).symm

/-- What `copyFullRx` leaves for the last `memcpy`: less than is left of the buffer it is
in, with everything before copied. -/
theorem copyFullRx_spec (r : DescTable N) (first : Fin N) (buffers : Buffers N)
    (s : RxCursor N) (left offset : Nat) (payload : Memory) (k : Nat)
    (h : InBuffer r first s k) :
    ∃ s' left' offset' payload' k',
      copyFullRx r buffers s left offset payload = (s', left', offset', payload') ∧
      InBuffer r first s' k' ∧ left' + s'.bufferoffset ≤ r.bufSize ∧ left' ≤ left ∧
      s'.position r k' + left' = s.position r k + left ∧ offset' + left' = offset + left ∧
      payload' = write payload offset
        (read (received r first buffers) (s.position r k) (left - left')) := by
  induction s, left, offset, payload using copyFullRx.induct r buffers
    generalizing k with
  | case1 s left offset payload hlt n payload₁ d ih =>
      have hle := h.offset_le
      have hn : n = r.bufSize - s.bufferoffset := rfl
      have hnext : d = descAfter first (k + 1) := by
        show (r.desc s.dmarxdesc).Buffer2NextDescAddr = _
        rw [r.chained, h.desc, nextDesc_descAfter]
      have hposition : (RxCursor.mk d (r.desc d).Buffer1Addr 0).position r (k + 1) =
          s.position r k + n := by
        simp only [RxCursor.position, Nat.succ_mul]
        omega
      obtain ⟨s', left', offset', payload', k', heq, hin, hfits, hleft, hpos, hoff, hpay⟩ :=
        ih (k + 1) ⟨hnext, (r.buffer d).trans hnext, Nat.zero_le _⟩
      rw [hposition] at hpos hpay
      refine ⟨s', left', offset', payload', k', ?_, hin, hfits, by omega, by omega, by omega, ?_⟩
      · rw [copyFullRx, if_pos hlt]
        exact heq
      · -- the bytes of this pass, and those of the rest
        have hsplit : left - left' = n + (left - n - left') := by omega
        have happend := write_append payload offset
          (read (received r first buffers) (s.position r k) n)
          (read (received r first buffers) (s.position r k + n) (left - n - left'))
        rw [length_read, ← read_add, ← hsplit] at happend
        rw [hpay, ← happend, ← read_received h (by omega)]
  | case2 s left offset payload hge =>
      refine ⟨s, left, offset, payload, k, ?_, h, Nat.le_of_not_lt hge, Nat.le_refl _, rfl,
        rfl, ?_⟩
      · rw [copyFullRx, if_neg hge]
      · rw [Nat.sub_self]
        exact (write_nil _ _).symm

/-! ## The chain -/

/-- A chain with `bs` put into its pbufs in order. -/
def fillChain : List Pbuf → List Byte → List Pbuf
  | [], _ => []
  | q :: p, bs =>
      { q with payload := write q.payload 0 (bs.take q.len.toNat) } ::
        fillChain p (bs.drop q.len.toNat)

theorem chainBytes_fillChain (p : List Pbuf) (bs : List Byte) (h : totalLength p = bs.length) :
    chainBytes (fillChain p bs) = bs := by
  induction p generalizing bs with
  | nil => exact (List.length_eq_zero_iff.1 h.symm).symm
  | cons q p ih =>
      have htotal : q.len.toNat + totalLength p = bs.length := h
      have hlen : (bs.take q.len.toNat).length = q.len.toNat := by
        rw [List.length_take]
        omega
      have hfirst : Pbuf.bytes { q with payload := write q.payload 0 (bs.take q.len.toNat) } =
          bs.take q.len.toNat := by
        have hread := read_write_self q.payload 0 (bs.take q.len.toNat)
        rwa [hlen] at hread
      have hrest : chainBytes (fillChain p (bs.drop q.len.toNat)) = bs.drop q.len.toNat :=
        ih _ (by rw [List.length_drop]; omega)
      rw [fillChain, chainBytes, List.flatMap_cons, hfirst, ← chainBytes, hrest,
        List.take_append_drop]

/-- The loops put the bytes from their position on into the chain. -/
theorem copyChainRx_spec (r : DescTable N) (first : Fin N) (buffers : Buffers N)
    (p : List Pbuf) (s : RxCursor N) (k : Nat) (h : InBuffer r first s k) :
    copyChainRx r buffers p s =
      fillChain p (read (received r first buffers) (s.position r k) (totalLength p)) := by
  induction p generalizing s k with
  | nil => rfl
  | cons q p ih =>
      obtain ⟨s', left', offset', payload', k', heq, hin, hfits, hleft, hpos, hoff, hpay⟩ :=
        copyFullRx_spec r first buffers s q.len.toNat 0 q.payload k h
      have hin' : InBuffer r first { s' with bufferoffset := s'.bufferoffset + left' } k' :=
        ⟨hin.desc, hin.buffer, by
          show s'.bufferoffset + left' ≤ r.bufSize
          omega⟩
      have hposition : RxCursor.position
          { s' with bufferoffset := s'.bufferoffset + left' } r k' =
          s.position r k + q.len.toNat := (Nat.add_assoc ..).symm.trans hpos
      have hpayload : write payload' offset' (read (buffers s'.buffer) s'.bufferoffset left') =
          write q.payload 0
            (read (received r first buffers) (s.position r k) q.len.toNat) := by
        have happend := write_append q.payload 0
          (read (received r first buffers) (s.position r k) (q.len.toNat - left'))
          (read (received r first buffers) (s.position r k + (q.len.toNat - left')) left')
        rw [length_read, ← read_add, Nat.sub_add_cancel hleft] at happend
        have hoff' : offset' = 0 + (q.len.toNat - left') := by omega
        have hpos' : s'.position r k' = s.position r k + (q.len.toNat - left') := by omega
        rw [hpay, ← happend, read_received hin (by omega), hoff', hpos']
      have hsplit : read (received r first buffers) (s.position r k) (totalLength (q :: p)) =
          read (received r first buffers) (s.position r k) q.len.toNat ++
            read (received r first buffers) (s.position r k + q.len.toNat) (totalLength p) :=
        read_add _ _ _ _
      rw [copyChainRx, heq, fillChain, hsplit, List.take_left' (length_read _ _ _),
        List.drop_left' (length_read _ _ _), ← hpayload, ← hposition, ← ih _ k' hin']

/-! ## The descriptors -/

theorem setOwn_own (r : DescTable N) (d x : Fin N) :
    ((r.setOwn d).desc x).own = true ↔ x = d ∨ (r.desc x).own = true := by
  by_cases h : x = d
  · subst h
    simp [DescTable.setOwn]
  · simp [DescTable.setOwn, h]

/-- The descriptors handed back are the next `n`. -/
theorem releaseDescs_own (n : Nat) (first x : Fin N) (k : Nat) (r : DescTable N) :
    ((releaseDescs n (descAfter first k) r).desc x).own = true ↔
      (∃ j, k ≤ j ∧ j < k + n ∧ x = descAfter first j) ∨ (r.desc x).own = true := by
  induction n generalizing k r with
  | zero =>
      refine ⟨.inr, fun h => h.resolve_left ?_⟩
      rintro ⟨j, hle, hlt, -⟩
      omega
  | succ n ih =>
      have hnext : ((r.setOwn (descAfter first k)).desc
          (descAfter first k)).Buffer2NextDescAddr = descAfter first (k + 1) := by
        rw [(r.setOwn _).chained, nextDesc_descAfter]
      rw [releaseDescs, hnext, ih, setOwn_own]
      constructor
      · rintro (⟨j, hle, hlt, rfl⟩ | rfl | hown)
        · exact .inl ⟨j, by omega, by omega, rfl⟩
        · exact .inl ⟨k, Nat.le_refl k, by omega, rfl⟩
        · exact .inr hown
      · rintro (⟨j, hle, hlt, rfl⟩ | hown)
        · rcases Nat.eq_or_lt_of_le hle with rfl | hlt'
          · exact .inr (.inl rfl)
          · exact .inl ⟨j, hlt', by omega, rfl⟩
        · exact .inr (.inr hown)

/-! ## The main result -/

variable {x : RxState N} {pbufAlloc : BitVec 16 → Option (List Pbuf)}

/-- The length of the frame, as `ETH_lowLevelInput` takes it. -/
def RxState.len (x : RxState N) : BitVec 16 := x.RxFrameInfos.length.setWidth 16

/-- The receive buffers of the frame behind each other. -/
def RxState.segments (x : RxState N) : List Byte :=
  contents x.table.bufSize (descAfter x.RxFrameInfos.FSRxDesc) x.buffers x.RxFrameInfos.SegCount

/-- The frame. -/
def RxState.frame (x : RxState N) : List Byte := x.segments.take x.len.toNat

theorem lowLevelInput_p (x : RxState N) (pbufAlloc : BitVec 16 → Option (List Pbuf))
    (rbus : Bool) (hbuffer : x.RxFrameInfos.buffer =
      (x.table.desc x.RxFrameInfos.FSRxDesc).Buffer1Addr)
    (hlen : x.len.toNat ≤ x.RxFrameInfos.SegCount * x.table.bufSize)
    (halloc : ∀ p, pbufAlloc x.len = some p → totalLength p = x.len.toNat) :
    (ethLowLevelInput x true pbufAlloc rbus).p =
      if 0 < x.len.toNat then (pbufAlloc x.len).map fun p => fillChain p x.frame else none := by
  have hin : InBuffer x.table x.RxFrameInfos.FSRxDesc
      ⟨x.RxFrameInfos.FSRxDesc, x.RxFrameInfos.buffer, 0⟩ 0 := by
    refine ⟨(descAfter_zero _).symm, ?_, Nat.zero_le _⟩
    rw [hbuffer, x.table.buffer]
    exact (descAfter_zero _).symm
  have hcopy : ∀ p, pbufAlloc x.len = some p →
      copyChainRx x.table x.buffers p ⟨x.RxFrameInfos.FSRxDesc, x.RxFrameInfos.buffer, 0⟩ =
        fillChain p x.frame := by
    intro p hp
    rw [copyChainRx_spec x.table _ x.buffers p _ 0 hin, halloc p hp, RxState.frame,
      RxState.segments, take_contents hlen]
    simp only [RxCursor.position, Nat.zero_mul, Nat.zero_add]
  show Option.map _ (if 0 < x.len.toNat then pbufAlloc x.len else none) = _
  by_cases hpos : 0 < x.len.toNat
  · rw [if_pos hpos, if_pos hpos]
    cases hp : pbufAlloc x.len with
    | none => rfl
    | some p => exact congrArg some (hcopy p hp)
  · rw [if_neg hpos, if_neg hpos]
    rfl

theorem length_frame (hlen : x.len.toNat ≤ x.RxFrameInfos.SegCount * x.table.bufSize) :
    x.frame.length = x.len.toNat := by
  rw [RxState.frame, RxState.segments, take_contents hlen, length_read]

/-- A chain that is returned has the frame in it. -/
theorem chainBytes_lowLevelInput {rbus : Bool} {p : List Pbuf}
    (hbuffer : x.RxFrameInfos.buffer = (x.table.desc x.RxFrameInfos.FSRxDesc).Buffer1Addr)
    (hlen : x.len.toNat ≤ x.RxFrameInfos.SegCount * x.table.bufSize)
    (halloc : ∀ p, pbufAlloc x.len = some p → totalLength p = x.len.toNat)
    (h : (ethLowLevelInput x true pbufAlloc rbus).p = some p) : chainBytes p = x.frame := by
  rw [lowLevelInput_p x pbufAlloc rbus hbuffer hlen halloc] at h
  by_cases hpos : 0 < x.len.toNat
  · rw [if_pos hpos] at h
    obtain ⟨chain, halloced, rfl⟩ := Option.map_eq_some_iff.1 h
    exact chainBytes_fillChain chain x.frame ((halloc chain halloced).trans (length_frame hlen).symm)
  · rw [if_neg hpos] at h
    cases h

/-- What `ETH_lowLevelInput` does with a frame in the receive buffers: the chain
`pbuf_alloc` returns gets the frame, of which no byte lies beyond a buffer, and whether
there is a chain or not the descriptors of the frame, and no others, go back to the
DMA. -/
theorem lowLevelInput_gathers (x : RxState N) (pbufAlloc : BitVec 16 → Option (List Pbuf))
    (rbus : Bool) (hbuffer : x.RxFrameInfos.buffer =
      (x.table.desc x.RxFrameInfos.FSRxDesc).Buffer1Addr)
    (hlen : x.len.toNat ≤ x.RxFrameInfos.SegCount * x.table.bufSize)
    (halloc : ∀ p, pbufAlloc x.len = some p → totalLength p = x.len.toNat) :
    let y := ethLowLevelInput x true pbufAlloc rbus
    (y.p = if 0 < x.len.toNat then (pbufAlloc x.len).map fun p => fillChain p x.frame
      else none) ∧
    (∀ p, y.p = some p → chainBytes p = x.frame) ∧
    (∀ buffers : Buffers N,
      (∀ k, k < x.RxFrameInfos.SegCount → ∀ o, o < x.table.bufSize →
        x.buffers (descAfter x.RxFrameInfos.FSRxDesc k) o =
          buffers (descAfter x.RxFrameInfos.FSRxDesc k) o) →
      (ethLowLevelInput { x with buffers := buffers } true pbufAlloc rbus).p = y.p) ∧
    (∀ d, (y.state.table.desc d).own = true ↔
      (∃ k, k < x.RxFrameInfos.SegCount ∧ d = descAfter x.RxFrameInfos.FSRxDesc k) ∨
        (x.table.desc d).own = true) ∧
    y.state.RxFrameInfos.SegCount = 0 := by
  intro y
  have hp := lowLevelInput_p x pbufAlloc rbus hbuffer hlen halloc
  refine ⟨hp, fun p hsome => ?_, fun buffers hsame => ?_, fun d => ?_, rfl⟩
  · exact chainBytes_lowLevelInput hbuffer hlen halloc hsome
  · have hsegments : RxState.frame { x with buffers := buffers } = x.frame :=
      congrArg (List.take x.len.toNat) (contents_congr hsame).symm
    have hp' := lowLevelInput_p { x with buffers := buffers } pbufAlloc rbus hbuffer hlen halloc
    rw [hsegments] at hp'
    exact hp'.trans hp.symm
  · have hown := releaseDescs_own x.RxFrameInfos.SegCount x.RxFrameInfos.FSRxDesc d 0 x.table
    rw [descAfter_zero] at hown
    refine hown.trans (or_congr_left ?_)
    simp only [Nat.zero_le, Nat.zero_add, true_and]

/-- Six bytes in three receive buffers, from the last on. -/
def sixReceived : RxState 3 where
  table :=
    { bufSize := 2
      bufSize_pos := Nat.two_pos
      desc := fun d => ⟨false, d, nextDesc d⟩
      buffer := fun _ => rfl
      chained := fun _ => rfl }
  RxFrameInfos := ⟨2, 3, 6, 2⟩
  buffers d o := BitVec.ofNat 8 (16 * d.val + o)

theorem lowLevelInput_gathers_six :
    (ethLowLevelInput sixReceived true
      (fun _ => some [⟨1, fun _ => 0⟩, ⟨5, fun _ => 0⟩]) false).p.map chainBytes =
      some [0x20, 0x21, 0x00, 0x01, 0x10, 0x11] := by
  obtain ⟨hp, hbytes, -⟩ := lowLevelInput_gathers sixReceived
    (fun _ => some [⟨1, fun _ => 0⟩, ⟨5, fun _ => 0⟩]) false rfl (by decide)
    (by rintro p ⟨⟩; rfl)
  rw [if_pos (by decide)] at hp
  rw [hp]
  exact congrArg some (hbytes _ hp)

end BillCounter.Ethernet
