import BillCounter.Lib.Segments
import Mathlib.Data.Nat.ModEq

/-!
# Frames between lwIP and the Ethernet DMA

`NETIF_lowLevelOutput` copies a chain of pbufs into the transmit buffers and
`ETH_lowLevelInput` copies receive buffers into a chain of pbufs.  Each buffer belongs
to a descriptor, and a descriptor to the DMA while its OWN bit is set.  Both loops keep
an offset into the pbuf and one into the buffer, which end independently.

The HAL, lwIP's allocator and the registers are outside: what they answer is a parameter,
and what is asked of them is recorded.  All offsets and lengths fit their types: a pbuf
has fewer than `2 ^ 16` bytes, and a frame fits the buffers.
-/

namespace BillCounter.Ethernet

open BillCounter.Lib.RawBytes
open BillCounter.Lib.Segments

/-! ## Descriptors -/

/-- `ETH_DMADescTypeDef`: the OWN bit of `Status`, the number of the buffer and that of
the next descriptor. -/
structure EthDmaDesc (N : Nat) where
  own : Bool
  Buffer1Addr : Fin N
  Buffer2NextDescAddr : Fin N

variable {N : Nat}

def nextDesc (d : Fin N) : Fin N := ⟨(d.val + 1) % N, Nat.mod_lt _ d.pos⟩

/-- `N` descriptors in chain mode, as the HAL sets them up, each with its own buffer of
`bufSize` bytes: `ETH_TX_BUF_SIZE` or `ETH_RX_BUF_SIZE`. -/
structure DescTable (N : Nat) where
  bufSize : Nat
  bufSize_pos : 0 < bufSize
  desc : Fin N → EthDmaDesc N
  buffer : ∀ d, (desc d).Buffer1Addr = d
  chained : ∀ d, (desc d).Buffer2NextDescAddr = nextDesc d

/-- The bytes at the addresses of each buffer, and beyond. -/
abbrev Buffers (N : Nat) := Fin N → Memory

/-- An element of a chain of pbufs. -/
structure Pbuf where
  len : BitVec 16
  payload : Memory

/-- What the two functions ask of the hardware. -/
inductive EthCall
  | ETH_TransmitFrame (ulFrameLength : Nat)
  /-- `DMASR = ETH_DMASR_TUS`. -/
  | clearTus
  /-- `DMATPDR = 0`. -/
  | resumeTransmission
  /-- `DMASR = ETH_DMASR_RBUS`. -/
  | clearRbus
  /-- `DMARPDR = 0`. -/
  | resumeReception

/-! ## `NETIF_lowLevelOutput` -/

inductive Err
  | ERR_OK
  | ERR_USE

structure TxCursor (N : Nat) where
  DmaTxDesc : Fin N
  buffer : Fin N
  framelength : Nat
  bufferoffset : Nat
  byteslefttocopy : Nat
  payloadoffset : Nat
  buffers : Buffers N

/-- `while( (byteslefttocopy + bufferoffset) > ETH_TX_BUF_SIZE )`, for the pbuf `q`.
`goto error` leaves with the buffers as they are. -/
def copyFullTx (r : DescTable N) (q : Pbuf) (s : TxCursor N) :
    Except (Buffers N) (TxCursor N) :=
  if r.bufSize < s.byteslefttocopy + s.bufferoffset then
    let n := r.bufSize - s.bufferoffset
    let buffers := store s.buffers s.buffer s.bufferoffset (read q.payload s.payloadoffset n)
    let DmaTxDesc := (r.desc s.DmaTxDesc).Buffer2NextDescAddr
    if (r.desc DmaTxDesc).own then .error buffers
    else
      copyFullTx r q
        { DmaTxDesc := DmaTxDesc
          buffer := (r.desc DmaTxDesc).Buffer1Addr
          framelength := s.framelength + n
          bufferoffset := 0
          byteslefttocopy := s.byteslefttocopy - n
          payloadoffset := s.payloadoffset + n
          buffers := buffers }
  else .ok s
termination_by s.byteslefttocopy + s.bufferoffset
decreasing_by
  have := r.bufSize_pos
  omega

/-- `for(q = p; q != NULL; q = q->next)`. -/
def copyChainTx (r : DescTable N) : List Pbuf → TxCursor N → Except (Buffers N) (TxCursor N)
  | [], s => .ok s
  | q :: p, s =>
      if (r.desc s.DmaTxDesc).own then .error s.buffers
      else
        match copyFullTx r q { s with byteslefttocopy := q.len.toNat, payloadoffset := 0 } with
        | .error buffers => .error buffers
        | .ok s =>
            copyChainTx r p
              { s with
                buffers := store s.buffers s.buffer s.bufferoffset
                  (read q.payload s.payloadoffset s.byteslefttocopy)
                bufferoffset := s.bufferoffset + s.byteslefttocopy
                framelength := s.framelength + s.byteslefttocopy }

structure TxResult (N : Nat) where
  errval : Err
  buffers : Buffers N
  calls : List EthCall

/-- The end of `NETIF_lowLevelOutput`, with the flag `ETH_DMASR_TUS` as read. -/
def resumeTx (tus : Bool) : List EthCall :=
  if tus then [.clearTus, .resumeTransmission] else []

/-- `NETIF_lowLevelOutput`, with the descriptor `ETH_getTxDesc` returns. -/
def netifLowLevelOutput (r : DescTable N) (txDesc : Fin N) (p : List Pbuf)
    (buffers : Buffers N) (tus : Bool) : TxResult N :=
  let s : TxCursor N :=
    { DmaTxDesc := txDesc
      buffer := (r.desc txDesc).Buffer1Addr
      framelength := 0
      bufferoffset := 0
      byteslefttocopy := 0
      payloadoffset := 0
      buffers := buffers }
  match copyChainTx r p s with
  | .ok s => ⟨.ERR_OK, s.buffers, .ETH_TransmitFrame s.framelength :: resumeTx tus⟩
  | .error buffers => ⟨.ERR_USE, buffers, resumeTx tus⟩

/-! ## `ETH_lowLevelInput` -/

/-- `ETH_DMARxFrameInfos`, as `HAL_ETH_GetReceivedFrame_IT` sets it. -/
structure RxFrameInfos (N : Nat) where
  FSRxDesc : Fin N
  SegCount : Nat
  length : BitVec 32
  buffer : Fin N

structure RxCursor (N : Nat) where
  dmarxdesc : Fin N
  buffer : Fin N
  bufferoffset : Nat

/-- `while( (byteslefttocopy + bufferoffset) > ETH_RX_BUF_SIZE )`, with the bytes left,
the offset into the payload and the payload so far. -/
def copyFullRx (r : DescTable N) (buffers : Buffers N) (s : RxCursor N)
    (byteslefttocopy payloadoffset : Nat) (payload : Memory) :
    RxCursor N × Nat × Nat × Memory :=
  if r.bufSize < byteslefttocopy + s.bufferoffset then
    let n := r.bufSize - s.bufferoffset
    let payload := write payload payloadoffset (read (buffers s.buffer) s.bufferoffset n)
    let dmarxdesc := (r.desc s.dmarxdesc).Buffer2NextDescAddr
    copyFullRx r buffers
      { dmarxdesc := dmarxdesc
        buffer := (r.desc dmarxdesc).Buffer1Addr
        bufferoffset := 0 }
      (byteslefttocopy - n) (payloadoffset + n) payload
  else (s, byteslefttocopy, payloadoffset, payload)
termination_by byteslefttocopy + s.bufferoffset
decreasing_by
  have := r.bufSize_pos
  omega

/-- `for(q = p; q != NULL; q = q->next)`. -/
def copyChainRx (r : DescTable N) (buffers : Buffers N) : List Pbuf → RxCursor N → List Pbuf
  | [], _ => []
  | q :: p, s =>
      let x := copyFullRx r buffers s q.len.toNat 0 q.payload
      { q with payload :=
          write x.2.2.2 x.2.2.1 (read (buffers x.1.buffer) x.1.bufferoffset x.2.1) } ::
        copyChainRx r buffers p { x.1 with bufferoffset := x.1.bufferoffset + x.2.1 }

/-- `Status |= ETH_DMARXDESC_OWN`. -/
def DescTable.setOwn (r : DescTable N) (d : Fin N) : DescTable N where
  bufSize := r.bufSize
  bufSize_pos := r.bufSize_pos
  desc := Function.update r.desc d { r.desc d with own := true }
  buffer x := by
    by_cases h : x = d
    · subst h
      rw [Function.update_self]
      exact r.buffer x
    · rw [Function.update_of_ne h]
      exact r.buffer x
  chained x := by
    by_cases h : x = d
    · subst h
      rw [Function.update_self]
      exact r.chained x
    · rw [Function.update_of_ne h]
      exact r.chained x

/-- `for (i=0; i < SegCount; i++)`, from `dmarxdesc` on. -/
def releaseDescs : Nat → Fin N → DescTable N → DescTable N
  | 0, _, r => r
  | n + 1, dmarxdesc, r =>
      let r := r.setOwn dmarxdesc
      releaseDescs n (r.desc dmarxdesc).Buffer2NextDescAddr r

/-- The receive side of `xETH`. -/
structure RxState (N : Nat) where
  table : DescTable N
  RxFrameInfos : RxFrameInfos N
  buffers : Buffers N

structure RxResult (N : Nat) where
  p : Option (List Pbuf)
  state : RxState N
  calls : List EthCall

/-- `ETH_lowLevelInput`, with `RxFrameInfos` as `HAL_ETH_GetReceivedFrame_IT` left it and
whether it returned `HAL_OK`, with what `pbuf_alloc(PBUF_RAW, len, PBUF_POOL)` returns,
and with the flag `ETH_DMASR_RBUS` as read. -/
def ethLowLevelInput (x : RxState N) (halOk : Bool)
    (pbufAlloc : BitVec 16 → Option (List Pbuf)) (rbus : Bool) : RxResult N :=
  if halOk = false then ⟨none, x, []⟩
  else
    let len : BitVec 16 := x.RxFrameInfos.length.setWidth 16
    let p := if 0 < len.toNat then pbufAlloc len else none
    let s : RxCursor N := ⟨x.RxFrameInfos.FSRxDesc, x.RxFrameInfos.buffer, 0⟩
    ⟨p.map fun chain => copyChainRx x.table x.buffers chain s,
      { x with
        table := releaseDescs x.RxFrameInfos.SegCount x.RxFrameInfos.FSRxDesc x.table
        RxFrameInfos := { x.RxFrameInfos with SegCount := 0 } },
      if rbus then [.clearRbus, .resumeReception] else []⟩

/-! ## Frames -/

/-- The bytes of a pbuf. -/
def Pbuf.bytes (q : Pbuf) : List Byte := read q.payload 0 q.len.toNat

/-- The bytes of a chain. -/
def chainBytes (p : List Pbuf) : List Byte := p.flatMap Pbuf.bytes

/-- The length of a chain, `tot_len` of its first pbuf. -/
def totalLength (p : List Pbuf) : Nat := (p.map fun q => q.len.toNat).sum

/-- The descriptor `k` places behind `first`. -/
def descAfter (first : Fin N) (k : Nat) : Fin N :=
  ⟨(first.val + k) % N, Nat.mod_lt _ first.pos⟩

theorem length_bytes (q : Pbuf) : q.bytes.length = q.len.toNat := length_read _ _ _

theorem length_chainBytes (p : List Pbuf) : (chainBytes p).length = totalLength p := by
  simp [chainBytes, totalLength, List.length_flatMap, length_bytes]

theorem descAfter_zero (first : Fin N) : descAfter first 0 = first := by
  ext
  exact Nat.mod_eq_of_lt first.isLt

theorem nextDesc_descAfter (first : Fin N) (k : Nat) :
    nextDesc (descAfter first k) = descAfter first (k + 1) := by
  ext
  simp [nextDesc, descAfter, Nat.add_assoc]

/-- The first `N` descriptors from any on are different. -/
theorem descAfter_injective (first : Fin N) (j k : Nat) (hj : j < N) (hk : k < N)
    (h : descAfter first j = descAfter first k) : j = k := by
  have hmod : (first.val + j) % N = (first.val + k) % N := congrArg Fin.val h
  exact (Nat.ModEq.add_left_cancel' first.val hmod).eq_of_lt_of_lt hj hk

end BillCounter.Ethernet
