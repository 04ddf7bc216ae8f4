import BillCounter.Serial.Model

/-!
# The receive ring is a bounded queue that drops its oldest byte

The ring of `serial.c` represents the list of the bytes that `ulRxLength` and
`ulRxIndex` delimit.  An interrupt that delivers a byte pushes it, a pop takes
the byte at the front, and no other step touches the list; so every interleaving
of interrupts and readers is a run of the queue of `Lib.DropOldest` over the
bytes delivered and popped.  The mutex keeps a reader that has found the ring
non-empty alone with it until its pop.
-/

namespace BillCounter.Serial

open BillCounter.Lib.RawBytes
open BillCounter.Lib.DropOldest
open BillCounter.Lib.Runs

/-! ## The ring -/

/-- The bytes in the ring, oldest first. -/
def SerialStruct.queued (s : SerialStruct) : List Byte :=
  contents s.ulRxBufferLength s.pRxBuffer s.ulRxIndex s.ulRxLength

/-- A ring of `L` bytes between two interrupts. -/
structure RingInv (L : Nat) (s : SerialStruct) : Prop where
  bufferLength : s.ulRxBufferLength = L
  index_lt : s.ulRxIndex < L
  length_le : s.ulRxLength ≤ L
  uart : s.xUART = ⟨0, 8, 8⟩

variable {L : Nat} {s : SerialStruct}

theorem u32_of_lt {n : Nat} (h : n < 2 ^ 32) : u32 n = n := Nat.mod_eq_of_lt h

theorem u32_lt (n : Nat) : u32 n < 2 ^ 32 := Nat.mod_lt _ (Nat.two_pow_pos 32)

/-- Moving the index on makes the ring shorter by one. -/
theorem skipOldest_length (hlt : s.ulRxLength < 2 ^ 32) (hpos : 0 < s.ulRxLength) :
    (skipOldest s).ulRxLength = s.ulRxLength - 1 := by
  simp only [skipOldest, u32]
  omega

/-- Moving the index on takes the oldest byte out. -/
theorem skipOldest_spec (hL : L ≤ 2 ^ 31) (h : RingInv L s) (hpos : 0 < s.ulRxLength) :
    RingInv L (skipOldest s) ∧
      s.queued = s.pRxBuffer s.ulRxIndex :: (skipOldest s).queued ∧
      (skipOldest s).ulRxLength = s.ulRxLength - 1 := by
  obtain ⟨hbuf, hidx, hlen, huart⟩ := h
  have hindex : u32 (s.ulRxIndex + 1) = s.ulRxIndex + 1 := u32_of_lt (by omega)
  have hlength := skipOldest_length (by omega) hpos
  refine ⟨⟨hbuf, ?_, ?_, huart⟩, ?_, hlength⟩
  · rw [skipOldest, hbuf]
    exact Nat.mod_lt _ (by omega)
  · rw [hlength]
    exact Nat.le_trans (Nat.sub_le _ _) hlen
  · have hsplit := contents_pop s.ulRxBufferLength (s.ulRxLength - 1) s.pRxBuffer s.ulRxIndex
    rw [Nat.sub_add_cancel hpos, hbuf, Nat.mod_eq_of_lt hidx] at hsplit
    simp only [SerialStruct.queued, hlength]
    simp only [skipOldest, hindex, hbuf]
    exact hsplit

/-- Make room in a full ring, as both handlers do first. -/
def makeRoom (s : SerialStruct) : SerialStruct :=
  if s.ulRxBufferLength = s.ulRxLength then skipOldest s else s

/-- Making room discards the oldest byte of a full ring. -/
theorem makeRoom_spec (hpos : 0 < L) (hL : L ≤ 2 ^ 31) (h : RingInv L s) :
    RingInv L (makeRoom s) ∧ (makeRoom s).ulRxLength < L ∧
      (makeRoom s).queued = if s.queued.length = L then s.queued.tail else s.queued := by
  have hlen := h.length_le
  have hqlen : s.queued.length = s.ulRxLength := length_contents _ _ _ _
  rw [makeRoom, h.bufferLength, hqlen]
  by_cases hfull : s.ulRxLength = L
  · obtain ⟨hinv, hqueued, hlength⟩ := skipOldest_spec hL h (by omega)
    rw [if_pos hfull.symm, if_pos hfull, hqueued, List.tail_cons]
    exact ⟨hinv, by omega, rfl⟩
  · rw [if_neg (Ne.symm hfull), if_neg hfull]
    exact ⟨h, by omega, rfl⟩

/-- Append a byte to a ring that has room. -/
def appendByte (b : Byte) (s : SerialStruct) : SerialStruct :=
  { s with
    pTmpBuffer := Function.update s.pTmpBuffer 0 b
    pRxBuffer := Function.update s.pRxBuffer
      ((s.ulRxIndex + s.ulRxLength) % s.ulRxBufferLength) b
    ulRxLength := s.ulRxLength + 1 }

theorem appendByte_spec (h : RingInv L s) (hlt : s.ulRxLength < L) (b : Byte) :
    RingInv L (appendByte b s) ∧ (appendByte b s).queued = s.queued ++ [b] := by
  refine ⟨⟨h.bufferLength, h.index_lt, hlt, h.uart⟩, ?_⟩
  simp only [SerialStruct.queued, appendByte, h.bufferLength]
  exact contents_push hlt _ _ _

/-! ## The handlers -/

/-- What `HAL_UART_IRQHandler` makes of a byte: it lies in `pTmpBuffer[0]`. -/
def delivered (b : Byte) (s : SerialStruct) : SerialStruct :=
  { s with xUART := ⟨1, 8, 7⟩, pTmpBuffer := Function.update s.pTmpBuffer 0 b }

theorem halUartIRQHandler_some (huart : s.xUART = ⟨0, 8, 8⟩) (b : Byte) :
    halUartIRQHandler (some b) s = delivered b s := by
  simp only [halUartIRQHandler, huart, delivered]
  rfl

/-- Making room and delivery do not interfere. -/
theorem makeRoom_delivered (b : Byte) (s : SerialStruct) :
    (if (delivered b s).ulRxBufferLength = (delivered b s).ulRxLength then
      skipOldest (delivered b s) else delivered b s) = delivered b (makeRoom s) := by
  rw [makeRoom]
  split <;> rename_i hfull
  · rw [if_pos (show s.ulRxBufferLength = s.ulRxLength from hfull)]
    rfl
  · rw [if_neg (show ¬ s.ulRxBufferLength = s.ulRxLength from hfull)]

/-- Storing the byte delivered appends it and makes the transfer ready again. -/
theorem storeByte_delivered (hL : L ≤ 2 ^ 31) (h : RingInv L s)
    (hlt : s.ulRxLength < L) (b : Byte) :
    storeByte (u32 (s.ulRxIndex + s.ulRxLength) % s.ulRxBufferLength) (delivered b s) =
      appendByte b s := by
  have hidx := h.index_lt
  have hposition : u32 (s.ulRxIndex + s.ulRxLength) = s.ulRxIndex + s.ulRxLength :=
    u32_of_lt (by omega)
  have hlength : u32 (s.ulRxLength + 1) = s.ulRxLength + 1 := u32_of_lt (by omega)
  have huart := h.uart
  rw [storeByte, hposition]
  simp only [delivered, appendByte, Nat.sub_self, Function.update_self, hlength, huart]

/-- An interrupt without a byte does nothing. -/
theorem irqHandler_none (huart : s.xUART = ⟨0, 8, 8⟩) (port : SerialPort) :
    irqHandler port none s = s := by
  have hsame : ¬ (s.xUART.RxXferSize ≠ s.xUART.RxXferCount) := by
    rw [huart]
    decide
  cases port with
  | SERIAL_PORT_1 => exact if_neg hsame
  | SERIAL_PORT_4 => exact if_neg hsame

theorem makeRoom_length_lt (h : s.ulRxLength < 2 ^ 32) : (makeRoom s).ulRxLength < 2 ^ 32 := by
  rw [makeRoom]
  split
  · exact u32_lt _
  · exact h

/-- Store the byte delivered behind the last one. -/
def stored (b : Byte) (s : SerialStruct) : SerialStruct :=
  storeByte (u32 (s.ulRxIndex + s.ulRxLength) % s.ulRxBufferLength) (delivered b s)

/-- Both handlers store the byte delivered once there is room, and signal `xRxWait` if
the ring was empty then: one asks after the byte is stored, the other before. -/
theorem irqHandler_eq (huart : s.xUART = ⟨0, 8, 8⟩) (hlen : s.ulRxLength < 2 ^ 32)
    (port : SerialPort) (b : Byte) :
    irqHandler port (some b) s = { stored b (makeRoom s) with
      xRxWait := (makeRoom s).xRxWait || decide ((makeRoom s).ulRxLength = 0) } := by
  have hready : (delivered b s).xUART.RxXferSize ≠ (delivered b s).xUART.RxXferCount := by
    show (8 : Nat) ≠ 7
    decide
  have hlt := makeRoom_length_lt hlen
  cases port with
  | SERIAL_PORT_1 =>
      have hbody : usart1IRQHandler (some b) s =
          if (stored b (makeRoom s)).ulRxLength = 1 then
            { stored b (makeRoom s) with xRxWait := true }
          else stored b (makeRoom s) := by
        simp only [usart1IRQHandler, halUartIRQHandler_some huart, makeRoom_delivered]
        rw [if_pos hready]
        rfl
      have hone : (stored b (makeRoom s)).ulRxLength = 1 ↔ (makeRoom s).ulRxLength = 0 := by
        show u32 ((makeRoom s).ulRxLength + 1) = 1 ↔ _
        rw [u32]
        omega
      rw [irqHandler, hbody]
      by_cases hzero : (makeRoom s).ulRxLength = 0
      · rw [if_pos (hone.2 hzero), decide_eq_true hzero, Bool.or_true]
      · rw [if_neg fun h => hzero (hone.1 h), decide_eq_false hzero, Bool.or_false]
        rfl
  | SERIAL_PORT_4 =>
      simp only [irqHandler, uart4IRQHandler, halUartIRQHandler_some huart, makeRoom_delivered]
      rw [if_pos hready]
      by_cases hzero : (makeRoom s).ulRxLength = 0
      · rw [if_pos (show (delivered b (makeRoom s)).ulRxLength = 0 from hzero),
          decide_eq_true hzero, Bool.or_true]
        rfl
      · rw [if_neg (show ¬ (delivered b (makeRoom s)).ulRxLength = 0 from hzero),
          decide_eq_false hzero, Bool.or_false]
        rfl

/-- Both handlers append the byte delivered once there is room, and may signal
`xRxWait`. -/
theorem irqHandler_some (hpos : 0 < L) (hL : L ≤ 2 ^ 31) (h : RingInv L s)
    (port : SerialPort) (b : Byte) :
    ∃ x, irqHandler port (some b) s =
      { appendByte b (makeRoom s) with xRxWait := x } := by
  obtain ⟨hinv, hlt, _⟩ := makeRoom_spec hpos hL h
  have hlen := h.length_le
  rw [irqHandler_eq h.uart (by omega), stored, storeByte_delivered hL hinv hlt b]
  exact ⟨_, rfl⟩

/-- What an interrupt does to the ring: nothing, or the queue's push. -/
theorem irqHandler_spec (hpos : 0 < L) (hL : L ≤ 2 ^ 31) (h : RingInv L s)
    (port : SerialPort) (b : Byte) :
    RingInv L (irqHandler port (some b) s) ∧
      (irqHandler port (some b) s).queued = push L s.queued b ∧
      0 < (irqHandler port (some b) s).ulRxLength := by
  obtain ⟨hinv, hlt, hqueued⟩ := makeRoom_spec hpos hL h
  obtain ⟨hinv', hqueued'⟩ := appendByte_spec hinv hlt b
  obtain ⟨x, hx⟩ := irqHandler_some hpos hL h port b
  rw [hx]
  refine ⟨⟨hinv'.bufferLength, hinv'.index_lt, hinv'.length_le, hinv'.uart⟩, ?_,
    Nat.succ_pos _⟩
  rw [push, ← hqueued]
  exact hqueued'

/-- An interrupt does not empty the ring. -/
theorem irqHandler_length_pos (hpos : 0 < L) (hL : L ≤ 2 ^ 31) (h : RingInv L s)
    {port : SerialPort} (b : Option Byte) (hlen : 0 < s.ulRxLength) :
    0 < (irqHandler port b s).ulRxLength := by
  cases b with
  | none => rwa [irqHandler_none h.uart]
  | some b => exact (irqHandler_spec hpos hL h port b).2.2

end BillCounter.Serial
