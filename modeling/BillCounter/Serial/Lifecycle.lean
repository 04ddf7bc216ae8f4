import BillCounter.Lib.Holders
import BillCounter.Storage.Model
import BillCounter.Serial.Signal

/-!
# `SERIAL_open` and `SERIAL_close`

Both work on the static record of a port, the heap the semaphores and the ring come
from, and the interrupt controller.  What the allocations, `HAL_UART_Init` and
`HAL_UART_DeInit` return is up to the environment.

`SERIAL_open` cleans up behind each of its failures.  `SERIAL_close` disables the
interrupt first and does not enable it again when `HAL_UART_DeInit` fails:
`allOrNothing_iff`.
-/

namespace BillCounter.Serial

open BillCounter.Lib.Holders
open BillCounter.Lib.Runs
open BillCounter.Storage (RetValue)

/-! ## Settings -/

inductive SerialBaudrate
  | SERIAL_BAUDRATE_50
  | SERIAL_BAUDRATE_75
  | SERIAL_BAUDRATE_110
  | SERIAL_BAUDRATE_134
  | SERIAL_BAUDRATE_150
  | SERIAL_BAUDRATE_200
  | SERIAL_BAUDRATE_300
  | SERIAL_BAUDRATE_600
  | SERIAL_BAUDRATE_1200
  | SERIAL_BAUDRATE_1800
  | SERIAL_BAUDRATE_2400
  | SERIAL_BAUDRATE_4800
  | SERIAL_BAUDRATE_9600
  | SERIAL_BAUDRATE_19200
  | SERIAL_BAUDRATE_38400
  | SERIAL_BAUDRATE_57600
  | SERIAL_BAUDRATE_115200

inductive SerialParity
  | SERIAL_PARITY_NONE
  | SERIAL_PARITY_ODD
  | SERIAL_PARITY_EVEN
  | SERIAL_PARITY_MARK
  | SERIAL_PARITY_SPACE

inductive SerialStopBits
  | SERIAL_STOP_BITS_1
  | SERIAL_STOP_BITS_2

inductive SerialDataBits
  | SERIAL_DATA_BITS_5
  | SERIAL_DATA_BITS_6
  | SERIAL_DATA_BITS_7
  | SERIAL_DATA_BITS_8

inductive UartInstance
  | USART1
  | UART4

inductive UartParity
  | UART_PARITY_NONE
  | UART_PARITY_ODD
  | UART_PARITY_EVEN

inductive UartStopBits
  | UART_STOPBITS_1
  | UART_STOPBITS_2

inductive UartWordLength
  | UART_WORDLENGTH_8B

inductive UartMode
  | UART_MODE_TX_RX

inductive UartHwFlowCtl
  | UART_HWCONTROL_NONE

inductive UartOverSampling
  | UART_OVERSAMPLING_16

/-- `UART_InitTypeDef`. -/
structure UartInit where
  BaudRate : Nat
  Parity : UartParity
  WordLength : UartWordLength
  StopBits : UartStopBits
  Mode : UartMode
  HwFlowCtl : UartHwFlowCtl
  OverSampling : UartOverSampling

/-- The settings `SERIAL_open` is called with. -/
structure SerialSettings where
  xBaudrate : SerialBaudrate
  xParity : SerialParity
  xStop : SerialStopBits
  xData : SerialDataBits

/-- `switch(xBaudrate)`. -/
def baudRate : SerialBaudrate → Nat
  | .SERIAL_BAUDRATE_50 => 50
  | .SERIAL_BAUDRATE_75 => 75
  | .SERIAL_BAUDRATE_110 => 110
  | .SERIAL_BAUDRATE_134 => 134
  | .SERIAL_BAUDRATE_150 => 150
  | .SERIAL_BAUDRATE_200 => 200
  | .SERIAL_BAUDRATE_300 => 300
  | .SERIAL_BAUDRATE_600 => 600
  | .SERIAL_BAUDRATE_1200 => 1200
  | .SERIAL_BAUDRATE_1800 => 1800
  | .SERIAL_BAUDRATE_2400 => 2400
  | .SERIAL_BAUDRATE_4800 => 4800
  | .SERIAL_BAUDRATE_9600 => 9600
  | .SERIAL_BAUDRATE_19200 => 19200
  | .SERIAL_BAUDRATE_38400 => 38400
  | .SERIAL_BAUDRATE_57600 => 57600
  | .SERIAL_BAUDRATE_115200 => 115200

/-- `switch(xParity)`. -/
def uartParity : SerialParity → UartParity
  | .SERIAL_PARITY_NONE => .UART_PARITY_NONE
  | .SERIAL_PARITY_ODD => .UART_PARITY_ODD
  | .SERIAL_PARITY_EVEN => .UART_PARITY_EVEN
  | _ => .UART_PARITY_NONE

/-- `switch(xData)`. -/
def uartWordLength : SerialDataBits → UartWordLength
  | .SERIAL_DATA_BITS_8 => .UART_WORDLENGTH_8B
  | _ => .UART_WORDLENGTH_8B

/-- `switch(xStop)`. -/
def uartStopBits : SerialStopBits → UartStopBits
  | .SERIAL_STOP_BITS_1 => .UART_STOPBITS_1
  | .SERIAL_STOP_BITS_2 => .UART_STOPBITS_2

/-- What `SERIAL_open` sets `xUART.Init` to. -/
def uartInit (x : SerialSettings) : UartInit where
  BaudRate := baudRate x.xBaudrate
  Parity := uartParity x.xParity
  WordLength := uartWordLength x.xData
  StopBits := uartStopBits x.xStop
  Mode := .UART_MODE_TX_RX
  HwFlowCtl := .UART_HWCONTROL_NONE
  OverSampling := .UART_OVERSAMPLING_16

/-! ## Ports -/

deriving instance DecidableEq for SerialPort

inductive Irqn
  | USART1_IRQn
  | UART4_IRQn
deriving DecidableEq

/-- A handle of a semaphore, or the address of a ring.  `NULL` is `none`. -/
abbrev Handle := Nat

/-- `SERIAL_STRUCT`, with `reception` as the interrupt and the readers use it.  The
fields never set are `none`. -/
structure SerialRecord where
  Instance : Option UartInstance
  Init : Option UartInit
  xIRQ : Option Irqn
  xSemaphore : Option Handle
  xRxWait : Option Handle
  pRxBuffer : Option Handle
  reception : SerialStruct

/-- `_pSerials`, the blocks of the heap in use, of which each semaphore is one, and the
interrupts enabled. -/
structure Ports where
  pSerials : SerialPort → SerialRecord
  heap : Finset Handle
  enabled : Irqn → Bool

/-- `xPort`, if it is below `SERIAL_PORT_MAX`. -/
def serialPort (xPort : Nat) : Option SerialPort :=
  if 2 ≤ xPort then none
  else if xPort = 0 then some .SERIAL_PORT_1 else some .SERIAL_PORT_4

/-- `switch(xPort)` of the peripheral. -/
def uartInstance : SerialPort → UartInstance
  | .SERIAL_PORT_1 => .USART1
  | .SERIAL_PORT_4 => .UART4

/-- `switch(xPort)` of the interrupt. -/
def irqn : SerialPort → Irqn
  | .SERIAL_PORT_1 => .USART1_IRQn
  | .SERIAL_PORT_4 => .UART4_IRQn

def Ports.modify (w : Ports) (p : SerialPort) (f : SerialRecord → SerialRecord) : Ports :=
  { w with pSerials := Function.update w.pSerials p (f (w.pSerials p)) }

/-- An allocation returned `h`. -/
def Ports.allocated (w : Ports) (h : Option Handle) : Ports :=
  { w with heap := h.elim w.heap fun h => insert h w.heap }

/-- Free `h`, which is what `vSemaphoreDelete` does with the block of a semaphore, too. -/
def Ports.free (w : Ports) (h : Handle) : Ports := { w with heap := w.heap.erase h }

/-! ## The two functions -/

/-- What the environment answers `SERIAL_open`. -/
structure OpenOutcomes where
  xSemaphoreCreateMutex : Option Handle
  xSemaphoreCreateBinary : Option Handle
  pvPortMalloc : Option Handle
  halUartInit : Bool

/-- The fields of a record that hold a block. -/
inductive Place
  | xSemaphore
  | xRxWait
  | pRxBuffer
deriving DecidableEq

def SerialRecord.holds (e : SerialRecord) : Place → Option Handle
  | .xSemaphore => e.xSemaphore
  | .xRxWait => e.xRxWait
  | .pRxBuffer => e.pRxBuffer

def SerialRecord.clear (e : SerialRecord) : Place → SerialRecord
  | .xSemaphore => { e with xSemaphore := none }
  | .xRxWait => { e with xRxWait := none }
  | .pRxBuffer => { e with pRxBuffer := none }

/-- If the field is not `NULL`, delete or free what it holds and set it to `NULL`. -/
def release (i : Place) (p : SerialPort) (w : Ports) : Ports :=
  match (w.pSerials p).holds i with
  | none => w
  | some h => (w.free h).modify p fun e => e.clear i

/-- `vSemaphoreDelete(xSemaphore)`. -/
def deleteSemaphore : SerialPort → Ports → Ports := release .xSemaphore

/-- `vSemaphoreDelete(xRxWait)`. -/
def deleteRxWait : SerialPort → Ports → Ports := release .xRxWait

/-- `vPortFree(pRxBuffer)`. -/
def freeRxBuffer : SerialPort → Ports → Ports := release .pRxBuffer

/-- The end both functions share: `SERIAL_open` when it fails, and `SERIAL_close` when
it does not. -/
def releaseAll (p : SerialPort) (w : Ports) : Ports :=
  freeRxBuffer p (deleteRxWait p (deleteSemaphore p w))

/-- What `SERIAL_open` returns and leaves behind.  `phSerial` is the handle written, if
one is. -/
structure OpenResult where
  xRet : RetValue
  phSerial : Option SerialPort
  ports : Ports

/-- `goto finished`. -/
def openFailed (p : SerialPort) (w : Ports) : OpenResult :=
  ⟨.RET_ERROR, none, releaseAll p w⟩

/-- `SERIAL_open`. -/
def serialOpen (xPort : Nat) (x : SerialSettings) (uxBufferLength : BitVec 32)
    (o : OpenOutcomes) (w : Ports) : OpenResult :=
  match serialPort xPort with
  | none => ⟨.RET_ERROR, none, w⟩
  | some p =>
      let w := w.modify p fun e =>
        { e with Instance := some (uartInstance p), Init := some (uartInit x) }
      let w := (w.allocated o.xSemaphoreCreateMutex).modify p fun e =>
        { e with xSemaphore := o.xSemaphoreCreateMutex }
      if (w.pSerials p).xSemaphore = none then openFailed p w else
      let w := (w.allocated o.xSemaphoreCreateBinary).modify p fun e =>
        { e with xRxWait := o.xSemaphoreCreateBinary }
      if (w.pSerials p).xRxWait = none then openFailed p w else
      -- `xSemaphoreTake` times out or takes it: the semaphore is unavailable
      let w := w.modify p fun e => { e with reception.xRxWait := false }
      let w := (w.allocated o.pvPortMalloc).modify p fun e =>
        { e with pRxBuffer := o.pvPortMalloc }
      if (w.pSerials p).pRxBuffer = none then openFailed p w else
      let w := w.modify p fun e => { e with
        reception.ulRxBufferLength := uxBufferLength.toNat
        reception.ulRxIndex := 0
        reception.ulRxLength := 0 }
      if o.halUartInit = false then openFailed p w else
      -- `HAL_UART_Receive_IT` into the eight bytes of `pTmpBuffer`
      let w := w.modify p fun e => { e with reception.xUART := ⟨0, 8, 8⟩ }
      let w := w.modify p fun e => { e with xIRQ := some (irqn p) }
      let w := { w with enabled := Function.update w.enabled (irqn p) true }
      ⟨.RET_OK, some p, w⟩

/-- `HAL_NVIC_DisableIRQ`. -/
def disableIrq (w : Ports) (xIRQ : Option Irqn) : Ports :=
  match xIRQ with
  | none => w
  | some n => { w with enabled := Function.update w.enabled n false }

/-- `SERIAL_close`. -/
def serialClose (p : SerialPort) (halUartDeInit : Bool) (w : Ports) : RetValue × Ports :=
  let w := disableIrq w (w.pSerials p).xIRQ
  if halUartDeInit = false then (.RET_ERROR, w)
  else (.RET_OK, releaseAll p w)

/-! ## What a port holds -/

variable {p q : SerialPort} {w : Ports} {f : SerialRecord → SerialRecord}

@[simp] theorem modify_self : (w.modify p f).pSerials p = f (w.pSerials p) :=
  Function.update_self ..

theorem modify_of_ne (h : q ≠ p) : (w.modify p f).pSerials q = w.pSerials q :=
  Function.update_of_ne h ..

@[simp] theorem pSerials_allocated (h : Option Handle) :
    (w.allocated h).pSerials = w.pSerials := rfl

/-- Nothing of a port is left but its settings. -/
def SerialRecord.Closed (e : SerialRecord) : Prop := ∀ i, e.holds i = none

/-- The other ports and the interrupts are as they were. -/
def Ports.SameBut (w w' : Ports) (p : SerialPort) : Prop :=
  w'.enabled = w.enabled ∧ ∀ q, q ≠ p → w'.pSerials q = w.pSerials q

/-- The heap without a block. -/
def withoutBlock (heap : Finset Handle) (h : Option Handle) : Finset Handle :=
  h.elim heap heap.erase

theorem clear_of_none {e : SerialRecord} {i : Place} (h : e.holds i = none) : e.clear i = e := by
  cases e
  cases i <;> simp_all [SerialRecord.holds, SerialRecord.clear]

theorem release_spec (i : Place) (p : SerialPort) (w : Ports) :
    w.SameBut (release i p w) p ∧ (release i p w).pSerials p = (w.pSerials p).clear i ∧
      (release i p w).heap = withoutBlock w.heap ((w.pSerials p).holds i) := by
  rw [release]
  cases h : (w.pSerials p).holds i with
  | none => exact ⟨⟨rfl, fun _ _ => rfl⟩, (clear_of_none h).symm, rfl⟩
  | some a => exact ⟨⟨rfl, fun q hq => modify_of_ne hq⟩, modify_self, rfl⟩

theorem mem_withoutBlock {heap : Finset Handle} {h : Option Handle} {x : Handle} :
    x ∈ withoutBlock heap h ↔ h ≠ some x ∧ x ∈ heap := by
  cases h with
  | none => simp [withoutBlock]
  | some a => simp [withoutBlock, eq_comm]

theorem mem_allocated {h : Option Handle} {x : Handle} :
    x ∈ (w.allocated h).heap ↔ h = some x ∨ x ∈ w.heap := by
  cases h with
  | none => simp [Ports.allocated]
  | some a => simp [Ports.allocated, eq_comm]

/-- New blocks freed again leave the heap as it was. -/
theorem withoutBlock_allocated {a b c : Option Handle} (ha : ∀ h, a = some h → h ∉ w.heap)
    (hb : ∀ h, b = some h → h ∉ w.heap) (hc : ∀ h, c = some h → h ∉ w.heap) :
    withoutBlock (withoutBlock (withoutBlock
      (((w.allocated a).allocated b).allocated c).heap a) b) c = w.heap := by
  ext x
  simp only [mem_withoutBlock, mem_allocated]
  constructor
  · rintro ⟨hnc, hnb, hna, h | h | h | h⟩
    · exact absurd h hnc
    · exact absurd h hnb
    · exact absurd h hna
    · exact h
  · intro h
    exact ⟨fun hx => hc x hx h, fun hx => hb x hx h, fun hx => ha x hx h, .inr (.inr (.inr h))⟩

/-- `releaseAll` frees what the port holds, and nothing else. -/
theorem releaseAll_spec (p : SerialPort) (w : Ports) :
    w.SameBut (releaseAll p w) p ∧ ((releaseAll p w).pSerials p).Closed ∧
      (releaseAll p w).heap = withoutBlock (withoutBlock (withoutBlock w.heap
        ((w.pSerials p).holds .xSemaphore)) ((w.pSerials p).holds .xRxWait))
        ((w.pSerials p).holds .pRxBuffer) := by
  obtain ⟨⟨hen₁, hoth₁⟩, hrec₁, hheap₁⟩ := release_spec .xSemaphore p w
  obtain ⟨⟨hen₂, hoth₂⟩, hrec₂, hheap₂⟩ := release_spec .xRxWait p (release .xSemaphore p w)
  obtain ⟨⟨hen₃, hoth₃⟩, hrec₃, hheap₃⟩ :=
    release_spec .pRxBuffer p (release .xRxWait p (release .xSemaphore p w))
  rw [releaseAll, freeRxBuffer, deleteRxWait, deleteSemaphore]
  refine ⟨⟨hen₃.trans (hen₂.trans hen₁), fun q hq => ?_⟩, fun i => ?_, ?_⟩
  · exact (hoth₃ q hq).trans ((hoth₂ q hq).trans (hoth₁ q hq))
  · rw [hrec₃, hrec₂, hrec₁]
    cases i <;> rfl
  · rw [hheap₃, hheap₂, hheap₁, hrec₂, hrec₁]
    rfl

/-! ## `SERIAL_open` on a closed port -/

/-- No allocation returns a block in use. -/
structure OpenOutcomes.Fresh (o : OpenOutcomes) (heap : Finset Handle) : Prop where
  mutex : ∀ a, o.xSemaphoreCreateMutex = some a → a ∉ heap
  binary : ∀ b, o.xSemaphoreCreateBinary = some b →
    b ∉ heap ∧ o.xSemaphoreCreateMutex ≠ some b
  buffer : ∀ c, o.pvPortMalloc = some c →
    c ∉ heap ∧ o.xSemaphoreCreateMutex ≠ some c ∧ o.xSemaphoreCreateBinary ≠ some c

/-- A `SERIAL_open` that keeps nothing. -/
structure KeepsNothing (w : Ports) (p : SerialPort) (r : OpenResult) : Prop where
  xRet : r.xRet = .RET_ERROR
  phSerial : r.phSerial = none
  same : w.SameBut r.ports p
  closed : (r.ports.pSerials p).Closed
  heap : r.ports.heap = w.heap

/-- The record of a port opened. -/
def openedRecord (p : SerialPort) (x : SerialSettings) (uxBufferLength : BitVec 32)
    (a b c : Handle) (e : SerialRecord) : SerialRecord where
  Instance := some (uartInstance p)
  Init := some (uartInit x)
  xIRQ := some (irqn p)
  xSemaphore := some a
  xRxWait := some b
  pRxBuffer := some c
  reception :=
    { e.reception with
      xUART := ⟨0, 8, 8⟩
      xRxWait := false
      ulRxBufferLength := uxBufferLength.toNat
      ulRxIndex := 0
      ulRxLength := 0 }

/-- A port opened. -/
def openedPorts (p : SerialPort) (x : SerialSettings) (uxBufferLength : BitVec 32)
    (a b c : Handle) (w : Ports) : Ports where
  pSerials := Function.update w.pSerials p (openedRecord p x uxBufferLength a b c (w.pSerials p))
  heap := insert c (insert b (insert a w.heap))
  enabled := Function.update w.enabled (irqn p) true

/-- Cleaning up keeps nothing, if the heap without what the port holds is as it was. -/
theorem openFailed_spec {w w' : Ports} (hsame : w.SameBut w' p)
    (hheap : withoutBlock (withoutBlock (withoutBlock w'.heap
        ((w'.pSerials p).holds .xSemaphore)) ((w'.pSerials p).holds .xRxWait))
        ((w'.pSerials p).holds .pRxBuffer) = w.heap) :
    KeepsNothing w p (openFailed p w') := by
  obtain ⟨⟨henabled, hothers⟩, hclosed, hfreed⟩ := releaseAll_spec p w'
  exact ⟨rfl, rfl, ⟨henabled.trans hsame.1, fun q hq => (hothers q hq).trans (hsame.2 q hq)⟩,
    hclosed, hfreed.trans hheap⟩

/-- `SERIAL_open` of a closed port cleans up behind itself, or has made the two
semaphores and the ring and set the port up. -/
theorem serialOpen_cases {xPort : Nat} (hp : serialPort xPort = some p) (x : SerialSettings)
    (uxBufferLength : BitVec 32) {o : OpenOutcomes} (hclosed : (w.pSerials p).Closed)
    (hfresh : o.Fresh w.heap) :
    KeepsNothing w p (serialOpen xPort x uxBufferLength o w) ∨
      ∃ a b c, o.xSemaphoreCreateMutex = some a ∧ o.xSemaphoreCreateBinary = some b ∧
        o.pvPortMalloc = some c ∧ o.halUartInit = true ∧
        serialOpen xPort x uxBufferLength o w =
          ⟨.RET_OK, some p, openedPorts p x uxBufferLength a b c w⟩ := by
  have hnoWait : (w.pSerials p).xRxWait = none := hclosed .xRxWait
  have hnoBuffer : (w.pSerials p).pRxBuffer = none := hclosed .pRxBuffer
  have hnone : ∀ h, (none : Option Handle) = some h → h ∉ w.heap := fun _ h => by cases h
  have hmutex := hfresh.mutex
  have hbinary : ∀ b, o.xSemaphoreCreateBinary = some b → b ∉ w.heap :=
    fun b hb => (hfresh.binary b hb).1
  have hbuffer : ∀ c, o.pvPortMalloc = some c → c ∉ w.heap :=
    fun c hc => (hfresh.buffer c hc).1
  simp only [serialOpen, hp, modify_self, pSerials_allocated]
  cases ha : o.xSemaphoreCreateMutex with
  | none =>
      refine .inl ?_
      rw [if_pos rfl]
      refine openFailed_spec ⟨rfl, fun q hq => ?_⟩ ?_
      · simp only [modify_of_ne hq, pSerials_allocated]
      · simp only [modify_self, pSerials_allocated, SerialRecord.holds, hnoWait, hnoBuffer]
        exact withoutBlock_allocated hnone hnone hnone
  | some a =>
      rw [ha] at hmutex
      rw [if_neg (by simp)]
      cases hb : o.xSemaphoreCreateBinary with
      | none =>
          refine .inl ?_
          rw [if_pos rfl]
          refine openFailed_spec ⟨rfl, fun q hq => ?_⟩ ?_
          · simp only [modify_of_ne hq, pSerials_allocated]
          · simp only [modify_self, pSerials_allocated, SerialRecord.holds, hnoBuffer]
            exact withoutBlock_allocated hmutex hnone hnone
      | some b =>
          rw [hb] at hbinary
          rw [if_neg (by simp)]
          cases hc : o.pvPortMalloc with
          | none =>
              refine .inl ?_
              rw [if_pos rfl]
              refine openFailed_spec ⟨rfl, fun q hq => ?_⟩ ?_
              · simp only [modify_of_ne hq, pSerials_allocated]
              · simp only [modify_self, pSerials_allocated, SerialRecord.holds]
                exact withoutBlock_allocated hmutex hbinary hnone
          | some c =>
              rw [hc] at hbuffer
              rw [if_neg (by simp)]
              cases hinit : o.halUartInit with
              | false =>
                  refine .inl ?_
                  rw [if_pos rfl]
                  refine openFailed_spec ⟨rfl, fun q hq => ?_⟩ ?_
                  · simp only [modify_of_ne hq, pSerials_allocated]
                  · simp only [modify_self, pSerials_allocated, SerialRecord.holds]
                    exact withoutBlock_allocated hmutex hbinary hbuffer
              | true =>
                  refine .inr ⟨a, b, c, rfl, rfl, rfl, rfl, ?_⟩
                  rw [if_neg (by simp)]
                  simp only [Ports.modify, Ports.allocated, Function.update_self,
                    Function.update_idem]
                  rfl

/-! ## Runs -/

/-- The ports, and which of them are open: those a `SERIAL_open` returned `RET_OK` for
and no `SERIAL_close` since. -/
structure PortsState where
  ports : Ports
  opened : SerialPort → Bool

inductive Call
  | serialOpen (xPort : Nat) (x : SerialSettings) (uxBufferLength : BitVec 32)
      (o : OpenOutcomes)
  | serialClose (p : SerialPort) (halUartDeInit : Bool)

def PortsState.after (s : PortsState) : Call → PortsState
  | .serialOpen xPort x uxBufferLength o =>
      let r := serialOpen xPort x uxBufferLength o s.ports
      ⟨r.ports, match r.xRet, serialPort xPort with
        | .RET_OK, some p => Function.update s.opened p true
        | _, _ => s.opened⟩
  | .serialClose p halUartDeInit =>
      let r := serialClose p halUartDeInit s.ports
      ⟨r.2, match r.1 with
        | .RET_OK => Function.update s.opened p false
        | .RET_ERROR => s.opened⟩

/-- Only closed ports are opened, and only open ones closed. -/
def PortsState.Allows (s : PortsState) : Call → Prop
  | .serialOpen xPort _ _ o =>
      (∀ p, serialPort xPort = some p → s.opened p = false) ∧ o.Fresh s.ports.heap
  | .serialClose p _ => s.opened p = true

/-- The driver before the first call. -/
structure Unopened (s : PortsState) : Prop where
  closed : ∀ p, (s.ports.pSerials p).Closed
  heap : s.ports.heap = ∅
  enabled : ∀ n, s.ports.enabled n = false
  opened : ∀ p, s.opened p = false

/-- Any sequence of calls, with any outcomes. -/
def lifecycle : System PortsState Call where
  init := Unopened
  step s a t := s.Allows a ∧ s.after a = t

/-- What the ports hold. -/
def Ports.holds (w : Ports) (i : SerialPort × Place) : Option Handle :=
  (w.pSerials i.1).holds i.2

/-- The blocks in use are those the open ports hold, each open port has all of its own
and its interrupt, and a closed one none. -/
structure Tidy (s : PortsState) : Prop where
  held : Held s.ports.heap s.ports.holds
  complete : ∀ p i, ((s.ports.pSerials p).holds i).isSome = s.opened p
  enabled : ∀ p, s.ports.enabled (irqn p) = s.opened p
  xIRQ : ∀ p, s.opened p = true → (s.ports.pSerials p).xIRQ = some (irqn p)

/-- What is claimed of one call: the blocks in use are those of the open ports after it,
a `SERIAL_open` that fails leaves nothing and writes no handle, one that does not starts
with an empty ring, and a `SERIAL_close` that fails leaves everything as it was. -/
def AllOrNothing (s : PortsState) (a : Call) : Prop :=
  Tidy (s.after a) ∧
    match a with
    | .serialOpen xPort x uxBufferLength o =>
        let r := serialOpen xPort x uxBufferLength o s.ports
        (r.xRet = .RET_ERROR → r.phSerial = none ∧ r.ports.heap = s.ports.heap ∧
          r.ports.enabled = s.ports.enabled) ∧
        (r.xRet = .RET_OK → ∃ p, serialPort xPort = some p ∧ r.phSerial = some p ∧
          (freshSystem p uxBufferLength).init
            ⟨(r.ports.pSerials p).reception, none, fun _ : Unit => .idle⟩)
    | .serialClose p halUartDeInit =>
        (serialClose p halUartDeInit s.ports).1 = .RET_ERROR → s.after a = s

def Call.DeInitFails : Call → Prop
  | .serialOpen .. => False
  | .serialClose _ halUartDeInit => halUartDeInit = false

variable {s : PortsState}

theorem irqn_injective : Function.Injective irqn := by
  intro p q h
  cases p <;> cases q <;> first | rfl | cases h

theorem tidy_unopened (h : Unopened s) : Tidy s where
  held := by
    have hnone : s.ports.holds = fun _ => none := funext fun i => h.closed i.1 i.2
    rw [h.heap, hnone]
    exact held_empty
  complete p i := by
    rw [h.closed p i, h.opened p]
    rfl
  enabled p := (h.enabled _).trans (h.opened p).symm
  xIRQ p hp := absurd ((h.opened p).symm.trans hp) Bool.false_ne_true

/-- The record of a closed port is. -/
theorem Tidy.closed (h : Tidy s) (hp : s.opened p = false) : (s.ports.pSerials p).Closed :=
  fun i => Option.isSome_eq_false_iff.1 ((h.complete p i).trans hp) |> Option.isNone_iff_eq_none.1

/-- A `SERIAL_open` that keeps nothing. -/
theorem Tidy.keepsNothing (h : Tidy s) (hp : s.opened p = false) {r : OpenResult}
    (hr : KeepsNothing s.ports p r) : Tidy ⟨r.ports, s.opened⟩ := by
  have hrecord : ∀ q, q ≠ p → r.ports.pSerials q = s.ports.pSerials q := hr.same.2
  have hholds : ∀ q i, (r.ports.pSerials q).holds i = (s.ports.pSerials q).holds i := by
    intro q i
    by_cases hq : q = p
    · subst hq
      rw [hr.closed i, h.closed hp i]
    · rw [hrecord q hq]
  constructor
  · have hsame : r.ports.holds = s.ports.holds := funext fun i => hholds i.1 i.2
    rw [hr.heap, hsame]
    exact h.held
  · intro q i
    rw [hholds]
    exact h.complete q i
  · intro q
    rw [hr.same.1]
    exact h.enabled q
  · intro q hq
    have hne : q ≠ p := by
      rintro rfl
      exact absurd (hp.symm.trans hq) Bool.false_ne_true
    rw [hrecord q hne]
    exact h.xIRQ q hq

/-- The port is open, with three new blocks. -/
theorem Tidy.opens (h : Tidy s) (hp : s.opened p = false) (x : SerialSettings)
    (uxBufferLength : BitVec 32) {a b c : Handle} (ha : a ∉ s.ports.heap)
    (hb : b ∉ insert a s.ports.heap) (hc : c ∉ insert b (insert a s.ports.heap)) :
    Tidy ⟨openedPorts p x uxBufferLength a b c s.ports, Function.update s.opened p true⟩ := by
  have hclosed := h.closed hp
  constructor
  · have h₁ := h.held.acquire ha (i := (p, Place.xSemaphore)) (hclosed _)
    have h₂ := h₁.acquire hb (i := (p, Place.xRxWait)) (by
      rw [Function.update_of_ne (by simp)]
      exact hclosed _)
    have h₃ := h₂.acquire hc (i := (p, Place.pRxBuffer)) (by
      rw [Function.update_of_ne (by simp), Function.update_of_ne (by simp)]
      exact hclosed _)
    have hholds : (openedPorts p x uxBufferLength a b c s.ports).holds =
        Function.update (Function.update (Function.update s.ports.holds
          (p, .xSemaphore) (some a)) (p, .xRxWait) (some b)) (p, .pRxBuffer) (some c) := by
      funext ⟨q, i⟩
      by_cases hq : q = p
      · subst hq
        cases i <;> simp [Ports.holds, openedPorts, openedRecord, SerialRecord.holds]
      · simp [Ports.holds, openedPorts, hq]
    rw [hholds]
    exact h₃
  · intro q i
    by_cases hq : q = p
    · subst hq
      cases i <;> simp [openedPorts, openedRecord, SerialRecord.holds]
    · simp [openedPorts, hq, h.complete q i]
  · intro q
    by_cases hq : q = p
    · subst hq
      simp [openedPorts]
    · simp [openedPorts, hq, irqn_injective.eq_iff, h.enabled q]
  · intro q hopen
    by_cases hq : q = p
    · subst hq
      simp [openedPorts, openedRecord]
    · simp only [openedPorts, Function.update_of_ne hq] at hopen ⊢
      exact h.xIRQ q hopen

/-- The port is closed, with its interrupt disabled and its three blocks free. -/
theorem Tidy.closes (h : Tidy s) (hp : s.opened p = true) {w : Ports}
    (henabled : w.enabled = Function.update s.ports.enabled (irqn p) false)
    (hothers : ∀ q, q ≠ p → w.pSerials q = s.ports.pSerials q)
    (hclosed : (w.pSerials p).Closed)
    (hheap : w.heap = withoutBlock (withoutBlock (withoutBlock s.ports.heap
      ((s.ports.pSerials p).holds .xSemaphore)) ((s.ports.pSerials p).holds .xRxWait))
      ((s.ports.pSerials p).holds .pRxBuffer)) :
    Tidy ⟨w, Function.update s.opened p false⟩ := by
  have hsome : ∀ i, ∃ a, (s.ports.pSerials p).holds i = some a := by
    intro i
    exact Option.isSome_iff_exists.1 ((h.complete p i).trans hp)
  obtain ⟨a, ha⟩ := hsome .xSemaphore
  obtain ⟨b, hb⟩ := hsome .xRxWait
  obtain ⟨c, hc⟩ := hsome .pRxBuffer
  constructor
  · have h₁ := h.held.release (i := (p, Place.xSemaphore)) ha
    have h₂ := h₁.release (i := (p, Place.xRxWait)) (h := b) (by
      rw [Function.update_of_ne (by simp)]
      exact hb)
    have h₃ := h₂.release (i := (p, Place.pRxBuffer)) (h := c) (by
      rw [Function.update_of_ne (by simp), Function.update_of_ne (by simp)]
      exact hc)
    rw [ha, hb, hc] at hheap
    have hholds : w.holds = Function.update (Function.update (Function.update s.ports.holds
        (p, .xSemaphore) none) (p, .xRxWait) none) (p, .pRxBuffer) none := by
      funext ⟨q, i⟩
      by_cases hq : q = p
      · subst hq
        rw [Ports.holds, hclosed i]
        cases i <;> simp
      · simp [Ports.holds, hothers q hq, hq]
    rw [hheap, hholds]
    exact h₃
  · intro q i
    show ((w.pSerials q).holds i).isSome = Function.update s.opened p false q
    by_cases hq : q = p
    · subst hq
      rw [hclosed i, Function.update_self]
      rfl
    · rw [hothers q hq, Function.update_of_ne hq]
      exact h.complete q i
  · intro q
    show w.enabled (irqn q) = Function.update s.opened p false q
    rw [henabled]
    by_cases hq : q = p
    · subst hq
      rw [Function.update_self, Function.update_self]
    · rw [Function.update_of_ne (irqn_injective.ne hq), Function.update_of_ne hq]
      exact h.enabled q
  · intro q hopen
    have hq : q ≠ p := by
      rintro rfl
      exact absurd ((Function.update_self ..).symm.trans hopen) Bool.false_ne_true
    show (w.pSerials q).xIRQ = some (irqn q)
    rw [hothers q hq]
    exact h.xIRQ q ((Function.update_of_ne hq ..).symm.trans hopen)

/-! ## The main result -/

theorem allOrNothing_serialOpen (h : Tidy s) {xPort : Nat} {x : SerialSettings}
    {uxBufferLength : BitVec 32} {o : OpenOutcomes}
    (hallows : s.Allows (.serialOpen xPort x uxBufferLength o)) :
    AllOrNothing s (.serialOpen xPort x uxBufferLength o) := by
  obtain ⟨hopen, hfresh⟩ := hallows
  simp only [AllOrNothing, PortsState.after]
  cases hp : serialPort xPort with
  | none =>
      have hsame : serialOpen xPort x uxBufferLength o s.ports = ⟨.RET_ERROR, none, s.ports⟩ := by
        rw [serialOpen, hp]
      rw [hsame]
      exact ⟨h, fun _ => ⟨rfl, rfl, rfl⟩, nofun⟩
  | some p =>
      have hclosed := hopen p hp
      rcases serialOpen_cases hp x uxBufferLength (h.closed hclosed) hfresh with
        hr | ⟨a, b, c, ha, hb, hc, -, heq⟩
      · rw [hr.xRet]
        exact ⟨h.keepsNothing hclosed hr, fun _ => ⟨hr.phSerial, hr.heap, hr.same.1⟩,
          nofun⟩
      · rw [heq]
        refine ⟨h.opens hclosed x uxBufferLength (hfresh.mutex a ha) ?_ ?_,
          nofun, fun _ => ⟨p, rfl, rfl, ?_⟩⟩
        · obtain ⟨hnew, hne⟩ := hfresh.binary b hb
          rw [ha] at hne
          simpa [hnew] using fun h => hne (by rw [h])
        · obtain ⟨hnew, hne, hne'⟩ := hfresh.buffer c hc
          rw [ha] at hne
          rw [hb] at hne'
          simpa [hnew] using ⟨fun h => hne' (by rw [h]), fun h => hne (by rw [h])⟩
        · simp only [openedPorts, Function.update_self]
          exact ⟨⟨rfl, rfl, rfl, rfl, rfl, fun _ => rfl⟩, rfl⟩

theorem serialClose_of_tidy (h : Tidy s) (hp : s.opened p = true) (halUartDeInit : Bool) :
    serialClose p halUartDeInit s.ports =
      if halUartDeInit = false then (.RET_ERROR, disableIrq s.ports (some (irqn p)))
      else (.RET_OK, releaseAll p (disableIrq s.ports (some (irqn p)))) := by
  rw [serialClose, h.xIRQ p hp]

theorem allOrNothing_serialClose (h : Tidy s) (hp : s.opened p = true) :
    AllOrNothing s (.serialClose p true) := by
  obtain ⟨⟨henabled, hothers⟩, hclosed, hheap⟩ :=
    releaseAll_spec p (disableIrq s.ports (some (irqn p)))
  simp only [AllOrNothing, PortsState.after, serialClose_of_tidy h hp]
  exact ⟨h.closes hp henabled hothers hclosed hheap, nofun⟩

/-- The interrupt of a port that `HAL_UART_DeInit` fails for is off. -/
theorem not_allOrNothing_serialClose (h : Tidy s) (hp : s.opened p = true) :
    ¬ AllOrNothing s (.serialClose p false) := by
  intro hall
  have hsame := hall.2
  simp only [PortsState.after, serialClose_of_tidy h hp] at hsame
  have hports : disableIrq s.ports (some (irqn p)) = s.ports :=
    congrArg PortsState.ports (hsame rfl)
  have hoff : (disableIrq s.ports (some (irqn p))).enabled (irqn p) = false :=
    Function.update_self ..
  rw [hports, h.enabled p, hp] at hoff
  exact absurd hoff.symm Bool.false_ne_true

/-- A call that is allowed is all or nothing unless it is a `SERIAL_close` whose
`HAL_UART_DeInit` fails. -/
theorem allOrNothing_iff_of_tidy (h : Tidy s) {a : Call} (hallows : s.Allows a) :
    AllOrNothing s a ↔ ¬ a.DeInitFails := by
  cases a with
  | serialOpen xPort x uxBufferLength o =>
      exact ⟨fun _ => id, fun _ => allOrNothing_serialOpen h hallows⟩
  | serialClose p halUartDeInit =>
      cases halUartDeInit with
      | false =>
          exact ⟨fun hall => absurd hall (not_allOrNothing_serialClose h hallows),
            fun hne => absurd rfl hne⟩
      | true => exact ⟨fun _ => Bool.noConfusion, fun _ => allOrNothing_serialClose h hallows⟩

/-- Over any sequence of calls from the start, every call is all or nothing exactly when
no `HAL_UART_DeInit` fails. -/
theorem allOrNothing_iff (calls : List Call) (s t : PortsState) (h : Unopened s) :
    (lifecycle.restrict AllOrNothing).Run s calls t ↔
      (lifecycle.restrict fun _ a => ¬ a.DeInitFails).Run s calls t := by
  refine System.Run.restrict_iff_restrict (I := Tidy) (fun s a t _ hall hstep => ?_)
    (fun s a t hs hstep => allOrNothing_iff_of_tidy hs hstep.1) (tidy_unopened h)
  rw [← hstep.2]
  exact hall.1

/-- The driver after reset. -/
def resetPorts : PortsState where
  ports :=
    { pSerials := fun _ =>
        ⟨none, none, none, none, none, none, ⟨⟨0, 0, 0⟩, false, fun _ => 0, 0, 0, 0, fun _ => 0⟩⟩
      heap := ∅
      enabled := fun _ => false }
  opened _ := false

/-- 9600 8N1. -/
def settings9600 : SerialSettings :=
  ⟨.SERIAL_BAUDRATE_9600, .SERIAL_PARITY_NONE, .SERIAL_STOP_BITS_1, .SERIAL_DATA_BITS_8⟩

/-- Open the first port, with three blocks at the addresses 16, 32 and 48. -/
def openFirst : Call := .serialOpen 0 settings9600 256 ⟨some 16, some 32, some 48, true⟩

theorem resetPorts_unopened : Unopened resetPorts :=
  ⟨fun _ i => by cases i <;> rfl, rfl, fun _ => rfl, fun _ => rfl⟩

theorem resetPorts_allows : resetPorts.Allows openFirst := by
  refine ⟨fun _ _ => rfl, fun _ _ => Finset.notMem_empty _, ?_, ?_⟩
  · rintro b ⟨⟩
    exact ⟨Finset.notMem_empty _, by decide⟩
  · rintro c ⟨⟩
    exact ⟨Finset.notMem_empty _, by decide, by decide⟩

/-- The port opened, and then closed while `HAL_UART_DeInit` fails. -/
theorem failed_close_disables_port :
    ∃ s, lifecycle.Reachable s ∧ s.Allows (.serialClose .SERIAL_PORT_1 false) ∧
      ¬ AllOrNothing s (.serialClose .SERIAL_PORT_1 false) := by
  refine ⟨resetPorts.after openFirst, ⟨resetPorts, [openFirst], resetPorts_unopened,
    .one ⟨resetPorts_allows, rfl⟩⟩, rfl, fun hall => ?_⟩
  have hoff := congrArg (fun s => s.ports.enabled .USART1_IRQn) (hall.2 rfl)
  revert hoff
  decide

theorem allOrNothing_iff_open_close :
    (lifecycle.restrict AllOrNothing).Run resetPorts
      [openFirst, .serialClose .SERIAL_PORT_1 true]
      ((resetPorts.after openFirst).after (.serialClose .SERIAL_PORT_1 true)) :=
  (allOrNothing_iff _ _ _ resetPorts_unopened).2
    (.cons ⟨id, resetPorts_allows, rfl⟩ (.one ⟨Bool.noConfusion, rfl, rfl⟩))

end BillCounter.Serial
