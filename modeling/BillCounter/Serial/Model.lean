import BillCounter.Lib.RawBytes
import BillCounter.Lib.DropOldest

/-!
# The receive side of `serial.c`

Each port has a ring of bytes that the receive interrupt fills and
`SERIAL_getc` empties, under a mutex and a binary semaphore.  The HAL is outside
the repository: `HAL_UART_IRQHandler` delivers at most one byte into
`pTmpBuffer`.  The vendored FreeRTOS is taken at its interface: taking a
semaphore either succeeds or times out.  A pop runs with the receive interrupt
masked and is one step here; everything else of `SERIAL_getc` and `SERIAL_gets`
can be interrupted anywhere.

Tasks are of an arbitrary type `τ`.
-/

namespace BillCounter.Serial

open BillCounter.Lib.RawBytes
open BillCounter.Lib.Runs

/-- The value of a `uint32_t` expression. -/
def u32 (n : Nat) : Nat := n % 2 ^ 32

/-- `UART_HandleTypeDef`, as far as reception goes; `pRxBuffPtr` counts from the
start of `pTmpBuffer`. -/
structure UartHandle where
  pRxBuffPtr : Nat
  RxXferSize : Nat
  RxXferCount : Nat

/-- `SERIAL_STRUCT`, as far as reception goes. -/
structure SerialStruct where
  xUART : UartHandle
  xRxWait : Bool
  pRxBuffer : Nat → Byte
  ulRxBufferLength : Nat
  ulRxIndex : Nat
  ulRxLength : Nat
  pTmpBuffer : Nat → Byte

/-- The ports `SERIAL_open` accepts. -/
inductive SerialPort
  | SERIAL_PORT_1
  | SERIAL_PORT_4

/-! ## Interrupts -/

/-- `HAL_UART_RxCpltCallback`. -/
def halUartRxCpltCallback (huart : UartHandle) : UartHandle :=
  { huart with
    pRxBuffPtr := huart.pRxBuffPtr - huart.RxXferSize
    RxXferCount := huart.RxXferSize }

/-- `HAL_UART_IRQHandler`: the byte the receiver has, if any, goes to
`*pRxBuffPtr++`, and the callback is called once the transfer is complete. -/
def halUartIRQHandler (b : Option Byte) (s : SerialStruct) : SerialStruct :=
  match b with
  | none => s
  | some b =>
      let huart : UartHandle :=
        { s.xUART with
          pRxBuffPtr := s.xUART.pRxBuffPtr + 1
          RxXferCount := s.xUART.RxXferCount - 1 }
      { s with
        pTmpBuffer := Function.update s.pTmpBuffer s.xUART.pRxBuffPtr b
        xUART := if huart.RxXferCount = 0 then halUartRxCpltCallback huart else huart }

/-- Move the read index on by one: `ulRxIndex = (ulRxIndex + 1) %
ulRxBufferLength; --ulRxLength`. -/
def skipOldest (s : SerialStruct) : SerialStruct :=
  { s with
    ulRxIndex := u32 (s.ulRxIndex + 1) % s.ulRxBufferLength
    ulRxLength := u32 (s.ulRxLength + 2 ^ 32 - 1) }

/-- Take the byte back out of `pTmpBuffer` and store it at `ulPosition`. -/
def storeByte (ulPosition : Nat) (s : SerialStruct) : SerialStruct :=
  let huart : UartHandle :=
    { s.xUART with
      pRxBuffPtr := s.xUART.pRxBuffPtr - 1
      RxXferCount := s.xUART.RxXferCount + 1 }
  { s with
    xUART := huart
    pRxBuffer := Function.update s.pRxBuffer ulPosition (s.pTmpBuffer huart.pRxBuffPtr)
    ulRxLength := u32 (s.ulRxLength + 1) }

/-- `USART1_IRQHandler`. -/
def usart1IRQHandler (b : Option Byte) (s : SerialStruct) : SerialStruct :=
  let s := halUartIRQHandler b s
  if s.xUART.RxXferSize ≠ s.xUART.RxXferCount then
    let s := if s.ulRxBufferLength = s.ulRxLength then skipOldest s else s
    let ulPosition := u32 (s.ulRxIndex + s.ulRxLength) % s.ulRxBufferLength
    let s := storeByte ulPosition s
    if s.ulRxLength = 1 then { s with xRxWait := true } else s
  else s

/-- `UART4_IRQHandler`: signals before the byte is stored. -/
def uart4IRQHandler (b : Option Byte) (s : SerialStruct) : SerialStruct :=
  let s := halUartIRQHandler b s
  if s.xUART.RxXferSize ≠ s.xUART.RxXferCount then
    let s := if s.ulRxBufferLength = s.ulRxLength then skipOldest s else s
    let s := if s.ulRxLength = 0 then { s with xRxWait := true } else s
    let ulPosition := u32 (s.ulRxIndex + s.ulRxLength) % s.ulRxBufferLength
    storeByte ulPosition s
  else s

/-- The interrupt handler of a port. -/
def irqHandler : SerialPort → Option Byte → SerialStruct → SerialStruct
  | .SERIAL_PORT_1 => usart1IRQHandler
  | .SERIAL_PORT_4 => uart4IRQHandler

/-! ## Readers -/

/-- Who called `SERIAL_getc`: the user, or `SERIAL_gets` for up to `ulSize`
bytes. -/
inductive Caller
  | getc
  | gets (ulSize : Nat)

/-- Where a reader is. -/
inductive Point
  /-- The loop test of `SERIAL_gets`. -/
  | loopTest
  /-- `xSemaphoreTake(xSemaphore)`. -/
  | takeSemaphore
  /-- The first test of `ulRxLength`. -/
  | firstTest
  /-- `xSemaphoreTake(xRxWait)`. -/
  | takeRxWait
  /-- The second test of `ulRxLength`. -/
  | secondTest
  /-- The masked section. -/
  | pop
  /-- `xSemaphoreGive(xSemaphore)`, with the byte read, if any. -/
  | giveSemaphore (got : Option Byte)
  /-- `SERIAL_getc` returns. -/
  | leave (got : Option Byte)

/-- A task outside the driver, or one that is reading and has the bytes `pValue`
so far. -/
inductive TaskState
  | idle
  | reading (caller : Caller) (pValue : List Byte) (point : Point)

/-- A port, its mutex and the tasks. -/
structure State (τ : Type) where
  serial : SerialStruct
  xSemaphore : Option τ
  task : τ → TaskState

inductive Label (τ : Type)
  | irq (b : Option Byte)
  | call (t : τ) (caller : Caller)
  | internal (t : τ)
  | pop (t : τ) (b : Byte)
  | ret (t : τ) (pValue : List Byte)

variable {τ : Type} [DecidableEq τ]

/-- Task `t` moves on to `p`. -/
def State.moveTo (s : State τ) (t : τ) (p : TaskState) : State τ :=
  { s with task := Function.update s.task t p }

/-- One interrupt, or one step of one task. -/
inductive Step (port : SerialPort) : State τ → Label τ → State τ → Prop
  | irq (s : State τ) (b : Option Byte) :
      Step port s (.irq b) { s with serial := irqHandler port b s.serial }
  | callGetc (s : State τ) (t : τ) : s.task t = .idle →
      Step port s (.call t .getc) (s.moveTo t (.reading .getc [] .takeSemaphore))
  | callGets (s : State τ) (t : τ) (n : Nat) : s.task t = .idle →
      Step port s (.call t (.gets n)) (s.moveTo t (.reading (.gets n) [] .loopTest))
  | take (s : State τ) (t : τ) (c : Caller) (v : List Byte) :
      s.task t = .reading c v .takeSemaphore → s.xSemaphore = none →
      Step port s (.internal t)
        { s.moveTo t (.reading c v .firstTest) with xSemaphore := some t }
  | takeTimeout (s : State τ) (t : τ) (c : Caller) (v : List Byte) :
      s.task t = .reading c v .takeSemaphore →
      Step port s (.internal t) (s.moveTo t (.reading c v (.leave none)))
  | firstTest (s : State τ) (t : τ) (c : Caller) (v : List Byte) :
      s.task t = .reading c v .firstTest →
      Step port s (.internal t) (s.moveTo t (.reading c v
        (if s.serial.ulRxLength = 0 then .takeRxWait else .secondTest)))
  | wait (s : State τ) (t : τ) (c : Caller) (v : List Byte) :
      s.task t = .reading c v .takeRxWait → s.serial.xRxWait = true →
      Step port s (.internal t)
        { s.moveTo t (.reading c v .secondTest) with
          serial := { s.serial with xRxWait := false } }
  | waitTimeout (s : State τ) (t : τ) (c : Caller) (v : List Byte) :
      s.task t = .reading c v .takeRxWait →
      Step port s (.internal t) (s.moveTo t (.reading c v (.giveSemaphore none)))
  | secondTest (s : State τ) (t : τ) (c : Caller) (v : List Byte) :
      s.task t = .reading c v .secondTest →
      Step port s (.internal t) (s.moveTo t (.reading c v
        (if s.serial.ulRxLength = 0 then .giveSemaphore none else .pop)))
  | pop (s : State τ) (t : τ) (c : Caller) (v : List Byte) :
      s.task t = .reading c v .pop →
      Step port s (.pop t (s.serial.pRxBuffer s.serial.ulRxIndex))
        { s.moveTo t (.reading c v
            (.giveSemaphore (some (s.serial.pRxBuffer s.serial.ulRxIndex)))) with
          serial := skipOldest s.serial }
  | give (s : State τ) (t : τ) (c : Caller) (v : List Byte) (got : Option Byte) :
      s.task t = .reading c v (.giveSemaphore got) →
      Step port s (.internal t)
        { s.moveTo t (.reading c v (.leave got)) with xSemaphore := none }
  | leaveGetc (s : State τ) (t : τ) (v : List Byte) (got : Option Byte) :
      s.task t = .reading .getc v (.leave got) →
      Step port s (.ret t (v ++ got.toList)) (s.moveTo t .idle)
  | leaveGets (s : State τ) (t : τ) (n : Nat) (v : List Byte) (got : Option Byte) :
      s.task t = .reading (.gets n) v (.leave got) →
      Step port s (.internal t)
        (s.moveTo t (.reading (.gets n) (v ++ got.toList) .loopTest))
  | leaveGetsLate (s : State τ) (t : τ) (n : Nat) (v : List Byte) (got : Option Byte) :
      s.task t = .reading (.gets n) v (.leave got) →
      Step port s (.ret t (v ++ got.toList)) (s.moveTo t .idle)
  | loopAgain (s : State τ) (t : τ) (n : Nat) (v : List Byte) :
      s.task t = .reading (.gets n) v .loopTest → v.length < n →
      Step port s (.internal t) (s.moveTo t (.reading (.gets n) v .takeSemaphore))
  | loopEnd (s : State τ) (t : τ) (n : Nat) (v : List Byte) :
      s.task t = .reading (.gets n) v .loopTest → ¬ v.length < n →
      Step port s (.ret t v) (s.moveTo t .idle)

/-- A port as `SERIAL_open` leaves it, with a ring of `uxBufferLength` bytes. -/
structure Opened (uxBufferLength : Nat) (s : State τ) : Prop where
  bufferLength : s.serial.ulRxBufferLength = uxBufferLength
  index : s.serial.ulRxIndex = 0
  length : s.serial.ulRxLength = 0
  uart : s.serial.xUART = ⟨0, 8, 8⟩
  semaphore : s.xSemaphore = none
  tasks : ∀ t, s.task t = .idle

/-- A port in use by any number of tasks. -/
def serialSystem (port : SerialPort) (uxBufferLength : Nat) : System (State τ) (Label τ) where
  init := Opened uxBufferLength
  step := Step port

end BillCounter.Serial
