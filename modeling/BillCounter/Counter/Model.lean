import BillCounter.Server.Model

/-!
# The counter task

`CNTIF_main` asks the driver of the counter for a message, and hands it to
`SVRIF_send` unless it is the message of the previous round and the second is the
same.  `SVRIF_send` is taken apart here into the steps the server interface takes for
it, so that the tasks of the interface run between any two of them.

What a driver decodes is open: a round of `fInput` fails, or is followed by any
content of `pBuffer` and any length up to its size.  So is the tick count.
-/

namespace BillCounter.Counter

open BillCounter.Lib.RawBytes
open BillCounter.Lib.Runs
open BillCounter.Server
open BillCounter.Storage

/-- `configTICK_RATE_HZ`. -/
def configTickRateHz : BitVec 32 := 1000

/-- What `fGetMessage` returns: a length within the buffer it was given. -/
structure Count where
  val : Nat
  le_sizeof : val ≤ 128

/-- Where `CNTIF_main` is, with `ulCount` and `ulTime`. -/
inductive MainPoint
  /-- `fInput`, and `fGetMessage` behind it. -/
  | input
  /-- The test for a duplicate. -/
  | compare (ulCount : Count) (ulTime : BitVec 32)
  /-- `pvPortMalloc`, in `SVRIF_send`. -/
  | malloc (ulCount : Count) (ulTime : BitVec 32)
  /-- `xQueueSend`, in `SVRIF_send`. -/
  | queueSend (ulCount : Count) (ulTime : BitVec 32)
  /-- `vPortFree`, in `SVRIF_send`. -/
  | free (ulCount : Count) (ulTime : BitVec 32)
  /-- `memcpy`, behind `SVRIF_send`. -/
  | copy (ulCount : Count) (ulTime : BitVec 32) (xRet : RetValue)
  /-- `vTaskDelay`. -/
  | delay

/-- From the call of `SVRIF_send` to where its message is the previous one. -/
def MainPoint.sending : MainPoint → Bool
  | .malloc _ _ | .queueSend _ _ | .free _ _ | .copy _ _ _ => true
  | _ => false

/-- `CNTIF_main`, and the server interface. -/
structure CounterState where
  server : ServerState
  pBuffer : Bytes 128
  pPrevBuffer : Bytes 128
  ulPrevTime : BitVec 32
  ulPrevCount : Nat
  main : MainPoint

/-- `pBuffer`, as far as it is the message. -/
def CounterState.pData (s : CounterState) (ulCount : Count) : List Byte :=
  s.pBuffer.val.take ulCount.val

/-- The message before, which the test for a duplicate goes by. -/
def CounterState.prevData (s : CounterState) : List Byte :=
  s.pPrevBuffer.val.take s.ulPrevCount

/-- What `SVRIF_send` makes of `pBuffer`; its `nDataLength` is a byte. -/
def CounterState.message (s : CounterState) (ulCount : Count) : Message :=
  svrifMessage s.pBuffer.val (BitVec.ofNat 8 ulCount.val) (by
    have hle := ulCount.le_sizeof
    rw [s.pBuffer.property, BitVec.toNat_ofNat]
    omega)

theorem pData_message (s : CounterState) (ulCount : Count) :
    (s.message ulCount).pData = s.pData ulCount := by
  have hle := ulCount.le_sizeof
  have hmod : (BitVec.ofNat 8 ulCount.val).toNat = ulCount.val := by
    rw [BitVec.toNat_ofNat]
    omega
  exact congrArg (fun n => s.pBuffer.val.take n) hmod

theorem length_pData (s : CounterState) (ulCount : Count) :
    (s.pData ulCount).length = ulCount.val := by
  rw [CounterState.pData, List.length_take, s.pBuffer.property]
  exact Nat.min_eq_left ulCount.le_sizeof

/-- The test for a duplicate, which is the negation of the one in the source. -/
def CounterState.duplicate (s : CounterState) (ulCount : Count) (ulTime : BitVec 32) : Prop :=
  ulTime = s.ulPrevTime ∧ ulCount.val = s.ulPrevCount ∧
    s.pBuffer.val.take ulCount.val = s.pPrevBuffer.val.take ulCount.val

/-- `memcpy(pPrevBuffer, pBuffer, ulCount)` and the two assignments behind it. -/
def CounterState.remember (s : CounterState) (ulCount : Count) (ulTime : BitVec 32) :
    CounterState :=
  { s with
    pPrevBuffer := ⟨patch s.pPrevBuffer.val 0 (s.pData ulCount), by
      have hle := ulCount.le_sizeof
      rw [length_patch (by rw [length_pData, s.pPrevBuffer.property]; omega)]
      exact s.pPrevBuffer.property⟩
    ulPrevCount := ulCount.val
    ulPrevTime := ulTime }

theorem prevData_remember (s : CounterState) (ulCount : Count) (ulTime : BitVec 32) :
    (s.remember ulCount ulTime).prevData = s.pData ulCount := by
  have hlen := length_pData s ulCount
  have hself : slice (patch s.pPrevBuffer.val 0 (s.pData ulCount)) 0 (s.pData ulCount).length
      = s.pData ulCount := by
    apply slice_patch_self
    rw [hlen, s.pPrevBuffer.property, Nat.zero_add]
    exact ulCount.le_sizeof
  rw [hlen] at hself
  exact hself

/-- What happens. -/
inductive CounterLabel
  | internal
  /-- A step of `SVRIF_taskMain`. -/
  | task (a : Label)
  /-- A step of `SVRIF_send`. -/
  | send (a : Label)
  /-- The message is suppressed as a duplicate. -/
  | suppress (pData : List Byte)
  /-- `SVRIF_send` has returned, and the message is the previous one. -/
  | sent (pData : List Byte) (xRet : RetValue)

/-- One step. -/
inductive CounterStep : CounterState → CounterLabel → CounterState → Prop
  | task (s : CounterState) (a : Label) (t : ServerState) : Step s.server a t →
      t.sends = s.server.sends → CounterStep s (.task a) { s with server := t }
  | noInput (s : CounterState) : s.main = .input →
      CounterStep s .internal { s with main := .delay }
  | getMessage (s : CounterState) (pBuffer : Bytes 128) (ulCount : Count)
      (ulTick : BitVec 32) : s.main = .input →
      CounterStep s .internal
        { s with pBuffer := pBuffer, main := .compare ulCount (ulTick / configTickRateHz) }
  | suppress (s : CounterState) (n : Count) (ulTime : BitVec 32) :
      s.main = .compare n ulTime → s.duplicate n ulTime →
      CounterStep s (.suppress (s.pData n)) { s with main := .delay }
  | call (s : CounterState) (n : Count) (ulTime : BitVec 32) :
      s.main = .compare n ulTime → ¬ s.duplicate n ulTime →
      CounterStep s .internal { s with main := .malloc n ulTime }
  | mallocFails (s : CounterState) (n : Count) (ulTime : BitVec 32) (t : ServerState) :
      s.main = .malloc n ulTime → Step s.server .internal t → t = s.server →
      CounterStep s (.send .internal)
        { s with server := t, main := .copy n ulTime .RET_ERROR }
  | malloc (s : CounterState) (n : Count) (ulTime : BitVec 32) (t : ServerState) :
      s.main = .malloc n ulTime → Step s.server (.malloc (s.message n)) t →
      CounterStep s (.send (.malloc (s.message n)))
        { s with server := t, main := .queueSend n ulTime }
  | enqueue (s : CounterState) (n : Count) (ulTime : BitVec 32) (m : Message)
      (t : ServerState) : s.main = .queueSend n ulTime → Step s.server (.enqueue m) t →
      CounterStep s (.send (.enqueue m))
        { s with server := t, main := .copy n ulTime .RET_OK }
  | full (s : CounterState) (n : Count) (ulTime : BitVec 32) (pMsg : Block)
      (t : ServerState) : s.main = .queueSend n ulTime → Step s.server .internal t →
      s.server.sends = [.sending pMsg] → t.sends = [.refused pMsg] →
      CounterStep s (.send .internal) { s with server := t, main := .free n ulTime }
  | free (s : CounterState) (n : Count) (ulTime : BitVec 32) (t : ServerState) :
      s.main = .free n ulTime → Step s.server .internal t → s.server.sends ≠ [] →
      t.sends = [] →
      CounterStep s (.send .internal)
        { s with server := t, main := .copy n ulTime .RET_ERROR }
  | copy (s : CounterState) (n : Count) (ulTime : BitVec 32) (xRet : RetValue) :
      s.main = .copy n ulTime xRet →
      CounterStep s (.sent (s.pData n) xRet)
        { s.remember n ulTime with main := .delay }
  | delay (s : CounterState) : s.main = .delay →
      CounterStep s .internal { s with main := .input }

/-- `CNTIF_main` behind `SERIAL_open`, and the interface behind `SVRIF_start`. -/
def cntifStart : CounterState where
  server := svrifStart
  pBuffer := Bytes.replicate 128 0
  pPrevBuffer := Bytes.replicate 128 0
  ulPrevTime := 0
  ulPrevCount := 0
  main := .input

/-- The counter task in use. -/
def counter : System CounterState CounterLabel where
  init s := s = cntifStart
  step := CounterStep

/-! ## The server's part -/

/-- What the server interface sees of a step. -/
def CounterLabel.server : CounterLabel → Option Label
  | .task a => some a
  | .send a => some a
  | _ => none

/-- A run of the counter task is one of the server interface. -/
theorem counter_simulation :
    Simulation counter server CounterLabel.server fun s t => s.server = t where
  step s a s' t hR hst := by
    subst hR
    cases hst with
    | task a t hstep | mallocFails n ulTime t _ hstep | malloc n ulTime t _ hstep
    | enqueue n ulTime m t _ hstep | full n ulTime pMsg t _ hstep
    | free n ulTime t _ hstep =>
        exact .inl ⟨_, t, rfl, hstep, rfl⟩
    | noInput | getMessage | suppress | call | copy | delay => exact .inr ⟨rfl, rfl⟩

theorem counter_reachable {s : CounterState} (h : counter.Reachable s) :
    server.Reachable s.server := by
  obtain ⟨start, labels, hstart, hrun⟩ := h
  cases hstart
  obtain ⟨t, hrun', ht⟩ := counter_simulation.run hrun rfl
  cases ht
  exact ⟨svrifStart, _, rfl, hrun'⟩

end BillCounter.Counter
