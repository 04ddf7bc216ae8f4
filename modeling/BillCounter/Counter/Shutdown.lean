import BillCounter.Counter.Model
import BillCounter.Serial.Model
import BillCounter.Server.Ownership

/-!
# The shell's `f`

Before a download the shell stops the server interface and the counter task and resets
the board.  `SVRIF_stop` deletes `xMessageQ`, and `SERIAL_close` what the counter's port
consists of, while `CNTIF_main` runs at the same priority; it is terminated only then.

A queue or semaphore call on what is deleted stops the system in `configASSERT`.  A read
of the ring that is freed goes through.  `ASSERT`, on the handle of a port that is gone,
keeps the task it is in and no other.
-/

namespace BillCounter.Counter

open BillCounter.Lib.RawBytes
open BillCounter.Lib.Runs
open BillCounter.Serial (Point TaskState SerialPort irqHandler)
open BillCounter.Server

/-! ## What is shared -/

/-- What `CNTIF_main` shares with the handler of `f`. -/
inductive Resource
  | xMessageQ
  | xSemaphore
  | xRxWait
  | pRxBuffer
deriving DecidableEq

/-- What the next step of `SERIAL_getc` uses. -/
def pointUses : Point → Option Resource
  | .takeSemaphore | .giveSemaphore _ => some .xSemaphore
  | .takeRxWait => some .xRxWait
  | .pop => some .pRxBuffer
  | .loopTest | .firstTest | .secondTest | .leave _ => none

/-- Where the handler of `f` is. -/
inductive HandlerPoint
  /-- In `SVRIF_stop`. -/
  | svrifStop
  /-- `hSerial != NULL`, in `CNTIF_stop`. -/
  | testHandle
  /-- `HAL_NVIC_DisableIRQ`, in `SERIAL_close`. -/
  | disableIRQ
  /-- `HAL_UART_DeInit`. -/
  | deInit
  /-- `vSemaphoreDelete(hSerial->xSemaphore)`. -/
  | deleteSemaphore
  /-- `vSemaphoreDelete(hSerial->xRxWait)`. -/
  | deleteRxWait
  /-- `vPortFree(hSerial->pRxBuffer)`. -/
  | freeBuffer
  /-- `hSerial = NULL`, behind a `SERIAL_close` that did or did not get to the end. -/
  | clearHandle (closed : Bool)
  /-- `osThreadTerminate`. -/
  | terminate (closed : Bool)
  /-- `SERIAL_close`, on the port of the shell. -/
  | closeShell
  /-- `IMAGE_Get` and `IMAGE_Set`. -/
  | imageSet
  /-- `SYS_reset`. -/
  | reset
  | done

/-- `CNTIF_main` with its port, the server interface, and the handler.  `pSerial` says
whether `fInput` was given a handle. -/
structure ShutdownState where
  counter : CounterState
  port : Serial.State Unit
  pSerial : Bool
  hSerial : Bool
  xThread : Bool
  irqEnabled : Bool
  xSemaphore : Bool
  xRxWait : Bool
  pRxBuffer : Bool
  stop : StopPoint
  handler : HandlerPoint
  halted : Bool
  misused : Bool

/-- What is there. -/
def ShutdownState.live (s : ShutdownState) : Resource → Bool
  | .xMessageQ => s.counter.server.xMessageQ.isSome
  | .xSemaphore => s.xSemaphore
  | .xRxWait => s.xRxWait
  | .pRxBuffer => s.pRxBuffer

/-- What the next step of `CNTIF_main` uses. -/
def ShutdownState.uses (s : ShutdownState) : Option Resource :=
  match s.counter.main with
  | .queueSend _ _ => some .xMessageQ
  | .input =>
      match s.port.task () with
      | .reading _ _ point => pointUses point
      | .idle => none
  | _ => none

/-- `CNTIF_main` may run. -/
def ShutdownState.Runs (s : ShutdownState) : Prop := s.halted = false ∧ s.xThread = true

/-- What the next step of `CNTIF_main` uses is there. -/
def ShutdownState.Usable (s : ShutdownState) : Prop := ∀ r, s.uses = some r → s.live r = true

/-- Whose step it is. -/
inductive ShutdownLabel
  | task
  | irq
  | main
  | handler

/-- A step of `SVRIF_taskMain`, of the receive interrupt, of `CNTIF_main` or of the
handler. -/
inductive ShutdownStep : ShutdownState → ShutdownLabel → ShutdownState → Prop
  | task (s : ShutdownState) (a : Label) (t : CounterState) : s.halted = false →
      CounterStep s.counter (.task a) t → ShutdownStep s .task { s with counter := t }
  | irq (s : ShutdownState) (b : Option Byte) : s.halted = false → s.irqEnabled = true →
      ShutdownStep s .irq
        { s with port := { s.port with serial := irqHandler .SERIAL_PORT_1 b s.port.serial } }
  | main (s : ShutdownState) (a : CounterLabel) (t : CounterState) : s.Runs →
      s.counter.main ≠ .input → s.Usable → (∀ b, a ≠ .task b) → CounterStep s.counter a t →
      ShutdownStep s .main
        { s with
          counter := t
          pSerial := match s.counter.main with
            | .delay => s.hSerial
            | _ => s.pSerial }
  | leaveInput (s : ShutdownState) (a : CounterLabel) (t : CounterState) : s.Runs →
      s.counter.main = .input → s.pSerial = true → s.port.task () = .idle →
      (∀ b, a ≠ .task b) → CounterStep s.counter a t →
      ShutdownStep s .main { s with counter := t }
  | read (s : ShutdownState) (l : Serial.Label Unit) (t : Serial.State Unit) : s.Runs →
      s.counter.main = .input → s.pSerial = true → s.Usable → (∀ b, l ≠ .irq b) →
      Serial.Step .SERIAL_PORT_1 s.port l t → ShutdownStep s .main { s with port := t }
  | readStale (s : ShutdownState) (l : Serial.Label Unit) (t : Serial.State Unit) : s.Runs →
      s.uses = some .pRxBuffer → s.pRxBuffer = false → (∀ b, l ≠ .irq b) →
      Serial.Step .SERIAL_PORT_1 s.port l t →
      ShutdownStep s .main { s with port := t, misused := true }
  | configAssert (s : ShutdownState) (r : Resource) : s.Runs → s.uses = some r →
      r ≠ .pRxBuffer → s.live r = false →
      ShutdownStep s .main { s with halted := true, misused := true }
  | svrifStop (s : ShutdownState) (t : StopState) : s.halted = false →
      s.handler = .svrifStop → StopStep ⟨s.counter.server, s.stop⟩ .stop t →
      ShutdownStep s .handler
        { s with counter := { s.counter with server := t.server }, stop := t.stop }
  | svrifReturns (s : ShutdownState) (n : Nat) : s.halted = false → s.handler = .svrifStop →
      s.stop = .returned n → ShutdownStep s .handler { s with handler := .testHandle }
  | testHandle (s : ShutdownState) : s.halted = false → s.handler = .testHandle →
      ShutdownStep s .handler
        { s with handler := if s.hSerial then .disableIRQ else .terminate false }
  | disableIRQ (s : ShutdownState) : s.halted = false → s.handler = .disableIRQ →
      ShutdownStep s .handler { s with irqEnabled := false, handler := .deInit }
  | deInit (s : ShutdownState) (ok : Bool) : s.halted = false → s.handler = .deInit →
      ShutdownStep s .handler
        { s with handler := if ok then .deleteSemaphore else .clearHandle false }
  | deleteSemaphore (s : ShutdownState) : s.halted = false → s.handler = .deleteSemaphore →
      ShutdownStep s .handler { s with xSemaphore := false, handler := .deleteRxWait }
  | deleteRxWait (s : ShutdownState) : s.halted = false → s.handler = .deleteRxWait →
      ShutdownStep s .handler { s with xRxWait := false, handler := .freeBuffer }
  | freeBuffer (s : ShutdownState) : s.halted = false → s.handler = .freeBuffer →
      ShutdownStep s .handler { s with pRxBuffer := false, handler := .clearHandle true }
  | clearHandle (s : ShutdownState) (closed : Bool) : s.halted = false →
      s.handler = .clearHandle closed →
      ShutdownStep s .handler { s with hSerial := false, handler := .terminate closed }
  | terminate (s : ShutdownState) (closed : Bool) : s.halted = false →
      s.handler = .terminate closed →
      ShutdownStep s .handler { s with xThread := false, handler := .closeShell }
  | closeShell (s : ShutdownState) : s.halted = false → s.handler = .closeShell →
      ShutdownStep s .handler { s with handler := .imageSet }
  | imageSet (s : ShutdownState) : s.halted = false → s.handler = .imageSet →
      ShutdownStep s .handler { s with handler := .reset }
  | reset (s : ShutdownState) : s.halted = false → s.handler = .reset →
      ShutdownStep s .handler { s with handler := .done }

/-- Both tasks in use, the counter's port as it may be. -/
def shutdownStart (port : Serial.State Unit) : ShutdownState where
  counter := cntifStart
  port := port
  pSerial := true
  hSerial := true
  xThread := true
  irqEnabled := true
  xSemaphore := true
  xRxWait := true
  pRxBuffer := true
  stop := .idle
  handler := .svrifStop
  halted := false
  misused := false

/-- The board in use, and `f` typed at any moment. -/
def shutdown : System ShutdownState ShutdownLabel where
  init s := ∃ port, Serial.Opened 256 port ∧ s = shutdownStart port
  step := ShutdownStep

/-! ## Positions -/

variable {s t : ShutdownState} {a : ShutdownLabel} {labels : List ShutdownLabel}
  {port : Serial.State Unit}

/-- What `SERIAL_close` has released. -/
def HandlerPoint.released : HandlerPoint → Resource → Bool
  | .deleteRxWait, .xSemaphore => true
  | .freeBuffer, .xSemaphore | .freeBuffer, .xRxWait => true
  | .clearHandle closed, _ | .terminate closed, _ => closed
  | _, _ => false

/-- What the handler has released, going by where it is. -/
def released (stop : StopPoint) (handler : HandlerPoint) : Resource → Bool
  | .xMessageQ => stop.deleted
  | r => handler.released r

/-- `osThreadTerminate` is still to come. -/
def HandlerPoint.mainAlive : HandlerPoint → Bool
  | .closeShell | .imageSet | .reset | .done => false
  | _ => true

/-- What is there shows in where the handler is. -/
structure Position (s : ShutdownState) : Prop where
  thread : s.xThread = s.handler.mainAlive
  queue : s.counter.server.xMessageQ.isSome = !s.stop.deleted
  port : s.xThread = true → ∀ r, r ≠ .xMessageQ → s.live r = !s.handler.released r

theorem Position.live_eq (hs : Position s) (hthread : s.xThread = true) (r : Resource) :
    s.live r = !released s.stop s.handler r := by
  cases r with
  | xMessageQ => exact hs.queue
  | xSemaphore | xRxWait | pRxBuffer => exact hs.port hthread _ (by decide)

theorem queue_step {u v : ServerState} {b : Label} (h : Step u b v) :
    v.xMessageQ.isSome = u.xMessageQ.isSome := by
  cases h with
  | enqueue _ _ _ _ _ hq | receive _ _ _ hq =>
      rw [hq]
      rfl
  | _ => rfl

theorem queue_counterStep {u v : CounterState} {b : CounterLabel} (h : CounterStep u b v) :
    v.server.xMessageQ.isSome = u.server.xMessageQ.isSome := by
  rcases counter_simulation.step u b v u.server rfl h with ⟨_, t, _, hstep, ht⟩ | ⟨_, ht⟩
  · cases ht
    exact queue_step hstep
  · rw [ht]

theorem queue_stopStep {x y : StopState} (h : StopStep x .stop y)
    (hx : x.server.xMessageQ.isSome = !x.stop.deleted) :
    y.server.xMessageQ.isSome = !y.stop.deleted := by
  cases h with
  | call hstop | terminate hstop | finish hstop | drained hstop =>
      rw [hstop] at hx
      exact hx
  | drain | delete => rfl

/-- Where `CNTIF_main` or the interface moves on, the handler stays. -/
theorem Position.of_counter {u : CounterState} {p : Serial.State Unit}
    {arg halted misused : Bool} (hs : Position s)
    (hqueue : u.server.xMessageQ.isSome = s.counter.server.xMessageQ.isSome) :
    Position { s with
      counter := u, port := p, pSerial := arg, halted := halted, misused := misused } where
  thread := hs.thread
  queue := hqueue.trans hs.queue
  port hthread r hr := by
    have hport := hs.port hthread r hr
    cases r with
    | xMessageQ => exact absurd rfl hr
    | xSemaphore | xRxWait | pRxBuffer => exact hport

/-- Where the handler moves on, it releases what `released` says, -/
theorem Position.of_handler {p : HandlerPoint} (hs : Position s) (hpoint : s.handler = p)
    (hcounter : t.counter = s.counter) (hstop : t.stop = s.stop)
    (hthread : t.xThread = s.xThread) (halive : p.mainAlive = t.handler.mainAlive)
    (hport : ∀ r, r ≠ .xMessageQ → s.live r = !p.released r →
      t.live r = !t.handler.released r) : Position t where
  thread := by rw [hthread, hs.thread, hpoint, halive]
  queue := by rw [hcounter, hstop, hs.queue]
  port h r hr := by
    rw [hthread] at h
    exact hport r hr (hpoint ▸ hs.port h r hr)

/-- and behind `osThreadTerminate` no more. -/
theorem Position.of_dead (hs : Position s) (hcounter : t.counter = s.counter)
    (hstop : t.stop = s.stop) (hthread : t.xThread = false)
    (halive : t.handler.mainAlive = false) : Position t where
  thread := by rw [hthread, halive]
  queue := by rw [hcounter, hstop, hs.queue]
  port h := by
    rw [hthread] at h
    cases h

theorem position_step (h : ShutdownStep s a t) (hs : Position s) : Position t := by
  cases h with
  | task b u hhalted hstep => exact hs.of_counter (queue_counterStep hstep)
  | irq => exact hs.of_counter rfl
  | main b u hruns hmain husable hb hstep => exact hs.of_counter (queue_counterStep hstep)
  | leaveInput b u hruns hmain hserial hidle hb hstep =>
      exact hs.of_counter (queue_counterStep hstep)
  | read | readStale | configAssert => exact hs.of_counter rfl
  | svrifStop u hhalted hpoint hstep =>
      constructor
      · exact hs.thread
      · exact queue_stopStep hstep hs.queue
      · intro hthread r hr
        have hport := hs.port hthread r hr
        cases r with
        | xMessageQ => exact absurd rfl hr
        | xSemaphore | xRxWait | pRxBuffer => exact hport
  | svrifReturns n hhalted hpoint => exact hs.of_handler hpoint rfl rfl rfl rfl fun _ _ h => h
  | testHandle hhalted hpoint =>
      have hopen : Position { s with handler := .disableIRQ } :=
        hs.of_handler hpoint rfl rfl rfl rfl fun _ _ h => h
      have hclosed : Position { s with handler := .terminate false } :=
        hs.of_handler hpoint rfl rfl rfl rfl fun _ _ h => h
      split
      · exact hopen
      · exact hclosed
  | disableIRQ hhalted hpoint => exact hs.of_handler hpoint rfl rfl rfl rfl fun _ _ h => h
  | deInit ok hhalted hpoint =>
      cases ok with
      | false => exact hs.of_handler hpoint rfl rfl rfl rfl fun _ _ h => h
      | true => exact hs.of_handler hpoint rfl rfl rfl rfl fun _ _ h => h
  | deleteSemaphore hhalted hpoint =>
      refine hs.of_handler hpoint rfl rfl rfl rfl ?_
      intro r hr hlive
      cases r with
      | xMessageQ => exact absurd rfl hr
      | xSemaphore => rfl
      | xRxWait | pRxBuffer => exact hlive
  | deleteRxWait hhalted hpoint =>
      refine hs.of_handler hpoint rfl rfl rfl rfl ?_
      intro r hr hlive
      cases r with
      | xMessageQ => exact absurd rfl hr
      | xRxWait => rfl
      | xSemaphore | pRxBuffer => exact hlive
  | freeBuffer hhalted hpoint =>
      refine hs.of_handler hpoint rfl rfl rfl rfl ?_
      intro r hr hlive
      cases r with
      | xMessageQ => exact absurd rfl hr
      | pRxBuffer => rfl
      | xSemaphore | xRxWait => exact hlive
  | clearHandle closed hhalted hpoint =>
      exact hs.of_handler hpoint rfl rfl rfl rfl fun _ _ h => h
  | terminate closed hhalted hpoint => exact hs.of_dead rfl rfl rfl rfl
  | closeShell hhalted hpoint | imageSet hhalted hpoint | reset hhalted hpoint =>
      have hthread := hs.thread
      rw [hpoint] at hthread
      exact hs.of_dead rfl rfl hthread rfl

theorem position_start (port : Serial.State Unit) : Position (shutdownStart port) where
  thread := rfl
  queue := rfl
  port _ r _ := by cases r <;> rfl

/-! ## The end of the handler -/

/-- The handler gets to the end on its own. -/
def Finishes (s : ShutdownState) : Prop :=
  ∃ labels t, (shutdown.restrict fun _ a => a = .handler).Run s labels t ∧ t.handler = .done

/-- The steps `SVRIF_stop` has still to take, with so many messages on the queue. -/
def stopRank (queued : Nat) : StopPoint → Nat
  | .idle => queued + 5
  | .terminate => queued + 4
  | .drain => queued + 3
  | .delete => 2
  | .finish => 1
  | .returned _ => 0

/-- The steps behind `SVRIF_stop`. -/
def HandlerPoint.rank : HandlerPoint → Nat
  | .svrifStop => 12
  | .testHandle => 11
  | .disableIRQ => 10
  | .deInit => 9
  | .deleteSemaphore => 8
  | .deleteRxWait => 7
  | .freeBuffer => 6
  | .clearHandle _ => 5
  | .terminate _ => 4
  | .closeShell => 3
  | .imageSet => 2
  | .reset => 1
  | .done => 0

def ShutdownState.rank (s : ShutdownState) : Nat :=
  s.handler.rank + stopRank (s.counter.server.xMessageQ.getD []).length s.stop

theorem rank_lt_of_handler {p : HandlerPoint} (hpoint : s.handler = p)
    (hcounter : t.counter = s.counter) (hstop : t.stop = s.stop)
    (h : t.handler.rank < p.rank) : t.rank < s.rank := by
  rw [ShutdownState.rank, ShutdownState.rank, hcounter, hstop, hpoint]
  exact Nat.add_lt_add_right h _

/-- `SVRIF_stop` has a step, and it is one nearer to its end. -/
theorem stop_progress (hpos : Position s) :
    (∃ n, s.stop = .returned n) ∨
      ∃ t, StopStep ⟨s.counter.server, s.stop⟩ .stop t ∧
        stopRank (t.server.xMessageQ.getD []).length t.stop <
          stopRank (s.counter.server.xMessageQ.getD []).length s.stop := by
  cases hstop : s.stop with
  | returned n => exact .inl ⟨n, rfl⟩
  | idle => exact .inr ⟨_, .call _ rfl, Nat.lt_succ_self _⟩
  | terminate => exact .inr ⟨_, .terminate _ rfl, Nat.lt_succ_self _⟩
  | drain =>
      have hqueue := hpos.queue
      rw [hstop] at hqueue
      rcases Option.isSome_iff_exists.mp hqueue with ⟨q, hq⟩
      cases q with
      | nil => exact .inr ⟨_, .drained _ rfl hq, by simp [stopRank]⟩
      | cons pMsg q => exact .inr ⟨_, .drain _ pMsg q rfl hq, by simp [stopRank, hq]⟩
  | delete => exact .inr ⟨_, .delete _ rfl, Nat.lt_succ_self _⟩
  | finish => exact .inr ⟨_, .finish _ rfl, Nat.lt_succ_self _⟩

theorem handler_progress (hs : s.halted = false) (hpos : Position s) :
    s.handler = .done ∨
      ∃ t, ShutdownStep s .handler t ∧ t.halted = false ∧ t.rank < s.rank := by
  cases hpoint : s.handler with
  | done => exact .inl rfl
  | svrifStop =>
      rcases stop_progress hpos with ⟨n, hstop⟩ | ⟨u, hstep, hlt⟩
      · exact .inr ⟨_, .svrifReturns s n hs hpoint hstop, hs,
          rank_lt_of_handler hpoint rfl rfl (Nat.lt_succ_self _)⟩
      · exact .inr ⟨_, .svrifStop s u hs hpoint hstep, hs, Nat.add_lt_add_left hlt _⟩
  | testHandle =>
      have hlt : HandlerPoint.rank (if s.hSerial then .disableIRQ else .terminate false) < 11 := by
        split <;> decide
      exact .inr ⟨_, .testHandle s hs hpoint, hs, rank_lt_of_handler hpoint rfl rfl hlt⟩
  | disableIRQ =>
      exact .inr ⟨_, .disableIRQ s hs hpoint, hs,
        rank_lt_of_handler hpoint rfl rfl (Nat.lt_succ_self _)⟩
  | deInit =>
      exact .inr ⟨_, .deInit s true hs hpoint, hs,
        rank_lt_of_handler hpoint rfl rfl (Nat.lt_succ_self _)⟩
  | deleteSemaphore =>
      exact .inr ⟨_, .deleteSemaphore s hs hpoint, hs,
        rank_lt_of_handler hpoint rfl rfl (Nat.lt_succ_self _)⟩
  | deleteRxWait =>
      exact .inr ⟨_, .deleteRxWait s hs hpoint, hs,
        rank_lt_of_handler hpoint rfl rfl (Nat.lt_succ_self _)⟩
  | freeBuffer =>
      exact .inr ⟨_, .freeBuffer s hs hpoint, hs,
        rank_lt_of_handler hpoint rfl rfl (Nat.lt_succ_self _)⟩
  | clearHandle closed =>
      exact .inr ⟨_, .clearHandle s closed hs hpoint, hs,
        rank_lt_of_handler hpoint rfl rfl (Nat.lt_succ_self _)⟩
  | terminate closed =>
      exact .inr ⟨_, .terminate s closed hs hpoint, hs,
        rank_lt_of_handler hpoint rfl rfl (Nat.lt_succ_self _)⟩
  | closeShell =>
      exact .inr ⟨_, .closeShell s hs hpoint, hs,
        rank_lt_of_handler hpoint rfl rfl (Nat.lt_succ_self _)⟩
  | imageSet =>
      exact .inr ⟨_, .imageSet s hs hpoint, hs,
        rank_lt_of_handler hpoint rfl rfl (Nat.lt_succ_self _)⟩
  | reset =>
      exact .inr ⟨_, .reset s hs hpoint, hs,
        rank_lt_of_handler hpoint rfl rfl (Nat.lt_succ_self _)⟩

/-- As long as the system runs the handler gets to the end. -/
theorem finishes_of_running (hs : s.halted = false) (hpos : Position s) : Finishes s := by
  apply System.Run.exists_of_rank ShutdownState.rank (I := fun s => s.halted = false ∧ Position s)
  · intro s hI
    rcases handler_progress hI.1 hI.2 with hdone | ⟨t, hstep, ht, hlt⟩
    · exact .inl hdone
    · exact .inr ⟨.handler, t, ⟨rfl, hstep⟩, ⟨ht, position_step hstep hI.2⟩, hlt⟩
  · exact ⟨hs, hpos⟩

/-! ## Safety -/

/-- Nothing that was released has been used, and the handler gets to `SYS_reset`. -/
structure Safe (s : ShutdownState) : Prop where
  unused : s.misused = false
  finishes : Finishes s

/-- `CNTIF_main` is not scheduled where the handler is past the release of what its next
step is on. -/
def InTime (s : ShutdownState) (a : ShutdownLabel) : Prop :=
  a = .main → ∀ r, s.uses = some r → released s.stop s.handler r = false

/-- The states a run in time is in. -/
structure Sound (s : ShutdownState) : Prop where
  running : s.halted = false
  unused : s.misused = false
  position : Position s

theorem Sound.safe (hs : Sound s) : Safe s where
  unused := hs.unused
  finishes := finishes_of_running hs.running hs.position

theorem sound_step (hs : Sound s) (ha : InTime s a) (h : ShutdownStep s a t) : Sound t := by
  have hposition := position_step h hs.position
  cases h with
  | readStale l t hruns huses hdead hl hstep =>
      have hlive := hs.position.live_eq hruns.2 .pRxBuffer
      rw [ha rfl _ huses] at hlive
      rw [ShutdownState.live, hdead] at hlive
      cases hlive
  | configAssert r hruns huses hr hdead =>
      have hlive := hs.position.live_eq hruns.2 r
      rw [ha rfl _ huses, hdead] at hlive
      cases hlive
  | _ => exact ⟨hs.running, hs.unused, hposition⟩

/-- What is used was not released by then. -/
theorem inTime_of_safe (hpos : Position s) (h : ShutdownStep s a t) (ht : Safe t) :
    InTime s a := by
  intro ha r huses
  cases h with
  | task | irq => cases ha
  | main b u hruns hmain husable hb hstep =>
      have hlive := hpos.live_eq hruns.2 r
      rw [husable r huses] at hlive
      simpa using hlive.symm
  | leaveInput b u hruns hmain hserial hidle hb hstep =>
      simp [ShutdownState.uses, hmain, hidle] at huses
  | read l u hruns hmain hserial husable hl hstep =>
      have hlive := hpos.live_eq hruns.2 r
      rw [husable r huses] at hlive
      simpa using hlive.symm
  | readStale | configAssert => exact absurd ht.unused (by simp)
  | _ => cases ha

/-- The shutdown is safe all along a run exactly when the counter task is always
scheduled in time. -/
theorem safe_iff :
    (shutdown.within Safe).Run (shutdownStart port) labels s ↔
      (shutdown.restrict InTime).Run (shutdownStart port) labels s := by
  have hposition := position_start port
  apply System.Run.within_iff_restrict (I := Sound) (J := Position)
  · intro s a t hs ha hstep
    exact sound_step hs ha hstep
  · intro s hs
    exact hs.safe
  · intro s a t hs hstep
    exact position_step hstep hs
  · intro s a t hs _ hstep ht
    exact inTime_of_safe hs hstep ht
  · exact ⟨rfl, rfl, hposition⟩
  · exact hposition

/-- `CNTIF_main` has its message ready when `SVRIF_stop` deletes the queue, and goes on
with `xQueueSend`. -/
theorem send_on_deleted_queue :
    ∃ labels s, ∃ port : Serial.State Unit, Serial.Opened 256 port ∧
      shutdown.Run (shutdownStart port) labels s ∧ ¬ Safe s := by
  let port : Serial.State Unit :=
    { serial := ⟨⟨0, 8, 8⟩, false, fun _ => 0, 256, 0, 0, fun _ => 0⟩
      xSemaphore := none
      task := fun _ => .idle }
  have hrun : shutdown.Run (shutdownStart port) _ _ :=
    .cons (.leaveInput _ _ _ ⟨rfl, rfl⟩ rfl rfl rfl (by simp)
      (.getMessage _ (Bytes.replicate 128 1) ⟨1, by decide⟩ 1000 rfl)) <|
    .cons (.main _ _ _ ⟨rfl, rfl⟩ (by simp) (by intro r h; cases h) (by simp)
      (.call _ _ _ rfl fun h => absurd h.1 (by decide))) <|
    .cons (.main _ _ _ ⟨rfl, rfl⟩ (by simp) (by intro r h; cases h) (by simp)
      (.malloc _ _ _ _ rfl (.malloc _ _))) <|
    .cons (.svrifStop _ _ rfl rfl (.call _ rfl)) <|
    .cons (.svrifStop _ _ rfl rfl (.terminate _ rfl)) <|
    .cons (.svrifStop _ _ rfl rfl (.drained _ rfl rfl)) <|
    .cons (.svrifStop _ _ rfl rfl (.delete _ rfl)) <|
    .one (.configAssert _ .xMessageQ ⟨rfl, rfl⟩ rfl (by decide) rfl)
  exact ⟨_, _, port, ⟨rfl, rfl, rfl, rfl, rfl, fun _ => rfl⟩, hrun,
    fun hsafe => absurd hsafe.unused (by simp)⟩

end BillCounter.Counter
