import BillCounter.Counter.Duplicates
import BillCounter.Driver.Poll
import BillCounter.Lib.Collapse
import BillCounter.Server.Receipt

/-!
# From the counter to the server

The counter task with its driver: what `fInput` decodes of the line is what `SVRIF_send` is
called with, and in the end what the server reads.  The tasks run between any two steps, and
allocations, sockets and the link behave as they like, as in the models put together here.

A run of the device is one of the counter task and of the server interface, whose results hold
of it; and its calls of `fInput` are those of `polls` on the line.
-/

namespace BillCounter.Device

open BillCounter.Counter
open BillCounter.Driver
open BillCounter.Lib.Collapse
open BillCounter.Lib.RawBytes
open BillCounter.Lib.Runs
open BillCounter.Server

/-! ## The device -/

/-- The counter task and the server interface, the driver, and the line behind the port. -/
structure DeviceState where
  counter : CounterState
  pBC : BcInstance
  hSerial : Arrivals

/-- What happens. -/
inductive DeviceLabel
  /-- A call of `fInput`, with the message of `fGetMessage` if it was `true`. -/
  | input (message : Option (List Byte))
  | counter (a : CounterLabel)

theorem length_stored (pBuffer : Bytes 128) (pBC : BcInstance) :
    (patch pBuffer.val 0 pBC.fGetMessage).length = 128 := by
  have hle := (length_fGetMessage pBC).2
  rw [length_patch (by rw [pBuffer.property]; omega), pBuffer.property]

/-- `pBuffer` behind `fGetMessage`. -/
def stored (pBuffer : Bytes 128) (pBC : BcInstance) : Bytes 128 :=
  ⟨patch pBuffer.val 0 pBC.fGetMessage, length_stored pBuffer pBC⟩

theorem length_fGetMessage_le_sizeof (pBC : BcInstance) : pBC.fGetMessage.length ≤ 128 :=
  Nat.le_trans (length_fGetMessage pBC).2 (by decide)

/-- What `fGetMessage` returns. -/
def messageCount (pBC : BcInstance) : Count :=
  ⟨pBC.fGetMessage.length, length_fGetMessage_le_sizeof pBC⟩

/-- The driver and the line behind a call of `fInput`, with the counter task at `t`. -/
def DeviceState.polled (s : DeviceState) (t : CounterState) : DeviceState where
  counter := t
  pBC := (s.pBC.fInput s.hSerial).2
  hSerial := s.pBC.restOfLine s.hSerial

/-- One step.  At its call of `fInput` the counter task does what the driver makes it do. -/
inductive DeviceStep : DeviceState → DeviceLabel → DeviceState → Prop
  | rejected (s : DeviceState) : s.counter.main = .input →
      (s.pBC.fInput s.hSerial).1 = false →
      DeviceStep s (.input none) (s.polled { s.counter with main := .delay })
  | accepted (s : DeviceState) (ulTick : BitVec 32) : s.counter.main = .input →
      (s.pBC.fInput s.hSerial).1 = true →
      DeviceStep s (.input (some (s.pBC.fInput s.hSerial).2.fGetMessage))
        (s.polled
          { s.counter with
            pBuffer := stored s.counter.pBuffer (s.pBC.fInput s.hSerial).2
            main := .compare (messageCount (s.pBC.fInput s.hSerial).2)
              (ulTick / configTickRateHz) })
  | counter (s : DeviceState) (a : CounterLabel) (t : CounterState) :
      CounterStep s.counter a t → (s.counter.main = .input → ∃ b, a = .task b) →
      DeviceStep s (.counter a) { s with counter := t }

/-- The device, with a driver and what is to come in on its port. -/
def deviceStart (pBC : BcInstance) (hSerial : Arrivals) : DeviceState :=
  ⟨cntifStart, pBC, hSerial⟩

/-- The device in use. -/
def device (pBC : BcInstance) (hSerial : Arrivals) : System DeviceState DeviceLabel where
  init s := s = deviceStart pBC hSerial
  step := DeviceStep

/-! ## What of it the models before see -/

/-- What the counter task sees of a step. -/
def DeviceLabel.event : DeviceLabel → CounterLabel
  | .input _ => .internal
  | .counter a => a

/-- The calls of `fInput`. -/
def DeviceLabel.message : DeviceLabel → Option (Option (List Byte))
  | .input message => some message
  | .counter _ => none

def counterLabels (labels : List DeviceLabel) : List CounterLabel :=
  labels.map DeviceLabel.event

def serverLabels (labels : List DeviceLabel) : List Label :=
  (counterLabels labels).filterMap CounterLabel.server

/-- What the calls of `fInput` came to. -/
def inputsIn (labels : List DeviceLabel) : List (Option (List Byte)) :=
  labels.filterMap DeviceLabel.message

/-- The messages decoded. -/
def decodedIn (labels : List DeviceLabel) : List (List Byte) := (inputsIn labels).filterMap id

/-- The messages enqueued by `CNTIF_main`. -/
def enqueuedData (labels : List DeviceLabel) : List (List Byte) :=
  (counterLabels labels).filterMap CounterLabel.enqueued

@[simp] theorem counterLabels_snoc (labels : List DeviceLabel) (a : DeviceLabel) :
    counterLabels (labels ++ [a]) = counterLabels labels ++ [a.event] :=
  List.map_append

@[simp] theorem serverLabels_snoc (labels : List DeviceLabel) (a : DeviceLabel) :
    serverLabels (labels ++ [a]) = serverLabels labels ++ a.event.server.toList := by
  rw [serverLabels, counterLabels_snoc, List.filterMap_append, ← serverLabels]
  cases a.event <;> rfl

@[simp] theorem decodedIn_snoc_input (labels : List DeviceLabel) (message : Option (List Byte)) :
    decodedIn (labels ++ [.input message]) = decodedIn labels ++ message.toList := by
  rw [decodedIn, inputsIn, List.filterMap_append, List.filterMap_append]
  cases message <;> rfl

@[simp] theorem decodedIn_snoc_counter (labels : List DeviceLabel) (a : CounterLabel) :
    decodedIn (labels ++ [.counter a]) = decodedIn labels := by
  rw [decodedIn, inputsIn, List.filterMap_append, List.filterMap_append]
  exact List.append_nil _

@[simp] theorem enqueuedData_snoc (labels : List DeviceLabel) (a : DeviceLabel) :
    enqueuedData (labels ++ [a]) = enqueuedData labels ++ a.event.enqueued.toList := by
  rw [enqueuedData, counterLabels_snoc, List.filterMap_append, ← enqueuedData]
  cases a with
  | input => rfl
  | counter a =>
      cases a with
      | send a => cases a <;> rfl
      | _ => rfl

variable {pBC : BcInstance} {hSerial : Arrivals} {s t : DeviceState} {a : DeviceLabel}
  {labels : List DeviceLabel}

/-- A step of the device is one of the counter task, with a driver that could be any. -/
theorem counterStep_of_step (h : DeviceStep s a t) : CounterStep s.counter a.event t.counter := by
  cases h with
  | rejected hmain => exact .noInput _ hmain
  | accepted ulTick hmain => exact .getMessage _ _ _ ulTick hmain
  | counter a t hstep => exact hstep

theorem counter_run (hrun : (device pBC hSerial).Run (deviceStart pBC hSerial) labels s) :
    counter.Run cntifStart (counterLabels labels) s.counter := by
  refine hrun.history (I := fun as u => counter.Run cntifStart (counterLabels as) u.counter)
    (.nil _) ?_
  intro as u a v hu hstep
  rw [counterLabels_snoc]
  exact hu.snoc (counterStep_of_step hstep)

theorem server_run (hrun : (device pBC hSerial).Run (deviceStart pBC hSerial) labels s) :
    server.Run svrifStart (serverLabels labels) s.counter.server := by
  obtain ⟨t, hserver, ht⟩ := counter_simulation.run (counter_run hrun) rfl
  rw [ht]
  exact hserver

/-! ## The line -/

/-- The calls of a run are those of the driver on the line. -/
theorem inputsIn_eq (hrun : (device pBC hSerial).Run (deviceStart pBC hSerial) labels s) :
    inputsIn labels = BcInstance.polls (inputsIn labels).length (pBC, hSerial) ∧
      (s.pBC, s.hSerial) = BcInstance.behind (inputsIn labels).length (pBC, hSerial) := by
  refine hrun.history (I := fun as u =>
    inputsIn as = BcInstance.polls (inputsIn as).length (pBC, hSerial) ∧
      (u.pBC, u.hSerial) = BcInstance.behind (inputsIn as).length (pBC, hSerial)) ⟨rfl, rfl⟩ ?_
  intro as u a v hu hstep
  have hinput : ∀ message, inputsIn (as ++ [.input message]) = inputsIn as ++ [message] :=
    fun message => List.filterMap_append
  have hpoll : BcInstance.poll (u.pBC, u.hSerial) =
      (if (u.pBC.fInput u.hSerial).1 then some (u.pBC.fInput u.hSerial).2.fGetMessage else none,
        (u.pBC.fInput u.hSerial).2, u.pBC.restOfLine u.hSerial) := rfl
  cases hstep with
  | rejected hmain hfalse =>
      rw [hfalse] at hpoll
      rw [hinput, List.length_append, List.length_singleton, polls_succ, behind_succ, ← hu.2,
        hpoll, ← hu.1]
      exact ⟨rfl, rfl⟩
  | accepted ulTick hmain htrue =>
      rw [htrue] at hpoll
      rw [hinput, List.length_append, List.length_singleton, polls_succ, behind_succ, ← hu.2,
        hpoll, ← hu.1]
      exact ⟨rfl, rfl⟩
  | counter a t hstep =>
      have hsame : inputsIn (as ++ [.counter a]) = inputsIn as :=
        List.filterMap_append.trans (List.append_nil _)
      rw [hsame]
      exact hu

/-- What is decoded in a run is decoded from the line. -/
theorem decodedIn_begins (hready : pBC.Ready)
    (hrun : (device pBC hSerial).Run (deviceStart pBC hSerial) labels s) :
    decodedIn labels <+: BcInstance.decoded hSerial.length (pBC, hSerial) := by
  have hdecoded : decodedIn labels =
      BcInstance.decoded (inputsIn labels).length (pBC, hSerial) := by
    rw [BcInstance.decoded, ← (inputsIn_eq hrun).1, decodedIn]
  have hend := (polled_to_end hready (Nat.le_add_left hSerial.length (inputsIn labels).length)).2
  rw [hdecoded, ← hend]
  exact decoded_begins_add _ _ _

/-- At the end of the line all of it is decoded. -/
theorem decodedIn_of_end (hready : pBC.Ready)
    (hrun : (device pBC hSerial).Run (deviceStart pBC hSerial) labels s)
    (hend : s.hSerial = []) :
    decodedIn labels = BcInstance.decoded hSerial.length (pBC, hSerial) := by
  have hinputs := inputsIn_eq hrun
  have hready' : s.pBC.Ready := by
    have hlast := ready_behind hready hSerial (inputsIn labels).length
    rwa [← hinputs.2] at hlast
  have hmore : ∀ k, BcInstance.decoded ((inputsIn labels).length + k) (pBC, hSerial) =
      decodedIn labels ∧
      BcInstance.behind ((inputsIn labels).length + k) (pBC, hSerial) = (s.pBC, []) := by
    intro k
    induction k with
    | zero =>
        rw [Nat.add_zero, BcInstance.decoded, ← hinputs.1, ← hinputs.2, hend]
        exact ⟨rfl, rfl⟩
    | succ k ih =>
        rw [← Nat.add_assoc, decoded_succ_back, behind_succ, ih.2, poll_nil hready', ih.1]
        exact ⟨List.append_nil _, rfl⟩
  have hall := (polled_to_end hready (Nat.le_add_left hSerial.length (inputsIn labels).length)).2
  rw [← hall]
  exact (hmore hSerial.length).1.symm

theorem length_of_mem_decodedIn
    (hrun : (device pBC hSerial).Run (deviceStart pBC hSerial) labels s) :
    ∀ message ∈ decodedIn labels, message.length ≤ 15 := by
  refine hrun.history (I := fun as _ => ∀ message ∈ decodedIn as, message.length ≤ 15)
    (fun _ h => absurd h List.not_mem_nil) ?_
  intro as u a v hu hstep message hmem
  cases hstep with
  | rejected =>
      rw [decodedIn_snoc_input] at hmem
      exact hu message (by simpa using hmem)
  | accepted =>
      rw [decodedIn_snoc_input] at hmem
      rcases List.mem_append.mp hmem with hold | hnew
      · exact hu message hold
      · rw [Option.mem_toList] at hnew
        cases hnew
        exact (length_fGetMessage _).2
  | counter =>
      rw [decodedIn_snoc_counter] at hmem
      exact hu message hmem

end BillCounter.Device
