import BillCounter.Serial.Ring

/-!
# Every interleaving of interrupts and readers is a run of the queue

The invariant has three parts: the ring is well formed, a task between taking
and giving the mutex is the holder of the mutex, and a task about to pop finds a
byte.  The last one holds because only the holder takes bytes out: between the
second test of `ulRxLength` and the pop only interrupts touch the ring, and they
do not empty it.
-/

namespace BillCounter.Serial

open BillCounter.Lib.RawBytes
open BillCounter.Lib.DropOldest
open BillCounter.Lib.Runs

variable {τ : Type} {L : Nat} {port : SerialPort}

/-! ## The invariant -/

/-- The points between taking and giving the mutex. -/
def Point.inside : Point → Bool
  | .firstTest | .takeRxWait | .secondTest | .pop | .giveSemaphore _ => true
  | .loopTest | .takeSemaphore | .leave _ => false

def TaskState.inside : TaskState → Bool
  | .idle => false
  | .reading _ _ p => p.inside

/-- A task about to pop. -/
def TaskState.AtPop (p : TaskState) : Prop := ∃ c v, p = .reading c v .pop

/-- A task between taking and giving the mutex is its holder. -/
def Mutex (s : State τ) : Prop := ∀ t, (s.task t).inside = true → s.xSemaphore = some t

/-- A task about to pop finds a byte. -/
def Ready (s : State τ) : Prop := ∀ t, (s.task t).AtPop → 0 < s.serial.ulRxLength

structure Inv (L : Nat) (s : State τ) : Prop where
  ring : RingInv L s.serial
  holder : ∀ t, (s.task t).inside = true → s.xSemaphore = some t
  ready : ∀ t, (s.task t).AtPop → 0 < s.serial.ulRxLength

theorem TaskState.AtPop.inside {p : TaskState} (h : p.AtPop) : p.inside = true := by
  obtain ⟨c, v, rfl⟩ := h
  rfl

theorem point_ne_pop {c : Caller} {v : List Byte} {p : Point} (h : p ≠ .pop) :
    ¬ (TaskState.reading c v p).AtPop := by
  rintro ⟨c', v', heq⟩
  cases heq
  exact h rfl

/-- While `t` holds the mutex no other task is inside. -/
theorem Mutex.alone {s : State τ} (h : Mutex s) {t : τ} (ht : (s.task t).inside = true)
    {u : τ} (hu : (s.task u).inside = true) : u = t :=
  Option.some.inj ((h u hu).symm.trans (h t ht))

theorem mutex_opened {s : State τ} (h : Opened L s) : Mutex s := by
  intro t ht
  rw [h.tasks t] at ht
  exact absurd ht Bool.false_ne_true

theorem ready_opened {s : State τ} (h : Opened L s) : Ready s := by
  intro t ht
  have hin := ht.inside
  rw [h.tasks t] at hin
  exact absurd hin Bool.false_ne_true

theorem inv_opened {s : State τ} (hpos : 0 < L) (h : Opened L s) : Inv L s where
  ring := ⟨h.bufferLength, h.index ▸ hpos, h.length ▸ Nat.zero_le L, h.uart⟩
  holder := mutex_opened h
  ready := ready_opened h

variable [DecidableEq τ]

/-- A step of task `t` keeps the mutex exclusive if `t` inside is the holder after it,
and so are the others inside. -/
theorem Mutex.of_task {s : State τ} {t : τ} {p : TaskState} {serial : SerialStruct}
    {sem : Option τ} (hin : p.inside = true → sem = some t)
    (hothers : ∀ u, u ≠ t → (s.task u).inside = true → sem = some u) :
    Mutex ⟨serial, sem, Function.update s.task t p⟩ :=
  (Function.forall_update_iff s.task fun u q => q.inside = true → sem = some u).2
    ⟨hin, hothers⟩

/-- A step of a task that does not touch the mutex, and does not go inside. -/
theorem Mutex.moveTo {s : State τ} (h : Mutex s) {t : τ} {p : TaskState}
    {serial : SerialStruct} (hin : p.inside = true → (s.task t).inside = true) :
    Mutex ⟨serial, s.xSemaphore, Function.update s.task t p⟩ :=
  .of_task (fun hp => h t (hin hp)) fun u _ => h u

/-- Every step keeps the mutex exclusive. -/
theorem mutex_step {s s' : State τ} {a : Label τ} (h : Mutex s) (hstep : Step port s a s') :
    Mutex s' := by
  cases hstep with
  | irq b => exact h
  | callGetc t ht | callGets t n ht | takeTimeout t c v ht | leaveGetc t v got ht
  | leaveGets t n v got ht | leaveGetsLate t n v got ht | loopAgain t n v ht hlt
  | loopEnd t n v ht hle => exact h.moveTo fun hp => absurd hp Bool.false_ne_true
  | firstTest t c v ht | wait t c v ht hwait | waitTimeout t c v ht | secondTest t c v ht
  | pop t c v ht => exact h.moveTo fun _ => by rw [ht]; rfl
  | take t c v ht hfree =>
      -- the mutex was free, so nobody else is inside
      exact .of_task (fun _ => rfl) fun u _ hu => absurd (hfree.symm.trans (h u hu)) (by simp)
  | give t c v got ht =>
      have hin : (s.task t).inside = true := by
        rw [ht]
        rfl
      exact .of_task (fun hp => absurd hp Bool.false_ne_true)
        fun u hne hu => absurd (h.alone hin hu) hne

/-- A step of task `t` that does not take bytes out keeps the others ready. -/
theorem Ready.moveTo {s : State τ} (h : Ready s) {t : τ} {p : TaskState}
    {serial : SerialStruct} {sem : Option τ}
    (hlen : serial.ulRxLength = s.serial.ulRxLength) (hp : p.AtPop → 0 < s.serial.ulRxLength) :
    Ready ⟨serial, sem, Function.update s.task t p⟩ :=
  (Function.forall_update_iff s.task fun _ q => q.AtPop → 0 < serial.ulRxLength).2
    ⟨hlen ▸ hp, fun u _ => hlen ▸ h u⟩

/-- Every step keeps the tasks about to pop ready, if an interrupt does not empty the
ring. -/
theorem ready_step {s s' : State τ} {a : Label τ} (hmutex : Mutex s) (h : Ready s)
    (hirq : ∀ b, 0 < s.serial.ulRxLength → 0 < (irqHandler port b s.serial).ulRxLength)
    (hstep : Step port s a s') : Ready s' := by
  cases hstep with
  | irq b => exact fun t ht => hirq b (h t ht)
  | callGetc t ht | callGets t n ht | take t c v ht hfree | takeTimeout t c v ht
  | wait t c v ht hwait | waitTimeout t c v ht | give t c v got ht | leaveGetc t v got ht
  | leaveGets t n v got ht | leaveGetsLate t n v got ht | loopAgain t n v ht hlt
  | loopEnd t n v ht hle => exact h.moveTo rfl (by rintro ⟨c, v, heq⟩; cases heq)
  | firstTest t c v ht =>
      refine h.moveTo rfl fun hp => absurd hp (point_ne_pop ?_)
      split <;> simp
  | secondTest t c v ht =>
      refine h.moveTo rfl fun hp => ?_
      by_cases hzero : s.serial.ulRxLength = 0
      · rw [if_pos hzero] at hp
        exact absurd hp (point_ne_pop (by simp))
      · exact Nat.pos_of_ne_zero hzero
  | pop t c v ht =>
      -- the holder of the mutex is alone about to pop
      have hat : (s.task t).AtPop := ⟨c, v, ht⟩
      refine (Function.forall_update_iff s.task fun _ q =>
        q.AtPop → 0 < (skipOldest s.serial).ulRxLength).2 ⟨fun hp => ?_, fun u hne hu => ?_⟩
      · exact absurd hp (point_ne_pop (by simp))
      · exact absurd (hmutex.alone hat.inside hu.inside) hne

/-! ## Steps -/

/-- What the queue sees of a label. -/
def Label.event : Label τ → Option (Event Byte)
  | .irq (some b) => some (.received b)
  | .pop _ b => some (.returned b)
  | _ => none

/-- The ring represents the list `q`. -/
def Represents (L : Nat) (s : State τ) (q : List Byte) : Prop :=
  Inv L s ∧ s.serial.queued = q

/-- Every step is a step of the queue or invisible to it. -/
theorem simulation (hpos : 0 < L) (hL : L ≤ 2 ^ 31) :
    Simulation (serialSystem (τ := τ) port L) (queue L) Label.event (Represents L) where
  step := by
    rintro s a s' q ⟨h, rfl⟩ hstep
    have hmutex := mutex_step h.holder hstep
    have hready := ready_step h.holder h.ready (irqHandler_length_pos hpos hL h.ring) hstep
    cases hstep with
    | irq b =>
        cases b with
        | none =>
            rw [irqHandler_none h.ring.uart]
            exact .inr ⟨rfl, h, rfl⟩
        | some b =>
            obtain ⟨hring, hqueued, -⟩ := irqHandler_spec hpos hL h.ring port b
            exact .inl ⟨_, _, rfl, hqueued.symm, ⟨hring, hmutex, hready⟩, rfl⟩
    | pop t c v ht =>
        obtain ⟨hring, hqueued, _⟩ := skipOldest_spec hL h.ring (h.ready t ⟨c, v, ht⟩)
        exact .inl ⟨_, _, rfl, hqueued, ⟨hring, hmutex, hready⟩, rfl⟩
    | wait t c v ht hwait =>
        have hring : RingInv L { s.serial with xRxWait := false } :=
          ⟨h.ring.bufferLength, h.ring.index_lt, h.ring.length_le, h.ring.uart⟩
        exact .inr ⟨rfl, ⟨hring, hmutex, hready⟩, rfl⟩
    | callGetc t ht | callGets t n ht | take t c v ht hfree | takeTimeout t c v ht
    | firstTest t c v ht | waitTimeout t c v ht | secondTest t c v ht | give t c v got ht
    | leaveGetc t v got ht | leaveGets t n v got ht | leaveGetsLate t n v got ht
    | loopAgain t n v ht hlt | loopEnd t n v ht hle =>
        exact .inr ⟨rfl, ⟨h.ring, hmutex, hready⟩, rfl⟩

/-! ## What each task gets -/

/-- The bytes a task has read in the call it is in. -/
def TaskState.pending : TaskState → List Byte
  | .idle => []
  | .reading _ v (.giveSemaphore got) => v ++ got.toList
  | .reading _ v (.leave got) => v ++ got.toList
  | .reading _ v _ => v

/-- The task a label belongs to. -/
def Label.actor : Label τ → Option τ
  | .irq _ => none
  | .call t _ | .internal t | .pop t _ | .ret t _ => some t

/-- The bytes a label pops. -/
def Label.popped : Label τ → List Byte
  | .pop _ b => [b]
  | _ => []

/-- The bytes a label hands to the caller. -/
def Label.handedOver : Label τ → List Byte
  | .ret _ v => v
  | _ => []

/-- The bytes task `t` popped in a run. -/
def poppedBy (t : τ) (labels : List (Label τ)) : List Byte :=
  (labels.filter fun a => a.actor = some t).flatMap Label.popped

/-- The bytes the calls of task `t` returned in a run. -/
def handedTo (t : τ) (labels : List (Label τ)) : List Byte :=
  (labels.filter fun a => a.actor = some t).flatMap Label.handedOver

/-- What a step does to the tasks: nothing, or it moves one task on and accounts
for its bytes. -/
theorem step_task {s s' : State τ} {a : Label τ} (h : Step port s a s') :
    (a.actor = none ∧ s'.task = s.task) ∨
      ∃ t p, a.actor = some t ∧ s'.task = Function.update s.task t p ∧
        (s.task t).pending ++ a.popped = a.handedOver ++ p.pending := by
  cases h with
  | irq b => exact .inl ⟨rfl, rfl⟩
  | firstTest t c v ht =>
      refine .inr ⟨t, _, rfl, rfl, ?_⟩
      rw [ht]
      split <;> simp [TaskState.pending, Label.popped, Label.handedOver]
  | secondTest t c v ht =>
      refine .inr ⟨t, _, rfl, rfl, ?_⟩
      rw [ht]
      split <;> simp [TaskState.pending, Label.popped, Label.handedOver]
  | callGetc t ht | callGets t n ht | take t c v ht hfree | takeTimeout t c v ht
  | wait t c v ht hwait | waitTimeout t c v ht | pop t c v ht | give t c v got ht
  | leaveGetc t v got ht | leaveGets t n v got ht | leaveGetsLate t n v got ht
  | loopAgain t n v ht hlt | loopEnd t n v ht hle =>
      refine .inr ⟨t, _, rfl, rfl, ?_⟩
      rw [ht]
      simp [TaskState.pending, Label.popped, Label.handedOver]

/-- Along a run every byte a task pops is handed to its caller, once and in
order, or still with the task. -/
theorem poppedBy_eq {s s' : State τ} {labels : List (Label τ)}
    (h : (serialSystem port L).Run s labels s') (t : τ) :
    (s.task t).pending ++ poppedBy t labels =
      handedTo t labels ++ (s'.task t).pending := by
  induction h with
  | nil s => simp [poppedBy, handedTo]
  | @cons s s₁ s' a labels hstep _ ih =>
      have hcons : ∀ f : Label τ → List Byte,
          ((a :: labels).filter fun a => a.actor = some t).flatMap f =
            (if a.actor = some t then f a else []) ++
              (labels.filter fun a => a.actor = some t).flatMap f := by
        intro f
        by_cases ha : a.actor = some t <;> simp [ha]
      rw [poppedBy, handedTo, hcons, hcons, ← poppedBy, ← handedTo]
      rcases step_task hstep with ⟨hnone, htask⟩ | ⟨u, p, hactor, htask, hbytes⟩
      · rw [htask] at ih
        simpa [hnone] using ih
      · by_cases hut : u = t
        · subst hut
          rw [htask, Function.update_self] at ih
          rw [if_pos hactor, if_pos hactor, ← List.append_assoc, hbytes,
            List.append_assoc, ih, List.append_assoc]
        · have hne : a.actor ≠ some t := by
            rw [hactor]
            exact fun heq => hut (Option.some.inj heq)
          rw [htask, Function.update_of_ne (Ne.symm hut)] at ih
          rw [if_neg hne, if_neg hne, List.nil_append, List.nil_append]
          exact ih

/-! ## The main result -/

/-- From `SERIAL_open` on, whatever interrupts and readers do in whatever order:
the index and the length stay in bounds, the ring is the drop-oldest queue of the
bytes delivered and popped, each task gets the bytes it popped in order, nothing
is returned twice or out of order, and nothing is lost unless a byte comes in
while the ring is full. -/
theorem ring_refines_queue (hpos : 1 ≤ L) (hL : L ≤ 2 ^ 31) {s₀ s : State τ}
    {labels : List (Label τ)} (hopen : (serialSystem port L).init s₀)
    (hrun : (serialSystem port L).Run s₀ labels s) :
    (s.serial.ulRxIndex < L ∧ s.serial.ulRxLength ≤ L) ∧
    (queue L).Run [] (labels.filterMap Label.event)
      (contents L s.serial.pRxBuffer s.serial.ulRxIndex s.serial.ulRxLength) ∧
    (∀ t, poppedBy t labels = handedTo t labels ++ (s.task t).pending) ∧
    (returnedIn (labels.filterMap Label.event) ++
      contents L s.serial.pRxBuffer s.serial.ulRxIndex s.serial.ulRxLength).Sublist
        (receivedIn (labels.filterMap Label.event)) ∧
    (((serialSystem port L).restrict fun s _ => s.serial.ulRxLength < L).Run s₀ labels s →
      receivedIn (labels.filterMap Label.event) =
        returnedIn (labels.filterMap Label.event) ++
          contents L s.serial.pRxBuffer s.serial.ulRxIndex s.serial.ulRxLength) := by
  have hstart : Represents L s₀ [] := by
    refine ⟨inv_opened hpos hopen, ?_⟩
    rw [SerialStruct.queued, hopen.length]
    rfl
  have hend : ∀ q, Represents L s q → q =
      contents L s.serial.pRxBuffer s.serial.ulRxIndex s.serial.ulRxLength := by
    rintro _ ⟨h, rfl⟩
    rw [SerialStruct.queued, h.ring.bufferLength]
  obtain ⟨q, hqueue, hrep⟩ := (simulation hpos hL).run hrun hstart
  have hq := hend q hrep
  subst hq
  refine ⟨⟨hrep.1.ring.index_lt, hrep.1.ring.length_le⟩, hqueue, fun t => ?_, ?_,
    fun hnever => ?_⟩
  · have hbytes := poppedBy_eq hrun t
    rw [hopen.tasks t] at hbytes
    exact hbytes
  · simpa using returned_append_sublist hqueue
  · have hroom : ∀ (s : State τ) (a : Label τ) (q : List Byte) (e : Event Byte),
        Represents L s q → s.serial.ulRxLength < L → a.event = some e → q.length < L := by
      rintro s a _ e ⟨_, rfl⟩ hlt _
      rwa [SerialStruct.queued, length_contents]
    obtain ⟨q, hqueue', hrep'⟩ := ((simulation hpos hL).restrict hroom).run hnever hstart
    have hq := hend q hrep'
    subst hq
    exact append_receivedIn hqueue'

/-- A port just opened with a ring of two bytes. -/
def openedPort : State Unit where
  serial := ⟨⟨0, 8, 8⟩, false, fun _ => 0, 2, 0, 0, fun _ => 0⟩
  xSemaphore := none
  task _ := .idle

/-- The same port once three bytes have come in. -/
def threeReceived : State Unit :=
  { openedPort with
    serial := [0x41, 0x42, 0x43].foldl
      (fun s b => irqHandler .SERIAL_PORT_1 (some b) s) openedPort.serial }

theorem ring_refines_queue_three_bytes :
    (queue 2).Run [] [.received (0x41 : Byte), .received 0x42, .received 0x43]
      [0x42, 0x43] := by
  have hopen : (serialSystem .SERIAL_PORT_1 2).init openedPort :=
    ⟨rfl, rfl, rfl, rfl, rfl, fun _ => rfl⟩
  have hrun : (serialSystem .SERIAL_PORT_1 2).Run openedPort
      [.irq (some 0x41), .irq (some 0x42), .irq (some 0x43)] threeReceived :=
    .cons (.irq _ _) (.cons (.irq _ _) (.one (.irq _ _)))
  have hqueue := (ring_refines_queue (by decide) (by decide) hopen hrun).2.1
  have hcontents : contents 2 threeReceived.serial.pRxBuffer
      threeReceived.serial.ulRxIndex threeReceived.serial.ulRxLength = [0x42, 0x43] := by
    decide +kernel
  rw [hcontents] at hqueue
  exact hqueue

end BillCounter.Serial
