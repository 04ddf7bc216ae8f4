import BillCounter.Server.Model

/-!
# Who owns a message

A block that `SVRIF_send` allocates passes from the sender to `xMessageQ` and from
there to the client, and whoever has it last frees it.  `SVRIF_stop` terminates the
client wherever it is, frees what is on the queue and deletes the queue, one step
after the other and with senders still running.
-/

namespace BillCounter.Server

open BillCounter.Lib.Runs

/-! ## `SVRIF_stop` -/

/-- Where `SVRIF_stop` is. -/
inductive StopPoint
  /-- Not called. -/
  | idle
  /-- `osThreadTerminate`, behind `ETH_stop`. -/
  | terminate
  /-- `xQueueReceive`, in the loop that frees what is on the queue. -/
  | drain
  /-- `vQueueDelete`. -/
  | delete
  /-- `return`, behind `xMessageQ = 0`. -/
  | finish
  /-- Back, when so many blocks had been allocated. -/
  | returned (allocated : Nat)

/-- `SVRIF_stop` has terminated the client. -/
def StopPoint.terminated : StopPoint → Bool
  | .idle | .terminate => false
  | _ => true

/-- `SVRIF_stop` has deleted `xMessageQ`. -/
def StopPoint.deleted : StopPoint → Bool
  | .finish | .returned _ => true
  | _ => false

structure StopState where
  server : ServerState
  stop : StopPoint

/-- A step of a task of the interface, or of `SVRIF_stop`. -/
inductive StopLabel
  | task (a : Label)
  | stop

/-- One step.  A round of the loop of `SVRIF_stop` is one. -/
inductive StopStep : StopState → StopLabel → StopState → Prop
  | task (s : StopState) (a : Label) (t : ServerState) : Step s.server a t →
      StopStep s (.task a) { s with server := t }
  | call (s : StopState) : s.stop = .idle → StopStep s .stop { s with stop := .terminate }
  | terminate (s : StopState) : s.stop = .terminate →
      StopStep s .stop ⟨{ s.server with client := .terminated }, .drain⟩
  | drain (s : StopState) (pMsg : Block) (q : List Block) : s.stop = .drain →
      s.server.xMessageQ = some (pMsg :: q) →
      StopStep s .stop
        ⟨{ s.server with heap := s.server.heap.free pMsg, xMessageQ := some q }, .drain⟩
  | drained (s : StopState) : s.stop = .drain → s.server.xMessageQ = some [] →
      StopStep s .stop { s with stop := .delete }
  | delete (s : StopState) : s.stop = .delete →
      StopStep s .stop ⟨{ s.server with xMessageQ := none }, .finish⟩
  | finish (s : StopState) : s.stop = .finish →
      StopStep s .stop { s with stop := .returned s.server.heap.allocated }

/-- The interface in use, and stopped at any moment. -/
def stoppable : System StopState StopLabel where
  init s := s = ⟨svrifStart, .idle⟩
  step := StopStep

/-! ## Places -/

variable {s t : ServerState} {a : Label} {x y : StopState} {b : StopLabel}
  {labels : List StopLabel}

def Send.block : Send → Block
  | .sending pMsg => pMsg
  | .refused pMsg => pMsg

/-- The numbers of a list of blocks. -/
def ids (blocks : List Block) : List Nat := blocks.map Block.id

/-- All the places a block may be in: with a sender, on the queue, with the client, or
freed. -/
def places (s : ServerState) : List Nat :=
  ids (s.sends.map Send.block) ++ ids (s.xMessageQ.getD []) ++ ids s.client.holds ++
    s.heap.freed

/-- Every block allocated is in one place, once. -/
def Once (s : ServerState) : Prop :=
  ∀ id, (places s).count id = if id < s.heap.allocated then 1 else 0

/-- Each block has one owner, and `SVRIF_stop` leaves none behind.  The client reads a
message only where it builds its frame. -/
structure Owned (x : StopState) : Prop where
  once : Once x.server
  freedOnce : x.server.heap.freed.Nodup
  readable : ∀ pMsg, x.server.client = .build pMsg → pMsg.id ∉ x.server.heap.freed
  released : ∀ n, x.stop = .returned n → ∀ id, id < n → id ∈ x.server.heap.freed

theorem Once.count_le_one (h : Once s) (id : Nat) : (places s).count id ≤ 1 := by
  rw [h id]
  split <;> omega

theorem Once.nodup_freed (h : Once s) : s.heap.freed.Nodup := by
  rw [List.nodup_iff_count]
  intro id
  have hle := h.count_le_one id
  rw [places, List.count_append] at hle
  omega

theorem Once.not_freed (h : Once s) {pMsg : Block} (hc : s.client = .build pMsg) :
    pMsg.id ∉ s.heap.freed := by
  intro hmem
  have hle := h.count_le_one pMsg.id
  have hfreed := List.count_pos_iff.mpr hmem
  rw [places, hc] at hle
  simp [ids, ClientPoint.holds, List.count_append] at hle
  omega

/-! ## The tasks -/

/-- Whatever the tasks do, every block stays in one place. -/
theorem once_step (h : Step s a t) (hs : Once s) : Once t := by
  intro id
  have hid := hs id
  cases h with
  | mallocFails | timeout => exact hid
  | malloc m =>
      simp only [places, ids, Send.block, List.map_cons, List.cons_append, List.count_cons]
        at hid ⊢
      rw [hid]
      simp only [beq_iff_eq]
      split <;> split <;> split <;> omega
  | enqueue pMsg before after q hsends hq hroom =>
      rw [← hid]
      simp [places, ids, hsends, hq, Send.block, List.count_append, List.count_cons]
      omega
  | full pMsg before after q hsends hq hfull =>
      rw [← hid]
      simp [places, ids, hsends, Send.block]
  | freeRefused pMsg before after hsends =>
      rw [show (s.heap.free pMsg).allocated = s.heap.allocated from rfl, ← hid]
      simp [places, ids, hsends, Heap.free, Send.block, List.count_append, List.count_cons]
      omega
  | linkUp hc | linkDown hc | delay hc | build _ _ hc | write _ _ _ hc | close hc =>
      rw [← hid]
      simp [places, ids, hc, ClientPoint.holds]
  | socket opened hc | connect connected hc =>
      rw [← hid]
      split <;> simp [places, ids, hc, ClientPoint.holds]
  | receive pMsg q hc hq =>
      rw [← hid]
      simp [places, ids, hc, hq, ClientPoint.holds, List.count_append, List.count_cons]
      omega
  | release pMsg nSentLength hc =>
      rw [show (s.heap.free pMsg).allocated = s.heap.allocated from rfl, ← hid]
      split <;>
        simp [places, ids, hc, Heap.free, ClientPoint.holds, List.count_append,
          List.count_cons, Nat.add_comm, Nat.add_assoc]

/-- The tasks never take a block back from the heap, -/
theorem freed_step (h : Step s a t) {id : Nat} (hid : id ∈ s.heap.freed) :
    id ∈ t.heap.freed := by
  cases h with
  | freeRefused | release => exact List.mem_append_left _ hid
  | _ => exact hid

/-- nor does the client go on behind `osThreadTerminate`, -/
theorem terminated_step (h : Step s a t) (hs : s.client = .terminated) :
    t.client = .terminated := by
  cases h with
  | mallocFails | malloc | enqueue | full | freeRefused => exact hs
  | linkUp hc | linkDown hc | delay hc | socket _ hc | connect _ hc | timeout hc
  | receive _ _ hc | build _ _ hc | write _ _ _ hc | release _ _ hc | close hc =>
      rw [hs] at hc
      cases hc

/-- nor does a queue come back. -/
theorem deleted_step (h : Step s a t) (hs : s.xMessageQ = none) : t.xMessageQ = none := by
  cases h with
  | enqueue _ _ _ _ _ hq | receive _ _ _ hq =>
      rw [hs] at hq
      cases hq
  | _ => exact hs

/-! ## Stopping -/

/-- How far `SVRIF_stop` is shows in the state of the interface. -/
structure Phase (x : StopState) : Prop where
  terminated : x.stop.terminated = true → x.server.client = .terminated
  deleted : x.stop.deleted = true → x.server.xMessageQ = none

theorem phase_step (h : StopStep x b y) (hx : Phase x) : Phase y := by
  cases h with
  | task a t hstep =>
      constructor
      · intro hlate
        exact terminated_step hstep (hx.terminated hlate)
      · intro hlate
        exact deleted_step hstep (hx.deleted hlate)
  | call hstop =>
      constructor
      · intro hlate
        cases hlate
      · intro hlate
        cases hlate
  | terminate hstop =>
      constructor
      · intro _
        rfl
      · intro hlate
        cases hlate
  | drain pMsg q hstop hq =>
      constructor
      · intro _
        exact hx.terminated (by rw [hstop]; rfl)
      · intro hlate
        cases hlate
  | drained hstop hq =>
      constructor
      · intro _
        exact hx.terminated (by rw [hstop]; rfl)
      · intro hlate
        cases hlate
  | delete hstop =>
      constructor
      · intro _
        exact hx.terminated (by rw [hstop]; rfl)
      · intro _
        rfl
  | finish hstop =>
      constructor
      · intro _
        exact hx.terminated (by rw [hstop]; rfl)
      · intro _
        exact hx.deleted (by rw [hstop]; rfl)

/-- A step of `SVRIF_stop` that loses no block: the client is terminated while it holds
none, the queue is deleted empty, and at the end no call of `SVRIF_send` has one. -/
def LosesNothing (x : StopState) : StopLabel → Prop
  | .task _ => True
  | .stop =>
      match x.stop with
      | .terminate => x.server.client.holds = []
      | .delete => x.server.xMessageQ.getD [] = []
      | .finish => x.server.sends = []
      | _ => True

/-- A step that takes blocks out of every place took none, if every block still is in
one. -/
theorem eq_nil_of_once {lost : List Block} (hs : Once s) (ht : Once t)
    (hallocated : t.heap.allocated = s.heap.allocated)
    (hplaces : ∀ id, (places s).count id = (ids lost).count id + (places t).count id) :
    lost = [] := by
  cases lost with
  | nil => rfl
  | cons pMsg lost =>
      have hcount := hplaces pMsg.id
      rw [hs, ht, hallocated] at hcount
      simp [ids] at hcount

theorem once_of_places_eq (hs : Once s) (hallocated : t.heap.allocated = s.heap.allocated)
    (hplaces : ∀ id, (places t).count id = (places s).count id) : Once t := by
  intro id
  rw [hplaces, hallocated]
  exact hs id

/-- Where nothing holds a block, all are freed. -/
theorem freed_of_places (hs : Once s) (hsends : s.sends = []) (hq : s.xMessageQ = none)
    (hclient : s.client = .terminated) {id : Nat} (hid : id < s.heap.allocated) :
    id ∈ s.heap.freed := by
  have hcount := hs id
  rw [if_pos hid, places, hsends, hq, hclient] at hcount
  have hfreed : s.heap.freed.count id = 1 := by simpa [ids, ClientPoint.holds] using hcount
  exact List.count_pos_iff.mp (by omega)

/-- Where all blocks are freed, no call of `SVRIF_send` has one. -/
theorem sends_of_freed (hs : Once s)
    (hfreed : ∀ id, id < s.heap.allocated → id ∈ s.heap.freed) : s.sends = [] := by
  cases hsends : s.sends with
  | nil => rfl
  | cons send sends =>
      have hcount := hs send.block.id
      rw [places, hsends] at hcount
      simp only [ids, List.map_cons, List.cons_append, List.count_cons_self] at hcount
      have hallocated : send.block.id < s.heap.allocated := by
        rcases Nat.lt_or_ge send.block.id s.heap.allocated with hlt | hge
        · exact hlt
        · rw [if_neg (by omega)] at hcount
          omega
      have hfreed := List.count_pos_iff.mpr (hfreed _ hallocated)
      rw [if_pos hallocated, List.count_append] at hcount
      omega

/-! ## Ownership -/

theorem owned_of_once (hs : Once x.server)
    (hreleased : ∀ n, x.stop = .returned n → ∀ id, id < n → id ∈ x.server.heap.freed) :
    Owned x where
  once := hs
  freedOnce := hs.nodup_freed
  readable _ hc := hs.not_freed hc
  released := hreleased

/-- Before `SVRIF_stop` returns nothing is to be freed yet. -/
theorem owned_inside (hs : Once x.server) (hstop : ∀ n, x.stop ≠ .returned n) : Owned x :=
  owned_of_once hs fun n hn => absurd hn (hstop n)

/-- Steps that lose nothing keep the blocks owned. -/
theorem owned_step (hx : Owned x) (hphase : Phase x) (hb : LosesNothing x b)
    (h : StopStep x b y) : Owned y := by
  cases h with
  | task a t hstep =>
      apply owned_of_once (once_step hstep hx.once)
      intro n hn id hid
      exact freed_step hstep (hx.released n hn id hid)
  | call hstop | drained hstop => exact owned_inside hx.once (by simp)
  | terminate hstop =>
      have hholds : x.server.client.holds = [] := by simpa [LosesNothing, hstop] using hb
      apply owned_inside
      · apply once_of_places_eq hx.once
        · rfl
        · intro id
          rw [places, places, hholds]
          rfl
      · simp
  | drain pMsg q hstop hq =>
      apply owned_inside
      · apply once_of_places_eq hx.once
        · rfl
        · intro id
          simp [places, ids, hq, Heap.free, List.count_append, List.count_cons]
          omega
      · simp
  | delete hstop =>
      have hempty : x.server.xMessageQ.getD [] = [] := by simpa [LosesNothing, hstop] using hb
      apply owned_inside
      · apply once_of_places_eq hx.once
        · rfl
        · intro id
          simp [places, hempty]
      · simp
  | finish hstop =>
      have hsends : x.server.sends = [] := by simpa [LosesNothing, hstop] using hb
      have hterminated := hphase.terminated (by rw [hstop]; rfl)
      have hdeleted := hphase.deleted (by rw [hstop]; rfl)
      apply owned_of_once
      · exact hx.once
      · intro n hn id hid
        cases hn
        exact freed_of_places hx.once hsends hdeleted hterminated hid

/-- A step between states where the blocks are owned lost nothing. -/
theorem losesNothing_of_owned (hx : Owned x) (h : StopStep x b y) (hy : Owned y) :
    LosesNothing x b := by
  cases h with
  | task => trivial
  | call hstop | drain _ _ hstop | drained hstop => simp [LosesNothing, hstop]
  | terminate hstop =>
      have hlost : x.server.client.holds = [] := eq_nil_of_once hx.once hy.once rfl (by
        intro id
        simp [places, ids, ClientPoint.holds, List.count_append]
        omega)
      simpa [LosesNothing, hstop] using hlost
  | delete hstop =>
      have hlost : x.server.xMessageQ.getD [] = [] := eq_nil_of_once hx.once hy.once rfl (by
        intro id
        simp [places, ids, List.count_append]
        omega)
      simpa [LosesNothing, hstop] using hlost
  | finish hstop =>
      have hsends := sends_of_freed hx.once (hy.released _ rfl)
      simpa [LosesNothing, hstop] using hsends

theorem once_start : Once svrifStart := by
  intro id
  simp [places, ids, svrifStart, ClientPoint.holds]

/-- The blocks are owned all along a run exactly when no step of `SVRIF_stop` in it
loses one. -/
theorem owned_iff :
    (stoppable.within Owned).Run ⟨svrifStart, .idle⟩ labels x ↔
      (stoppable.restrict LosesNothing).Run ⟨svrifStart, .idle⟩ labels x := by
  have hstart : Owned ⟨svrifStart, .idle⟩ := owned_inside once_start (by simp)
  have hphase : Phase ⟨svrifStart, .idle⟩ := by
    constructor
    · intro hlate
      cases hlate
    · intro hlate
      cases hlate
  apply System.Run.within_iff_restrict (I := fun x => Owned x ∧ Phase x) (J := fun _ => True)
  · intro x b y hx hb h
    exact ⟨owned_step hx.1 hx.2 hb h, phase_step h hx.2⟩
  · intro x hx
    exact hx.1
  · intro x b y _ _
    trivial
  · intro x b y _ hx h hy
    exact losesNothing_of_owned hx h hy
  · exact ⟨hstart, hphase⟩
  · trivial

/-- A client terminated behind `xQueueReceive` leaves its message allocated. -/
theorem terminated_client_leaks :
    ∃ labels x, stoppable.Run ⟨svrifStart, .idle⟩ labels x ∧ ¬ Owned x := by
  have hrun : stoppable.Run ⟨svrifStart, .idle⟩
      [.task (.malloc ⟨0, [], rfl⟩), .task (.enqueue ⟨0, [], rfl⟩), .task .internal,
        .task (.socket true), .task (.connect true), .task .internal, .stop, .stop] _ :=
    .cons (.task _ _ _ (.malloc _ _)) <|
    .cons (.task _ _ _ (.enqueue _ ⟨0, ⟨0, [], rfl⟩⟩ [] [] [] rfl rfl (by decide))) <|
    .cons (.task _ _ _ (.linkUp _ rfl)) <|
    .cons (.task _ _ _ (.socket _ true rfl)) <|
    .cons (.task _ _ _ (.connect _ true rfl)) <|
    .cons (.task _ _ _ (.receive _ _ _ rfl rfl)) <|
    .cons (.call _ rfl) <|
    .one (.terminate _ rfl)
  refine ⟨_, _, hrun, ?_⟩
  intro howned
  have hcount := howned.once 0
  simp [places, ids, svrifStart, ClientPoint.holds] at hcount

end BillCounter.Server
