import BillCounter.Server.Model

/-!
# What reaches the server

`SVRIF_client` takes the messages off `xMessageQ` in order and offers each to
`lwip_write` once.  Whatever that returns, the message is freed: a write that fails
ends the connection, and the next one goes on with the next message.
-/

namespace BillCounter.Server

open BillCounter.Lib.RawBytes
open BillCounter.Lib.Runs

variable {s t : ServerState} {a : Label} {labels : List Label}

/-! ## The messages of a run -/

/-- The message `xQueueSend` accepts. -/
def Label.enqueued : Label → Option Message
  | .enqueue m => some m
  | _ => none

/-- The message offered to `lwip_write`. -/
def Label.offered : Label → Option Message
  | .write m _ _ => some m
  | _ => none

/-- The message whose frame `lwip_write` accepts completely. -/
def Label.accepted : Label → Option Message
  | .write m bytes nSentLength => if nSentLength = bytes.length then some m else none
  | _ => none

/-- `lwip_write` does not accept all it is given. -/
def Label.incomplete : Label → Bool
  | .write _ bytes nSentLength => nSentLength ≠ bytes.length
  | _ => false

def enqueuedIn (labels : List Label) : List Message := labels.filterMap Label.enqueued

def offeredIn (labels : List Label) : List Message := labels.filterMap Label.offered

def acceptedIn (labels : List Label) : List Message := labels.filterMap Label.accepted

@[simp] theorem enqueuedIn_snoc (labels : List Label) (a : Label) :
    enqueuedIn (labels ++ [a]) = enqueuedIn labels ++ a.enqueued.toList := by
  rw [enqueuedIn, List.filterMap_append, ← enqueuedIn]
  cases a <;> rfl

@[simp] theorem offeredIn_snoc (labels : List Label) (a : Label) :
    offeredIn (labels ++ [a]) = offeredIn labels ++ a.offered.toList := by
  rw [offeredIn, List.filterMap_append, ← offeredIn]
  cases a <;> rfl

/-- The message `SVRIF_client` has still to write. -/
def ClientPoint.toSend : ClientPoint → List Message
  | .build pMsg => [pMsg.message]
  | .write pMsg _ => [pMsg.message]
  | _ => []

/-- The messages on `xMessageQ`. -/
def ServerState.queued (s : ServerState) : List Message :=
  (s.xMessageQ.getD []).map Block.message

/-- The messages on their way: with the client, or on the queue. -/
def ServerState.pending (s : ServerState) : List Message := s.client.toSend ++ s.queued

/-- A step takes messages off the front of what is pending only to offer them, and
puts behind it what it enqueues. -/
theorem step_pending (h : Step s a t) :
    a.offered.toList ++ t.pending = s.pending ++ a.enqueued.toList := by
  cases h with
  | mallocFails | timeout => exact (List.append_nil _).symm
  | malloc | full | freeRefused =>
      simp [Label.offered, Label.enqueued, ServerState.pending, ServerState.queued]
  | enqueue pMsg before after q hsends hq hroom =>
      simp [Label.offered, Label.enqueued, ServerState.pending, ServerState.queued, hq]
  | receive pMsg q hc hq =>
      simp [Label.offered, Label.enqueued, ServerState.pending, ServerState.queued,
        ClientPoint.toSend, hc, hq]
  | linkUp hc | linkDown hc | delay hc | build _ _ hc | write _ _ _ hc | close hc =>
      simp [Label.offered, Label.enqueued, ServerState.pending, ServerState.queued,
        ClientPoint.toSend, hc]
  | socket _ hc | connect _ hc | release _ _ hc =>
      -- the client has nothing to send on either branch
      split <;>
        simp [Label.offered, Label.enqueued, ServerState.pending, ServerState.queued,
          ClientPoint.toSend, hc]

/-- Every message enqueued has been offered to `lwip_write`, or is pending. -/
theorem offered_append_pending (hrun : server.Run svrifStart labels s) :
    offeredIn labels ++ s.pending = enqueuedIn labels := by
  refine hrun.history (I := fun as t => offeredIn as ++ t.pending = enqueuedIn as) rfl ?_
  intro as u a v hu hstep
  have hpending := step_pending hstep
  rw [offeredIn_snoc, enqueuedIn_snoc, List.append_assoc, hpending, ← List.append_assoc, hu]

/-! ## Frames -/

/-- What is in `pBuffer` in front of `lwip_write` is a frame of the message. -/
def Framing (s : ServerState) : Prop :=
  ∀ pMsg nLen, s.client = .write pMsg nLen →
    ∃ pMAC, read s.pBuffer 0 nLen = frame pMAC pMsg.message

theorem framing_of_ne (h : ∀ pMsg nLen, s.client ≠ .write pMsg nLen) : Framing s :=
  fun pMsg nLen hc => absurd hc (h pMsg nLen)

theorem framing_step (h : Step s a t) (hs : Framing s) : Framing t := by
  cases h with
  | mallocFails | malloc | enqueue | full | freeRefused | timeout => exact hs
  | linkUp | linkDown | delay | receive | write | close =>
      exact framing_of_ne fun _ _ => by simp
  | socket opened hc => exact framing_of_ne fun _ _ => by cases opened <;> simp
  | connect connected hc => exact framing_of_ne fun _ _ => by cases connected <;> simp
  | release pMsg nSentLength hc => exact framing_of_ne fun _ _ => by split <;> simp
  | build pMsg pMAC hc =>
      intro pMsg' nLen hwrite
      obtain ⟨rfl, rfl⟩ := ClientPoint.write.inj hwrite
      exact ⟨pMAC, bytes_buildFrame pMAC pMsg.message s.pBuffer⟩

/-- Every write of a run is of a frame of its message. -/
theorem framed_writes (hrun : server.Run svrifStart labels s) :
    ∀ m bytes n, .write m bytes n ∈ labels → ∃ pMAC, bytes = frame pMAC m := by
  have hall : Framing s ∧
      ∀ m bytes n, .write m bytes n ∈ labels → ∃ pMAC, bytes = frame pMAC m := by
    refine hrun.history (I := fun as u => Framing u ∧
      ∀ m bytes n, .write m bytes n ∈ as → ∃ pMAC, bytes = frame pMAC m) ?_ ?_
    · exact ⟨framing_of_ne fun _ _ => by simp [svrifStart], fun _ _ _ h => by cases h⟩
    · intro as u a v hu hstep
      constructor
      · exact framing_step hstep hu.1
      · intro m bytes n hmem
        rcases List.mem_append.mp hmem with hold | hnew
        · exact hu.2 m bytes n hold
        · have ha := List.mem_singleton.mp hnew
          subst ha
          cases hstep with
          | write pMsg nLen _ hc hle => exact hu.1 pMsg nLen hc
  exact hall.2

/-! ## Delivery -/

section

variable {α : Type} {β : Type} {f g : α → Option β} (h : ∀ a, g a = f a ∨ g a = none)

include h

/-- Leaving some elements out gives a sublist, -/
theorem filterMap_sublist (l : List α) : (l.filterMap g).Sublist (l.filterMap f) := by
  induction l with
  | nil => exact List.Sublist.refl _
  | cons a l ih =>
      rcases h a with heq | hnone
      · cases hf : f a with
        | none =>
            rw [List.filterMap_cons_none hf, List.filterMap_cons_none (heq.trans hf)]
            exact ih
        | some b =>
            rw [List.filterMap_cons_some hf, List.filterMap_cons_some (heq.trans hf)]
            exact ih.cons_cons b
      · rw [List.filterMap_cons_none hnone]
        cases hf : f a with
        | none =>
            rw [List.filterMap_cons_none hf]
            exact ih
        | some b =>
            rw [List.filterMap_cons_some hf]
            exact ih.cons b

/-- and the whole list only if nothing is left out. -/
theorem filterMap_eq_iff (l : List α) :
    l.filterMap g = l.filterMap f ↔ ∀ a ∈ l, g a = f a := by
  induction l with
  | nil => simp
  | cons a l ih =>
      rw [List.forall_mem_cons]
      by_cases heq : g a = f a
      · cases hf : f a with
        | none =>
            rw [List.filterMap_cons_none hf, List.filterMap_cons_none (heq.trans hf), ih]
            simp [heq.trans hf]
        | some b =>
            rw [List.filterMap_cons_some hf, List.filterMap_cons_some (heq.trans hf),
              List.cons.injEq, ih]
            simp [heq.trans hf]
      · have hnone := (h a).resolve_left heq
        constructor
        · intro hlist
          cases hf : f a with
          | none => exact absurd (hnone.trans hf.symm) heq
          | some b =>
              rw [List.filterMap_cons_none hnone, List.filterMap_cons_some hf] at hlist
              have hlen := congrArg List.length hlist
              have hle := (filterMap_sublist h l).length_le
              rw [List.length_cons] at hlen
              omega
        · intro hall
          exact absurd hall.1 heq

end

theorem accepted_eq (a : Label) : a.accepted = a.offered ∨ a.accepted = none := by
  cases a with
  | write m bytes n =>
      by_cases h : n = bytes.length
      · exact .inl (if_pos h)
      · exact .inr (if_neg h)
  | _ => exact .inl rfl

theorem accepted_eq_iff (a : Label) : a.accepted = a.offered ↔ a.incomplete = false := by
  cases a with
  | write m bytes n =>
      by_cases h : n = bytes.length <;>
        simp [Label.accepted, Label.offered, Label.incomplete, h]
  | _ => simp [Label.accepted, Label.offered, Label.incomplete]

/-- In every reachable state of the interface the messages enqueued are those offered
to `lwip_write`, each once and in order, then the one the client has still to write,
then those on the queue.  Every offer is of a frame of its message.  The messages
completely accepted are among those offered, and are all of them, so that nothing
is lost, exactly when every `lwip_write` so far has accepted its whole frame. -/
theorem deliveries (hrun : server.Run svrifStart labels s) :
    offeredIn labels ++ (s.client.toSend ++ s.queued) = enqueuedIn labels ∧
      (∀ m bytes n, .write m bytes n ∈ labels → ∃ pMAC, bytes = frame pMAC m) ∧
      (acceptedIn labels).Sublist (offeredIn labels) ∧
      (acceptedIn labels ++ (s.client.toSend ++ s.queued) = enqueuedIn labels ↔
        ∀ a ∈ labels, a.incomplete = false) := by
  have hoffered := offered_append_pending hrun
  have hall : acceptedIn labels = offeredIn labels ↔ ∀ a ∈ labels, a.incomplete = false := by
    have hlist := filterMap_eq_iff accepted_eq labels
    simp only [accepted_eq_iff] at hlist
    exact hlist
  rw [ServerState.pending] at hoffered
  have hsame : acceptedIn labels ++ (s.client.toSend ++ s.queued) = enqueuedIn labels ↔
      acceptedIn labels = offeredIn labels := by
    rw [← hoffered]
    exact List.append_left_inj _
  exact ⟨hoffered, framed_writes hrun, filterMap_sublist accepted_eq labels,
    hsame.trans hall⟩

/-! A message, and a connection on which its write fails. -/

/-- A message of one byte. -/
def oneByte : Message := ⟨1, [0x2A], rfl⟩

/-- A MAC address. -/
def oneMAC : Bytes 6 := .replicate 6 0x5c

/-- The labels of a run that connects and writes one message with result `n`. -/
def oneWrite (n : Int) : List Label :=
  [.malloc oneByte, .enqueue oneByte, .internal, .socket true, .connect true, .internal,
    .internal, .write oneByte (frame oneMAC oneByte) n]

/-- The state behind it. -/
def afterWrite (n : Int) : ServerState where
  heap := ⟨1, []⟩
  sends := []
  xMessageQ := some []
  up := true
  pBuffer := (buildFrame oneMAC oneByte fun _ => 0).pBuffer
  client := .release ⟨0, oneByte⟩ n

/-- `lwip_write` of a frame just built. -/
theorem step_write_frame (s : ServerState) (pMsg : Block) (pMAC : Bytes 6) {n : Int}
    (hn : n ≤ (frame pMAC pMsg.message).length) :
    Step
      { s with
        pBuffer := (buildFrame pMAC pMsg.message s.pBuffer).pBuffer
        client := .write pMsg (buildFrame pMAC pMsg.message s.pBuffer).nLen }
      (.write pMsg.message (frame pMAC pMsg.message) n)
      { s with
        pBuffer := (buildFrame pMAC pMsg.message s.pBuffer).pBuffer
        client := .release pMsg n } := by
  have hle : n ≤ ((buildFrame pMAC pMsg.message s.pBuffer).nLen : Int) := by
    rw [nLen_buildFrame, ← length_frame pMAC]
    exact hn
  rw [← bytes_buildFrame pMAC pMsg.message s.pBuffer]
  exact .write _ pMsg _ n rfl hle

theorem run_oneWrite (n : Int) (hn : n ≤ 11) :
    server.Run svrifStart (oneWrite n) (afterWrite n) :=
  .cons (.malloc svrifStart oneByte) <|
    .cons (.enqueue _ ⟨0, oneByte⟩ [] [] [] rfl rfl (by decide)) <|
    .cons (.linkUp _ rfl) <| .cons (.socket _ true rfl) <| .cons (.connect _ true rfl) <|
    .cons (.receive _ ⟨0, oneByte⟩ [] rfl rfl) <|
    .cons (.build _ ⟨0, oneByte⟩ oneMAC rfl) <|
    .one (step_write_frame _ ⟨0, oneByte⟩ oneMAC hn)

/-- With every write complete nothing is lost. -/
theorem deliveries_oneWrite :
    acceptedIn (oneWrite 11) ++ ((afterWrite 11).client.toSend ++ (afterWrite 11).queued) =
      enqueuedIn (oneWrite 11) := by
  have hall := (deliveries (run_oneWrite 11 (by decide))).2.2.2
  refine hall.mpr ?_
  decide

/-- A message whose write fails is lost. -/
theorem failed_write_loses_message :
    ∃ labels s, server.Run svrifStart labels s ∧
      acceptedIn labels ++ (s.client.toSend ++ s.queued) ≠ enqueuedIn labels :=
  ⟨oneWrite (-1), afterWrite (-1), run_oneWrite (-1) (by decide), by decide⟩

end BillCounter.Server
