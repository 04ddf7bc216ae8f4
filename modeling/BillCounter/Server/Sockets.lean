import BillCounter.Server.Model

/-!
# The sockets of `SVRIF_client`

A call of `SVRIF_client` opens one socket, and closes it on the way out behind the
send loop.  The way out between the two, when `lwip_connect` fails, does not close it.
-/

namespace BillCounter.Server

open BillCounter.Lib.Runs

variable {s t : ServerState} {a : Label} {labels : List Label}

/-! ## Counting -/

/-- The number of open sockets behind a step. -/
def Label.sockets (n : Nat) : Label → Nat
  | .socket true => n + 1
  | .close => n - 1
  | _ => n

/-- `lwip_connect` fails. -/
def Label.refused : Label → Bool
  | .connect connected => !connected
  | _ => false

/-- The sockets opened and not closed in a run. -/
def openSockets (labels : List Label) : Nat := labels.foldl Label.sockets 0

@[simp] theorem openSockets_snoc (labels : List Label) (a : Label) :
    openSockets (labels ++ [a]) = a.sockets (openSockets labels) := by
  rw [openSockets, List.foldl_append, ← openSockets]
  rfl

/-- The sockets `sock` stands for at a point of `SVRIF_client`. -/
def ClientPoint.sockets : ClientPoint → Nat
  | .loop | .delay | .socket | .terminated => 0
  | .connect | .receive | .build _ | .write _ _ | .release _ _ | .close => 1

/-- Inside `SVRIF_client`. -/
def ClientPoint.executing : ClientPoint → Bool
  | .loop | .delay | .terminated => false
  | _ => true

/-- What a step opens or closes is the client's socket; only a refused connection
leaves one behind. -/
theorem step_sockets (h : Step s a t) (leaked : Nat) :
    a.sockets (s.client.sockets + leaked) =
      t.client.sockets + leaked + (if a.refused then 1 else 0) := by
  cases h with
  | mallocFails | malloc | enqueue | full | freeRefused | timeout => rfl
  | linkUp hc | linkDown hc | delay hc | receive pMsg q hc hq | build pMsg pMAC hc
  | write pMsg nLen nSentLength hc hle =>
      rw [hc]
      rfl
  | socket opened hc =>
      rw [hc]
      cases opened with
      | false => rfl
      | true => exact Nat.add_right_comm 0 leaked 1
  | connect connected hc =>
      rw [hc]
      cases connected with
      | false => exact (Nat.add_comm 1 leaked).trans (by simp [ClientPoint.sockets, Label.refused])
      | true => rfl
  | release pMsg nSentLength hc =>
      rw [hc]
      by_cases hfailed : nSentLength < 0 <;>
        simp [Label.sockets, ClientPoint.sockets, Label.refused, hfailed]
  | close hc =>
      rw [hc]
      simp [Label.sockets, ClientPoint.sockets, Label.refused]

/-! ## Conservation -/

/-- At most one socket is open inside `SVRIF_client`, and none outside it. -/
def Conserved (x : List Label × ServerState) : Prop :=
  if x.2.client.executing then openSockets x.1 ≤ 1 else openSockets x.1 = 0

theorem sockets_le_one (p : ClientPoint) : p.sockets ≤ 1 := by
  cases p <;> simp [ClientPoint.sockets]

theorem sockets_of_not_executing {p : ClientPoint} (h : p.executing = false) :
    p.sockets = 0 := by
  cases p <;> first
    | rfl
    | cases h

theorem conserved_of_eq {x : List Label × ServerState}
    (h : openSockets x.1 = x.2.client.sockets) : Conserved x := by
  have hle := sockets_le_one x.2.client
  rw [Conserved, h]
  split
  · exact hle
  · rename_i hno
    exact sockets_of_not_executing (by simpa using hno)

theorem not_executing_of_refused (h : Step s a t) (ha : a.refused = true) :
    s.client.sockets = 1 ∧ t.client.executing = false := by
  cases h with
  | connect connected hc =>
      cases connected with
      | false =>
          rw [hc]
          exact ⟨rfl, rfl⟩
      | true => cases ha
  | _ => cases ha

/-- The sockets are conserved all along a run exactly when none of its connections is
refused. -/
theorem conserved_iff {x : List Label × ServerState} :
    (server.recording.within Conserved).Run ([], svrifStart) labels x ↔
      (server.recording.restrict fun _ a => a.refused = false).Run ([], svrifStart)
        labels x := by
  refine System.Run.within_iff_restrict
    (I := fun x => openSockets x.1 = x.2.client.sockets)
    (J := fun x => x.2.client.sockets ≤ openSockets x.1) ?_ ?_ ?_ ?_ rfl (Nat.le_refl 0)
  · -- without a refusal the open sockets are the client's
    intro x a y hx ha hstep
    have hsockets := step_sockets hstep.2 0
    rw [hstep.1, openSockets_snoc, hx]
    simpa [ha] using hsockets
  · intro x hx
    exact conserved_of_eq hx
  · intro x a y hx hstep
    obtain ⟨leaked, hleaked⟩ := Nat.exists_eq_add_of_le hx
    have hsockets := step_sockets hstep.2 leaked
    rw [hstep.1, openSockets_snoc, hleaked, hsockets]
    omega
  · -- a refused connection ends outside the client with its socket open
    intro x a y hx _ hstep hy
    cases ha : a.refused with
    | false => rfl
    | true =>
        obtain ⟨hone, hout⟩ := not_executing_of_refused hstep.2 ha
        obtain ⟨leaked, hleaked⟩ := Nat.exists_eq_add_of_le hx
        have hsockets := step_sockets hstep.2 leaked
        rw [Conserved, hout, hstep.1, openSockets_snoc, hleaked, hsockets, ha] at hy
        simp at hy

/-- A refused connection leaves its socket open. -/
theorem refused_connection_leaks :
    ∃ labels s, server.Run svrifStart labels s ∧ ¬ Conserved (labels, s) :=
  ⟨[.internal, .socket true, .connect false], _,
    .cons (.linkUp svrifStart rfl) <| .cons (.socket _ true rfl) <|
      .one (.connect _ false rfl), by simp [Conserved, ClientPoint.executing, openSockets,
        Label.sockets]⟩

end BillCounter.Server
