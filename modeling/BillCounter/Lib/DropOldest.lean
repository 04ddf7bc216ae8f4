import BillCounter.Lib.Runs
import Mathlib.Data.Nat.ModEq
import Mathlib.Logic.Function.Basic

/-!
# Bounded queues that drop their oldest element

The specification is a list: an element received goes to the back, and the one
at the front makes room for it when the list is as long as it may be; an
element returned comes off the front.  Whatever the run, the elements returned
so far followed by the queue are a subsequence of the elements received, and all
of them if none was received while the queue was full.

A circular buffer represents such a list by an index and a length.  The two
lemmas `contents_push` and `contents_pop` are all an implementation needs.
-/

namespace BillCounter.Lib.DropOldest

open BillCounter.Lib.Runs

universe u

variable {α : Type u}

/-- What happens to a queue. -/
inductive Event (α : Type u)
  | received (x : α)
  | returned (x : α)

/-- Append, discarding the oldest element of a full queue. -/
def push (L : Nat) (q : List α) (x : α) : List α :=
  (if q.length = L then q.tail else q) ++ [x]

/-- The queue of at most `L` elements. -/
def queue (L : Nat) : System (List α) (Event α) where
  init q := q = []
  step q e q' :=
    match e with
    | .received x => push L q x = q'
    | .returned x => q = x :: q'

def Event.received? : Event α → Option α
  | .received x => some x
  | .returned _ => none

def Event.returned? : Event α → Option α
  | .received _ => none
  | .returned x => some x

/-- The elements received, in order. -/
def receivedIn (es : List (Event α)) : List α := es.filterMap Event.received?

/-- The elements returned, in order. -/
def returnedIn (es : List (Event α)) : List α := es.filterMap Event.returned?

@[simp] theorem receivedIn_cons_received (x : α) (es : List (Event α)) :
    receivedIn (.received x :: es) = x :: receivedIn es := rfl

@[simp] theorem receivedIn_cons_returned (x : α) (es : List (Event α)) :
    receivedIn (.returned x :: es) = receivedIn es := rfl

@[simp] theorem returnedIn_cons_received (x : α) (es : List (Event α)) :
    returnedIn (.received x :: es) = returnedIn es := rfl

@[simp] theorem returnedIn_cons_returned (x : α) (es : List (Event α)) :
    returnedIn (.returned x :: es) = x :: returnedIn es := rfl

/-- Nothing is returned twice, out of order or out of nothing. -/
theorem returned_append_sublist {L : Nat} {q q' : List α} {es : List (Event α)}
    (h : (queue L).Run q es q') : (returnedIn es ++ q').Sublist (q ++ receivedIn es) := by
  induction h with
  | nil q => simp [returnedIn, receivedIn]
  | @cons q q₁ q' e es hstep _ ih =>
      cases e with
      | received x =>
          have hpush : q₁.Sublist (q ++ [x]) := by
            obtain rfl : push L q x = q₁ := hstep
            rw [push]
            split
            · exact (List.tail_sublist q).append_right [x]
            · exact List.Sublist.refl _
          rw [returnedIn_cons_received, receivedIn_cons_received, List.append_cons]
          exact ih.trans (hpush.append_right _)
      | returned x =>
          obtain rfl : q = x :: q₁ := hstep
          rw [returnedIn_cons_returned, receivedIn_cons_returned]
          exact ih.cons_cons x

/-- Nothing is lost either, if nothing is received while the queue is full. -/
theorem append_receivedIn {L : Nat} {q q' : List α} {es : List (Event α)}
    (h : ((queue L).restrict fun q _ => q.length < L).Run q es q') :
    q ++ receivedIn es = returnedIn es ++ q' := by
  induction h with
  | nil q => simp [returnedIn, receivedIn]
  | @cons q q₁ q' e es hstep _ ih =>
      obtain ⟨hlt, hstep⟩ := hstep
      cases e with
      | received x =>
          have hpush : push L q x = q₁ := hstep
          rw [push, if_neg (Nat.ne_of_lt hlt)] at hpush
          rw [returnedIn_cons_received, receivedIn_cons_received, List.append_cons, hpush, ih]
      | returned x =>
          obtain rfl : q = x :: q₁ := hstep
          rw [returnedIn_cons_returned, receivedIn_cons_returned, List.cons_append, ih,
            List.cons_append]

/-! ## Circular buffers -/

/-- The `n` elements from `index` on, going round at `L`. -/
def contents (L : Nat) (buffer : Nat → α) (index n : Nat) : List α :=
  (List.range n).map fun k => buffer ((index + k) % L)

@[simp] theorem length_contents (L : Nat) (buffer : Nat → α) (index n : Nat) :
    (contents L buffer index n).length = n := by
  simp [contents]

/-- Positions less than a whole turn apart are different. -/
private theorem position_ne {L index j k : Nat} (hjk : j < k) (hk : k < L) :
    (index + j) % L ≠ (index + k) % L := by
  intro h
  have hmod : j % L = k % L := Nat.ModEq.add_left_cancel' index h
  rw [Nat.mod_eq_of_lt (Nat.lt_trans hjk hk), Nat.mod_eq_of_lt hk] at hmod
  exact Nat.ne_of_lt hjk hmod

/-- Storing behind the last element appends. -/
theorem contents_push {L n : Nat} (hn : n < L) (buffer : Nat → α) (index : Nat) (x : α) :
    contents L (Function.update buffer ((index + n) % L) x) index (n + 1) =
      contents L buffer index n ++ [x] := by
  have hold : contents L (Function.update buffer ((index + n) % L) x) index n =
      contents L buffer index n := by
    apply List.map_congr_left
    intro k hk
    exact Function.update_of_ne (position_ne (List.mem_range.mp hk) hn) _ _
  rw [contents, List.range_succ, List.map_append, ← contents, hold, List.map_singleton,
    Function.update_self]

/-- Moving the index on removes the first element. -/
theorem contents_pop (L n : Nat) (buffer : Nat → α) (index : Nat) :
    contents L buffer index (n + 1) =
      buffer (index % L) :: contents L buffer ((index + 1) % L) n := by
  rw [contents, contents, List.range_succ_eq_map, List.map_cons, List.map_map,
    Nat.add_zero]
  congr 1
  apply List.map_congr_left
  intro k _
  simp only [Function.comp_apply, Nat.mod_add_mod, Nat.succ_eq_add_one]
  rw [Nat.add_right_comm, Nat.add_assoc, Nat.add_comm k 1]

end BillCounter.Lib.DropOldest
