import BillCounter.Counter.Model
import BillCounter.Driver.P16

/-!
# The duplicate filter

`CNTIF_main` takes the message before for the one that is last on `xMessageQ`.  It is,
as long as `SVRIF_send` succeeds; `CNTIF_main` does not look at what it returns.
-/

namespace BillCounter.Counter

open BillCounter.Driver
open BillCounter.Lib.RawBytes
open BillCounter.Lib.Runs
open BillCounter.Server
open BillCounter.Storage

variable {s t : CounterState} {a : CounterLabel} {labels : List CounterLabel}

/-! ## What was enqueued -/

/-- The bytes a step places on `xMessageQ`. -/
def CounterLabel.enqueued : CounterLabel → Option (List Byte)
  | .send (.enqueue m) => some m.pData
  | _ => none

/-- The message most recently placed on `xMessageQ`. -/
def lastEnqueued (labels : List CounterLabel) : Option (List Byte) :=
  (labels.filterMap CounterLabel.enqueued).getLast?

theorem lastEnqueued_snoc_some {pData : List Byte} (h : a.enqueued = some pData) :
    lastEnqueued (labels ++ [a]) = some pData := by
  rw [lastEnqueued, List.filterMap_append, List.filterMap_cons_some h]
  exact List.getLast?_concat ..

theorem lastEnqueued_snoc_none (h : a.enqueued = none) :
    lastEnqueued (labels ++ [a]) = lastEnqueued labels := by
  rw [lastEnqueued, List.filterMap_append, List.filterMap_cons_none h, List.filterMap_nil,
    List.append_nil, lastEnqueued]

/-- `SVRIF_send` was called, and has returned. -/
def Sent (labels : List CounterLabel) : Prop :=
  ∃ pData xRet, .sent pData xRet ∈ labels

theorem sent_of_snoc (h : Sent (labels ++ [a])) (ha : ∀ pData xRet, a ≠ .sent pData xRet) :
    Sent labels := by
  rcases h with ⟨pData, xRet, hmem⟩
  rw [List.mem_append, List.mem_singleton] at hmem
  rcases hmem with hmem | heq
  · exact ⟨pData, xRet, hmem⟩
  · exact absurd heq.symm (ha pData xRet)

/-- What the filter goes by is the message most recently enqueued, and no other message
is suppressed. -/
structure Faithful (x : List CounterLabel × CounterState) : Prop where
  recorded : x.2.main.sending = false → Sent x.1 → lastEnqueued x.1 = some x.2.prevData
  suppressed : ∀ before pData, x.1 = before ++ [.suppress pData] → Sent before →
    lastEnqueued before = some pData

/-! ## One call of `SVRIF_send` -/

/-- The call of `SVRIF_send` in progress is the one of `CNTIF_main`. -/
def OwnCall (s : CounterState) : Prop :=
  match s.main with
  | .queueSend n _ => ∃ id, s.server.sends = [.sending ⟨id, s.message n⟩]
  | .free _ _ => True
  | _ => s.server.sends = []

theorem sends_malloc {u v : ServerState} {m : Message} (h : Step u (.malloc m) v)
    (hu : u.sends = []) : ∃ id, v.sends = [.sending ⟨id, m⟩] := by
  cases h with
  | malloc =>
      refine ⟨u.heap.allocated, ?_⟩
      rw [← hu]

theorem sends_enqueue {u v : ServerState} {m : Message} {pMsg : Block}
    (h : Step u (.enqueue m) v) (hu : u.sends = [.sending pMsg]) :
    m = pMsg.message ∧ v.sends = [] := by
  cases h with
  | enqueue pMsg' before after q hsends =>
      rw [hu] at hsends
      cases before with
      | nil =>
          cases hsends
          exact ⟨rfl, rfl⟩
      | cons send before => simp at hsends

theorem ownCall_step (h : CounterStep s a t) (hs : OwnCall s) : OwnCall t := by
  cases h with
  | task a t hstep hsends =>
      unfold OwnCall at hs ⊢
      dsimp only
      rw [hsends]
      exact hs
  | noInput hmain | getMessage _ _ _ hmain | suppress _ _ hmain | call _ _ hmain
  | copy _ _ _ hmain | delay hmain =>
      rw [OwnCall, hmain] at hs
      exact hs
  | mallocFails n ulTime t hmain hstep ht =>
      rw [OwnCall, hmain] at hs
      subst ht
      exact hs
  | malloc n ulTime t hmain hstep =>
      rw [OwnCall, hmain] at hs
      exact sends_malloc hstep hs
  | enqueue n ulTime m t hmain hstep =>
      rw [OwnCall, hmain] at hs
      rcases hs with ⟨id, hsends⟩
      exact (sends_enqueue hstep hsends).2
  | full => trivial
  | free n ulTime t hmain hstep hsends ht => exact ht

/-- Behind a call that succeeded the message is on the queue. -/
def Copied (x : List CounterLabel × CounterState) : Prop :=
  ∀ n ulTime, x.2.main = .copy n ulTime .RET_OK → lastEnqueued x.1 = some (x.2.pData n)

theorem copied_step (hown : OwnCall s) (h : CounterStep s a t)
    (hs : Copied (labels, s)) : Copied (labels ++ [a], t) := by
  intro n ulTime hmain
  cases h with
  | task a t hstep hsends =>
      rw [lastEnqueued_snoc_none rfl]
      exact hs n ulTime hmain
  | enqueue n' ulTime' m t hmain' hstep =>
      cases hmain
      rw [OwnCall, hmain'] at hown
      rcases hown with ⟨id, hsends⟩
      have hm := (sends_enqueue hstep hsends).1
      rw [lastEnqueued_snoc_some rfl, hm]
      exact congrArg some (pData_message s n)
  | _ => cases hmain

/-! ## The filter -/

/-- A call of `SVRIF_send` that fails costs nothing: the message it was for is the one
last enqueued. -/
def Harmless (x : List CounterLabel × CounterState) (a : CounterLabel) : Prop :=
  ∀ pData, a = .sent pData .RET_ERROR → lastEnqueued x.1 = some pData

theorem prevData_of_duplicate {n : Count} {ulTime : BitVec 32} (h : s.duplicate n ulTime) :
    s.prevData = s.pData n := by
  rcases h with ⟨_, hcount, hdata⟩
  rw [CounterState.prevData, CounterState.pData, ← hcount, hdata]

theorem suppressed_step (hs : Faithful (labels, s)) (h : CounterStep s a t)
    {before : List CounterLabel} {pData : List Byte}
    (hlabels : labels ++ [a] = before ++ [.suppress pData]) (hsent : Sent before) :
    lastEnqueued before = some pData := by
  rcases List.append_inj' hlabels rfl with ⟨hbefore, hlast⟩
  cases hbefore
  cases hlast
  cases h with
  | suppress n ulTime hmain hduplicate =>
      have hrecorded := hs.recorded (by rw [hmain]; rfl) hsent
      rw [hrecorded, prevData_of_duplicate hduplicate]

theorem recorded_step (hs : Faithful (labels, s)) (hcopied : Copied (labels, s))
    (ha : Harmless (labels, s) a) (h : CounterStep s a t) (hmain : t.main.sending = false)
    (hsent : Sent (labels ++ [a])) : lastEnqueued (labels ++ [a]) = some t.prevData := by
  cases h with
  | copy n ulTime xRet hcopy =>
      have hlast : lastEnqueued labels = some (s.pData n) := by
        cases xRet with
        | RET_OK => exact hcopied n ulTime hcopy
        | RET_ERROR => exact ha _ rfl
      rw [lastEnqueued_snoc_none rfl, hlast]
      exact congrArg some (prevData_remember s n ulTime).symm
  | task a t hstep hsends =>
      rw [lastEnqueued_snoc_none rfl]
      exact hs.recorded hmain (sent_of_snoc hsent (by simp))
  | noInput hpoint | getMessage _ _ _ hpoint | suppress _ _ hpoint | delay hpoint =>
      rw [lastEnqueued_snoc_none rfl]
      exact hs.recorded (by rw [hpoint]; rfl) (sent_of_snoc hsent (by simp))
  | call | mallocFails | malloc | enqueue | full | free => cases hmain

theorem faithful_step (hs : Faithful (labels, s)) (hcopied : Copied (labels, s))
    (ha : Harmless (labels, s) a) (h : CounterStep s a t) : Faithful (labels ++ [a], t) where
  recorded hmain hsent := recorded_step hs hcopied ha h hmain hsent
  suppressed _ _ hlabels hsent := suppressed_step hs h hlabels hsent

/-- A call that costs something shows behind the `memcpy`. -/
theorem harmless_of_faithful (h : CounterStep s a t) (ht : Faithful (labels ++ [a], t)) :
    Harmless (labels, s) a := by
  intro pData heq
  cases h with
  | copy n ulTime xRet hmain =>
      cases heq
      have hrecorded := ht.recorded rfl ⟨_, _, List.mem_append_right _ (.head _)⟩
      rw [lastEnqueued_snoc_none rfl] at hrecorded
      rw [hrecorded]
      exact congrArg some (prevData_remember s n ulTime)
  | _ => cases heq

theorem faithful_start : Faithful ([], cntifStart) where
  recorded _ hsent := by
    rcases hsent with ⟨_, _, hmem⟩
    cases hmem
  suppressed before pData hlabels := by simp at hlabels

/-- The filter goes by the message most recently enqueued all along a run exactly when
every call of `SVRIF_send` in it that fails is for that message. -/
theorem faithful_iff {x : List CounterLabel × CounterState} :
    (counter.recording.within Faithful).Run ([], cntifStart) labels x ↔
      (counter.recording.restrict Harmless).Run ([], cntifStart) labels x := by
  apply System.Run.within_iff_restrict
    (I := fun x => Faithful x ∧ OwnCall x.2 ∧ Copied x) (J := fun _ => True)
  · intro x a y hx ha hstep
    rcases x with ⟨labels, s⟩
    rcases y with ⟨labels', t⟩
    rcases hx with ⟨hfaithful, hown, hcopied⟩
    rcases hstep with ⟨hlabels, hst⟩
    cases hlabels
    exact ⟨faithful_step hfaithful hcopied ha hst, ownCall_step hst hown,
      copied_step hown hst hcopied⟩
  · intro x hx
    exact hx.1
  · intro _ _ _ _ _
    trivial
  · intro x a y _ _ hstep hy
    rcases x with ⟨labels, s⟩
    rcases y with ⟨labels', t⟩
    rcases hstep with ⟨hlabels, hst⟩
    cases hlabels
    exact harmless_of_faithful hst hy
  · refine ⟨faithful_start, rfl, ?_⟩
    intro n ulTime hmain
    cases hmain
  · trivial

/-! ## Rounds -/

section Rounds

variable (pBuffer : Bytes 128) (n : Count) (ulTick : BitVec 32)

/-- A round behind which the message before is the new one, and not on the queue. -/
theorem round_refused (hmain : s.main = .input)
    (hnew : ¬ { s with pBuffer := pBuffer }.duplicate n (ulTick / configTickRateHz)) :
    counter.Run s
      [.internal, .internal, .send .internal, .sent (pBuffer.val.take n.val) .RET_ERROR,
        .internal]
      { { s with pBuffer := pBuffer }.remember n (ulTick / configTickRateHz) with
        main := .input } :=
  .cons (.getMessage s pBuffer n ulTick hmain) <|
  .cons (.call _ n _ rfl hnew) <|
  .cons (.mallocFails _ n _ _ rfl (.mallocFails _) rfl) <|
  .cons (.copy _ n _ _ rfl) <|
  .one (.delay _ rfl)

theorem round_suppressed (hmain : s.main = .input)
    (hduplicate : { s with pBuffer := pBuffer }.duplicate n (ulTick / configTickRateHz)) :
    counter.Run s [.internal, .suppress (pBuffer.val.take n.val)]
      { s with pBuffer := pBuffer, main := .delay } :=
  .cons (.getMessage s pBuffer n ulTick hmain) <|
  .one (.suppress _ n _ rfl hduplicate)

theorem round_enqueued {q : List Block} {m : Message} (hmain : s.main = .input)
    (hnew : ¬ { s with pBuffer := pBuffer }.duplicate n (ulTick / configTickRateHz))
    (hm : { s with pBuffer := pBuffer }.message n = m) (hsends : s.server.sends = [])
    (hq : s.server.xMessageQ = some q) (hroom : q.length < queueLength) :
    counter.Run s
      [.internal, .internal, .send (.malloc m), .send (.enqueue m),
        .sent (pBuffer.val.take n.val) .RET_OK, .internal]
      { { s with pBuffer := pBuffer }.remember n (ulTick / configTickRateHz) with
        server :=
          { s.server with
            heap := { s.server.heap with allocated := s.server.heap.allocated + 1 }
            sends := []
            xMessageQ := some (q ++ [⟨s.server.heap.allocated, m⟩]) }
        main := .input } := by
  subst hm
  have henqueue : Step
      { s.server with
        heap := { s.server.heap with allocated := s.server.heap.allocated + 1 }
        sends := .sending ⟨_, _⟩ :: s.server.sends } _ _ :=
    .enqueue _ ⟨s.server.heap.allocated, { s with pBuffer := pBuffer }.message n⟩ []
      s.server.sends q rfl hq hroom
  rw [List.nil_append, hsends] at henqueue
  exact
    .cons (.getMessage s pBuffer n ulTick hmain) <|
    .cons (.call _ n _ rfl hnew) <|
    .cons (.malloc _ n _ _ rfl (.malloc _ _)) <|
    .cons (.enqueue _ n _ _ _ rfl (hsends ▸ henqueue)) <|
    .cons (.copy _ n _ _ rfl) <|
    .one (.delay _ rfl)

end Rounds

/-- A buffer with a message of the P16. -/
def p16Buffer (n : Fin 5 → BitVec 16) : Bytes 128 :=
  ⟨report n ++ List.replicate 113 0, by simp [report]⟩

/-- Its length. -/
def p16Count : Count := ⟨15, by decide⟩

/-- A message that found no memory is lost when the counter repeats it: it is suppressed
as a duplicate of itself. -/
theorem refused_message_suppressed :
    ∃ labels s, counter.Run cntifStart labels s ∧ ¬ Faithful (labels, s) := by
  have henqueued := round_enqueued (s := cntifStart) (p16Buffer fun _ => 0) p16Count 1000
    (q := []) rfl (fun h => absurd h.1 (by decide)) rfl rfl rfl (by decide)
  have hrefused := henqueued.append
    (round_refused (p16Buffer fun _ => 1) p16Count 1000 rfl
      (fun h => absurd h.2.2 (by decide)))
  have hsuppressed := hrefused.append
    (round_suppressed (p16Buffer fun _ => 1) p16Count 1000 rfl ⟨rfl, rfl, rfl⟩)
  refine ⟨_, _, hsuppressed, ?_⟩
  intro hfaithful
  have hlast := hfaithful.suppressed _ ((p16Buffer fun _ => 1).val.take 15)
    (List.append_assoc _ [CounterLabel.internal] [_]).symm
    ⟨(p16Buffer fun _ => 0).val.take 15, .RET_OK,
      List.mem_append_left _ (List.mem_append_left _ (by simp [p16Count]))⟩
  revert hlast
  decide

end BillCounter.Counter
