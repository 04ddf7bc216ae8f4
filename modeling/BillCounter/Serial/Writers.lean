import BillCounter.Serial.Signal
import BillCounter.Storage.Model
import BillCounter.Lib.Lock

/-!
# Readers and writers of a port

`SERIAL_puts`, `SERIAL_putc` and `SERIAL_printf` take the mutex that the readers take, and
`HAL_UART_Transmit` sends the bytes one by one while they have it.  `PortStep` is a step of a
port with both: what the readers do is `Step` on their part of the state, and a task is in one
call at a time.

So what the ring does is what it does without writers, and what is sent in one call is together
on the line.  A task that has the mutex gives it back by steps of its own.
-/

namespace BillCounter.Serial

open BillCounter.Lib.RawBytes
open BillCounter.Lib.DropOldest
open BillCounter.Lib.Lock
open BillCounter.Lib.Runs
open BillCounter.Storage

/-! ## Writers -/

/-- A call that sends. -/
inductive WriterCall
  | puts (pData : List Byte)
  | putc (cValue : Byte)
  /-- With the text as it is formatted. -/
  | printf (text : List Byte)

/-- The bytes that a call sends; `pBuff` has 128, and its text ends with a zero. -/
def WriterCall.pData : WriterCall → List Byte
  | .puts pData => pData
  | .putc cValue => [cValue]
  | .printf text => (text.take 127).takeWhile (· ≠ 0)

/-- Where a writer is. -/
inductive WriterPoint
  /-- `xSemaphoreTake(xSemaphore)`. -/
  | takeSemaphore
  /-- `HAL_UART_Transmit`, so many bytes into the data. -/
  | transmit (sent : Nat)
  /-- `xSemaphoreGive(xSemaphore)`. -/
  | giveSemaphore (sent : Nat) (xRet : RetValue)
  /-- `return xRet`. -/
  | leave (xRet : RetValue)

inductive WriterState
  | idle
  | writing (call : WriterCall) (point : WriterPoint)

/-- The readers' part of a port, with its mutex, and the writers. -/
structure PortState (τ : Type) where
  port : State τ
  writer : τ → WriterState

inductive PortLabel (τ : Type)
  | read (a : Label τ)
  | call (t : τ) (call : WriterCall)
  | internal (t : τ)
  | tx (t : τ) (b : Byte)
  | give (t : τ) (call : WriterCall) (sent : Nat)
  | ret (t : τ) (call : WriterCall) (xRet : RetValue)

variable {τ : Type} [DecidableEq τ]

/-- Task `t` moves on to `p`. -/
def PortState.moveTo (s : PortState τ) (t : τ) (p : WriterState) : PortState τ :=
  { s with writer := Function.update s.writer t p }

/-- One step of the port.  `HAL_UART_Transmit` may give up at any byte. -/
inductive PortStep (port : SerialPort) : PortState τ → PortLabel τ → PortState τ → Prop
  | read (s : PortState τ) (a : Label τ) (r : State τ) (h : Step port s.port a r)
      (hcall : ∀ t c, a = .call t c → s.writer t = .idle) :
      PortStep port s (.read a) { s with port := r }
  | call (s : PortState τ) (t : τ) (c : WriterCall) (hreader : s.port.task t = .idle)
      (hwriter : s.writer t = .idle) :
      PortStep port s (.call t c) (s.moveTo t (.writing c .takeSemaphore))
  | take (s : PortState τ) (t : τ) (c : WriterCall) (h : s.writer t = .writing c .takeSemaphore)
      (hfree : s.port.xSemaphore = none) :
      PortStep port s (.internal t)
        { s.moveTo t (.writing c (.transmit 0)) with port.xSemaphore := some t }
  | takeTimeout (s : PortState τ) (t : τ) (c : WriterCall)
      (h : s.writer t = .writing c .takeSemaphore) :
      PortStep port s (.internal t) (s.moveTo t (.writing c (.leave .RET_ERROR)))
  | tx (s : PortState τ) (t : τ) (c : WriterCall) (n : Nat) (b : Byte)
      (h : s.writer t = .writing c (.transmit n)) (hb : c.pData[n]? = some b) :
      PortStep port s (.tx t b) (s.moveTo t (.writing c (.transmit (n + 1))))
  | transmitted (s : PortState τ) (t : τ) (c : WriterCall) (n : Nat)
      (h : s.writer t = .writing c (.transmit n)) (hend : c.pData.length ≤ n) :
      PortStep port s (.internal t) (s.moveTo t (.writing c (.giveSemaphore n .RET_OK)))
  | transmitFails (s : PortState τ) (t : τ) (c : WriterCall) (n : Nat)
      (h : s.writer t = .writing c (.transmit n)) :
      PortStep port s (.internal t) (s.moveTo t (.writing c (.giveSemaphore n .RET_ERROR)))
  | give (s : PortState τ) (t : τ) (c : WriterCall) (n : Nat) (xRet : RetValue)
      (h : s.writer t = .writing c (.giveSemaphore n xRet)) :
      PortStep port s (.give t c n)
        { s.moveTo t (.writing c (.leave xRet)) with port.xSemaphore := none }
  | leave (s : PortState τ) (t : τ) (c : WriterCall) (xRet : RetValue)
      (h : s.writer t = .writing c (.leave xRet)) :
      PortStep port s (.ret t c xRet) (s.moveTo t .idle)

/-- The points between taking and giving the mutex. -/
def WriterPoint.inside : WriterPoint → Bool
  | .transmit _ | .giveSemaphore _ _ => true
  | .takeSemaphore | .leave _ => false

def WriterState.inside : WriterState → Bool
  | .idle => false
  | .writing _ p => p.inside

/-- The task is between taking and giving the mutex, as a reader or as a writer. -/
def PortState.Inside (s : PortState τ) (t : τ) : Prop :=
  (s.port.task t).inside = true ∨ (s.writer t).inside = true

/-- The holder of the mutex is inside, and no other task; and no task is in two calls. -/
structure PortMutex (s : PortState τ) : Prop where
  holder : ∀ t, s.Inside t ↔ s.port.xSemaphore = some t
  one_call : ∀ t, s.port.task t = .idle ∨ s.writer t = .idle

variable {port : SerialPort} {L : Nat}

/-- A reader's step. -/
theorem lockStep_reader {s s' : State τ} {a : Label τ} (h : Step port s a s') :
    LockStep (fun u => (s.task u).inside = true) (fun u => (s'.task u).inside = true)
      s.xSemaphore s'.xSemaphore := by
  have hothers : ∀ (t : τ) (p : TaskState) (u : τ), u ≠ t →
      ((Function.update s.task t p u).inside = true ↔ (s.task u).inside = true) := by
    intro t p u hu
    rw [Function.update_of_ne hu]
  have hstay : ∀ (t : τ) (p : TaskState), p.inside = (s.task t).inside → ∀ u,
      ((Function.update s.task t p u).inside = true ↔ (s.task u).inside = true) := by
    intro t p hp u
    by_cases hu : u = t
    · rw [hu, Function.update_self, hp]
    · exact hothers t p u hu
  cases h with
  | irq b => exact .stay _ fun _ => Iff.rfl
  | firstTest t c v ht | secondTest t c v ht =>
      refine .stay _ (hstay t _ ?_)
      rw [ht]
      show Point.inside _ = _
      split <;> rfl
  | callGetc t ht | callGets t n ht | takeTimeout t c v ht | wait t c v ht hwait
  | waitTimeout t c v ht | pop t c v ht | leaveGetc t v got ht | leaveGets t n v got ht
  | leaveGetsLate t n v got ht | loopAgain t n v ht hlt | loopEnd t n v ht hle =>
      refine .stay _ (hstay t _ ?_)
      rw [ht]
      rfl
  | take t c v ht hfree =>
      rw [hfree]
      refine .acquire t ?_ (hothers t _)
      show (Function.update s.task t _ t).inside = true
      rw [Function.update_self]
      rfl
  | give t c v got ht =>
      refine .release t _ ?_ ?_ (hothers t _)
      · rw [ht]
        rfl
      · show ¬ (Function.update s.task t _ t).inside = true
        rw [Function.update_self]
        exact Bool.false_ne_true

/-- A task that is in no call starts one with its first step. -/
theorem idle_calls {s s' : State τ} {a : Label τ} (h : Step port s a s') {t : τ}
    (hidle : s.task t = .idle) (ha : a.actor = some t) : ∃ c, a = .call t c := by
  cases h with
  | irq b => cases ha
  | callGetc u hu | callGets u n hu =>
      obtain rfl : u = t := Option.some.inj ha
      exact ⟨_, rfl⟩
  | take u c v hu hfree | takeTimeout u c v hu | firstTest u c v hu | wait u c v hu hwait
  | waitTimeout u c v hu | secondTest u c v hu | pop u c v hu | give u c v got hu
  | leaveGetc u v got hu | leaveGets u n v got hu | leaveGetsLate u n v got hu
  | loopAgain u n v hu hlt | loopEnd u n v hu hle =>
      obtain rfl : u = t := Option.some.inj ha
      exact absurd (hidle.symm.trans hu) (by simp)

/-- A step of another task or an interrupt leaves the task where it is. -/
theorem task_other {s s' : State τ} {a : Label τ} (h : Step port s a s') {t : τ}
    (ha : a.actor ≠ some t) : s'.task t = s.task t := by
  rcases step_task h with ⟨_, htask⟩ | ⟨u, p, hactor, htask, _⟩
  · exact congrFun htask t
  · have hne : t ≠ u := by
      rintro rfl
      exact ha hactor
    rw [htask, Function.update_of_ne hne]

omit [DecidableEq τ] in
/-- A reader inside is in no call that sends. -/
theorem PortMutex.writer_idle {s : PortState τ} (h : PortMutex s) {t : τ}
    (ht : (s.port.task t).inside = true) : s.writer t = .idle := by
  refine (h.one_call t).resolve_left fun hidle => ?_
  rw [hidle] at ht
  exact Bool.false_ne_true ht

/-- A step of a reader. -/
theorem PortMutex.read {s : PortState τ} (h : PortMutex s) {a : Label τ} {r : State τ}
    (hstep : Step port s.port a r) (hcall : ∀ t c, a = .call t c → s.writer t = .idle) :
    PortMutex { s with port := r } where
  holder := by
    have hlock : LockStep s.Inside (PortState.Inside { s with port := r }) _ _ :=
      (lockStep_reader hstep).widen (fun t ht => by simp [h.writer_idle ht, WriterState.inside])
        (fun _ => Iff.rfl) fun _ => Iff.rfl
    exact hlock.holder_iff h.holder
  one_call t := by
    rcases h.one_call t with hidle | hidle
    · by_cases ha : a.actor = some t
      · obtain ⟨c, rfl⟩ := idle_calls hstep hidle ha
        exact .inr (hcall t c rfl)
      · exact .inl ((task_other hstep ha).trans hidle)
    · exact .inr hidle

/-- A step of a writer. -/
theorem PortMutex.move {s : PortState τ} (h : PortMutex s) {t : τ} {p : WriterState}
    {sem : Option τ} (hidle : s.port.task t = .idle)
    (hlock : LockStep (fun u => (s.writer u).inside = true)
      (fun u => (Function.update s.writer t p u).inside = true) s.port.xSemaphore sem) :
    PortMutex { s.moveTo t p with port.xSemaphore := sem } where
  holder := by
    have hreader : ∀ u, (s.writer u).inside = true → ¬ (s.port.task u).inside = true := by
      intro u hu hin
      rw [h.writer_idle hin] at hu
      exact Bool.false_ne_true hu
    have hwide : LockStep s.Inside
        (PortState.Inside { s.moveTo t p with port.xSemaphore := sem }) _ _ :=
      hlock.widen hreader (fun _ => or_comm) fun _ => or_comm
    exact hwide.holder_iff h.holder
  one_call u := by
    by_cases hu : u = t
    · subst hu
      exact .inl hidle
    · refine (h.one_call u).imp_right fun hwriter => ?_
      exact (Function.update_of_ne hu ..).trans hwriter

omit [DecidableEq τ] in
theorem PortMutex.reader_idle {s : PortState τ} (h : PortMutex s) {t : τ} {c : WriterCall}
    {p : WriterPoint} (ht : s.writer t = .writing c p) : s.port.task t = .idle :=
  (h.one_call t).resolve_right (by simp [ht])

/-- The others are where they were. -/
theorem writer_others (s : PortState τ) (t : τ) (p : WriterState) (u : τ) (hu : u ≠ t) :
    ((Function.update s.writer t p u).inside = true ↔ (s.writer u).inside = true) := by
  rw [Function.update_of_ne hu]

/-- A writer's step that leaves the mutex alone. -/
theorem lockStep_stay {s : PortState τ} {t : τ} {p : WriterState}
    (hp : p.inside = (s.writer t).inside) :
    LockStep (fun u => (s.writer u).inside = true)
      (fun u => (Function.update s.writer t p u).inside = true)
      s.port.xSemaphore s.port.xSemaphore := by
  refine .stay _ fun u => ?_
  by_cases hu : u = t
  · rw [hu, Function.update_self, hp]
  · exact writer_others s t p u hu

/-- Every step keeps the mutex exclusive. -/
theorem portMutex_step {s s' : PortState τ} {a : PortLabel τ} (h : PortMutex s)
    (hstep : PortStep port s a s') : PortMutex s' := by
  cases hstep with
  | read a r hread hcall => exact h.read hread hcall
  | call t c hreader hwriter => exact h.move hreader (lockStep_stay (by rw [hwriter]; rfl))
  | takeTimeout t c ht | transmitted t c n ht hend | transmitFails t c n ht
  | leave t c xRet ht => exact h.move (h.reader_idle ht) (lockStep_stay (by rw [ht]; rfl))
  | tx t c n b ht hb => exact h.move (h.reader_idle ht) (lockStep_stay (by rw [ht]; rfl))
  | take t c ht hfree =>
      refine h.move (h.reader_idle ht) ?_
      rw [hfree]
      refine .acquire t ?_ (writer_others s t _)
      rw [Function.update_self]
      rfl
  | give t c n xRet ht =>
      refine h.move (h.reader_idle ht) (.release t _ ?_ ?_ (writer_others s t _))
      · rw [ht]
        rfl
      · rw [Function.update_self]
        exact Bool.false_ne_true

/-! ## The line -/

/-- What a label sends. -/
def PortLabel.transmitted : PortLabel τ → List Byte
  | .tx _ b => [b]
  | _ => []

/-- What of the data of a call is on the line once the call has given the mutex back. -/
def PortLabel.finished : PortLabel τ → List (List Byte)
  | .give _ c n => [c.pData.take n]
  | _ => []

/-- The bytes on the line, in order. -/
def transmitted (labels : List (PortLabel τ)) : List Byte := labels.flatMap PortLabel.transmitted

/-- What the calls have sent that are through, in the order in which they had the mutex. -/
def finished (labels : List (PortLabel τ)) : List (List Byte) :=
  labels.flatMap PortLabel.finished

/-- What a writer has sent so far. -/
def WriterState.sent : WriterState → List Byte
  | .writing c (.transmit n) | .writing c (.giveSemaphore n _) => c.pData.take n
  | _ => []

/-- What the holder of the mutex has sent so far. -/
def PortState.onLine (s : PortState τ) : List Byte :=
  match s.port.xSemaphore with
  | none => []
  | some t => (s.writer t).sent

theorem sent_of_not_inside {w : WriterState} (h : ¬ w.inside = true) : w.sent = [] := by
  rcases w with _ | ⟨c, _ | n | ⟨n, xRet⟩ | xRet⟩
  · rfl
  · rfl
  · exact absurd rfl h
  · exact absurd rfl h
  · rfl

omit [DecidableEq τ] in
theorem onLine_of_inside {s : PortState τ} (h : PortMutex s) {t : τ}
    (ht : (s.writer t).inside = true) : s.onLine = (s.writer t).sent := by
  rw [PortState.onLine, (h.holder t).1 (.inr ht)]

omit [DecidableEq τ] in
theorem onLine_of_none {s : PortState τ} (h : ∀ t, ¬ (s.writer t).inside = true) :
    s.onLine = [] := by
  rw [PortState.onLine]
  split
  · rfl
  · exact sent_of_not_inside (h _)

omit [DecidableEq τ] in
/-- Only the writers inside matter. -/
theorem onLine_congr {s s' : PortState τ} (h : PortMutex s) (h' : PortMutex s')
    (hin : ∀ u, (s'.writer u).inside = true ↔ (s.writer u).inside = true)
    (hsent : ∀ u, (s.writer u).inside = true → (s'.writer u).sent = (s.writer u).sent) :
    s'.onLine = s.onLine := by
  by_cases hex : ∃ u, (s.writer u).inside = true
  · obtain ⟨u, hu⟩ := hex
    rw [onLine_of_inside h hu, onLine_of_inside h' ((hin u).2 hu), hsent u hu]
  · rw [not_exists] at hex
    rw [onLine_of_none hex, onLine_of_none fun u hu => hex u ((hin u).1 hu)]

/-- A writer that goes on without sending anything. -/
theorem onLine_move {s : PortState τ} (h : PortMutex s) {t : τ} {p : WriterState}
    (h' : PortMutex (s.moveTo t p)) (hin : p.inside = (s.writer t).inside)
    (hsent : p.sent = (s.writer t).sent) : (s.moveTo t p).onLine = s.onLine := by
  have hwriter : ∀ u, ((s.moveTo t p).writer u).inside = (s.writer u).inside ∧
      ((s.moveTo t p).writer u).sent = (s.writer u).sent := by
    intro u
    by_cases hu : u = t
    · rw [hu]
      show (Function.update s.writer t p t).inside = _ ∧ (Function.update s.writer t p t).sent = _
      rw [Function.update_self]
      exact ⟨hin, hsent⟩
    · show (Function.update s.writer t p u).inside = _ ∧ (Function.update s.writer t p u).sent = _
      rw [Function.update_of_ne hu]
      exact ⟨rfl, rfl⟩
  exact onLine_congr h h' (fun u => by rw [(hwriter u).1]) fun u _ => (hwriter u).2

/-- What a step sends joins what the holder has sent, and what that is when it gives the mutex
back is finished. -/
theorem line_step {s s' : PortState τ} {a : PortLabel τ} (h : PortMutex s)
    (hstep : PortStep port s a s') :
    s.onLine ++ a.transmitted = a.finished.flatten ++ s'.onLine := by
  have h' := portMutex_step h hstep
  have hself : ∀ (t : τ) (p : WriterState), Function.update s.writer t p t = p := fun t p =>
    Function.update_self ..
  cases hstep with
  | read a r hread hcall =>
      show s.onLine ++ [] = [] ++ _
      rw [List.append_nil, List.nil_append]
      exact (onLine_congr h h' (fun _ => Iff.rfl) fun _ _ => rfl).symm
  | call t c hreader hwriter =>
      show s.onLine ++ [] = [] ++ _
      rw [List.append_nil, List.nil_append]
      exact (onLine_move h h' (by rw [hwriter]; rfl) (by rw [hwriter]; rfl)).symm
  | takeTimeout t c ht | transmitted t c n ht hend | transmitFails t c n ht
  | leave t c xRet ht =>
      show s.onLine ++ [] = [] ++ _
      rw [List.append_nil, List.nil_append]
      exact (onLine_move h h' (by rw [ht]; rfl) (by rw [ht]; rfl)).symm
  | take t c ht hfree =>
      show s.onLine ++ [] = [] ++ (Function.update s.writer t _ t).sent
      rw [hself, PortState.onLine, hfree]
      rfl
  | tx t c n b ht hb =>
      have hin : (s.writer t).inside = true := by
        rw [ht]
        rfl
      have hin' : ((s.moveTo t (.writing c (.transmit (n + 1)))).writer t).inside = true := by
        show (Function.update s.writer t _ t).inside = true
        rw [hself]
        rfl
      rw [onLine_of_inside h hin, onLine_of_inside h' hin', ht]
      show c.pData.take n ++ [b] = [] ++ (Function.update s.writer t _ t).sent
      rw [hself, List.nil_append]
      show _ = c.pData.take (n + 1)
      rw [List.take_add_one, hb]
      rfl
  | give t c n xRet ht =>
      have hin : (s.writer t).inside = true := by
        rw [ht]
        rfl
      rw [onLine_of_inside h hin, ht]
      show c.pData.take n ++ [] = [c.pData.take n].flatten ++ []
      simp

/-- A writer that is to return `RET_OK` has sent all of its data. -/
def WriterState.Sound (done : List (List Byte)) : WriterState → Prop
  | .writing c (.giveSemaphore n .RET_OK) => c.pData.length ≤ n
  | .writing c (.leave .RET_OK) => c.pData ∈ done
  | _ => True

theorem WriterState.Sound.mono {w : WriterState} {done done' : List (List Byte)}
    (h : w.Sound done) (hsub : done ⊆ done') : w.Sound done' := by
  rcases w with _ | ⟨c, _ | n | ⟨n, _ | _⟩ | _ | _⟩ <;> first | trivial | exact h | exact hsub h

/-- What a run has made of the calls: the line, and that `RET_OK` is right. -/
structure LineInv (labels : List (PortLabel τ)) (s : PortState τ) : Prop where
  mutex : PortMutex s
  line : transmitted labels = (finished labels).flatten ++ s.onLine
  sound : ∀ t, (s.writer t).Sound (finished labels)
  returned : ∀ t c, .ret t c .RET_OK ∈ labels → c.pData ∈ finished labels

omit [DecidableEq τ] in
theorem finished_snoc (labels : List (PortLabel τ)) (a : PortLabel τ) :
    finished (labels ++ [a]) = finished labels ++ a.finished := by
  simp [finished]

omit [DecidableEq τ] in
theorem transmitted_snoc (labels : List (PortLabel τ)) (a : PortLabel τ) :
    transmitted (labels ++ [a]) = transmitted labels ++ a.transmitted := by
  simp [transmitted]

theorem sound_step {s s' : PortState τ} {a : PortLabel τ} {done : List (List Byte)}
    (h : ∀ t, (s.writer t).Sound done) (hstep : PortStep port s a s') (t : τ) :
    (s'.writer t).Sound (done ++ a.finished) := by
  have hsub : done ⊆ done ++ a.finished := List.subset_append_left ..
  have hmove : ∀ (t : τ) (p : WriterState), p.Sound (done ++ a.finished) →
      ∀ u, (Function.update s.writer t p u).Sound (done ++ a.finished) := fun t p hp =>
    (Function.forall_update_iff s.writer fun _ w => w.Sound (done ++ a.finished)).2
      ⟨hp, fun u _ => (h u).mono hsub⟩
  cases hstep with
  | read a r hread hcall => exact (h t).mono hsub
  | call t' c hreader hwriter | take t' c ht hfree | takeTimeout t' c ht
  | leave t' c xRet ht | transmitFails t' c n ht | tx t' c n b ht hb =>
      refine hmove t' _ ?_ t
      trivial
  | transmitted t' c n ht hend =>
      refine hmove t' _ ?_ t
      exact hend
  | give t' c n xRet ht =>
      refine hmove t' _ ?_ t
      cases xRet with
      | RET_OK =>
          -- all of the data is what is given now
          have hall : c.pData.length ≤ n := by
            have hsound := h t'
            rw [ht] at hsound
            exact hsound
          show c.pData ∈ done ++ [c.pData.take n]
          rw [List.take_of_length_le hall]
          exact List.mem_append_right _ (List.mem_singleton_self _)
      | RET_ERROR => trivial

theorem lineInv_step {s s' : PortState τ} {a : PortLabel τ} {labels : List (PortLabel τ)}
    (h : LineInv labels s) (hstep : PortStep port s a s') : LineInv (labels ++ [a]) s' where
  mutex := portMutex_step h.mutex hstep
  line := by
    have hline := line_step h.mutex hstep
    rw [transmitted_snoc, h.line, List.append_assoc, hline, finished_snoc, List.flatten_append,
      List.append_assoc]
  sound t := by
    rw [finished_snoc]
    exact sound_step h.sound hstep t
  returned t c hmem := by
    rw [finished_snoc]
    rcases List.mem_append.1 hmem with hmem | hmem
    · exact List.mem_append_left _ (h.returned t c hmem)
    · have ha : a = .ret t c .RET_OK := (List.mem_singleton.1 hmem).symm
      subst ha
      cases hstep with
      | leave _ _ _ ht =>
          have hsound := h.sound t
          rw [ht] at hsound
          exact List.mem_append_left _ hsound

/-- What the queue of the ring sees of a label. -/
def PortLabel.event : PortLabel τ → Option (Event Byte)
  | .read a => a.event
  | _ => none

/-- The task a label belongs to. -/
def PortLabel.actor : PortLabel τ → Option τ
  | .read a => a.actor
  | .call t _ | .internal t | .tx t _ | .give t _ _ | .ret t _ _ => some t

end BillCounter.Serial
