import BillCounter.Serial.Refinement

/-!
# The signal and the ring

`xRxWait` is to tell a reader that finds the ring empty when the next byte is
there.  The interrupt gives it when a byte comes into an empty ring; a reader
takes it only if its first test of `ulRxLength` finds nothing.

A reader cannot miss the signal: `no_lost_wakeup`.  A signal can outlive its
byte: a reader that finds the ring non-empty at once takes the byte and leaves
the signal, and the next reader of the empty ring is woken by it for nothing.
`staleFree_unless_takesSignalled` says that this is the only way.
-/

namespace BillCounter.Serial

open BillCounter.Lib.RawBytes
open BillCounter.Lib.Runs

variable {τ : Type} {L : Nat} {port : SerialPort}

/-! ## The interrupt -/

/-- What a byte does to the transfer, the length and the signal. -/
theorem irqHandler_signal {s : SerialStruct} (huart : s.xUART = ⟨0, 8, 8⟩)
    (hlen : s.ulRxLength < 2 ^ 32) (port : SerialPort) (b : Byte) :
    (irqHandler port (some b) s).xUART = ⟨0, 8, 8⟩ ∧
      (irqHandler port (some b) s).ulRxBufferLength = s.ulRxBufferLength ∧
      (irqHandler port (some b) s).ulRxLength = u32 ((makeRoom s).ulRxLength + 1) ∧
      ((irqHandler port (some b) s).xRxWait = true ↔
        s.xRxWait = true ∨ (makeRoom s).ulRxLength = 0) := by
  have hsame : (makeRoom s).ulRxBufferLength = s.ulRxBufferLength ∧
      (makeRoom s).xRxWait = s.xRxWait := by
    rw [makeRoom]
    split <;> exact ⟨rfl, rfl⟩
  rw [irqHandler_eq huart hlen, ← hsame.1, ← hsame.2]
  exact ⟨rfl, rfl, rfl, by simp⟩

/-! ## No lost wake-up -/

/-- The transfer is ready for the next byte, the length is a `uint32_t`, and the mutex
is exclusive. -/
structure PortInv (s : State τ) : Prop where
  uart : s.serial.xUART = ⟨0, 8, 8⟩
  length_lt : s.serial.ulRxLength < 2 ^ 32
  holder : Mutex s

theorem portInv_opened {s : State τ} (h : Opened L s) : PortInv s where
  uart := h.uart
  length_lt := by
    rw [h.length]
    decide
  holder := mutex_opened h

/-- A reader that waits on `xRxWait`. -/
def TaskState.AtWait (p : TaskState) : Prop := ∃ c v, p = .reading c v .takeRxWait

theorem TaskState.AtWait.inside {p : TaskState} (h : p.AtWait) : p.inside = true := by
  obtain ⟨c, v, rfl⟩ := h
  rfl

theorem point_ne_takeRxWait {c : Caller} {v : List Byte} {p : Point} (h : p ≠ .takeRxWait) :
    ¬ (TaskState.reading c v p).AtWait := by
  rintro ⟨c', v', heq⟩
  cases heq
  exact h rfl

/-- A reader that waits although there is a byte has the signal to wake it. -/
def Signalled (s : State τ) : Prop :=
  ∀ t, (s.task t).AtWait → 0 < s.serial.ulRxLength → s.serial.xRxWait = true

/-- A byte that comes in where a reader waits finds the signal given, or gives it. -/
theorem signalled_irq {s : State τ} (h : PortInv s) (hsig : Signalled s) (b : Option Byte) :
    Signalled { s with serial := irqHandler port b s.serial } := by
  intro t ht hpos
  cases b with
  | none =>
      rw [irqHandler_none h.uart] at hpos ⊢
      exact hsig t ht hpos
  | some b =>
      obtain ⟨-, -, hlen, hwait⟩ := irqHandler_signal h.uart h.length_lt port b
      simp only [hlen] at hpos
      refine hwait.2 ?_
      by_cases hzero : s.serial.ulRxLength = 0
      · -- the ring was empty: unless it has no room at all, this byte is signalled
        refine .inr ?_
        by_cases hfull : s.serial.ulRxBufferLength = s.serial.ulRxLength
        · have hnone : u32 ((makeRoom s.serial).ulRxLength + 1) = 0 := by
            rw [makeRoom, if_pos hfull]
            simp [skipOldest, hzero, u32]
          omega
        · rw [makeRoom, if_neg hfull, hzero]
      · exact .inl (hsig t ht (Nat.pos_of_ne_zero hzero))

variable [DecidableEq τ]

theorem portInv_step {s s' : State τ} {a : Label τ} (h : PortInv s)
    (hstep : Step port s a s') : PortInv s' := by
  have hmutex := mutex_step h.holder hstep
  cases hstep with
  | irq b =>
      cases b with
      | none =>
          rw [irqHandler_none h.uart]
          exact h
      | some b =>
          obtain ⟨huart, -, hlen, -⟩ := irqHandler_signal h.uart h.length_lt port b
          exact ⟨huart, hlen ▸ u32_lt _, hmutex⟩
  | pop t c v ht => exact ⟨h.uart, u32_lt _, hmutex⟩
  | callGetc t ht | callGets t n ht | take t c v ht hfree | takeTimeout t c v ht
  | firstTest t c v ht | wait t c v ht hwait | waitTimeout t c v ht | secondTest t c v ht
  | give t c v got ht | leaveGetc t v got ht | leaveGets t n v got ht
  | leaveGetsLate t n v got ht | loopAgain t n v ht hlt | loopEnd t n v ht hle =>
      exact ⟨h.uart, h.length_lt, hmutex⟩

/-- A step of task `t` to `p`, after which the ring has the signal and the bytes it had. -/
theorem Signalled.moveTo {s : State τ} (h : Signalled s) {t : τ} {p : TaskState}
    {sem : Option τ} (hp : p.AtWait → s.serial.ulRxLength = 0) :
    Signalled ⟨s.serial, sem, Function.update s.task t p⟩ := by
  refine (Function.forall_update_iff s.task fun _ q =>
    q.AtWait → 0 < s.serial.ulRxLength → s.serial.xRxWait = true).2
      ⟨fun hwait hpos => ?_, fun u _ => h u⟩
  exact absurd (hp hwait) (Nat.pos_iff_ne_zero.1 hpos)

/-- A step of task `t`, the only one inside the mutex, to a point where it does not
wait. -/
theorem signalled_of_alone {s : State τ} (h : PortInv s) {t : τ}
    (ht : (s.task t).inside = true) {p : TaskState} (hp : ¬ p.AtWait)
    {serial : SerialStruct} {sem : Option τ} :
    Signalled ⟨serial, sem, Function.update s.task t p⟩ := by
  refine (Function.forall_update_iff s.task fun _ q =>
    q.AtWait → 0 < serial.ulRxLength → serial.xRxWait = true).2
      ⟨fun hwait => absurd hwait hp, fun u hne hwait => ?_⟩
  exact absurd (h.holder.alone ht hwait.inside) hne

theorem signalled_step {s s' : State τ} {a : Label τ} (h : PortInv s) (hsig : Signalled s)
    (hstep : Step port s a s') : Signalled s' := by
  cases hstep with
  | irq b => exact signalled_irq h hsig b
  | callGetc t ht | callGets t n ht | take t c v ht hfree | takeTimeout t c v ht
  | waitTimeout t c v ht | give t c v got ht | leaveGetc t v got ht
  | leaveGets t n v got ht | leaveGetsLate t n v got ht | loopAgain t n v ht hlt
  | loopEnd t n v ht hle => exact hsig.moveTo (by rintro ⟨c, v, heq⟩; cases heq)
  | firstTest t c v ht =>
      -- it goes to wait only where it has found nothing
      refine hsig.moveTo fun hwait => ?_
      by_contra hne
      rw [if_neg hne] at hwait
      exact point_ne_takeRxWait (by simp) hwait
  | secondTest t c v ht =>
      refine hsig.moveTo fun hwait => absurd hwait (point_ne_takeRxWait ?_)
      split <;> simp
  | wait t c v ht hwait =>
      exact signalled_of_alone h (by rw [ht]; rfl) (point_ne_takeRxWait (by simp))
  | pop t c v ht =>
      exact signalled_of_alone h (by rw [ht]; rfl) (point_ne_takeRxWait (by simp))

/-- Whatever interrupts and readers do in whatever order, a reader that waits on
`xRxWait` while it is not available waits for a byte that is not there. -/
theorem no_lost_wakeup {s : State τ} (hreach : (serialSystem port L).Reachable s) {t : τ}
    {c : Caller} {v : List Byte} (hwaits : s.task t = .reading c v .takeRxWait)
    (hunavailable : s.serial.xRxWait = false) : s.serial.ulRxLength = 0 := by
  have hinv : PortInv s ∧ Signalled s := by
    refine hreach.invariant (I := fun s => PortInv s ∧ Signalled s) (fun s h => ?_)
      fun s a s' h hstep => ⟨portInv_step h.1 hstep, signalled_step h.1 h.2 hstep⟩
    refine ⟨portInv_opened h, fun t _ hpos => ?_⟩
    rw [h.length] at hpos
    exact absurd hpos (Nat.lt_irrefl 0)
  by_contra hne
  have hsignal := hinv.2 t ⟨c, v, hwaits⟩ (Nat.pos_of_ne_zero hne)
  exact absurd (hunavailable.symm.trans hsignal) Bool.false_ne_true

/-- The port of two bytes with a reader that waits. -/
def readerWaits : State Unit :=
  { ((openedPort.moveTo () (.reading .getc [] .takeSemaphore)).moveTo ()
      (.reading .getc [] .firstTest)).moveTo () (.reading .getc [] .takeRxWait) with
    xSemaphore := some () }

theorem no_lost_wakeup_empty_ring : readerWaits.serial.ulRxLength = 0 := by
  have hopen : (serialSystem .SERIAL_PORT_4 2).init openedPort :=
    ⟨rfl, rfl, rfl, rfl, rfl, fun _ => rfl⟩
  have hrun : (serialSystem .SERIAL_PORT_4 2).Run openedPort
      [.call () .getc, .internal (), .internal ()] readerWaits :=
    .cons (.callGetc _ () rfl) (.cons (.take _ () .getc [] rfl rfl)
      (.one (.firstTest _ () .getc [] rfl)))
  exact no_lost_wakeup ⟨openedPort, _, hopen, hrun⟩ (t := ()) (c := .getc) (v := []) rfl rfl

/-! ## Stale signals -/

/-- The ring has at most `L` bytes, and one for a task about to pop. -/
structure ReadyInv (L : Nat) (s : State τ) : Prop extends PortInv s where
  bufferLength : s.serial.ulRxBufferLength = L
  length_le : s.serial.ulRxLength ≤ L
  ready : Ready s

omit [DecidableEq τ] in
theorem readyInv_opened {s : State τ} (h : Opened L s) : ReadyInv L s where
  toPortInv := portInv_opened h
  bufferLength := h.bufferLength
  length_le := h.length ▸ Nat.zero_le L
  ready := ready_opened h

/-- A byte makes the ring longer up to its size. -/
theorem irqHandler_length {s : SerialStruct} (huart : s.xUART = ⟨0, 8, 8⟩) (hL : L < 2 ^ 32)
    (hbuffer : s.ulRxBufferLength = L) (hlen : s.ulRxLength ≤ L) (port : SerialPort) (b : Byte) :
    (irqHandler port (some b) s).ulRxLength = min (s.ulRxLength + 1) L := by
  obtain ⟨-, -, hnew, -⟩ := irqHandler_signal huart (by omega) port b
  rw [hnew, makeRoom, hbuffer]
  by_cases hfull : L = s.ulRxLength
  · rw [if_pos hfull]
    simp only [skipOldest, u32]
    omega
  · rw [if_neg hfull, u32_of_lt (by omega)]
    omega

theorem readyInv_step (hL : L < 2 ^ 32) {s s' : State τ} {a : Label τ} (h : ReadyInv L s)
    (hstep : Step port s a s') : ReadyInv L s' := by
  have hport := portInv_step h.toPortInv hstep
  have hle := h.length_le
  have hready : Ready s' := by
    refine ready_step h.holder h.ready (fun b hpos => ?_) hstep
    cases b with
    | none => rwa [irqHandler_none h.uart]
    | some b =>
        rw [irqHandler_length h.uart hL h.bufferLength hle]
        omega
  cases hstep with
  | irq b =>
      cases b with
      | none =>
          rw [irqHandler_none h.uart]
          exact h
      | some b =>
          obtain ⟨-, hbuffer, -⟩ := irqHandler_signal h.uart h.length_lt port b
          refine ⟨hport, hbuffer.trans h.bufferLength, ?_, hready⟩
          rw [irqHandler_length h.uart hL h.bufferLength hle]
          exact Nat.min_le_right _ _
  | pop t c v ht =>
      have hlen := skipOldest_length h.length_lt (h.ready t ⟨c, v, ht⟩)
      refine ⟨hport, h.bufferLength, ?_, hready⟩
      rw [hlen]
      exact Nat.le_trans (Nat.sub_le _ _) hle
  | callGetc t ht | callGets t n ht | take t c v ht hfree | takeTimeout t c v ht
  | firstTest t c v ht | wait t c v ht hwait | waitTimeout t c v ht | secondTest t c v ht
  | give t c v got ht | leaveGetc t v got ht | leaveGets t n v got ht
  | leaveGetsLate t n v got ht | loopAgain t n v ht hlt | loopEnd t n v ht hend =>
      exact ⟨hport, h.bufferLength, hle, hready⟩

/-- A signal means that there is a byte. -/
def Fresh (s : State τ) : Prop := s.serial.xRxWait = true → 0 < s.serial.ulRxLength

/-- A pop of the last byte while the signal of a byte is there untaken. -/
def TakesSignalled (s : State τ) : Label τ → Prop
  | .pop _ _ => s.serial.ulRxLength = 1 ∧ s.serial.xRxWait = true
  | _ => False

/-- Every other step keeps the signal fresh. -/
theorem fresh_step (hL : L < 2 ^ 32) {s s' : State τ} {a : Label τ} (h : ReadyInv L s)
    (hfresh : Fresh s) (hkeeps : ¬ TakesSignalled s a) (hstep : Step port s a s') :
    Fresh s' := by
  cases hstep with
  | irq b =>
      cases b with
      | none =>
          rw [irqHandler_none h.uart]
          exact hfresh
      | some b =>
          intro hsignal
          have hlen := irqHandler_length h.uart hL h.bufferLength h.length_le port b
          obtain ⟨-, -, hnew, hwait⟩ := irqHandler_signal h.uart h.length_lt port b
          rcases hwait.1 hsignal with hold | hzero
          · have hpos := hfresh hold
            have hle := h.length_le
            show 0 < (irqHandler port (some b) s.serial).ulRxLength
            omega
          · show 0 < (irqHandler port (some b) s.serial).ulRxLength
            rw [hnew, hzero]
            decide
  | pop t c v ht =>
      intro hsignal
      have hpos := hfresh hsignal
      have hne : s.serial.ulRxLength ≠ 1 := fun hone => hkeeps ⟨hone, hsignal⟩
      show 0 < (skipOldest s.serial).ulRxLength
      rw [skipOldest_length h.length_lt hpos]
      omega
  | wait t c v ht hwait => exact fun hsignal => absurd hsignal Bool.false_ne_true
  | callGetc t ht | callGets t n ht | take t c v ht hfree | takeTimeout t c v ht
  | firstTest t c v ht | waitTimeout t c v ht | secondTest t c v ht | give t c v got ht
  | leaveGetc t v got ht | leaveGets t n v got ht | leaveGetsLate t n v got ht
  | loopAgain t n v ht hlt | loopEnd t n v ht hle => exact hfresh

/-- A port as `SERIAL_open` leaves it: it takes `xRxWait` once it has made it. -/
def freshSystem (port : SerialPort) (uxBufferLength : BitVec 32) :
    System (State τ) (Label τ) where
  init s := Opened uxBufferLength.toNat s ∧ s.serial.xRxWait = false
  step := Step port

/-- A task in a `SERIAL_getc`. -/
def TaskState.inGetc : TaskState → Bool
  | .idle | .reading _ _ .loopTest => false
  | .reading _ _ _ => true

/-- While no `SERIAL_getc` is in progress, the signal is there only if a byte is. -/
def StaleFree (s : State τ) : Prop := (∀ t, (s.task t).inGetc = false) → Fresh s

theorem fresh_of_reachable {uxBufferLength : BitVec 32} {s : State τ}
    (hreach : ((freshSystem port uxBufferLength).restrict fun s a =>
      ¬ TakesSignalled s a).Reachable s) : Fresh s := by
  have hL := uxBufferLength.isLt
  have hinv := hreach.invariant (I := fun s => ReadyInv uxBufferLength.toNat s ∧ Fresh s)
    (fun s h => ⟨readyInv_opened h.1, fun hsignal => ?_⟩) fun s a s' h hstep =>
      ⟨readyInv_step hL h.1 hstep.2, fresh_step hL h.1 h.2 hstep.1 hstep.2⟩
  · exact hinv.2
  · exact absurd (h.2.symm.trans hsignal) Bool.false_ne_true

/-- A task that has given the mutex back can leave `SERIAL_getc`. -/
theorem exists_leave (port : SerialPort) {s : State τ} {t : τ} {c : Caller} {v : List Byte}
    {got : Option Byte} (ht : s.task t = .reading c v (.leave got)) :
    ∃ a p, a.actor = some t ∧ p.inGetc = false ∧ Step port s a (s.moveTo t p) := by
  cases c with
  | getc => exact ⟨.ret t _, _, rfl, rfl, .leaveGetc s t v got ht⟩
  | gets n => exact ⟨.internal t, _, rfl, rfl, .leaveGets s t n v got ht⟩

/-- A pop of the last byte with its signal untaken leaves the signal stale, once the
task is out of `SERIAL_getc`. -/
theorem stale_of_takesSignalled {uxBufferLength : BitVec 32} {s s' : State τ} {t : τ} {b : Byte}
    (hstep : Step port s (.pop t b) s') (htakes : TakesSignalled s (.pop t b))
    (hothers : ∀ u, u ≠ t → (s.task u).inGetc = false) :
    ∃ labels s'', (freshSystem port uxBufferLength).Run s' labels s'' ∧
      (∀ a ∈ labels, a.actor = some t) ∧ ¬ StaleFree s'' := by
  obtain ⟨hone, hsignal⟩ := htakes
  obtain ⟨c, v, got, ht, hserial, hsame⟩ : ∃ c v got,
      s'.task t = .reading c v (.giveSemaphore got) ∧ s'.serial = skipOldest s.serial ∧
        ∀ u, u ≠ t → s'.task u = s.task u := by
    cases hstep with
    | pop _ c v ht =>
        exact ⟨c, v, _, Function.update_self .., rfl, fun u hu => Function.update_of_ne hu ..⟩
  have hgive : Step port s' _ _ := .give s' t c v got ht
  obtain ⟨a, p, hactor, hp, hleave⟩ := exists_leave port
    (s := { s'.moveTo t (.reading c v (.leave got)) with xSemaphore := none })
    (Function.update_self ..)
  have hactors : ∀ b ∈ [.internal t, a], b.actor = some t := by
    intro b hb
    simp only [List.mem_cons, List.not_mem_nil, or_false] at hb
    rcases hb with rfl | rfl
    · rfl
    · exact hactor
  refine ⟨_, _, .cons hgive (.one hleave), hactors, fun hfree => ?_⟩
  have hquiet : ∀ u, (Function.update (Function.update s'.task t
      (.reading c v (.leave got))) t p u).inGetc = false := by
    refine (Function.forall_update_iff _ fun _ (q : TaskState) => q.inGetc = false).2
      ⟨hp, fun u hu => ?_⟩
    rw [Function.update_of_ne hu, hsame u hu]
    exact hothers u hu
  have hleft : s'.serial.xRxWait = true := by
    rw [hserial]
    exact hsignal
  have hpos : 0 < s'.serial.ulRxLength := hfree hquiet hleft
  rw [hserial, skipOldest_length (by omega) (by omega), hone] at hpos
  exact absurd hpos (Nat.lt_irrefl 0)

/-- The signal is never stale while no task pops the last byte with its signal untaken,
and each such pop leaves it stale unless another byte comes in first. -/
theorem staleFree_unless_takesSignalled (port : SerialPort) (uxBufferLength : BitVec 32) :
    (∀ s : State τ, ((freshSystem port uxBufferLength).restrict fun s a =>
      ¬ TakesSignalled s a).Reachable s → StaleFree s) ∧
    ∀ (s s' : State τ) (t : τ) (b : Byte), Step port s (.pop t b) s' →
      TakesSignalled s (.pop t b) → (∀ u, u ≠ t → (s.task u).inGetc = false) →
      ∃ labels s'', (freshSystem port uxBufferLength).Run s' labels s'' ∧
        (∀ a ∈ labels, a.actor = some t) ∧ ¬ StaleFree s'' :=
  ⟨fun _ hreach _ => fresh_of_reachable hreach,
    fun _ _ _ _ hstep htakes hothers => stale_of_takesSignalled hstep htakes hothers⟩

/-- A byte comes in, a `SERIAL_getc` returns it, and its signal is still there. -/
theorem signal_outlives_byte :
    ∃ s : State Unit, (freshSystem .SERIAL_PORT_1 2).Reachable s ∧ ¬ StaleFree s := by
  have hopen : (freshSystem .SERIAL_PORT_1 2).init openedPort :=
    ⟨⟨rfl, rfl, rfl, rfl, rfl, fun _ => rfl⟩, rfl⟩
  refine ⟨_, ⟨openedPort, _, hopen, .cons (.irq _ (some 0x41)) (.cons (.callGetc _ () rfl)
    (.cons (.take _ () .getc [] rfl rfl) (.cons (.firstTest _ () .getc [] rfl)
    (.cons (.secondTest _ () .getc [] rfl) (.cons (.pop _ () .getc [] rfl)
    (.cons (.give _ () .getc [] (some 0x41) rfl)
    (.one (.leaveGetc _ () [] (some 0x41) rfl))))))))⟩, fun hfree => ?_⟩
  exact absurd (hfree (fun _ => rfl) rfl) (by decide)

end BillCounter.Serial
