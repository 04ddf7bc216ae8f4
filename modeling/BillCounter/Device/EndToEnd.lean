import BillCounter.Device.Pipeline

/-!
# What the server reads of the counter

Nothing reaches the server that the driver has not decoded, nothing twice, and nothing out of
order.  If every call of `SVRIF_send` succeeds and every write is complete, only repetitions of
a message are left out.
-/

namespace BillCounter.Device

open BillCounter.Counter
open BillCounter.Driver
open BillCounter.Lib.Collapse
open BillCounter.Lib.RawBytes
open BillCounter.Lib.Runs
open BillCounter.Server
open BillCounter.Storage

variable {pBC : BcInstance} {hSerial : Arrivals} {s t : DeviceState} {a : DeviceLabel}
  {labels : List DeviceLabel}

/-! ## The message at hand -/

/-- The message the counter task has decoded, and not yet enqueued or dropped. -/
def inFlight (s : CounterState) : List (List Byte) :=
  match s.main with
  | .compare n _ | .malloc n _ | .queueSend n _ | .free n _ | .copy n _ .RET_ERROR => [s.pData n]
  | _ => []

theorem pData_stored (s : CounterState) (pBC : BcInstance) :
    (stored s.pBuffer pBC).val.take pBC.fGetMessage.length = pBC.fGetMessage := by
  have hself : slice (patch s.pBuffer.val 0 pBC.fGetMessage) 0 pBC.fGetMessage.length =
      pBC.fGetMessage := by
    apply slice_patch_self
    rw [s.pBuffer.property, Nat.zero_add]
    exact length_fGetMessage_le_sizeof pBC
  exact hself

/-- A step of `SVRIF_taskMain` enqueues nothing. -/
theorem enqueued_of_sends_eq {u v : ServerState} {b : Label} (h : Step u b v)
    (hsends : v.sends = u.sends) : b.enqueued = none := by
  cases h with
  | enqueue pMsg before after q hbefore =>
      have hlen := congrArg List.length hsends
      rw [hbefore] at hlen
      simp at hlen
  | _ => rfl

/-- The counter task drops its message when it is a duplicate or `SVRIF_send` fails. -/
def Drops : CounterLabel → Prop
  | .suppress _ | .sent _ .RET_ERROR => True
  | _ => False

/-- What a step enqueues is the message at hand, and a step that drops nothing leaves it so. -/
theorem counterStep_inFlight {u v : CounterState} {b : CounterLabel} (h : CounterStep u b v)
    (hown : OwnCall u) (htask : u.main = .input → ∃ c, b = .task c) :
    (b.enqueued.toList ++ inFlight v).Sublist (inFlight u) ∧
      (¬ Drops b → b.enqueued.toList ++ inFlight v = inFlight u) := by
  have hsame : ∀ {ms : List (List Byte)}, ms = inFlight u →
      ms.Sublist (inFlight u) ∧ (¬ Drops b → ms = inFlight u) := fun hms =>
    ⟨hms ▸ List.Sublist.refl _, fun _ => hms⟩
  cases h with
  | task c w hstep hsends => exact hsame rfl
  | noInput hmain | getMessage _ _ _ hmain =>
      obtain ⟨c, hc⟩ := htask hmain
      cases hc
  | suppress n ulTime hmain hduplicate =>
      exact ⟨List.nil_sublist _, fun hdrops => absurd trivial hdrops⟩
  | call n ulTime hmain | mallocFails n ulTime w hmain | malloc n ulTime w hmain
  | full n ulTime pMsg w hmain | free n ulTime w hmain =>
      exact hsame (by simp [inFlight, hmain, CounterState.pData, CounterLabel.enqueued])
  | enqueue n ulTime m w hmain hstep =>
      rw [OwnCall, hmain] at hown
      obtain ⟨id, hsends⟩ := hown
      have hm := (sends_enqueue hstep hsends).1
      have hdata : m.pData = u.pData n := by rw [hm]; exact pData_message u n
      exact hsame (by simp [inFlight, hmain, CounterLabel.enqueued, hdata])
  | copy n ulTime xRet hmain =>
      cases xRet with
      | RET_OK => exact hsame (by simp [inFlight, hmain, CounterLabel.enqueued])
      | RET_ERROR => exact ⟨List.nil_sublist _, fun hdrops => absurd trivial hdrops⟩
  | delay hmain => exact hsame (by simp [inFlight, hmain, CounterLabel.enqueued])

/-! ## What was enqueued -/

/-- What was enqueued, and the message at hand, were decoded in this order. -/
structure Traced (labels : List DeviceLabel) (s : DeviceState) : Prop where
  own : OwnCall s.counter
  sublist : (enqueuedData labels ++ inFlight s.counter).Sublist (decodedIn labels)

theorem inFlight_of_input {u : CounterState} (h : u.main = .input) : inFlight u = [] := by
  rw [inFlight, h]

theorem traced_step (h : DeviceStep s a t) (hs : Traced labels s) : Traced (labels ++ [a]) t where
  own := ownCall_step (counterStep_of_step h) hs.own
  sublist := by
    have hsub := hs.sublist
    cases h with
    | rejected hmain =>
        rw [inFlight_of_input hmain] at hsub
        rw [enqueuedData_snoc, decodedIn_snoc_input]
        simpa [DeviceLabel.event, CounterLabel.enqueued, inFlight, DeviceState.polled] using hsub
    | accepted ulTick hmain =>
        rw [inFlight_of_input hmain] at hsub
        have hdata := pData_stored s.counter (s.pBC.fInput s.hSerial).2
        have hnew := hsub.append (List.Sublist.refl [(s.pBC.fInput s.hSerial).2.fGetMessage])
        rw [enqueuedData_snoc, decodedIn_snoc_input]
        simpa [DeviceLabel.event, CounterLabel.enqueued, inFlight, DeviceState.polled,
          CounterState.pData, messageCount, hdata] using hnew
    | counter a t hstep htask =>
        have hstay := (counterStep_inFlight hstep hs.own htask).1
        rw [enqueuedData_snoc, decodedIn_snoc_counter, List.append_assoc]
        exact ((List.Sublist.refl _).append hstay).trans hsub

theorem traced (hrun : (device pBC hSerial).Run (deviceStart pBC hSerial) labels s) :
    Traced labels s :=
  hrun.history ⟨rfl, List.Sublist.refl _⟩ fun _ _ _ _ hu hstep => traced_step hstep hu

/-- What the server interface enqueued is what `CNTIF_main` gave it. -/
theorem enqueuedIn_eq (hrun : (device pBC hSerial).Run (deviceStart pBC hSerial) labels s) :
    (enqueuedIn (serverLabels labels)).map Message.pData = enqueuedData labels := by
  refine hrun.history (I := fun as _ =>
    (enqueuedIn (serverLabels as)).map Message.pData = enqueuedData as) rfl ?_
  intro as u a v hu hstep
  rw [serverLabels_snoc, enqueuedData_snoc, ← hu]
  cases hstep with
  | rejected | accepted => simp [DeviceLabel.event, CounterLabel.server, CounterLabel.enqueued]
  | counter a t hstep =>
      cases hstep with
      | task b w hstep hsends =>
          have hnone := enqueued_of_sends_eq hstep hsends
          simp [DeviceLabel.event, CounterLabel.server, CounterLabel.enqueued, hnone]
      | _ => simp [DeviceLabel.event, CounterLabel.server, CounterLabel.enqueued, Label.enqueued]

/-- What was offered to `lwip_write` was decoded. -/
theorem offered_sublist (hrun : (device pBC hSerial).Run (deviceStart pBC hSerial) labels s) :
    ((offeredIn (serverLabels labels)).map Message.pData).Sublist (decodedIn labels) := by
  have hoffered := offered_append_pending (server_run hrun)
  have hall := (List.sublist_append_left _ _).trans (traced hrun).sublist
  rw [← enqueuedIn_eq hrun, ← hoffered, List.map_append] at hall
  exact (List.sublist_append_left _ _).trans hall

/-- Messages fit a frame. -/
theorem offered_fit (hrun : (device pBC hSerial).Run (deviceStart pBC hSerial) labels s) :
    ∀ m ∈ offeredIn (serverLabels labels), m.pData.length ≤ 118 := by
  intro m hm
  have hmem := (offered_sublist hrun).mem (List.mem_map_of_mem hm)
  exact Nat.le_trans (length_of_mem_decodedIn hrun _ hmem) (by decide)

/-- What the server has read was decoded, each message once and in order. -/
theorem readByServer_sublist
    (hrun : (device pBC hSerial).Run (deviceStart pBC hSerial) labels s)
    (hcut : NothingBehindCut (serverLabels labels)) :
    (readByServer (serverLabels labels)).Sublist (decodedIn labels) := by
  rw [readByServer_eq_accepted (server_run hrun) hcut (offered_fit hrun)]
  exact ((filterMap_sublist accepted_eq _).map _).trans (offered_sublist hrun)

/-- In every run of the device, with any driver of the table and anything on the line, the
server reads messages that the driver decodes of the line: no other, none twice, and in the
order of the line; as long as nothing is sent on a connection behind a frame cut short. -/
theorem server_reads_line (ulModel : Nat) (hpBC : bcGetInstance ulModel = some (.polled pBC))
    (hrun : (device pBC hSerial).Run (deviceStart pBC hSerial) labels s)
    (hcut : NothingBehindCut (serverLabels labels)) :
    (readByServer (serverLabels labels)).Sublist
      (BcInstance.decoded hSerial.length (pBC, hSerial)) :=
  (readByServer_sublist hrun hcut).trans
    (decodedIn_begins (ready_bcGetInstance hpBC) hrun).sublist

/-! The first message of a device, up to its write. -/

/-- The counter task with this message, at `main`, and the line behind it. -/
def firstDevice (pBC : BcInstance) (hSerial : Arrivals) (server : ServerState)
    (main : MainPoint) : DeviceState :=
  ⟨{ cntifStart with
      server := server
      pBuffer := stored (Bytes.replicate 128 0) pBC
      main := main }, pBC, hSerial⟩

/-- The message, as `SVRIF_send` hands it over. -/
def firstMessage (pBC : BcInstance) : Message :=
  (firstDevice pBC [] svrifStart .input).counter.message (messageCount pBC)

/-- The interface with this message on its queue. -/
def firstQueued (m : Message) : ServerState :=
  { svrifStart with heap := ⟨1, []⟩, xMessageQ := some [⟨0, m⟩] }

/-- The labels up to the queue. -/
def toQueue (m : Message) : List DeviceLabel :=
  [.input (some m.pData), .counter .internal, .counter (.send (.malloc m)),
    .counter (.send (.enqueue m)), .counter (.sent m.pData .RET_OK)]

/-- And on to `lwip_write`. -/
def toWrite (m : Message) : List Label :=
  [.internal, .socket true, .connect true, .internal, .internal,
    .write m (frame oneMAC m) (frame oneMAC m).length]

theorem pData_firstMessage (pBC : BcInstance) : (firstMessage pBC).pData = pBC.fGetMessage :=
  (pData_message _ _).trans (pData_stored cntifStart pBC)

theorem run_toQueue {x : BcInstance} {line : Arrivals} (hinput : (x.fInput line).1 = true) :
    ∃ s,
      (device pBC hSerial).Run ⟨cntifStart, x, line⟩
        (toQueue (firstMessage (x.fInput line).2)) s ∧
      s.counter.server = firstQueued (firstMessage (x.fInput line).2) ∧
      s.hSerial = x.restOfLine line := by
  let m := firstMessage (x.fInput line).2
  let n := messageCount (x.fInput line).2
  let dev := firstDevice (x.fInput line).2 (x.restOfLine line)
  let sending : ServerState := { svrifStart with heap := ⟨1, []⟩, sends := [.sending ⟨0, m⟩] }
  have hdata : m.pData = (x.fInput line).2.fGetMessage := pData_firstMessage _
  have haccepted : DeviceStep ⟨cntifStart, x, line⟩ (.input (some m.pData))
      (dev svrifStart (.compare n 1)) := by
    rw [hdata]
    exact .accepted ⟨cntifStart, x, line⟩ 1000 rfl hinput
  have hnew : ¬ (dev svrifStart (.compare n 1)).counter.duplicate n 1 := by
    intro hduplicate
    have hlen := (length_fGetMessage (x.fInput line).2).1
    have hzero : (x.fInput line).2.fGetMessage.length = 0 := hduplicate.2.1
    omega
  have hcall : DeviceStep (dev svrifStart (.compare n 1)) (.counter .internal)
      (dev svrifStart (.malloc n 1)) :=
    .counter _ _ _ (.call _ n 1 rfl hnew) nofun
  have hmalloc : DeviceStep (dev svrifStart (.malloc n 1)) (.counter (.send (.malloc m)))
      (dev sending (.queueSend n 1)) :=
    .counter _ _ _ (.malloc _ n 1 sending rfl (.malloc _ m)) nofun
  have henqueue : DeviceStep (dev sending (.queueSend n 1)) (.counter (.send (.enqueue m)))
      (dev (firstQueued m) (.copy n 1 .RET_OK)) :=
    .counter _ _ _ (.enqueue _ n 1 m (firstQueued m) rfl
      (.enqueue _ ⟨0, m⟩ [] [] [] rfl rfl (by decide))) nofun
  have hstored : (dev (firstQueued m) (.copy n 1 .RET_OK)).counter.pData n = m.pData :=
    (pData_stored cntifStart _).trans hdata.symm
  have hcopy := CounterStep.copy (dev (firstQueued m) (.copy n 1 .RET_OK)).counter n 1 .RET_OK rfl
  rw [hstored] at hcopy
  exact ⟨_, .cons haccepted <| .cons hcall <| .cons hmalloc <| .cons henqueue <|
    .one (.counter _ _ _ hcopy nofun), rfl, rfl⟩

/-- Steps of `SVRIF_taskMain`, with no call of `SVRIF_send` under way. -/
theorem task_run {u w : ServerState} {bs : List Label}
    (h : (server.within fun v => v.sends = []).Run u bs w) (hu : u.sends = [])
    (s : DeviceState) (hs : s.counter.server = u) :
    ∃ t, (device pBC hSerial).Run s (bs.map fun b => .counter (.task b)) t ∧
      t.hSerial = s.hSerial := by
  induction h generalizing s with
  | nil u => exact ⟨s, .nil s, rfl⟩
  | cons hstep _ ih =>
      subst hs
      obtain ⟨t, hrun, ht⟩ := ih hstep.2 ⟨{ s.counter with server := _ }, s.pBC, s.hSerial⟩ rfl
      have htask := CounterStep.task s.counter _ _ hstep.1 (hstep.2.trans hu.symm)
      exact ⟨t, .cons (.counter s _ _ htask fun _ => ⟨_, rfl⟩) hrun, ht⟩

/-- The labels of the whole way. -/
def firstWritten (m : Message) : List DeviceLabel :=
  toQueue m ++ (toWrite m).map fun b => .counter (.task b)

theorem run_firstWritten {x : BcInstance} {line : Arrivals}
    (hinput : (x.fInput line).1 = true) :
    ∃ s,
      (device pBC hSerial).Run ⟨cntifStart, x, line⟩
        (firstWritten (firstMessage (x.fInput line).2)) s ∧
      s.hSerial = x.restOfLine line := by
  obtain ⟨s, hqueue, hs, hline⟩ := run_toQueue hinput
  generalize firstMessage (x.fInput line).2 = m at hqueue hs ⊢
  have hserver : (server.within fun v => v.sends = []).Run (firstQueued m) (toWrite m) _ :=
    .cons ⟨.linkUp _ rfl, rfl⟩ <| .cons ⟨.socket _ true rfl, rfl⟩ <|
    .cons ⟨.connect _ true rfl, rfl⟩ <| .cons ⟨.receive _ ⟨0, m⟩ [] rfl rfl, rfl⟩ <|
    .cons ⟨.build _ ⟨0, m⟩ oneMAC rfl, rfl⟩ <|
    .one ⟨step_write_frame _ ⟨0, m⟩ oneMAC (Int.le_refl _), rfl⟩
  obtain ⟨t, hwrite, ht⟩ := task_run hserver rfl s hs
  exact ⟨t, hqueue.append hwrite, ht.trans hline⟩

/-! A frame of a BH1000. -/

/-- A BH1000, as `BC_getInstance` returns it, and as it is behind the frame. -/
def oneBH1000 (ulCount : BitVec 32) : BcInstance := .bh1000 ⟨ulCount, 0⟩

/-- The line with the frame. -/
def oneFrameLine : Arrivals := inTime frameOf300.val.val

/-- Its message. -/
def oneMessage : Message := ⟨8, [1, 0, 0, 44, 0, 0, 0, 0], rfl⟩

/-- The labels of the whole run. -/
def oneFrame : List DeviceLabel := firstWritten oneMessage

theorem run_oneFrame :
    ∃ s, (device (oneBH1000 0) oneFrameLine).Run (deviceStart (oneBH1000 0) oneFrameLine)
      oneFrame s := by
  have hmessage : firstMessage ((oneBH1000 0).fInput oneFrameLine).2 = oneMessage := by decide
  have hfirst : ∃ s, (device (oneBH1000 0) oneFrameLine).Run
      (deviceStart (oneBH1000 0) oneFrameLine)
      (firstWritten (firstMessage ((oneBH1000 0).fInput oneFrameLine).2)) s ∧ _ :=
    run_firstWritten (by decide)
  obtain ⟨s, hrun, _⟩ := hfirst
  rw [hmessage] at hrun
  exact ⟨s, hrun⟩

theorem server_reads_line_bh1000 :
    (readByServer (serverLabels oneFrame)).Sublist
      (BcInstance.decoded oneFrameLine.length (oneBH1000 0, oneFrameLine)) :=
  run_oneFrame.elim fun _ hrun => server_reads_line 11 rfl hrun (by decide)

/-! ## Without failures -/

/-- Every call of `SVRIF_send` succeeded. -/
def NoSendFails (labels : List DeviceLabel) : Prop :=
  ∀ pData, .counter (.sent pData .RET_ERROR) ∉ labels

/-- Every write was complete. -/
def NoWriteShort (labels : List DeviceLabel) : Prop :=
  ∀ b ∈ serverLabels labels, b.incomplete = false

instance (labels : List DeviceLabel) : Decidable (NoWriteShort labels) :=
  inferInstanceAs (Decidable (∀ b ∈ serverLabels labels, _))

/-- What the server is to read: the payloads it has read, those pending, and the message at
hand. -/
def onItsWay (labels : List DeviceLabel) (s : DeviceState) : List (List Byte) :=
  readByServer (serverLabels labels) ++ s.counter.server.pending.map Message.pData ++
    inFlight s.counter

/-- Only repetitions were left out so far. -/
structure Lossless (labels : List DeviceLabel) (s : DeviceState) : Prop where
  own : OwnCall s.counter
  faithful : Faithful (counterLabels labels, s.counter)
  copied : Copied (counterLabels labels, s.counter)
  unsent : ¬ Sent (counterLabels labels) → s.counter.ulPrevCount = 0
  nonempty : ∀ n ulTime, s.counter.main = .compare n ulTime → n.val ≠ 0
  collapse_eq : collapse (enqueuedData labels ++ inFlight s.counter) = collapse (decodedIn labels)

theorem lastEnqueued_counterLabels (labels : List DeviceLabel) :
    lastEnqueued (counterLabels labels) = (enqueuedData labels).getLast? := rfl

/-- A message suppressed is the one enqueued last. -/
theorem last_of_suppressed (hs : Lossless labels s) {n : Count} {ulTime : BitVec 32}
    (hmain : s.counter.main = .compare n ulTime) (hduplicate : s.counter.duplicate n ulTime) :
    (enqueuedData labels).getLast? = some (s.counter.pData n) := by
  have hsent : Sent (counterLabels labels) := by
    by_contra hunsent
    exact hs.nonempty n ulTime hmain (hduplicate.2.1.trans (hs.unsent hunsent))
  have hrecorded := hs.faithful.recorded (by rw [hmain]; rfl) hsent
  rw [← lastEnqueued_counterLabels, hrecorded, prevData_of_duplicate hduplicate]

theorem sent_mono {as : List CounterLabel} {b : CounterLabel} (h : Sent as) : Sent (as ++ [b]) := by
  obtain ⟨pData, xRet, hmem⟩ := h
  exact ⟨pData, xRet, List.mem_append_left _ hmem⟩

theorem unsent_step {u v : CounterState} {b : CounterLabel} {as : List CounterLabel}
    (h : CounterStep u b v) (hu : ¬ Sent as → u.ulPrevCount = 0) (hv : ¬ Sent (as ++ [b])) :
    v.ulPrevCount = 0 := by
  have hprev := hu fun hsent => hv (sent_mono hsent)
  cases h with
  | copy n ulTime xRet => exact absurd ⟨_, _, List.mem_append_right as (.head _)⟩ hv
  | _ => exact hprev

theorem collapse_step (h : DeviceStep s a t) (hs : Lossless labels s)
    (hfail : ∀ pData, a ≠ .counter (.sent pData .RET_ERROR)) :
    collapse (enqueuedData (labels ++ [a]) ++ inFlight t.counter) =
      collapse (decodedIn (labels ++ [a])) := by
  have heq := hs.collapse_eq
  cases h with
  | rejected hmain =>
      rw [inFlight_of_input hmain] at heq
      rw [enqueuedData_snoc, decodedIn_snoc_input]
      simpa [DeviceLabel.event, CounterLabel.enqueued, inFlight, DeviceState.polled] using heq
  | accepted ulTick hmain =>
      rw [inFlight_of_input hmain, List.append_nil] at heq
      have hdata := pData_stored s.counter (s.pBC.fInput s.hSerial).2
      have hnew := collapse_snoc_congr heq (s.pBC.fInput s.hSerial).2.fGetMessage
      rw [enqueuedData_snoc, decodedIn_snoc_input]
      simpa [DeviceLabel.event, CounterLabel.enqueued, inFlight, DeviceState.polled,
        CounterState.pData, messageCount, hdata] using hnew
  | counter a t hstep htask =>
      have hstay := (counterStep_inFlight hstep hs.own htask).2
      rw [enqueuedData_snoc, decodedIn_snoc_counter, ← heq, List.append_assoc]
      by_cases hdrops : Drops a
      · -- the message is a repetition of the one in front of it
        cases hstep with
        | suppress n ulTime hmain hduplicate =>
            have hlast := last_of_suppressed hs hmain hduplicate
            have hcollapse := collapse_snoc_of_last hlast
            simp only [inFlight, hmain]
            rw [hcollapse]
            exact congrArg collapse (List.append_nil _)
        | copy n ulTime xRet hmain =>
            cases xRet with
            | RET_OK => exact hdrops.elim
            | RET_ERROR => exact absurd rfl (hfail _)
        | _ => exact hdrops.elim
      · exact congrArg (fun ms => collapse (enqueuedData labels ++ ms)) (hstay hdrops)

theorem lossless_step (h : DeviceStep s a t) (hs : Lossless labels s)
    (hfail : ∀ pData, a ≠ .counter (.sent pData .RET_ERROR)) : Lossless (labels ++ [a]) t where
  own := ownCall_step (counterStep_of_step h) hs.own
  faithful := by
    rw [counterLabels_snoc]
    refine faithful_step hs.faithful hs.copied (fun pData ha => ?_) (counterStep_of_step h)
    cases a with
    | input => cases ha
    | counter a => exact absurd (congrArg DeviceLabel.counter ha) (hfail pData)
  copied := by
    rw [counterLabels_snoc]
    exact copied_step hs.own (counterStep_of_step h) hs.copied
  unsent := by
    rw [counterLabels_snoc]
    exact unsent_step (counterStep_of_step h) hs.unsent
  nonempty := by
    intro n ulTime hmain
    cases h with
    | rejected => cases hmain
    | accepted =>
        cases hmain
        have hlen := (length_fGetMessage (s.pBC.fInput s.hSerial).2).1
        rw [messageCount]
        dsimp only
        omega
    | counter a t hstep htask =>
        cases hstep with
        | task => exact hs.nonempty n ulTime hmain
        | getMessage _ _ _ hinput =>
            obtain ⟨b, hb⟩ := htask hinput
            cases hb
        | _ => cases hmain
  collapse_eq := collapse_step h hs hfail

theorem lossless (hrun : (device pBC hSerial).Run (deviceStart pBC hSerial) labels s)
    (hsends : NoSendFails labels) : Lossless labels s := by
  have hall : NoSendFails labels → Lossless labels s := by
    refine hrun.history (I := fun as u => NoSendFails as → Lossless as u) (fun _ => ?_) ?_
    · refine ⟨rfl, faithful_start, ?_, fun _ => rfl, ?_, rfl⟩
      · intro n ulTime hmain
        cases hmain
      · intro n ulTime hmain
        cases hmain
    · intro as u a v hu hstep hfails
      refine lossless_step hstep (hu fun pData hmem => ?_) fun pData ha => ?_
      · exact hfails pData (List.mem_append_left _ hmem)
      · exact hfails pData (List.mem_append_right _ (ha ▸ List.mem_cons_self))
  exact hall hsends

/-- Complete writes cut nothing short. -/
theorem cut_of_complete {bs : List Label} (h : ∀ b ∈ bs, b.incomplete = false) :
    (wire bs).cut = false := by
  induction bs using List.reverseRecOn with
  | nil => rfl
  | append_singleton bs b ih =>
      have hcut := ih fun c hc => h c (List.mem_append_left _ hc)
      have hb := h b (List.mem_append_right _ List.mem_cons_self)
      rw [wire_snoc]
      cases b with
      | write m bytes n =>
          have hlen : n = bytes.length := by simpa [Label.incomplete] using hb
          rw [Wire.next]
          split
          · exact hcut
          · simp [hcut, hlen]
      | connect connected => cases connected <;> first
          | exact hcut
          | rfl
      | _ => exact hcut

theorem nothingBehindCut_of_complete {bs : List Label} (h : ∀ b ∈ bs, b.incomplete = false) :
    NothingBehindCut bs :=
  fun _ _ _ => cut_of_complete fun b hb => h b (List.mem_of_mem_take hb)

/-- With complete writes, everything enqueued is read or pending. -/
theorem onItsWay_eq (hrun : (device pBC hSerial).Run (deviceStart pBC hSerial) labels s)
    (hwrites : NoWriteShort labels) :
    onItsWay labels s = enqueuedData labels ++ inFlight s.counter := by
  have haccepted : acceptedIn (serverLabels labels) = offeredIn (serverLabels labels) := by
    rw [acceptedIn, offeredIn, filterMap_eq_iff accepted_eq]
    exact fun b hb => (accepted_eq_iff b).mpr (hwrites b hb)
  have hread := readByServer_eq_accepted (server_run hrun) (nothingBehindCut_of_complete hwrites)
    (offered_fit hrun)
  rw [onItsWay, hread, haccepted, ← List.map_append, offered_append_pending (server_run hrun),
    enqueuedIn_eq hrun]

/-- In every run in which every call of `SVRIF_send` succeeds and every write is complete, what
the server has read, what is pending and the message at hand were decoded in this order, and
leave out of what was decoded only repetitions. -/
theorem only_repetitions_left_out
    (hrun : (device pBC hSerial).Run (deviceStart pBC hSerial) labels s)
    (hsends : NoSendFails labels) (hwrites : NoWriteShort labels) :
    (onItsWay labels s).Sublist (decodedIn labels) ∧
      collapse (onItsWay labels s) = collapse (decodedIn labels) := by
  rw [onItsWay_eq hrun hwrites]
  exact ⟨(traced hrun).sublist, (lossless hrun hsends).collapse_eq⟩

theorem only_repetitions_left_out_bh1000 :
    ∃ s, (onItsWay oneFrame s).Sublist (decodedIn oneFrame) ∧
      collapse (onItsWay oneFrame s) = collapse (decodedIn oneFrame) :=
  run_oneFrame.elim fun s hrun =>
    ⟨s, only_repetitions_left_out hrun
      (fun pData => by simp [oneFrame, firstWritten, toQueue]) (by decide)⟩

/-! ## The readings of a P16 -/

theorem polls_p16 (n : Nat) (pP16 : BcP16) (line : Arrivals) :
    BcInstance.polls n (.p16 pP16, line) = bcP16Polls n (pP16, line) := by
  induction n generalizing pP16 line with
  | zero => rfl
  | succ n ih => exact congrArg _ (ih _ _)

theorem length_items_le (items : List Item) :
    items.length ≤ (items.flatMap Item.arrivals).length := by
  induction items with
  | nil => exact Nat.le_refl 0
  | cons item items ih =>
      have hpos : 0 < item.arrivals.length := by cases item <;> simp [Item.arrivals, inTime]
      rw [List.length_cons, List.flatMap_cons, List.length_append]
      omega

theorem length_reportsFrom (before items : List Item) :
    (reportsFrom before items).length = items.length := by
  induction items generalizing before with
  | nil => rfl
  | cons item items ih => rw [reportsFrom, List.length_cons, List.length_cons, ih]

/-- The reports there are for a line of frames. -/
def reports (items : List Item) : List (List Byte) := (reportsFrom [] items).filterMap id

/-- What the driver decodes of the line are the reports. -/
theorem decoded_p16 (items : List Item) :
    BcInstance.decoded (items.flatMap Item.arrivals).length
      (.p16 (bcP16Create bcModelP16), items.flatMap Item.arrivals) = reports items := by
  have hlen := length_items_le items
  rw [BcInstance.decoded, polls_p16, polls_from agrees_create, reports, List.take_append,
    length_reportsFrom, List.take_of_length_le (by rw [length_reportsFrom]; exact hlen),
    List.filterMap_append, List.take_replicate, List.filterMap_replicate_of_none rfl,
    List.append_nil]

/-- A P16 sends its frames over any line.  When all of it has been polled, and every call of
`SVRIF_send` succeeded and every write was complete, the server has read, or is to read, the
reports of the counts at the ends of its readings in order, and misses only repetitions. -/
theorem p16_reports_reach_server (items : List Item)
    (hrun : (device (.p16 (bcP16Create bcModelP16)) (items.flatMap Item.arrivals)).Run
      (deviceStart (.p16 (bcP16Create bcModelP16)) (items.flatMap Item.arrivals)) labels s)
    (hsends : NoSendFails labels) (hwrites : NoWriteShort labels) (hend : s.hSerial = []) :
    (onItsWay labels s).Sublist (reports items) ∧
      collapse (onItsWay labels s) = collapse (reports items) := by
  have hready : (BcInstance.p16 (bcP16Create bcModelP16)).Ready := rfl
  have hdecoded := (decodedIn_of_end hready hrun hend).trans (decoded_p16 items)
  rw [onItsWay_eq hrun hwrites, ← hdecoded]
  exact ⟨(traced hrun).sublist, (lossless hrun hsends).collapse_eq⟩

/-- A reading of seven bills of the third kind. -/
def sevenBills : List Item := [.count 2 0 7 9, .finish 0 0 0 0 0]

/-- Its message. -/
def sevenMessage : Message := ⟨15, [1, 0, 0, 1, 0, 0, 2, 0, 7, 3, 0, 0, 4, 0, 0], rfl⟩

/-- The count, the end of the reading, and the message up to its write. -/
def sevenLabels : List DeviceLabel :=
  [.input none, .counter .internal] ++ firstWritten sevenMessage

theorem run_sevenLabels :
    ∃ s,
      (device (.p16 (bcP16Create bcModelP16)) (sevenBills.flatMap Item.arrivals)).Run
        (deviceStart (.p16 (bcP16Create bcModelP16)) (sevenBills.flatMap Item.arrivals))
        sevenLabels s ∧
      s.hSerial = [] := by
  let x : BcInstance := .p16 (bcP16Create bcModelP16)
  let line := sevenBills.flatMap Item.arrivals
  let counted := (x.fInput line).2
  let finish := x.restOfLine line
  have hmessage : firstMessage (counted.fInput finish).2 = sevenMessage := by decide
  have hrejected : DeviceStep (deviceStart x line) (.input none)
      ⟨{ cntifStart with main := .delay }, counted, finish⟩ :=
    .rejected (deviceStart x line) rfl (by decide)
  have hdelay : DeviceStep ⟨{ cntifStart with main := .delay }, counted, finish⟩
      (.counter .internal) ⟨cntifStart, counted, finish⟩ :=
    .counter _ _ _ (.delay _ rfl) nofun
  have hfirst : ∃ s, (device x line).Run ⟨cntifStart, counted, finish⟩
      (firstWritten (firstMessage (counted.fInput finish).2)) s ∧
      s.hSerial = counted.restOfLine finish := run_firstWritten (by decide)
  obtain ⟨s, hrun, hs⟩ := hfirst
  rw [hmessage] at hrun
  exact ⟨s, .cons hrejected (.cons hdelay hrun), hs.trans (by decide)⟩

/-- The server reads the seven bills. -/
theorem p16_reports_reach_server_sevenBills :
    readByServer (serverLabels sevenLabels) = reports sevenBills ∧
      ∃ s, (onItsWay sevenLabels s).Sublist (reports sevenBills) ∧
        collapse (onItsWay sevenLabels s) = collapse (reports sevenBills) :=
  ⟨by decide, run_sevenLabels.elim fun s hrun =>
    ⟨s, p16_reports_reach_server sevenBills hrun.1
      (fun pData => by simp [sevenLabels, firstWritten, toQueue]) (by decide) hrun.2⟩⟩

end BillCounter.Device
