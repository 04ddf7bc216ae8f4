import BillCounter.Server.Delivery

/-!
# What the server reads

On each connection the server receives the bytes `lwip_write` accepted, one write
behind the other.  A write may accept part of a frame only.  `SVRIF_client` notices
(`"Send failed"`) and goes on with the next message on the same connection, so that
the bytes behind are read as the rest of the frame cut short.
-/

namespace BillCounter.Server

open BillCounter.Lib.Framing
open BillCounter.Lib.RawBytes
open BillCounter.Lib.Runs

variable {s : ServerState} {a : Label} {labels : List Label} {ms : List Message} {w : Wire}

/-! ## The bytes of a connection -/

/-- The bytes sent on each connection, the latest connection first, and whether a frame
was cut short on the latest. -/
structure Wire where
  streams : List (List Byte)
  cut : Bool

/-- What a step puts on the wire. -/
def Wire.next (w : Wire) : Label → Wire
  | .connect true => ⟨[] :: w.streams, false⟩
  | .write _ bytes nSentLength =>
      match w.streams with
      | [] => w
      | stream :: earlier =>
          ⟨(stream ++ bytes.take nSentLength.toNat) :: earlier,
            w.cut || (0 < nSentLength && nSentLength < bytes.length)⟩
  | _ => w

/-- What a run puts on the wire. -/
def wire (labels : List Label) : Wire := labels.foldl Wire.next ⟨[], false⟩

@[simp] theorem wire_snoc (labels : List Label) (a : Label) :
    wire (labels ++ [a]) = (wire labels).next a := by
  rw [wire, List.foldl_append, ← wire]
  rfl

/-- A write that sends something. -/
def Label.sends : Label → Bool
  | .write _ _ nSentLength => 0 < nSentLength
  | _ => false

/-- Once a frame was cut short on a connection, nothing more is sent on it. -/
def NothingBehindCut (labels : List Label) : Prop :=
  ∀ i, (h : i < labels.length) → labels[i].sends = true → (wire (labels.take i)).cut = false

instance (labels : List Label) : Decidable (NothingBehindCut labels) :=
  inferInstanceAs (Decidable (∀ i, (h : i < labels.length) → _))

theorem NothingBehindCut.split {before after : List Label}
    (h : NothingBehindCut (before ++ a :: after)) (ha : a.sends = true) :
    (wire before).cut = false := by
  have hlt : before.length < (before ++ a :: after).length := by simp
  have hcut := h before.length hlt (by simpa using ha)
  rwa [List.take_left' rfl] at hcut

/-! ## Complete frames -/

/-- Frames of some of the messages `ms`. -/
structure FramesOf (ms : List Message) (frames : List (Bytes 6 × Message)) : Prop where
  mem : ∀ p ∈ frames, p.2 ∈ ms

/-- The bytes of a list of frames. -/
def frameBytes (frames : List (Bytes 6 × Message)) : List Byte :=
  frames.flatMap fun p => frame p.1 p.2

/-- The beginning of a frame of one of the messages, short of the whole; or nothing. -/
def Truncated (ms : List Message) (tail : List Byte) : Prop :=
  tail = [] ∨ ∃ pMAC m, m ∈ ms ∧ tail <+: frame pMAC m ∧ tail ≠ frame pMAC m

/-- Complete frames only. -/
def Whole (ms : List Message) (bytes : List Byte) : Prop :=
  ∃ frames, FramesOf ms frames ∧ bytes = frameBytes frames

/-- Complete frames, and at most one cut short at the very end. -/
def Framed (ms : List Message) (bytes : List Byte) : Prop :=
  ∃ frames tail, FramesOf ms frames ∧ Truncated ms tail ∧ bytes = frameBytes frames ++ tail

theorem Whole.framed {bytes : List Byte} (h : Whole ms bytes) : Framed ms bytes := by
  obtain ⟨frames, hframes, rfl⟩ := h
  exact ⟨frames, [], hframes, .inl rfl, (List.append_nil _).symm⟩

theorem whole_nil : Whole ms [] := ⟨[], ⟨fun _ h => by cases h⟩, rfl⟩

/-- A complete frame keeps the bytes whole. -/
theorem Whole.append {bytes : List Byte} (h : Whole ms bytes) {m : Message} (hm : m ∈ ms)
    (pMAC : Bytes 6) : Whole ms (bytes ++ frame pMAC m) := by
  obtain ⟨frames, hframes, rfl⟩ := h
  refine ⟨frames ++ [(pMAC, m)], ⟨fun p hp => ?_⟩, ?_⟩
  · rcases List.mem_append.mp hp with hold | hnew
    · exact hframes.mem p hold
    · rw [List.mem_singleton.mp hnew]
      exact hm
  · simp [frameBytes]

/-- A frame cut short ends them. -/
theorem Whole.append_truncated {bytes : List Byte} (h : Whole ms bytes) {m : Message}
    (hm : m ∈ ms) (pMAC : Bytes 6) {n : Nat} (hn : n < (frame pMAC m).length) :
    Framed ms (bytes ++ (frame pMAC m).take n) := by
  obtain ⟨frames, hframes, rfl⟩ := h
  refine ⟨frames, _, hframes, .inr ⟨pMAC, m, hm, List.take_prefix n _, fun heq => ?_⟩, rfl⟩
  have hlen := congrArg List.length heq
  rw [List.length_take] at hlen
  omega

/-! ## One step -/

/-- A step that writes frames only, and nothing behind a frame cut short. -/
structure Allowed (ms : List Message) (w : Wire) (a : Label) : Prop where
  frame : ∀ m bytes n, a = .write m bytes n → m ∈ ms ∧ ∃ pMAC, bytes = frame pMAC m
  uncut : a.sends = true → w.cut = false

/-- Every connection carries complete frames up to one cut short at its end, and only
complete ones on the latest unless a frame was cut short there. -/
structure WireInv (ms : List Message) (w : Wire) : Prop where
  framed : ∀ bytes ∈ w.streams, Framed ms bytes
  whole : ∀ bytes, w.streams.head? = some bytes → w.cut = false → Whole ms bytes

/-- The invariant, in terms of the latest connection. -/
theorem WireInv.of_latest {latest : List Byte} {earlier : List (List Byte)} {cut : Bool}
    (hearlier : ∀ bytes ∈ earlier, Framed ms bytes) (hframed : Framed ms latest)
    (hwhole : cut = false → Whole ms latest) : WireInv ms ⟨latest :: earlier, cut⟩ where
  framed := List.forall_mem_cons.mpr ⟨hframed, hearlier⟩
  whole bytes hhead hcut := by
    rw [← Option.some.inj hhead]
    exact hwhole hcut

/-- A write that sends nothing leaves the wire as it is. -/
theorem next_write_nothing (w : Wire) (m : Message) (bytes : List Byte) {n : Int}
    (hn : ¬ 0 < n) : w.next (.write m bytes n) = w := by
  rcases w with ⟨streams, cut⟩
  cases streams with
  | nil => rfl
  | cons stream earlier =>
      have hnone : n.toNat = 0 := by omega
      simp [Wire.next, hn, hnone]

theorem WireInv.write (h : WireInv ms w) {m : Message} (hm : m ∈ ms) (pMAC : Bytes 6)
    {n : Int} (huncut : 0 < n → w.cut = false) :
    WireInv ms (w.next (.write m (frame pMAC m) n)) := by
  by_cases hpos : 0 < n
  · have hcut := huncut hpos
    rcases w with ⟨streams, cut⟩
    cases streams with
    | nil => exact h
    | cons stream earlier =>
        have hearlier : ∀ bytes ∈ earlier, Framed ms bytes :=
          fun bytes hb => h.framed bytes (List.mem_cons_of_mem stream hb)
        have hwhole : Whole ms stream := h.whole stream rfl hcut
        rcases Int.lt_or_le n (frame pMAC m).length with hshort | hall
        · -- the frame is cut short, and what is sent of it comes last
          have hlast := hwhole.append_truncated hm pMAC (n := n.toNat) (by omega)
          apply WireInv.of_latest hearlier hlast
          intro hfalse
          simp only [hpos, hshort, decide_true, Bool.and_true, Bool.or_true] at hfalse
          cases hfalse
        · have htake : (frame pMAC m).take n.toNat = frame pMAC m :=
            List.take_of_length_le (by omega)
          have hnext := hwhole.append hm pMAC
          rw [← htake] at hnext
          exact WireInv.of_latest hearlier hnext.framed fun _ => hnext
  · rw [next_write_nothing w m _ hpos]
    exact h

theorem WireInv.next (h : WireInv ms w) (ha : Allowed ms w a) : WireInv ms (w.next a) := by
  cases a with
  | write m bytes n =>
      rcases ha.frame m bytes n rfl with ⟨hm, pMAC, hbytes⟩
      subst hbytes
      exact h.write hm pMAC fun hpos => ha.uncut (decide_eq_true hpos)
  | connect connected =>
      cases connected with
      | false => exact h
      | true => exact WireInv.of_latest h.framed whole_nil.framed fun _ => whole_nil
  | internal | malloc | enqueue | socket | close => exact h

/-! ## Runs -/

theorem wireInv_of_allowed {done todo : List Label}
    (hallowed : ∀ before a after, done ++ todo = before ++ a :: after →
      Allowed ms (wire before) a) (h : WireInv ms (wire done)) :
    WireInv ms (wire (done ++ todo)) := by
  induction todo generalizing done with
  | nil =>
      rw [List.append_nil]
      exact h
  | cons a todo ih =>
      rw [List.append_cons] at hallowed ⊢
      have ha : Allowed ms (wire done) a := hallowed done a todo (List.append_cons _ _ _).symm
      refine ih hallowed ?_
      rw [wire_snoc]
      exact h.next ha

theorem mem_offeredIn {m : Message} {bytes : List Byte} {n : Int}
    (h : .write m bytes n ∈ labels) : m ∈ offeredIn labels :=
  List.mem_filterMap.mpr ⟨_, h, rfl⟩

/-- What the parser of the server makes of complete frames and one cut short. -/
theorem parseAll_of_framesOf {frames : List (Bytes 6 × Message)} {tail : List Byte}
    (hfit : ∀ m ∈ ms, m.pData.length ≤ 118) (hframes : FramesOf ms frames)
    (htail : Truncated ms tail) :
    parseAll parseFrame (frameBytes frames ++ tail) =
      (frames.map fun p => (p.1.val, p.2.pData), tail) := by
  have hshort : ∀ m ∈ ms, m.pData.length ≤ 249 :=
    fun m hm => Nat.le_trans (hfit m hm) (by decide)
  have hend : parseFrame tail = none := by
    rcases htail with rfl | ⟨pMAC, m, hm, hbefore, hne⟩
    · rfl
    · exact parseFrame_truncated (hshort m hm) hbefore hne
  exact parseAll_frames (fun p hp => hshort p.2 (hframes.mem p hp)) hend

/-- As long as nothing is sent behind a frame cut short, each connection carries
complete frames of messages and at most one cut short at its very end, and the parser
of the server reads just these frames (if the messages fit `pBuffer`). -/
theorem streams_framed (hrun : server.Run svrifStart labels s)
    (hcut : NothingBehindCut labels) :
    ∀ bytes ∈ (wire labels).streams, ∃ frames tail,
      FramesOf (offeredIn labels) frames ∧ Truncated (offeredIn labels) tail ∧
        bytes = frameBytes frames ++ tail ∧
        ((∀ m ∈ offeredIn labels, m.pData.length ≤ 118) →
          parseAll parseFrame bytes = (frames.map fun p => (p.1.val, p.2.pData), tail)) := by
  have hallowed : ∀ before a after, [] ++ labels = before ++ a :: after →
      Allowed (offeredIn labels) (wire before) a := by
    intro before a after hsplit
    rw [List.nil_append] at hsplit
    constructor
    · intro m bytes n ha
      have hmem : .write m bytes n ∈ labels := by
        rw [hsplit, ha]
        simp
      exact ⟨mem_offeredIn hmem, framed_writes hrun m bytes n hmem⟩
    · rw [hsplit] at hcut
      exact hcut.split
  have hstart : WireInv (offeredIn labels) (wire []) := by
    constructor
    · intro bytes hbytes
      cases hbytes
    · intro bytes hhead _
      cases hhead
  have hinv := wireInv_of_allowed hallowed hstart
  rw [List.nil_append] at hinv
  intro bytes hbytes
  obtain ⟨frames, tail, hframes, htail, rfl⟩ := hinv.framed bytes hbytes
  exact ⟨frames, tail, hframes, htail, rfl,
    fun hfit => parseAll_of_framesOf hfit hframes htail⟩

/-- A frame cut short as the last one of its connection. -/
theorem streams_framed_oneWrite :
    ∃ frames tail,
      FramesOf [oneByte] frames ∧ Truncated [oneByte] tail ∧
        (frame oneMAC oneByte).take 5 = frameBytes frames ++ tail ∧
        ((∀ m ∈ [oneByte], m.pData.length ≤ 118) →
          parseAll parseFrame ((frame oneMAC oneByte).take 5) =
            (frames.map fun p => (p.1.val, p.2.pData), tail)) :=
  streams_framed (run_oneWrite 5 (by decide)) (by decide) _ (by decide)

/-- One byte of a frame sent, and behind it the next frame. -/
def twoWrites : List Label :=
  [.malloc oneByte, .enqueue oneByte, .malloc oneByte, .enqueue oneByte, .internal,
    .socket true, .connect true, .internal, .internal,
    .write oneByte (frame oneMAC oneByte) 1, .internal, .internal, .internal,
    .write oneByte (frame oneMAC oneByte) 11]

/-- What is sent behind a frame cut short is no frame for the server. -/
theorem short_write_breaks_framing :
    ∃ labels s, server.Run svrifStart labels s ∧
      ∃ bytes ∈ (wire labels).streams, ¬ Framed (offeredIn labels) bytes := by
  refine ⟨twoWrites, _, .cons (.malloc svrifStart oneByte) <|
    .cons (.enqueue _ ⟨0, oneByte⟩ [] [] [] rfl rfl (by decide)) <|
    .cons (.malloc _ oneByte) <|
    .cons (.enqueue _ ⟨1, oneByte⟩ [] [] [⟨0, oneByte⟩] rfl rfl (by decide)) <|
    .cons (.linkUp _ rfl) <| .cons (.socket _ true rfl) <| .cons (.connect _ true rfl) <|
    .cons (.receive _ ⟨0, oneByte⟩ [⟨1, oneByte⟩] rfl rfl) <|
    .cons (.build _ ⟨0, oneByte⟩ oneMAC rfl) <|
    .cons (step_write_frame _ ⟨0, oneByte⟩ oneMAC (by decide)) <|
    .cons (.release _ ⟨0, oneByte⟩ 1 rfl) <|
    .cons (.receive _ ⟨1, oneByte⟩ [] rfl rfl) <|
    .cons (.build _ ⟨1, oneByte⟩ oneMAC rfl) <|
    .one (step_write_frame _ ⟨1, oneByte⟩ oneMAC (by decide)), ?_⟩
  have hstream : (wire twoWrites).streams = [0x58 :: frame oneMAC oneByte] := by decide
  refine ⟨0x58 :: frame oneMAC oneByte, by rw [hstream]; exact List.mem_singleton_self _, ?_⟩
  rintro ⟨frames, tail, _, htail, heq⟩
  -- the second byte is the `0x58` of the second frame, where a frame has `0x00`
  have hsecond : (frameBytes frames ++ tail)[1]? = some 0x58 := by
    rw [← heq]
    rfl
  cases frames with
  | cons p frames => exact absurd hsecond (by simp [frameBytes, frame])
  | nil =>
      rcases htail with rfl | ⟨pMAC, m, _, ⟨rest, hrest⟩, _⟩
      · cases heq
      · have htail : frameBytes [] ++ tail = tail := rfl
        rw [← heq] at htail
        rw [← htail] at hrest
        have hbyte := congrArg (fun bytes : List Byte => bytes[1]?) hrest
        exact absurd hbyte (by simp [frame])

end BillCounter.Server
