import BillCounter.Server.Stream
import Mathlib.Data.List.Basic

/-!
# What the server has read

The server reads the connections one behind the other, each up to a frame cut short.  What it
has read then are the messages whose frames `lwip_write` accepted completely: each once, in
order, and none of them lost behind a frame cut short, as long as nothing is sent there.
-/

namespace BillCounter.Server

open BillCounter.Lib.Framing
open BillCounter.Lib.RawBytes
open BillCounter.Lib.Runs

variable {s t : ServerState} {a : Label} {labels : List Label}

/-! ## Connections -/

/-- A connection: the frames sent on it completely, and what was sent of another. -/
structure Connection where
  frames : List (Bytes 6 × Message)
  tail : List Byte

/-- The bytes of a connection. -/
def Connection.bytes (c : Connection) : List Byte := frameBytes c.frames ++ c.tail

/-- The messages of a connection. -/
def Connection.messages (c : Connection) : List Message := c.frames.map Prod.snd

/-- A connection behind one more frame. -/
def Connection.push (c : Connection) (pMAC : Bytes 6) (m : Message) : Connection :=
  { c with frames := c.frames ++ [(pMAC, m)] }

theorem bytes_push {c : Connection} (h : c.tail = []) (pMAC : Bytes 6) (m : Message) :
    (c.push pMAC m).bytes = c.bytes ++ frame pMAC m := by
  simp [Connection.push, Connection.bytes, frameBytes, h]

theorem messages_push (c : Connection) (pMAC : Bytes 6) (m : Message) :
    (c.push pMAC m).messages = c.messages ++ [m] := by
  simp [Connection.push, Connection.messages]

/-- The client has a connection. -/
def ClientPoint.connected : ClientPoint → Bool
  | .receive | .build _ | .write _ _ | .release _ _ | .close => true
  | _ => false

/-- The connections of a run, the latest first: what was sent on them, and that their frames
are the ones accepted. -/
structure Carried (labels : List Label) (s : ServerState) (cs : List Connection) : Prop where
  streams : (wire labels).streams = cs.map Connection.bytes
  tails : ∀ c ∈ cs, Truncated (offeredIn labels) c.tail
  uncut : (wire labels).cut = false → ∀ c ∈ cs.head?, c.tail = []
  accepted : cs.reverse.flatMap Connection.messages = acceptedIn labels
  connected : s.client.connected = true → cs ≠ []

/-! ## One step -/

theorem NothingBehindCut.of_snoc (h : NothingBehindCut (labels ++ [a])) :
    NothingBehindCut labels ∧ (a.sends = true → (wire labels).cut = false) := by
  have hlast : NothingBehindCut (labels ++ a :: []) := h
  refine ⟨fun i hi hsends => ?_, fun ha => hlast.split ha⟩
  have hcut := h i (by rw [List.length_append]; omega)
  rw [List.getElem_append_left hi, List.take_append_of_le_length (Nat.le_of_lt hi)] at hcut
  exact hcut hsends

theorem Truncated.mono {ms ms' : List Message} {tail : List Byte} (h : Truncated ms tail)
    (hsub : ms ⊆ ms') : Truncated ms' tail := by
  rcases h with hnil | ⟨pMAC, m, hm, hbefore, hne⟩
  · exact .inl hnil
  · exact .inr ⟨pMAC, m, hsub hm, hbefore, hne⟩

theorem offeredIn_subset_snoc (labels : List Label) (a : Label) :
    offeredIn labels ⊆ offeredIn (labels ++ [a]) := by
  rw [offeredIn_snoc]
  exact List.subset_append_left _ _

@[simp] theorem acceptedIn_snoc (labels : List Label) (a : Label) :
    acceptedIn (labels ++ [a]) = acceptedIn labels ++ a.accepted.toList := by
  rw [acceptedIn, List.filterMap_append, ← acceptedIn]
  cases a <;> rfl

/-- A step that leaves the wire alone. -/
theorem Carried.quiet {cs : List Connection} (h : Carried labels s cs)
    (hwire : (wire labels).next a = wire labels) (haccepted : a.accepted = none)
    (hconnected : t.client.connected = true → cs ≠ []) : Carried (labels ++ [a]) t cs where
  streams := by rw [wire_snoc, hwire, h.streams]
  tails c hc := (h.tails c hc).mono (offeredIn_subset_snoc labels a)
  uncut hcut := h.uncut (by rwa [wire_snoc, hwire] at hcut)
  accepted := by rw [acceptedIn_snoc, haccepted, h.accepted]; simp
  connected := hconnected

/-- A new connection. -/
theorem Carried.connect {cs : List Connection} (h : Carried labels s cs) :
    Carried (labels ++ [.connect true]) t (⟨[], []⟩ :: cs) where
  streams := by rw [wire_snoc, Wire.next, h.streams]; rfl
  tails := by
    intro c hc
    rcases List.mem_cons.mp hc with rfl | hc
    · exact .inl rfl
    · exact (h.tails c hc).mono (offeredIn_subset_snoc labels _)
  uncut _ := by simp
  accepted := by
    have hrest := h.accepted
    rw [acceptedIn_snoc, List.reverse_cons, List.flatMap_append, hrest]
    rfl
  connected _ := List.cons_ne_nil _ _

/-- A write of a frame, on a connection that carries complete frames so far. -/
theorem Carried.write {c : Connection} {cs : List Connection} (h : Carried labels s (c :: cs))
    {m : Message} {pMAC : Bytes 6} {n : Int} (hpos : 0 < n)
    (hle : n ≤ (frame pMAC m).length) (hcut : (wire labels).cut = false) :
    ∃ c', Carried (labels ++ [.write m (frame pMAC m) n]) t (c' :: cs) := by
  have htail : c.tail = [] := h.uncut hcut c rfl
  have hwire : wire labels = ⟨c.bytes :: cs.map Connection.bytes, false⟩ := by
    rw [← hcut, ← List.map_cons, ← h.streams]
  have htails : ∀ d ∈ cs, Truncated (offeredIn (labels ++ [.write m (frame pMAC m) n])) d.tail :=
    fun d hd => (h.tails d (List.mem_cons_of_mem c hd)).mono (offeredIn_subset_snoc labels _)
  have hoffered : m ∈ offeredIn (labels ++ [.write m (frame pMAC m) n]) := by
    rw [offeredIn_snoc]
    exact List.mem_append_right _ List.mem_cons_self
  rcases Int.lt_or_eq_of_le hle with hshort | rfl
  · -- the frame is cut short: it is the new tail
    refine ⟨{ c with tail := (frame pMAC m).take n.toNat }, ?_, ?_, ?_, ?_, ?_⟩
    · rw [wire_snoc, hwire]
      simp [Wire.next, Connection.bytes, htail]
    · refine List.forall_mem_cons.mpr ⟨?_, htails⟩
      refine .inr ⟨pMAC, m, hoffered, List.take_prefix _ _, fun heq => ?_⟩
      have hlen := congrArg List.length heq
      rw [List.length_take] at hlen
      omega
    · intro hfalse
      rw [wire_snoc, hwire] at hfalse
      simp only [Wire.next, hpos, hshort, decide_true, Bool.and_true, Bool.or_true] at hfalse
      cases hfalse
    · have hnone : (Label.write m (frame pMAC m) n).accepted = none := if_neg (by omega)
      rw [acceptedIn_snoc, hnone, ← h.accepted]
      simp [Connection.messages]
    · exact fun _ => List.cons_ne_nil _ _
  · refine ⟨c.push pMAC m, ?_, ?_, ?_, ?_, ?_⟩
    · rw [wire_snoc, hwire, List.map_cons, bytes_push htail, Wire.next, Int.toNat_natCast,
        List.take_length]
    · exact List.forall_mem_cons.mpr ⟨.inl htail, htails⟩
    · intro _ d hd
      cases hd
      exact htail
    · rw [acceptedIn_snoc, ← h.accepted, List.reverse_cons, List.reverse_cons,
        List.flatMap_append, List.flatMap_append, List.flatMap_singleton,
        List.flatMap_singleton, messages_push, List.append_assoc]
      simp [Label.accepted]
    · exact fun _ => List.cons_ne_nil _ _

theorem carried_step {cs : List Connection} (h : Step s a t) (hframing : Framing s)
    (hs : Carried labels s cs) (hcut : a.sends = true → (wire labels).cut = false) :
    ∃ cs', Carried (labels ++ [a]) t cs' := by
  cases h with
  | mallocFails | malloc | enqueue | full | freeRefused | timeout =>
      exact ⟨cs, hs.quiet rfl rfl hs.connected⟩
  | linkUp | linkDown | delay | close => exact ⟨cs, hs.quiet rfl rfl nofun⟩
  | socket opened hc =>
      refine ⟨cs, hs.quiet (by cases opened <;> rfl) rfl fun hconnected => ?_⟩
      cases opened <;> cases hconnected
  | connect connected hc =>
      cases connected with
      | false => exact ⟨cs, hs.quiet rfl rfl nofun⟩
      | true => exact ⟨_, hs.connect⟩
  | receive pMsg q hc hq | build pMsg pMAC hc =>
      exact ⟨cs, hs.quiet rfl rfl fun _ => hs.connected (by rw [hc]; rfl)⟩
  | release pMsg nSentLength hc =>
      exact ⟨cs, hs.quiet rfl rfl fun _ => hs.connected (by rw [hc]; rfl)⟩
  | write pMsg nLen n hc hle =>
      have hne := hs.connected (by rw [hc]; rfl)
      obtain ⟨pMAC, hframe⟩ := hframing pMsg nLen hc
      have hlen : (frame pMAC pMsg.message).length = nLen := by rw [← hframe, length_read]
      rw [hframe] at hcut ⊢
      by_cases hpos : 0 < n
      · obtain ⟨c, rest, rfl⟩ := List.exists_cons_of_ne_nil hne
        obtain ⟨c', hc'⟩ := hs.write (t := { s with client := .release pMsg n }) hpos
          (by rw [hlen]; exact hle) (hcut (decide_eq_true hpos))
        exact ⟨_, hc'⟩
      · refine ⟨cs, hs.quiet (next_write_nothing _ _ _ hpos) (if_neg ?_) fun _ => hne⟩
        rw [length_frame]
        omega

/-! ## Runs -/

theorem carried (hrun : server.Run svrifStart labels s) (hcut : NothingBehindCut labels) :
    ∃ cs, Carried labels s cs := by
  have hall : Framing s ∧ (NothingBehindCut labels → ∃ cs, Carried labels s cs) := by
    refine hrun.history (I := fun as u => Framing u ∧
      (NothingBehindCut as → ∃ cs, Carried as u cs)) ?_ ?_
    · refine ⟨framing_of_ne fun _ _ => by simp [svrifStart], fun _ => ⟨[], rfl, ?_, ?_, rfl, ?_⟩⟩
      · exact fun c hc => absurd hc List.not_mem_nil
      · intro _ c hc
        cases hc
      · intro hconnected
        cases hconnected
    · intro as u a v hu hstep
      refine ⟨framing_step hstep hu.1, fun hall => ?_⟩
      obtain ⟨hbefore, hlast⟩ := hall.of_snoc
      obtain ⟨cs, hcs⟩ := hu.2 hbefore
      exact carried_step hstep hu.1 hcs hlast
  exact hall.2 hcut

/-- The payloads the parser of the server reads on a connection. -/
def payloads (bytes : List Byte) : List (List Byte) :=
  (parseAll parseFrame bytes).1.map Prod.snd

/-- The payloads it reads on all connections, in order. -/
def readByServer (labels : List Label) : List (List Byte) :=
  (wire labels).streams.reverse.flatMap payloads

theorem payloads_bytes {ms : List Message} (hfit : ∀ m ∈ ms, m.pData.length ≤ 118)
    {c : Connection} (hframes : FramesOf ms c.frames) (htail : Truncated ms c.tail) :
    payloads c.bytes = c.messages.map Message.pData := by
  rw [payloads, Connection.bytes, parseAll_of_framesOf hfit hframes htail, Connection.messages,
    List.map_map, List.map_map]
  rfl

/-- What the server has read are the messages accepted. -/
theorem readByServer_eq_accepted (hrun : server.Run svrifStart labels s)
    (hcut : NothingBehindCut labels) (hfit : ∀ m ∈ offeredIn labels, m.pData.length ≤ 118) :
    readByServer labels = (acceptedIn labels).map Message.pData := by
  obtain ⟨cs, hcs⟩ := carried hrun hcut
  have hsub := filterMap_sublist accepted_eq labels
  have hframes : ∀ c ∈ cs, FramesOf (offeredIn labels) c.frames := by
    refine fun c hc => ⟨fun p hp => hsub.mem ?_⟩
    rw [← acceptedIn, ← hcs.accepted]
    exact List.mem_flatMap.mpr ⟨c, List.mem_reverse.mpr hc, List.mem_map_of_mem hp⟩
  have hread : ∀ c ∈ cs.reverse, payloads c.bytes = c.messages.map Message.pData := fun c hc =>
    payloads_bytes hfit (hframes c (List.mem_reverse.mp hc)) (hcs.tails c (List.mem_reverse.mp hc))
  rw [readByServer, hcs.streams, ← hcs.accepted, ← List.map_reverse, List.flatMap_map,
    List.map_flatMap]
  exact List.flatMap_congr hread

end BillCounter.Server
