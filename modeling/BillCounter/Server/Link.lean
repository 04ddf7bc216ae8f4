import BillCounter.Server.Delivery

/-!
# The link

`SVRIF_taskMain` goes by two flags of its `struct netif`: whether the interface is up, which
it sets itself, and whether the link is.  The latter is set by `ETH_lowLevelInit` if
`HAL_ETH_Init` succeeds.  Nothing calls `NETIF_setLink`, so it stays as it was at the start:
a device started without a cable never connects, and fills its queue.
-/

namespace BillCounter.Server

open BillCounter.Lib.Runs

/-! ## The flags -/

/-- The flags in front of the loop of `SVRIF_taskMain`; `netif_add` clears them. -/
def startFlags (initOk : Bool) : BitVec 8 := ethLowLevelInit initOk 0

theorem svrifNetif_flags (initOk : Bool) (o : DhcpOutcomes) (xConfig : Storage.Config) :
    (svrifNetif initOk o xConfig).map Netif.flags = some (startFlags initOk) := by
  rw [svrifNetif_eq]
  rfl

/-! ## The loop -/

/-- The server interface, with `xIF.flags`. -/
structure LinkState where
  server : ServerState
  flags : BitVec 8

/-- One step.  At the top of its loop `SVRIF_taskMain` does what the flags make it do. -/
inductive LinkStep : LinkState → Label → LinkState → Prop
  | setUp (s : LinkState) : s.server.client = .loop → s.flags &&& netifFlagUp = 0 →
      s.flags &&& netifFlagLinkUp ≠ 0 →
      LinkStep s .internal
        ⟨{ s.server with up := true, client := .socket }, s.flags ||| netifFlagUp⟩
  | waitLink (s : LinkState) : s.server.client = .loop → s.flags &&& netifFlagUp = 0 →
      s.flags &&& netifFlagLinkUp = 0 →
      LinkStep s .internal { s with server := { s.server with up := false, client := .delay } }
  | setDown (s : LinkState) : s.server.client = .loop → s.flags &&& netifFlagUp ≠ 0 →
      s.flags &&& netifFlagLinkUp = 0 →
      LinkStep s .internal
        ⟨{ s.server with up := false, client := .delay }, s.flags &&& ~~~netifFlagUp⟩
  | client (s : LinkState) : s.server.client = .loop → s.flags &&& netifFlagUp ≠ 0 →
      s.flags &&& netifFlagLinkUp ≠ 0 →
      LinkStep s .internal { s with server := { s.server with up := true, client := .socket } }
  | other (s : LinkState) (a : Label) (t : ServerState) : Step s.server a t →
      (s.server.client = .loop → t.client = .loop) →
      LinkStep s a { s with server := t }

/-- The interface behind `SVRIF_start` and `ETH_lowLevelInit`. -/
def linkStart (initOk : Bool) : LinkState := ⟨svrifStart, startFlags initOk⟩

/-- The server interface and its flags in use. -/
def link (initOk : Bool) : System LinkState Label where
  init s := s = linkStart initOk
  step := LinkStep

variable {s t : LinkState} {a : Label} {labels : List Label} {initOk : Bool}

/-- A step is one of the interface, with a link that goes up and down as it likes. -/
theorem step_of_linkStep (h : LinkStep s a t) : Step s.server a t.server := by
  cases h with
  | setUp hc | client hc => exact .linkUp _ hc
  | waitLink hc | setDown hc => exact .linkDown _ hc
  | other a t hstep => exact hstep

theorem server_run_of_link (hrun : (link initOk).Run (linkStart initOk) labels s) :
    server.Run svrifStart labels s.server := by
  refine hrun.history (I := fun as u => server.Run svrifStart as u.server) (.nil _) ?_
  intro as u a v hu hstep
  exact hu.snoc (step_of_linkStep hstep)

/-! ## With a link at the start -/

/-- The interface comes up in the first round of the loop, and stays so. -/
structure Linked (s : LinkState) : Prop where
  flags : s.flags = startFlags true ∨ s.flags = startFlags true ||| netifFlagUp
  up : s.server.client ≠ .loop → s.flags = startFlags true ||| netifFlagUp

theorem linked_step (h : LinkStep s a t) (hs : Linked s) : Linked t := by
  cases h with
  | setUp hc hup hlink =>
      have hflags : s.flags ||| netifFlagUp = startFlags true ||| netifFlagUp := by
        rcases hs.flags with h | h
        · rw [h]
        · rw [h]
          rfl
      exact ⟨.inr hflags, fun _ => hflags⟩
  | waitLink hc hup hlink | setDown hc hup hlink =>
      rcases hs.flags with h | h <;> rw [h] at hlink <;> exact absurd hlink (by decide)
  | client hc hup hlink =>
      have hflags := hs.flags.resolve_left fun h => hup (by rw [h]; rfl)
      exact ⟨.inr hflags, fun _ => hflags⟩
  | other a t hstep hloop => exact ⟨hs.flags, fun ht => hs.up fun hc => ht (hloop hc)⟩

/-! ## Without one -/

/-- A step of `SVRIF_client` on a socket. -/
def Label.onSocket : Label → Bool
  | .socket _ | .connect _ | .write _ _ _ | .close => true
  | _ => false

/-- The interface never comes up, and the messages stay where they are. -/
structure Unlinked (labels : List Label) (s : LinkState) : Prop where
  flags : s.flags = startFlags false
  client : s.server.client = .loop ∨ s.server.client = .delay
  quiet : ∀ a ∈ labels, a.onSocket = false
  queued : ∃ q, s.server.xMessageQ = some q ∧ q.length ≤ queueLength

theorem unlinked_step (h : LinkStep s a t) (hs : Unlinked labels s) :
    Unlinked (labels ++ [a]) t := by
  have hquiet : ∀ {b : Label}, b.onSocket = false → ∀ c ∈ labels ++ [b], c.onSocket = false := by
    intro b hb c hc
    rcases List.mem_append.mp hc with hold | hnew
    · exact hs.quiet c hold
    · rw [List.mem_singleton.mp hnew]
      exact hb
  cases h with
  | setUp hc hup hlink | client hc hup hlink =>
      rw [hs.flags] at hlink
      exact absurd rfl hlink
  | setDown hc hup hlink =>
      rw [hs.flags] at hup
      exact absurd rfl hup
  | waitLink => exact ⟨hs.flags, .inr rfl, hquiet rfl, hs.queued⟩
  | other a t hstep hloop =>
      cases hstep with
      | mallocFails | malloc | full | freeRefused =>
          exact ⟨hs.flags, hs.client, hquiet rfl, hs.queued⟩
      | enqueue pMsg before after q hsends hq hroom =>
          refine ⟨hs.flags, hs.client, hquiet rfl, q ++ [pMsg], rfl, ?_⟩
          rw [List.length_append]
          exact hroom
      | delay => exact ⟨hs.flags, .inl rfl, hquiet rfl, hs.queued⟩
      | linkUp hc => cases hloop hc
      | linkDown hc => cases hloop hc
      | timeout hc hq => exact ⟨hs.flags, hs.client, hquiet rfl, hs.queued⟩
      | socket _ hc | connect _ hc | receive _ _ hc | build _ _ hc | write _ _ _ hc
      | release _ _ hc | close hc =>
          -- the client is outside `SVRIF_client`
          rcases hs.client with h | h <;> cases hc.symm.trans h

theorem offeredIn_of_quiet (h : ∀ a ∈ labels, a.onSocket = false) : offeredIn labels = [] := by
  refine List.filterMap_eq_nil_iff.mpr fun a ha => ?_
  have hquiet := h a ha
  cases a <;> first
    | rfl
    | cases hquiet

/-- The link is looked at once.  If `HAL_ETH_Init` fails, then in every run nothing is done on a
socket, the first ten messages `xQueueSend` accepts are the only ones, and they stay on the
queue.  If it succeeds, the interface is up from the first round of the loop on and
`SVRIF_client` is called in each, whatever becomes of the cable. -/
theorem link_fixed_at_start (hrun : (link initOk).Run (linkStart initOk) labels s) :
    (initOk = false → (∀ a ∈ labels, a.onSocket = false) ∧
      s.server.queued = enqueuedIn labels ∧ (enqueuedIn labels).length ≤ 10) ∧
    (initOk = true → (s.flags = 0x0e ∨ s.flags = 0x0f) ∧
      (s.server.client ≠ .loop → s.flags = 0x0f) ∧
      ∀ a t, LinkStep s a t → s.server.client = .loop → t.server.client ≠ .loop →
        t.server.client = .socket ∧ t.flags = 0x0f) := by
  constructor
  · intro hinit
    subst hinit
    have hall : Unlinked labels s := by
      refine hrun.history ⟨rfl, .inl rfl, fun _ h => absurd h List.not_mem_nil, [], rfl, ?_⟩
        fun _ _ _ _ hu hstep => unlinked_step hstep hu
      exact Nat.zero_le _
    have hpending := offered_append_pending (server_run_of_link hrun)
    have hclient : s.server.client.toSend = [] := by
      rcases hall.client with h | h <;> rw [h] <;> rfl
    rw [offeredIn_of_quiet hall.quiet, List.nil_append, ServerState.pending, hclient,
      List.nil_append] at hpending
    obtain ⟨q, hq, hlen⟩ := hall.queued
    refine ⟨hall.quiet, hpending, ?_⟩
    rw [← hpending, ServerState.queued, hq, List.length_map]
    exact hlen
  · intro hinit
    subst hinit
    have hlinked : Linked s := by
      refine hrun.invariant (fun _ _ _ hu hstep => linked_step hstep hu) ⟨.inl rfl, ?_⟩
      exact fun h => absurd rfl h
    refine ⟨hlinked.flags, hlinked.up, fun a t hstep hc ht => ?_⟩
    have hflags := (linked_step hstep hlinked).up ht
    refine ⟨?_, hflags⟩
    cases hstep with
    | setUp | client => rfl
    | waitLink _ _ hlink | setDown _ _ hlink =>
        rcases hlinked.flags with h | h <;> rw [h] at hlink <;> exact absurd hlink (by decide)
    | other _ _ _ hloop => exact absurd (hloop hc) ht

/-- A message, without a cable. -/
def oneUnlinked : List Label := [.internal, .malloc oneByte, .enqueue oneByte]

theorem link_fixed_at_start_oneMessage :
    ∃ s : LinkState, (∀ a ∈ oneUnlinked, a.onSocket = false) ∧
      s.server.queued = enqueuedIn oneUnlinked ∧ (enqueuedIn oneUnlinked).length ≤ 10 := by
  have hrun : (link false).Run (linkStart false) oneUnlinked _ :=
    .cons (.waitLink _ rfl rfl rfl) <|
    .cons (.other _ _ _ (.malloc _ oneByte) fun h => h) <|
    .one (.other _ _ _ (.enqueue _ ⟨0, oneByte⟩ [] [] [] rfl rfl (by decide)) fun h => h)
  exact ⟨_, (link_fixed_at_start hrun).1 rfl⟩

end BillCounter.Server
