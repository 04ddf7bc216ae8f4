import BillCounter.Lib.Runs
import BillCounter.Server.Frame
import BillCounter.Storage.Model

/-!
# The server interface

`SVRIF_send` may be called from any task, any number of times at once; each call
allocates a `MESSAGE`, fills it and hands it over on `xMessageQ`, a queue of ten
pointers.  `SVRIF_taskMain` watches the link and calls `SVRIF_client`, which takes
messages off the queue and writes them to a socket until a write fails.

FreeRTOS and lwIP are taken at their interface, as vendored.  An allocation, a socket
call and a connect succeed or fail, the link goes up and down, and the MAC address in
`xConfig` may change, all as they like.  `lwip_write` is `lwip_send` without flags, which
returns -1 or what `netconn_write_partly` has written: the whole length on a blocking
connection, less on any other.  `SVRIF_client` tells only the sign apart, so here a write
returns any value up to the length it was given.  `xQueueSend` and `xQueueReceive` are one
step each; so is everything a task does between two such calls.  A block is told apart from
every other ever allocated by its number.
-/

namespace BillCounter.Server

open BillCounter.Lib.RawBytes
open BillCounter.Lib.Runs
open BillCounter.Storage

/-! ## Start of the network -/

/-- `NETIF_FLAG_UP`. -/
def netifFlagUp : BitVec 8 := 0x01

/-- `NETIF_FLAG_BROADCAST`. -/
def netifFlagBroadcast : BitVec 8 := 0x02

/-- `NETIF_FLAG_LINK_UP`. -/
def netifFlagLinkUp : BitVec 8 := 0x04

/-- `NETIF_FLAG_ETHARP`. -/
def netifFlagEtharp : BitVec 8 := 0x08

/-- `DHCP_MAX_MSG_LEN_MIN_REQUIRED`. -/
def dhcpMaxMsgLenMinRequired : Nat := 576

/-- The `err_t` values that come up here. -/
inductive ErrT
  | ok
  | mem
  | arg
deriving DecidableEq

/-- The states of a DHCP client behind `dhcp_start`. -/
inductive DhcpState
  | off
  | selecting
deriving DecidableEq

/-- `struct netif`, as far as the start goes; `dhcp` is `netif_dhcp_data`. -/
structure Netif where
  xIPAddr : BitVec 32
  xNetmask : BitVec 32
  xGatewayIPAddr : BitVec 32
  flags : BitVec 8
  mtu : Nat
  hwaddr : Bytes 6
  dhcp : Option DhcpState

/-- `xIF` before `SVRIF_taskMain`. -/
def zeroNetif : Netif := ⟨0, 0, 0, 0, 0, .replicate 6 0, none⟩

/-- `netif_add`; `none` is `NULL`. -/
def netifAdd (netif : Netif) (ipaddr netmask gw : BitVec 32) (init : Netif → ErrT × Netif) :
    Option Netif :=
  let (err, netif) := init { netif with
    xIPAddr := ipaddr
    xNetmask := netmask
    xGatewayIPAddr := gw
    flags := 0
    dhcp := none }
  if err = .ok then some netif else none

/-- `NETIF_initCB`. -/
def netifInitCB (netif : Netif) : ErrT × Netif := (.ok, { netif with mtu := 1500 })

/-- `SVRIF_setFlags`. -/
def svrifSetFlags (flags xFlag : BitVec 8) : BitVec 8 := flags ||| xFlag

/-- `ETH_lowLevelInit`, as far as it sets flags; `initOk` is `HAL_ETH_Init(pETH) == HAL_OK`. -/
def ethLowLevelInit (initOk : Bool) (flags : BitVec 8) : BitVec 8 :=
  let flags := if initOk then svrifSetFlags flags netifFlagLinkUp else flags
  svrifSetFlags flags (netifFlagBroadcast ||| netifFlagEtharp)

/-- What `dhcp_start` depends on besides the interface: memory for the client, its UDP
control block, and a buffer for the first message. -/
structure DhcpOutcomes where
  malloc : Bool
  pcb : Bool
  discover : Bool

/-- All of it is there. -/
def DhcpOutcomes.ok : DhcpOutcomes := ⟨true, true, true⟩

/-- `dhcp_start`. -/
def dhcpStart (o : DhcpOutcomes) (netif : Netif) : ErrT × Netif :=
  if netif.flags &&& netifFlagUp = 0 then (.arg, netif)
  else if netif.mtu < dhcpMaxMsgLenMinRequired then (.mem, netif)
  else if netif.dhcp = none ∧ o.malloc = false then (.mem, netif)
  else if o.pcb = false then (.mem, { netif with dhcp := some .off })
  else if o.discover = false then (.mem, { netif with dhcp := some .off })
  else (.ok, { netif with dhcp := some .selecting })

/-- What `SVRIF_taskMain` does up to its loop; the task returns when `netif_add` gives
`NULL`.  The test of `bStatic` around `dhcp_start` is commented out, and what it returns is
not looked at. -/
def svrifNetif (initOk : Bool) (o : DhcpOutcomes) (xConfig : Config) : Option Netif :=
  (netifAdd zeroNetif xConfig.xNet.xIPAddr xConfig.xNet.xNetmask xConfig.xNet.xGatewayIPAddr
    netifInitCB).map fun xIF =>
      let xIF := { xIF with hwaddr := xConfig.xNet.pMAC }
      let xIF := { xIF with flags := ethLowLevelInit initOk xIF.flags }
      (dhcpStart o xIF).2

/-- An interface that is not up gets no DHCP client. -/
theorem dhcpStart_of_not_up {o : DhcpOutcomes} {netif : Netif}
    (h : netif.flags &&& netifFlagUp = 0) : dhcpStart o netif = (.arg, netif) :=
  if_pos h

theorem ethLowLevelInit_not_up {initOk : Bool} {flags : BitVec 8}
    (h : flags &&& netifFlagUp = 0) : ethLowLevelInit initOk flags &&& netifFlagUp = 0 := by
  revert h
  revert flags
  cases initOk <;> decide

/-- `dhcp_start` comes before `netif_set_up`, so the interface keeps the addresses it was
added with. -/
theorem svrifNetif_eq (initOk : Bool) (o : DhcpOutcomes) (xConfig : Config) :
    svrifNetif initOk o xConfig = some {
      xIPAddr := xConfig.xNet.xIPAddr
      xNetmask := xConfig.xNet.xNetmask
      xGatewayIPAddr := xConfig.xNet.xGatewayIPAddr
      flags := ethLowLevelInit initOk 0
      mtu := 1500
      hwaddr := xConfig.xNet.pMAC
      dhcp := none } := by
  have hup : ethLowLevelInit initOk 0 &&& netifFlagUp = 0 := ethLowLevelInit_not_up rfl
  exact congrArg (fun p : ErrT × Netif => some p.2) (dhcpStart_of_not_up hup)

/-! ## Tasks and messages -/

/-- A block of memory with a message in it. -/
structure Block where
  id : Nat
  message : Message

/-- The heap: how many blocks were ever allocated, and which were freed, in order. -/
structure Heap where
  allocated : Nat
  freed : List Nat

/-- `vPortFree`. -/
def Heap.free (h : Heap) (pMsg : Block) : Heap := { h with freed := h.freed ++ [pMsg.id] }

/-- A call of `SVRIF_send` in progress: before `xQueueSend`, or behind it with the
message refused. -/
inductive Send
  | sending (pMsg : Block)
  | refused (pMsg : Block)

/-- The length of `xMessageQ`. -/
def queueLength : Nat := 10

/-- Where `SVRIF_taskMain` is. -/
inductive ClientPoint
  /-- The top of its loop. -/
  | loop
  /-- `osDelay(1000)`. -/
  | delay
  /-- `lwip_socket`. -/
  | socket
  /-- `lwip_connect`. -/
  | connect
  /-- `xQueueReceive`. -/
  | receive
  /-- Behind `xQueueReceive`, with a message. -/
  | build (pMsg : Block)
  /-- `lwip_write`. -/
  | write (pMsg : Block) (nLen : Nat)
  /-- `vPortFree`, behind `lwip_write`. -/
  | release (pMsg : Block) (nSentLength : Int)
  /-- `lwip_close`. -/
  | close
  /-- Behind `osThreadTerminate`. -/
  | terminated

/-- The message `SVRIF_client` has taken off the queue. -/
def ClientPoint.holds : ClientPoint → List Block
  | .build pMsg => [pMsg]
  | .write pMsg _ => [pMsg]
  | .release pMsg _ => [pMsg]
  | _ => []

/-- `xMessageQ` is `none` once it is deleted. -/
structure ServerState where
  heap : Heap
  sends : List Send
  xMessageQ : Option (List Block)
  up : Bool
  pBuffer : Memory
  client : ClientPoint

/-- What happens. -/
inductive Label
  | internal
  /-- A call of `SVRIF_send` that got its memory. -/
  | malloc (m : Message)
  /-- `xQueueSend` accepts. -/
  | enqueue (m : Message)
  | socket (opened : Bool)
  | connect (connected : Bool)
  /-- `lwip_write` of `bytes`, the frame of `m`. -/
  | write (m : Message) (bytes : List Byte) (nSentLength : Int)
  | close

/-- One step of a call of `SVRIF_send`, or of `SVRIF_taskMain`. -/
inductive Step : ServerState → Label → ServerState → Prop
  | mallocFails (s : ServerState) : Step s .internal s
  | malloc (s : ServerState) (m : Message) :
      Step s (.malloc m)
        { s with
          heap := { s.heap with allocated := s.heap.allocated + 1 }
          sends := .sending ⟨s.heap.allocated, m⟩ :: s.sends }
  | enqueue (s : ServerState) (pMsg : Block) (before after : List Send) (q : List Block) :
      s.sends = before ++ .sending pMsg :: after → s.xMessageQ = some q →
      q.length < queueLength →
      Step s (.enqueue pMsg.message)
        { s with sends := before ++ after, xMessageQ := some (q ++ [pMsg]) }
  | full (s : ServerState) (pMsg : Block) (before after : List Send) (q : List Block) :
      s.sends = before ++ .sending pMsg :: after → s.xMessageQ = some q →
      ¬ q.length < queueLength →
      Step s .internal { s with sends := before ++ .refused pMsg :: after }
  | freeRefused (s : ServerState) (pMsg : Block) (before after : List Send) :
      s.sends = before ++ .refused pMsg :: after →
      Step s .internal { s with heap := s.heap.free pMsg, sends := before ++ after }
  | linkUp (s : ServerState) : s.client = .loop →
      Step s .internal { s with up := true, client := .socket }
  | linkDown (s : ServerState) : s.client = .loop →
      Step s .internal { s with up := false, client := .delay }
  | delay (s : ServerState) : s.client = .delay → Step s .internal { s with client := .loop }
  | socket (s : ServerState) (opened : Bool) : s.client = .socket →
      Step s (.socket opened) { s with client := if opened then .connect else .delay }
  | connect (s : ServerState) (connected : Bool) : s.client = .connect →
      Step s (.connect connected) { s with client := if connected then .receive else .delay }
  | timeout (s : ServerState) : s.client = .receive → s.xMessageQ = some [] →
      Step s .internal s
  | receive (s : ServerState) (pMsg : Block) (q : List Block) : s.client = .receive →
      s.xMessageQ = some (pMsg :: q) →
      Step s .internal { s with xMessageQ := some q, client := .build pMsg }
  | build (s : ServerState) (pMsg : Block) (pMAC : Bytes 6) : s.client = .build pMsg →
      Step s .internal
        { s with
          pBuffer := (buildFrame pMAC pMsg.message s.pBuffer).pBuffer
          client := .write pMsg (buildFrame pMAC pMsg.message s.pBuffer).nLen }
  | write (s : ServerState) (pMsg : Block) (nLen : Nat) (nSentLength : Int) :
      s.client = .write pMsg nLen → nSentLength ≤ nLen →
      Step s (.write pMsg.message (read s.pBuffer 0 nLen) nSentLength)
        { s with client := .release pMsg nSentLength }
  | release (s : ServerState) (pMsg : Block) (nSentLength : Int) :
      s.client = .release pMsg nSentLength →
      Step s .internal
        { s with
          heap := s.heap.free pMsg
          client := if nSentLength < 0 then .close else .receive }
  | close (s : ServerState) : s.client = .close → Step s .close { s with client := .delay }

/-- The interface behind `SVRIF_start`. -/
def svrifStart : ServerState where
  heap := ⟨0, []⟩
  sends := []
  xMessageQ := some []
  up := false
  pBuffer := fun _ => 0
  client := .loop

/-- The server interface in use. -/
def server : System ServerState Label where
  init s := s = svrifStart
  step := Step

end BillCounter.Server
