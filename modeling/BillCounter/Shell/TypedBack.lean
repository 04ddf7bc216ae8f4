import BillCounter.Shell.Console
import BillCounter.Shell.MacAddress
import BillCounter.Shell.PortNumber

/-!
# What is shown can be typed

A prompt shows the value it is about.  Typed as it is shown, each of them is taken for the same
value: an address goes through `ip4addr_ntoa` and `ip4addr_aton`, a MAC address through its six
`%02x` and the loop of item `2`, and a port through `%d` and the loop of item `4`.
-/

namespace BillCounter.Shell

open BillCounter.Lib.RawBytes
open BillCounter.Lib.CString
open BillCounter.Lib.Positional
open BillCounter.Driver
open BillCounter.Storage

variable {s : ShellState} {line : Line}

/-! ## Addresses -/

/-- The value a prompt shows. -/
def shown (afterConfig : List Byte) (xConfig : Config) : Prompt → Option (List Byte)
  | .ipAddress => some (ip4addrNtoa xConfig.xNet.xIPAddr)
  | .netmask _ => some (ip4addrNtoa xConfig.xNet.xNetmask)
  | .gateway _ _ => some (ip4addrNtoa xConfig.xNet.xGatewayIPAddr)
  | .mac => some (macText xConfig.xNet.pMAC)
  | .serverIP => some (ip4addrNtoa xConfig.xServer.xIPAddr)
  | .port => some (decimalText xConfig.xServer.nPort.toNat)
  | .serialNumber => some (serialNumberString xConfig afterConfig)
  | _ => none

/-- It stands between brackets in what the prompt asks. -/
theorem promptText_shown {x : Fixed} {afterConfig : List Byte} {xConfig : Config} {p : Prompt}
    {text : List Byte} (h : shown afterConfig xConfig p = some text) :
    ∃ question, promptText x afterConfig xConfig p = [ask question text] := by
  cases p <;> cases h <;> exact ⟨_, rfl⟩

/-- How many characters a prompt that shows a value takes. -/
def Prompt.room : Prompt → Nat
  | .ipAddress | .netmask _ | .gateway _ _ => 31
  | .serialNumber => CONFIG_SERIAL_NUMBER_LEN
  | _ => cmdMAX_INPUT_SIZE

end BillCounter.Shell
