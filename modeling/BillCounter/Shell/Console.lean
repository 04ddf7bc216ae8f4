import BillCounter.Driver.Table
import BillCounter.Serial.Writers
import BillCounter.Shell.StoredStrings

/-!
# The console

What the shell sends while a line is read and worked on: the echo of its characters, what the
item says to it, and the text of the next prompt.  Each `SERIAL_putc`, `SERIAL_puts` and
`SERIAL_printf` is one call, with the text as it is formatted.
-/

namespace BillCounter.Shell

open BillCounter.Lib.RawBytes
open BillCounter.Lib.CString
open BillCounter.Driver
open BillCounter.Serial (WriterCall)
open BillCounter.Storage

/-! ## Formats -/

/-- `"%02x"`. -/
def hex02 (b : Byte) : List Byte := ((Nat.toDigits 16 b.toNat).leftpad 2 '0').map ascii

/-- `"%d"`, of what is not negative. -/
def decimalText (n : Nat) : List Byte := (Nat.toDigits 10 n).map ascii

/-- A conversion with a width. -/
def padded (width : Nat) (text : List Byte) : List Byte := text.leftpad width (ascii ' ')

/-- `"%02x-%02x-%02x-%02x-%02x-%02x"`. -/
def macText (pMAC : Bytes 6) : List Byte :=
  [ascii '-'].intercalate (pMAC.val.map hex02)

/-- What the `do` loop of `ip4addr_ntoa_r` stores in `inv`, which has room for three. -/
def invDigits : Nat → Byte → List Byte
  | 0, _ => []
  | room + 1, ap => (ascii '0' + ap % 10) :: if ap / 10 = 0 then [] else invDigits room (ap / 10)

/-- `*rp++ = c`, where `len` is how many characters are in `buf`. -/
def putChar (buflen : Nat) (buf : List Byte) (c : Byte) : Option (List Byte) :=
  if buflen ≤ buf.length then none else some (buf ++ [c])

/-- `ip4addr_ntoa_r`.  The NUL at its end goes over the last dot. -/
def ip4addrNtoaR (addr : BitVec 32) (buflen : Nat) : Option (List Byte) :=
  (((wordBytes 4 addr).flatMap fun ap => (invDigits 3 ap).reverse ++ [ascii '.']).foldlM
    (putChar buflen) []).map List.dropLast

/-- `IP4ADDR_STRLEN_MAX`. -/
def ip4addrStrlenMax : Nat := 16

/-- `ip4addr_ntoa`, as a string. -/
def ip4addrNtoa (addr : BitVec 32) : List Byte := (ip4addrNtoaR addr ip4addrStrlenMax).getD []

/-! ## Texts -/

def pInputPassword : List Byte := literal "Input Password : "

def pPrompt1 : List Byte := literal "Counter>> "

def pPrompt2 : List Byte :=
  literal "============ Main Menu ============\r\n\r\n" ++
  literal " 1. Set DHCP or Static IP .........\r\n\r\n" ++
  literal " 2. Set MAC Address ...............\r\n\r\n" ++
  literal " 3. Set Server IP Address .........\r\n\r\n" ++
  literal " 4. Set Server Port No ............\r\n\r\n" ++
  literal " 5. Select Counter Keeper .........\r\n\r\n" ++
  literal " d. Display Env....................\r\n\r\n" ++
  literal " f. New firmware Download..........\r\n\r\n" ++
  literal " p. Password Change ...............\r\n\r\n" ++
  literal " s. Serial Number Setting..........\r\n\r\n" ++
  literal " R. System Reset and Restart!......\r\n\r\n" ++
  literal " q. Test Quit and Out!.............\r\n\r\n" ++
  literal "===================================\r\n\r\n" ++
  literal "CVB_Test>> : "

def pNewLine : List Byte := literal "\r\n"

/-- What the texts say that is not in the configuration: `pBC->pInfo->pName`, and the welcome
message in front of the login. -/
structure Fixed where
  pName : List Byte
  welcome : List (List Byte)

/-- `xConfig.pSerialNumber` as a string. -/
def serialNumberString (xConfig : Config) (afterConfig : List Byte) : List Byte :=
  cString (xConfig.body.drop 32 ++ afterConfig)

def incorrectValue : WriterCall := .printf (literal "You hae entered an incorrect value\n")

/-- What a prompt asks, with the value it is about. -/
def ask (question value : List Byte) : WriterCall :=
  .printf (question ++ literal "(" ++ value ++ literal ") : ")

/-- What is sent in front of each `SHELL_getLine`. -/
def promptText (x : Fixed) (afterConfig : List Byte) (xConfig : Config) :
    Prompt → List WriterCall
  | .command => [.puts pPrompt1]
  | .password => x.welcome.map .printf ++ [.puts pInputPassword]
  | .menu => [.puts pPrompt2]
  | .ipMode => [.printf (literal "Set IP Mode (DHCP[0]/STATIC[1]) : ")]
  | .ipAddress => [ask (literal "IP Address") (ip4addrNtoa xConfig.xNet.xIPAddr)]
  | .netmask _ => [ask (literal "Subnet Mask") (ip4addrNtoa xConfig.xNet.xNetmask)]
  | .gateway _ _ => [ask (literal "Gateway IP Address") (ip4addrNtoa xConfig.xNet.xGatewayIPAddr)]
  | .confirmNetwork xIPAddr xNetmask xGatewayIPAddr =>
      [.printf (padded 16 (literal "Mode") ++ literal " : STATIC\n"),
       .printf (padded 16 (literal "IP Address") ++ literal " : " ++ ip4addrNtoa xIPAddr ++
         literal "\n"),
       .printf (padded 16 (literal "Netmask") ++ literal " : " ++ ip4addrNtoa xNetmask ++
         literal "\n"),
       .printf (padded 16 (literal "Gateway") ++ literal " : " ++ ip4addrNtoa xGatewayIPAddr ++
         literal "\n"),
       .printf (literal "Is the network setting you entered correct(y/n)? : ")]
  | .mac => [ask (literal "Set MAC") (macText xConfig.xNet.pMAC)]
  | .serverIP => [ask (literal "Set Server IP ") (ip4addrNtoa xConfig.xServer.xIPAddr)]
  | .confirmServerIP _ =>
      [.printf (literal "Is the server address you entered correct(y/n)? : ")]
  | .port => [ask (literal "Set Server Port ") (decimalText xConfig.xServer.nPort.toNat)]
  | .confirmPort _ => [.printf (literal "Is the server port you entered correct(y/n)? : ")]
  | .oldPassword => [.printf (padded 20 (literal "Old Password") ++ literal " : ")]
  | .newPassword => [.printf (padded 20 (literal "New Password") ++ literal " : ")]
  | .reenterPassword _ =>
      [.printf (padded 20 (literal "Re-enter New Password") ++ literal " : ")]
  | .serialNumber =>
      [ask (literal "Set Serial Number ") (serialNumberString xConfig afterConfig)]
  | .confirmSerial pSerialNumber =>
      [.printf (literal "Is the entered serial number[" ++ cString pSerialNumber.val ++
        literal "] correct(y/n)? : ")]
  | .restart => [.printf (literal "Do you want to restart(y/n)? : ")]
  | .quit => [.printf (literal "Do you want to quit(y/n)? : ")]
  | .stopped => []

/-- An entry of item `d`. -/
def envText (entry : String × EnvValue) : WriterCall :=
  let (name, value) := entry
  let name := padded 20 (literal name)
  match value with
  | .text pText => .printf (name ++ literal " : " ++ pText ++ literal "\n")
  | .address xIPAddr => .printf (name ++ literal " : " ++ ip4addrNtoa xIPAddr ++ literal "\n")
  | .mac pMAC => .printf (name ++ literal " : " ++ macText pMAC ++ literal "\n")
  | .number n =>
      let colon := if entry.1 = "Supported Models" then literal "  : " else literal " : "
      .printf (name ++ colon ++ decimalText n ++ literal "\n")
  | .model n pName =>
      .printf (name ++ literal "   " ++ padded 2 (decimalText n) ++ literal " - " ++ pName ++
        literal "\n")

/-- What an item says to a line, in front of `CONFIG_save`. -/
def reply (x : Fixed) (s : ShellState) (line : Line) : List WriterCall :=
  let o := handle s line
  match s.prompt with
  | .menu =>
      let (pInputLine, nLineLength) := shellGetLine s.pInputLine cmdMAX_INPUT_SIZE line.keys
      if nLineLength = 1 ∧ pInputLine.val.getD 0 0 = ascii 'd' then
        (displayEnv x.pName ((bcGetModelList 16).map BillCounterInfo.pName) line.afterConfig
          s.xConfig).map envText
      else []
  | .ipMode =>
      match o.next with
      | .menu true => [.printf (literal "IP Mode is DHCP\n")]
      | .menu false => [incorrectValue]
      | _ => []
  | .ipAddress | .netmask _ | .gateway _ _ =>
      if (shellGetIP 0 line).isNone then [incorrectValue] else []
  | .confirmNetwork _ _ _ =>
      if o.next = .menu true then
        [.printf (padded 16 (literal "Network settings have changed.") ++ literal " : STATIC\n")]
      else []
  | .mac =>
      if o.next = .menu true then
        [.printf (literal "The MAC changed to " ++ macText o.xConfig.xNet.pMAC ++ literal "\n")]
      else if (shellGetLine s.pInputLine cmdMAX_INPUT_SIZE line.keys).2 = 17 then []
      else [incorrectValue]
  | .serverIP => if o.next = .menu false then [incorrectValue] else []
  | .port =>
      if o.next = .menu false ∧
          (shellGetLine s.pInputLine cmdMAX_INPUT_SIZE line.keys).2 ≠ 0 then [incorrectValue]
      else []
  | .oldPassword =>
      if o.next = .menu false ∧
          (shellGetLine s.pInputLine cmdMAX_INPUT_SIZE line.keys).2 ≠ 0 then
        [.printf (literal "Password do net patch.")]
      else []
  | .reenterPassword _ =>
      if o.next = .menu true then [.printf (literal "Password has been changed.")]
      else if (shellGetLine s.pInputLine (cmdMAX_INPUT_SIZE - 1) line.keys).2 = 0 then []
      else [.printf (literal "New password do net patch.")]
  | .serialNumber => if o.next = .menu false then [incorrectValue] else []
  | .confirmSerial _ =>
      if o.next = .menu true then
        [.printf (literal "Serial Number : " ++ serialNumberString o.xConfig line.afterConfig ++
          literal "\n")]
      else []
  | _ => []

/-! ## The echo -/

/-- The prompts that are asked with `bSecure`. -/
def Prompt.secure : Prompt → Bool
  | .password | .newPassword | .reenterPassword _ => true
  | _ => false

/-- What `SHELL_getLine` sends back. -/
def echo (bSecure : Bool) (keys : List Byte) : List WriterCall :=
  (keys ++ [0x0A]).map (fun cRxedChar => .putc (if bSecure then ascii '*' else cRxedChar)) ++
    [.puts pNewLine]

/-- All that is sent from the first character of a line on until the next one can come. -/
def output (x : Fixed) (s : ShellState) (line : Line) : List WriterCall :=
  if s.prompt = .stopped then []
  else
    echo s.prompt.secure line.keys ++ reply x s line ++
      promptText x line.afterConfig (shellStep s line).xConfig (shellStep s line).prompt

/-- What a session sends. -/
def transcript (x : Fixed) : ShellState → List Line → List WriterCall
  | _, [] => []
  | s, line :: lines => output x s line ++ transcript x (shellStep s line) lines

end BillCounter.Shell
