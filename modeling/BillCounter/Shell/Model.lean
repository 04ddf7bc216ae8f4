import BillCounter.Lib.Runs
import BillCounter.Shell.Address
import BillCounter.Shell.Line
import BillCounter.Storage.Model

/-!
# The configuration shell

`SHELL_main` waits at one of its prompts at any time, and takes one step for
each line it receives there.  The static `pInputLine`, `xConfig` and the flash
carry over from line to line; what a menu item has in its local variables is
kept in the prompt it waits at.  The texts the shell prints are left out.
-/

namespace BillCounter.Shell

open BillCounter.Lib.RawBytes
open BillCounter.Lib.CString
open BillCounter.Lib.Runs
open BillCounter.Storage

/-- `cmdMAX_INPUT_SIZE`. -/
def cmdMAX_INPUT_SIZE : Nat := 50

/-- `CONFIG_SERIAL_NUMBER_LEN`. -/
def CONFIG_SERIAL_NUMBER_LEN : Nat := 32

/-- The calls of `SHELL_getLine`, each with the local variables set by then.
`stopped` is behind the reset of the items `f` and `R`. -/
inductive Prompt
  | command
  | password
  | menu
  | ipMode
  | ipAddress
  | netmask (xIPAddr : BitVec 32)
  | gateway (xIPAddr xNetmask : BitVec 32)
  | confirmNetwork (xIPAddr xNetmask xGatewayIPAddr : BitVec 32)
  | mac
  | serverIP
  | confirmServerIP (xNewServerIP : BitVec 32)
  | port
  | confirmPort (nPort : BitVec 32)
  | oldPassword
  | newPassword
  | reenterPassword (pNewPasswd : Bytes 32)
  | serialNumber
  | confirmSerial (pSerialNumber : Bytes (CONFIG_SERIAL_NUMBER_LEN + 1))
  | restart
  | quit
  | stopped
deriving DecidableEq

/-- A line as it arrives: the characters before its `'\n'`.  With it comes what
the code does not decide: the memory behind `pInputLine` and behind `xConfig`,
and the outcome of the flash operations of a save. -/
structure Line where
  keys : List Byte
  newline : (0x0A : Byte) ∉ keys
  afterInputLine : List Byte
  afterConfig : List Byte
  hal : HalOutcomes

/-- A line of text, with every flash operation succeeding. -/
def Line.ofText (text : String) (h : (0x0A : Byte) ∉ literal text) : Line where
  keys := literal text
  newline := h
  afterInputLine := []
  afterConfig := []
  hal := .ok

/-- What carries over from line to line. -/
structure ShellState where
  pInputLine : Bytes cmdMAX_INPUT_SIZE
  xConfig : Config
  flash : FlashState
  prompt : Prompt

/-- Where the code goes after a line: to the next prompt of the item, to the end
of the switch with `bUpdatedConfig`, to the next round of the outer loop, or into
the reset. -/
inductive Next
  | ask (p : Prompt)
  | menu (bUpdatedConfig : Bool)
  | top
  | reset
deriving DecidableEq

structure Outcome where
  pInputLine : Bytes cmdMAX_INPUT_SIZE
  xConfig : Config
  next : Next

/-- `pInputLine` as the string functions see it. -/
def inputString (pInputLine : Bytes cmdMAX_INPUT_SIZE) (line : Line) : List Byte :=
  cString (pInputLine.val ++ line.afterInputLine)

/-- `xConfig.pPasswd` as `strcmp` sees it. -/
def passwdString (xConfig : Config) (line : Line) : List Byte :=
  cString (xConfig.body ++ line.afterConfig)

/-! ## Reading and checking what was entered -/

/-- `SHELL_getIP`. -/
def shellGetIP (pOldIP : BitVec 32) (line : Line) : Option (BitVec 32) :=
  let (pInput, nLineLength) := shellGetLine (.replicate 32 0 : Bytes 32) 31 line.keys
  if nLineLength = 0 then some pOldIP else ip4addrAton pInput.val

/-- The value of a hexadecimal digit. -/
def hexDigit (c : Byte) : Option Byte :=
  if inRange c (ascii '0') (ascii '9') then some (c - ascii '0')
  else if inRange c (ascii 'A') (ascii 'F') then some (c - ascii 'A' + 10)
  else if inRange c (ascii 'a') (ascii 'f') then some (c - ascii 'a' + 10)
  else none

/-- The variables of the loop over a MAC address. -/
structure MacScan where
  nValue : Byte
  pMAC : Bytes 6
  bInvalid : Bool

/-- Round `i` of that loop.  A character that is no digit leaves `nValue` as it
is. -/
def macStep (pInputLine : Bytes cmdMAX_INPUT_SIZE) (s : MacScan) (i : Nat) : MacScan :=
  if s.bInvalid then s
  else
    let c := pInputLine.val.getD i 0
    match i % 3 with
    | 0 => { s with nValue := ((hexDigit c).map fun d : Byte => d <<< 4).getD s.nValue }
    | 1 =>
        let nValue := ((hexDigit c).map (s.nValue ||| ·)).getD s.nValue
        { s with nValue := nValue, pMAC := store s.pMAC (i / 3) nValue }
    | _ => { s with bInvalid := c ≠ ascii '-' ∧ c ≠ ascii ':' }

/-- The loop over a line of 17 characters.  All of `pMAC` is written before it
is used. -/
def macScan (pInputLine : Bytes cmdMAX_INPUT_SIZE) : MacScan :=
  (List.range 17).foldl (macStep pInputLine) ⟨0, .replicate 6 0, false⟩

/-- The loop over the digits of a port, in `int`; `none` is `bInvalid`. -/
def portDigits (nPort : BitVec 32) : List Byte → Option (BitVec 32)
  | [] => some nPort
  | c :: cs =>
      if inRange c (ascii '0') (ascii '9') then
        portDigits (nPort * 10 + (c - ascii '0').setWidth 32) cs
      else none

/-- `(nLineLength == 1) && strcasecmp(pInputLine, "y")`. -/
def confirms (pInputLine : Bytes cmdMAX_INPUT_SIZE) (line : Line) (nLineLength : Nat) :
    Bool :=
  nLineLength == 1 && strcasecmp (inputString pInputLine line) (literal "y") != 0

/-! ## The prompts -/

/-- A (y/n) prompt of `ulMaxLength` characters, with what is done behind its
test. -/
def confirmPrompt (ulMaxLength : Nat) (s : ShellState) (line : Line)
    (commit : Bytes cmdMAX_INPUT_SIZE → Config) (next : Next) : Outcome :=
  let (pInputLine, nLineLength) := shellGetLine s.pInputLine ulMaxLength line.keys
  if confirms pInputLine line nLineLength then ⟨pInputLine, commit pInputLine, next⟩
  else ⟨pInputLine, s.xConfig, .menu false⟩

/-- One of the three addresses of item `1`. -/
def addressPrompt (s : ShellState) (line : Line) (pOldIP : BitVec 32)
    (ask : BitVec 32 → Prompt) : Outcome :=
  match shellGetIP pOldIP line with
  | none => ⟨s.pInputLine, s.xConfig, .menu false⟩
  | some pNewIP => ⟨s.pInputLine, s.xConfig, .ask (ask pNewIP)⟩

/-- The `switch`, up to the first line an item reads.  Item `d` only prints, and
`5` is not implemented. -/
def menuItem (c : Byte) : Next :=
  if c = ascii '1' then .ask .ipMode
  else if c = ascii '2' then .ask .mac
  else if c = ascii '3' then .ask .serverIP
  else if c = ascii '4' then .ask .port
  else if c = ascii 'f' then .reset
  else if c = ascii 'p' then .ask .oldPassword
  else if c = ascii 's' then .ask .serialNumber
  else if c = ascii 'R' then .ask .restart
  else if c = ascii 'Q' then .ask .quit
  else .menu false

def commandPrompt (s : ShellState) (line : Line) : Outcome :=
  let (pInputLine, nLineLength) := shellGetLine s.pInputLine cmdMAX_INPUT_SIZE line.keys
  if nLineLength = 1 ∧ pInputLine.val.getD 0 0 = ascii '?' then
    ⟨pInputLine, s.xConfig, .ask .password⟩
  else ⟨pInputLine, s.xConfig, .top⟩

def passwordPrompt (s : ShellState) (line : Line) : Outcome :=
  let pInputLine := (shellGetLine s.pInputLine cmdMAX_INPUT_SIZE line.keys).1
  if strcmp (inputString pInputLine line) (passwdString s.xConfig line) = 0 then
    ⟨pInputLine, s.xConfig, .menu false⟩
  else ⟨pInputLine, s.xConfig, .top⟩

def menuPrompt (s : ShellState) (line : Line) : Outcome :=
  let (pInputLine, nLineLength) := shellGetLine s.pInputLine cmdMAX_INPUT_SIZE line.keys
  if nLineLength ≠ 1 then ⟨pInputLine, s.xConfig, .menu false⟩
  else ⟨pInputLine, s.xConfig, menuItem (pInputLine.val.getD 0 0)⟩

def ipModePrompt (s : ShellState) (line : Line) : Outcome :=
  let (pInputLine, nLineLength) := shellGetLine s.pInputLine cmdMAX_INPUT_SIZE line.keys
  if nLineLength = 1 ∧ pInputLine.val.getD 0 0 = ascii '0' then
    ⟨pInputLine, { s.xConfig with xNet := { s.xConfig.xNet with bStatic := 0 } },
      .menu true⟩
  else if nLineLength = 1 ∧ pInputLine.val.getD 0 0 = ascii '1' then
    ⟨pInputLine, s.xConfig, .ask .ipAddress⟩
  else ⟨pInputLine, s.xConfig, .menu false⟩

def macPrompt (s : ShellState) (line : Line) : Outcome :=
  let (pInputLine, nLineLength) := shellGetLine s.pInputLine cmdMAX_INPUT_SIZE line.keys
  if nLineLength = 17 ∧ (macScan pInputLine).bInvalid = false then
    ⟨pInputLine,
      { s.xConfig with xNet := { s.xConfig.xNet with pMAC := (macScan pInputLine).pMAC } },
      .menu true⟩
  else ⟨pInputLine, s.xConfig, .menu false⟩

def serverIPPrompt (s : ShellState) (line : Line) : Outcome :=
  let pInputLine := (shellGetLine s.pInputLine cmdMAX_INPUT_SIZE line.keys).1
  match ip4addrAton (pInputLine.val ++ line.afterInputLine) with
  | some xNewServerIP => ⟨pInputLine, s.xConfig, .ask (.confirmServerIP xNewServerIP)⟩
  | none => ⟨pInputLine, s.xConfig, .menu false⟩

def portPrompt (s : ShellState) (line : Line) : Outcome :=
  let (pInputLine, nLineLength) := shellGetLine s.pInputLine cmdMAX_INPUT_SIZE line.keys
  if nLineLength ≠ 0 then
    match portDigits 0 (pInputLine.val.take nLineLength) with
    | some nPort =>
        if (0 : BitVec 32).slt nPort ∧ nPort.slt 65536 then
          ⟨pInputLine, s.xConfig, .ask (.confirmPort nPort)⟩
        else ⟨pInputLine, s.xConfig, .menu false⟩
    | none => ⟨pInputLine, s.xConfig, .menu false⟩
  else ⟨pInputLine, s.xConfig, .menu false⟩

def oldPasswordPrompt (s : ShellState) (line : Line) : Outcome :=
  let (pInputLine, nLineLength) := shellGetLine s.pInputLine cmdMAX_INPUT_SIZE line.keys
  if nLineLength = 0 then ⟨pInputLine, s.xConfig, .menu false⟩
  else if strcmp (passwdString s.xConfig line) (inputString pInputLine line) ≠ 0 then
    ⟨pInputLine, s.xConfig, .menu false⟩
  else ⟨pInputLine, s.xConfig, .ask .newPassword⟩

def newPasswordPrompt (s : ShellState) (line : Line) : Outcome :=
  let (pNewPasswd, nLineLength) := shellGetLine (.replicate 32 0 : Bytes 32) 31 line.keys
  if nLineLength = 0 then ⟨s.pInputLine, s.xConfig, .menu false⟩
  else ⟨s.pInputLine, s.xConfig, .ask (.reenterPassword pNewPasswd)⟩

def reenterPasswordPrompt (s : ShellState) (line : Line) (pNewPasswd : Bytes 32) :
    Outcome :=
  let (pInputLine, nLineLength) :=
    shellGetLine s.pInputLine (cmdMAX_INPUT_SIZE - 1) line.keys
  if nLineLength = 0 then ⟨pInputLine, s.xConfig, .menu false⟩
  else if strcmp (cString pNewPasswd.val) (inputString pInputLine line) ≠ 0 then
    ⟨pInputLine, s.xConfig, .menu false⟩
  else
    ⟨pInputLine,
      { s.xConfig with pPasswd := strcpy s.xConfig.pPasswd (cString pNewPasswd.val) },
      .menu true⟩

def serialNumberPrompt (s : ShellState) (line : Line) : Outcome :=
  let (pSerialNumber, nLineLength) :=
    shellGetLine (.replicate (CONFIG_SERIAL_NUMBER_LEN + 1) 0 :
      Bytes (CONFIG_SERIAL_NUMBER_LEN + 1)) CONFIG_SERIAL_NUMBER_LEN line.keys
  if 0 < nLineLength then ⟨s.pInputLine, s.xConfig, .ask (.confirmSerial pSerialNumber)⟩
  else ⟨s.pInputLine, s.xConfig, .menu false⟩

/-- One line at a prompt, up to the next `SHELL_getLine` or the end of the
switch. -/
def handle (s : ShellState) (line : Line) : Outcome :=
  match s.prompt with
  | .command => commandPrompt s line
  | .password => passwordPrompt s line
  | .menu => menuPrompt s line
  | .ipMode => ipModePrompt s line
  | .ipAddress => addressPrompt s line s.xConfig.xNet.xIPAddr .netmask
  | .netmask xIPAddr => addressPrompt s line s.xConfig.xNet.xNetmask (.gateway xIPAddr)
  | .gateway xIPAddr xNetmask =>
      addressPrompt s line s.xConfig.xNet.xGatewayIPAddr (.confirmNetwork xIPAddr xNetmask)
  | .confirmNetwork xIPAddr xNetmask xGatewayIPAddr =>
      confirmPrompt 1 s line
        (fun pInputLine => { s.xConfig with
          pSerialNumber := strncpy s.xConfig.pSerialNumber (inputString pInputLine line) 31
          xNet := { s.xConfig.xNet with
            bStatic := 1
            xIPAddr := xIPAddr
            xNetmask := xNetmask
            xGatewayIPAddr := xGatewayIPAddr } })
        (.menu true)
  | .mac => macPrompt s line
  | .serverIP => serverIPPrompt s line
  | .confirmServerIP xNewServerIP =>
      confirmPrompt 1 s line
        (fun _ => { s.xConfig with
          xServer := { s.xConfig.xServer with xIPAddr := xNewServerIP } })
        (.menu true)
  | .port => portPrompt s line
  | .confirmPort nPort =>
      confirmPrompt 16 s line
        (fun _ => { s.xConfig with
          xServer := { s.xConfig.xServer with nPort := nPort.setWidth 16 } })
        (.menu true)
  | .oldPassword => oldPasswordPrompt s line
  | .newPassword => newPasswordPrompt s line
  | .reenterPassword pNewPasswd => reenterPasswordPrompt s line pNewPasswd
  | .serialNumber => serialNumberPrompt s line
  | .confirmSerial pSerialNumber =>
      confirmPrompt 1 s line
        (fun _ => { s.xConfig with
          pSerialNumber := strncpy s.xConfig.pSerialNumber (cString pSerialNumber.val) 31 })
        (.menu true)
  | .restart => confirmPrompt 16 s line (fun _ => s.xConfig) .reset
  | .quit => confirmPrompt 16 s line (fun _ => s.xConfig) .top
  | .stopped => ⟨s.pInputLine, s.xConfig, .reset⟩

/-! ## Steps and sessions -/

/-- The way from the end of the switch, or from the middle of an item, to the next
`SHELL_getLine`.  `pInputLine` is cleared at the top of the outer loop only. -/
def resume (hal : HalOutcomes) (flash : FlashState) : Outcome → ShellState
  | ⟨pInputLine, xConfig, .ask p⟩ => ⟨pInputLine, xConfig, flash, p⟩
  | ⟨pInputLine, xConfig, .menu bUpdatedConfig⟩ =>
      if bUpdatedConfig then
        let saved := configSave hal xConfig flash
        ⟨pInputLine, saved.2.1, saved.2.2, .menu⟩
      else ⟨pInputLine, xConfig, flash, .menu⟩
  | ⟨_, xConfig, .top⟩ => ⟨.replicate cmdMAX_INPUT_SIZE 0, xConfig, flash, .command⟩
  | ⟨pInputLine, xConfig, .reset⟩ => ⟨pInputLine, xConfig, flash, .stopped⟩

/-- One line. -/
def shellStep (s : ShellState) (line : Line) : ShellState :=
  resume line.hal s.flash (handle s line)

/-- What `main` does with the configuration, up to the first prompt. -/
def boot (hal : HalOutcomes) (malloc : Option Config) (flash : FlashState) : ShellState :=
  let (_, flash) := configInit hal malloc flash
  let (_, xConfig) := configSetDefault zeroConfig
  let (_, xConfig) := configLoad xConfig flash
  ⟨.replicate cmdMAX_INPUT_SIZE 0, xConfig, flash, .command⟩

/-- The shell on a session of lines. -/
def shellRun (s : ShellState) (lines : List Line) : ShellState := lines.foldl shellStep s

end BillCounter.Shell
