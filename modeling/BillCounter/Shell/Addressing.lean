import BillCounter.Server.Model
import BillCounter.Shell.Durability

/-!
# Where the address comes from

`xNet.bStatic` is set by item `1`, kept in flash, shown by item `d` and acted on by
`SVRIF_taskMain`.  Item `1` and the flash agree on what it means.  Item `d` shows the
other mode.  `SVRIF_taskMain` calls `dhcp_start` in either, while the interface is not up
yet, so that no client is started in any.
-/

namespace BillCounter.Shell

open BillCounter.Lib.RawBytes
open BillCounter.Lib.CString
open BillCounter.Lib.Runs
open BillCounter.Server
open BillCounter.Storage

variable {s : ShellState} {line : Line}

/-- The two modes item `1` offers. -/
inductive Mode
  | dhcp
  | static
deriving DecidableEq

/-- What `bStatic` says. -/
def modeOf (bStatic : BitVec 32) : Mode := if bStatic = 0 then .dhcp else .static

/-- What item `1` calls a mode. -/
def Mode.text : Mode → List Byte
  | .dhcp => literal "DHCP"
  | .static => literal "STATIC"

/-! ## Item `d` -/

/-- What an entry of item `d` has behind its colon. -/
inductive EnvValue
  | text (pText : List Byte)
  | address (xIPAddr : BitVec 32)
  | mac (pMAC : Bytes 6)
  | number (n : Nat)
  | model (n : Nat) (pName : List Byte)

/-- Item `d`, for a counter called `pName` and the models of `BC_GetModelList`. -/
def displayEnv (pName : List Byte) (pInfos : List (List Byte)) (afterConfig : List Byte)
    (xConfig : Config) : List (String × EnvValue) :=
  [("Model", .text pName),
   ("Serial Number", .text (cString (xConfig.body.drop 32 ++ afterConfig))),
   ("IP Mode", .text (literal (if xConfig.xNet.bStatic ≠ 0 then "DHCP" else "STATIC"))),
   ("IP Address", .address xConfig.xNet.xIPAddr),
   ("Netmask", .address xConfig.xNet.xNetmask),
   ("Gateway", .address xConfig.xNet.xGatewayIPAddr),
   ("MAC", .mac xConfig.xNet.pMAC),
   ("Server IP Address", .address xConfig.xServer.xIPAddr),
   ("Server Port", .number xConfig.xServer.nPort.toNat),
   ("F/W No", .text (literal "17.09.17.00")),
   ("Supported Models", .number pInfos.length)] ++
    pInfos.zipIdx.map fun p => ("", .model (p.2 + 1) p.1)

/-- Item `d` shows the mode `bStatic` does not stand for. -/
theorem displayEnv_mode (pName : List Byte) (pInfos : List (List Byte))
    (afterConfig : List Byte) (xConfig : Config) :
    (displayEnv pName pInfos afterConfig xConfig).lookup "IP Mode" =
      some (.text (literal (if xConfig.xNet.bStatic ≠ 0 then "DHCP" else "STATIC"))) := by
  simp [displayEnv, List.lookup_cons]

/-! ## Sessions and resets -/

/-- The mode a line chooses at a prompt it leads on from to `next`. -/
def chosenMode : Prompt → Next → Option Mode
  | .ipMode, .menu true => some .dhcp
  | .confirmNetwork _ _ _, .menu true => some .static
  | _, _ => none

/-- A board, and the mode it is to be in: the one last chosen, and before that the one
it was found in. -/
structure BoardState where
  shell : ShellState
  mode : Mode

inductive BoardLabel
  | line (line : Line)
  | reset (hal : HalOutcomes) (malloc : Option Config)

/-- A line, or a reset. -/
def boardStep (x : BoardState) : BoardLabel → BoardState
  | .line line =>
      ⟨shellStep x.shell line,
        (chosenMode x.shell.prompt (handle x.shell line).next).getD x.mode⟩
  | .reset hal malloc => ⟨boot hal malloc x.shell.flash, x.mode⟩

/-- A board that has just been switched on. -/
def boardStart (hal : HalOutcomes) (malloc : Option Config) (flash : FlashState) :
    BoardState :=
  ⟨boot hal malloc flash, modeOf (boot hal malloc flash).xConfig.xNet.bStatic⟩

def board : System BoardState BoardLabel :=
  .ofFun (fun x => ∃ hal malloc flash, x = boardStart hal malloc flash) boardStep

/-- The mode is stored, displayed, and applied at the next boot. -/
structure ModeAgreement (x : BoardState) : Prop where
  stored : modeOf x.shell.xConfig.xNet.bStatic = x.mode
  displayed : ∀ pName pInfos afterConfig,
    (displayEnv pName pInfos afterConfig x.shell.xConfig).lookup "IP Mode" =
      some (.text x.mode.text)
  applied : ∀ hal malloc initOk xIF,
    svrifNetif initOk .ok (boot hal malloc x.shell.flash).xConfig = some xIF →
      (xIF.dhcp = some .selecting ↔ x.mode = .dhcp) ∧
        (x.mode = .static →
          xIF.xIPAddr = x.shell.xConfig.xNet.xIPAddr ∧
          xIF.xNetmask = x.shell.xConfig.xNet.xNetmask ∧
          xIF.xGatewayIPAddr = x.shell.xConfig.xNet.xGatewayIPAddr)

/-! ## What item `1` does -/

/-- `bStatic` behind an outcome at `p`. -/
def SetsMode (p : Prompt) (c : Config) (o : Outcome) : Prop :=
  modeOf o.xConfig.xNet.bStatic = (chosenMode p o.next).getD (modeOf c.xNet.bStatic)

theorem addressPrompt_setsMode {p : Prompt} (s : ShellState) (line : Line) (pOldIP : BitVec 32)
    (ask : BitVec 32 → Prompt) (hask : ∀ a, chosenMode p (.ask (ask a)) = none)
    (hmenu : chosenMode p (.menu false) = none) :
    SetsMode p s.xConfig (addressPrompt s line pOldIP ask) := by
  unfold addressPrompt SetsMode
  split
  · rw [hmenu]
    rfl
  · rw [hask]
    rfl

theorem setsMode_ite {p : Prompt} {c : Config} {d : Prop} [Decidable d] {a b : Outcome}
    (ha : SetsMode p c a) (hb : SetsMode p c b) : SetsMode p c (if d then a else b) :=
  outcome_ite (SetsMode p c) ha hb

/-- Item `1` sets the mode that is chosen, and nothing else touches it. -/
theorem handle_setsMode (s : ShellState) (line : Line) :
    SetsMode s.prompt s.xConfig (handle s line) := by
  unfold handle
  cases s.prompt with
  | command => exact setsMode_ite rfl rfl
  | password => exact setsMode_ite rfl rfl
  | menu => exact setsMode_ite rfl rfl
  | ipMode => exact setsMode_ite rfl (setsMode_ite rfl rfl)
  | ipAddress => exact addressPrompt_setsMode _ _ _ _ (fun _ => rfl) rfl
  | netmask => exact addressPrompt_setsMode _ _ _ _ (fun _ => rfl) rfl
  | gateway => exact addressPrompt_setsMode _ _ _ _ (fun _ => rfl) rfl
  | confirmNetwork => exact setsMode_ite rfl rfl
  | mac => exact setsMode_ite rfl rfl
  | serverIP =>
      show SetsMode _ _ (serverIPPrompt s line)
      unfold serverIPPrompt
      dsimp only
      split <;> rfl
  | confirmServerIP => exact setsMode_ite rfl rfl
  | port =>
      refine setsMode_ite ?_ rfl
      split
      · exact setsMode_ite rfl rfl
      · rfl
  | confirmPort => exact setsMode_ite rfl rfl
  | oldPassword => exact setsMode_ite rfl (setsMode_ite rfl rfl)
  | newPassword => exact setsMode_ite rfl rfl
  | reenterPassword => exact setsMode_ite rfl (setsMode_ite rfl rfl)
  | serialNumber => exact setsMode_ite rfl rfl
  | confirmSerial => exact setsMode_ite rfl rfl
  | restart => exact setsMode_ite rfl rfl
  | quit => exact setsMode_ite rfl rfl
  | stopped => rfl

theorem shellStep_mode (s : ShellState) (line : Line) :
    modeOf (shellStep s line).xConfig.xNet.bStatic =
      (chosenMode s.prompt (handle s line).next).getD (modeOf s.xConfig.xNet.bStatic) := by
  have hsets := handle_setsMode s line
  by_cases hnext : (handle s line).next = .menu true
  · rw [shellStep_updated hnext]
    exact hsets
  · have hkeep := (handle_keeps s line).resolve_right hnext
    rw [(shellStep_kept hnext).1, ← hsets, hkeep]

/-! ## Whole runs -/

/-- Flash operations succeed in a step. -/
def BoardLabel.flashOk : BoardLabel → Prop
  | .line line => line.hal = .ok
  | .reset _ _ => True

/-- The mode is stored, in flash too. -/
structure ModeStored (x : BoardState) : Prop where
  mode : modeOf x.shell.xConfig.xNet.bStatic = x.mode
  durable : Durable x.shell.xConfig x.shell.flash

theorem modeStored_step {x : BoardState} {a : BoardLabel} (hok : a.flashOk)
    (h : ModeStored x) : ModeStored (boardStep x a) := by
  cases a with
  | line line =>
      have hmode := shellStep_mode x.shell line
      rw [h.mode] at hmode
      rw [boardStep]
      exact ⟨hmode, durable_shellStep hok h.durable⟩
  | reset hal malloc =>
      have hboot := h.durable.boot hal malloc
      have hmode := h.mode
      have hdurable := h.durable
      rw [← hboot.1] at hmode hdurable
      rw [boardStep]
      constructor
      · dsimp only
        exact hmode
      · rw [hboot.2]
        exact hdurable

/-- While flash operations succeed, the mode that was chosen last is the one stored,
over any lines and resets; and item `d` shows the other. -/
theorem mode_stored {malloc : Config} {flash : FlashState} {labels : List BoardLabel}
    {x : BoardState}
    (h : (board.restrict fun _ a => a.flashOk).Run (boardStart .ok (some malloc) flash)
      labels x) : ModeStored x := by
  apply h.invariant (I := ModeStored)
  · intro x a y hx hstep
    rcases hstep with ⟨hok, hxy⟩
    cases hxy
    exact modeStored_step hok hx
  · have hdurable := durable_boot malloc flash
    rw [boardStart]
    generalize boot .ok (some malloc) flash = s at hdurable ⊢
    exact ⟨rfl, hdurable⟩

/-- While flash operations succeed, the next boot applies the addresses that are stored, and
no client for DHCP: also in the mode that asks for one. -/
theorem static_applied {x : BoardState} (h : ModeStored x) (hal : HalOutcomes)
    (malloc : Option Config) (initOk : Bool) (o : DhcpOutcomes) :
    ∃ xIF, svrifNetif initOk o (boot hal malloc x.shell.flash).xConfig = some xIF ∧
      xIF.dhcp = none ∧
      xIF.xIPAddr = x.shell.xConfig.xNet.xIPAddr ∧
      xIF.xNetmask = x.shell.xConfig.xNet.xNetmask ∧
      xIF.xGatewayIPAddr = x.shell.xConfig.xNet.xGatewayIPAddr := by
  have hboot := (h.durable.boot hal malloc).1
  generalize boot hal malloc x.shell.flash = booted at hboot ⊢
  exact ⟨_, svrifNetif_eq initOk o booted.xConfig, rfl, by rw [hboot], by rw [hboot],
    by rw [hboot]⟩

/-- The text of the mode that is not displayed. -/
theorem text_ne_displayed (bStatic : BitVec 32) :
    (modeOf bStatic).text ≠ literal (if bStatic ≠ 0 then "DHCP" else "STATIC") := by
  by_cases hzero : bStatic = 0
  · rw [modeOf, if_pos hzero, if_neg (not_not_intro hzero)]
    decide
  · rw [modeOf, if_neg hzero, if_pos hzero]
    decide

theorem ModeAgreement.text_eq {x : BoardState} (h : ModeAgreement x) :
    x.mode.text = literal (if x.shell.xConfig.xNet.bStatic ≠ 0 then "DHCP" else "STATIC") := by
  have hdisplayed := h.displayed [] [] []
  rw [displayEnv_mode] at hdisplayed
  exact (EnvValue.text.inj (Option.some.inj hdisplayed)).symm

/-- No board is ever in a mode that is stored, displayed and applied: not behind any lines
and resets. -/
theorem modes_never_agree (hal : HalOutcomes) (malloc : Option Config) (flash : FlashState)
    (labels : List BoardLabel) :
    ¬ ModeAgreement (labels.foldl boardStep (boardStart hal malloc flash)) := by
  intro h
  have htext := h.text_eq
  rw [← h.stored] at htext
  exact text_ne_displayed _ htext

/-- DHCP is chosen, and item `d` shows `STATIC`. -/
theorem dhcp_shown_as_static :
    ∃ x, board.Reachable x ∧ x.mode = .dhcp ∧ ¬ ModeAgreement x := by
  let start := boardStart .ok (some zeroConfig) ⟨fun _ => 0xFF, true⟩
  let labels : List BoardLabel := [.line (.ofText "?" (by decide)),
    .line (.ofText "posudo" (by decide)), .line (.ofText "1" (by decide)),
    .line (.ofText "0" (by decide))]
  refine ⟨labels.foldl boardStep start, ⟨start, labels, ⟨_, _, _, rfl⟩,
    System.Run.ofFun_foldl start labels⟩, by decide +kernel, ?_⟩
  intro h
  exact absurd h.text_eq (by decide +kernel)

end BillCounter.Shell
