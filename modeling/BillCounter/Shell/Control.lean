import BillCounter.Shell.Model
import BillCounter.Storage.Save

/-!
# What one line can do

The control flow of `SHELL_main` between its prompts, and what a step makes of
`xConfig`, `pInputLine` and the flash.  Later modules use these lemmas and do not
unfold the prompts again, but for the one they are about.
-/

namespace BillCounter.Shell

open BillCounter.Lib.RawBytes
open BillCounter.Lib.CString
open BillCounter.Lib.Runs
open BillCounter.Storage

variable {s : ShellState} {line : Line}

/-! ## Control flow -/

/-- Every way on from a prompt. -/
inductive Edge : Prompt → Next → Prop
  | commandTop : Edge .command .top
  | commandPassword : Edge .command (.ask .password)
  | passwordTop : Edge .password .top
  | passwordMenu : Edge .password (.menu false)
  | menuMenu : Edge .menu (.menu false)
  | menuIPMode : Edge .menu (.ask .ipMode)
  | menuMAC : Edge .menu (.ask .mac)
  | menuServerIP : Edge .menu (.ask .serverIP)
  | menuPort : Edge .menu (.ask .port)
  | menuDownload : Edge .menu .reset
  | menuPassword : Edge .menu (.ask .oldPassword)
  | menuSerial : Edge .menu (.ask .serialNumber)
  | menuRestart : Edge .menu (.ask .restart)
  | menuQuit : Edge .menu (.ask .quit)
  | ipModeDone (b : Bool) : Edge .ipMode (.menu b)
  | ipModeAsk : Edge .ipMode (.ask .ipAddress)
  | ipAddressDone : Edge .ipAddress (.menu false)
  | ipAddressAsk (a : BitVec 32) : Edge .ipAddress (.ask (.netmask a))
  | netmaskDone (a : BitVec 32) : Edge (.netmask a) (.menu false)
  | netmaskAsk (a b : BitVec 32) : Edge (.netmask a) (.ask (.gateway a b))
  | gatewayDone (a b : BitVec 32) : Edge (.gateway a b) (.menu false)
  | gatewayAsk (a b c : BitVec 32) : Edge (.gateway a b) (.ask (.confirmNetwork a b c))
  | networkDone (a b c : BitVec 32) (d : Bool) : Edge (.confirmNetwork a b c) (.menu d)
  | macDone (b : Bool) : Edge .mac (.menu b)
  | serverIPDone : Edge .serverIP (.menu false)
  | serverIPAsk (a : BitVec 32) : Edge .serverIP (.ask (.confirmServerIP a))
  | confirmServerIPDone (a : BitVec 32) (b : Bool) : Edge (.confirmServerIP a) (.menu b)
  | portDone : Edge .port (.menu false)
  | portAsk (p : BitVec 32) : Edge .port (.ask (.confirmPort p))
  | confirmPortDone (p : BitVec 32) (b : Bool) : Edge (.confirmPort p) (.menu b)
  | oldPasswordDone : Edge .oldPassword (.menu false)
  | oldPasswordAsk : Edge .oldPassword (.ask .newPassword)
  | newPasswordDone : Edge .newPassword (.menu false)
  | newPasswordAsk (w : Bytes 32) : Edge .newPassword (.ask (.reenterPassword w))
  | reenterDone (w : Bytes 32) (b : Bool) : Edge (.reenterPassword w) (.menu b)
  | serialNumberDone : Edge .serialNumber (.menu false)
  | serialNumberAsk (w : Bytes (CONFIG_SERIAL_NUMBER_LEN + 1)) :
      Edge .serialNumber (.ask (.confirmSerial w))
  | confirmSerialDone (w : Bytes (CONFIG_SERIAL_NUMBER_LEN + 1)) (b : Bool) :
      Edge (.confirmSerial w) (.menu b)
  | restartDone : Edge .restart (.menu false)
  | restartReset : Edge .restart .reset
  | quitDone : Edge .quit (.menu false)
  | quitTop : Edge .quit .top
  | stopped : Edge .stopped .reset

theorem menuItem_edge (c : Byte) : Edge .menu (menuItem c) := by
  unfold menuItem
  repeat' split
  all_goals constructor

/-- An outcome decided by an `if` is one of two. -/
theorem outcome_ite (P : Outcome → Prop) {c : Prop} [Decidable c] {a b : Outcome}
    (ha : P a) (hb : P b) : P (if c then a else b) := by
  split
  · exact ha
  · exact hb

theorem edge_ite {p : Prompt} {c : Prop} [Decidable c] {a b : Outcome}
    (ha : Edge p a.next) (hb : Edge p b.next) : Edge p (if c then a else b).next :=
  outcome_ite (fun o => Edge p o.next) ha hb

theorem confirmPrompt_edge {p : Prompt} {ulMaxLength : Nat}
    {commit : Bytes cmdMAX_INPUT_SIZE → Config} {next : Next}
    (hno : Edge p (.menu false)) (hyes : Edge p next) :
    Edge p (confirmPrompt ulMaxLength s line commit next).next :=
  edge_ite hyes hno

theorem addressPrompt_edge {p : Prompt} {pOldIP : BitVec 32} {ask : BitVec 32 → Prompt}
    (hno : Edge p (.menu false)) (hask : ∀ a, Edge p (.ask (ask a))) :
    Edge p (addressPrompt s line pOldIP ask).next := by
  unfold addressPrompt
  split
  · exact hno
  · exact hask _

/-- `SHELL_main` moves along the edges only. -/
theorem handle_edge (s : ShellState) (line : Line) : Edge s.prompt (handle s line).next := by
  unfold handle
  cases s.prompt with
  | command => exact edge_ite .commandPassword .commandTop
  | password => exact edge_ite .passwordMenu .passwordTop
  | menu => exact edge_ite .menuMenu (menuItem_edge _)
  | ipMode => exact edge_ite (.ipModeDone true) (edge_ite .ipModeAsk (.ipModeDone false))
  | ipAddress => exact addressPrompt_edge .ipAddressDone .ipAddressAsk
  | netmask a => exact addressPrompt_edge (.netmaskDone a) (.netmaskAsk a)
  | gateway a b => exact addressPrompt_edge (.gatewayDone a b) (.gatewayAsk a b)
  | confirmNetwork a b c =>
      exact confirmPrompt_edge (.networkDone a b c false) (.networkDone a b c true)
  | mac => exact edge_ite (.macDone true) (.macDone false)
  | serverIP =>
      show Edge .serverIP (serverIPPrompt s line).next
      unfold serverIPPrompt
      dsimp only
      split
      · exact .serverIPAsk _
      · exact .serverIPDone
  | confirmServerIP a =>
      exact confirmPrompt_edge (.confirmServerIPDone a false) (.confirmServerIPDone a true)
  | port =>
      refine edge_ite ?_ .portDone
      split
      · exact edge_ite (.portAsk _) .portDone
      · exact .portDone
  | confirmPort p =>
      exact confirmPrompt_edge (.confirmPortDone p false) (.confirmPortDone p true)
  | oldPassword =>
      exact edge_ite .oldPasswordDone (edge_ite .oldPasswordDone .oldPasswordAsk)
  | newPassword => exact edge_ite .newPasswordDone (.newPasswordAsk _)
  | reenterPassword w =>
      exact edge_ite (.reenterDone w false)
        (edge_ite (.reenterDone w false) (.reenterDone w true))
  | serialNumber => exact edge_ite (.serialNumberAsk _) .serialNumberDone
  | confirmSerial w =>
      exact confirmPrompt_edge (.confirmSerialDone w false) (.confirmSerialDone w true)
  | restart => exact confirmPrompt_edge .restartDone .restartReset
  | quit => exact confirmPrompt_edge .quitDone .quitTop
  | stopped => exact .stopped

/-! The prompts around a password. -/

theorem handle_command (hp : s.prompt = .command) :
    handle s line = commandPrompt s line := by
  unfold handle
  rw [hp]

theorem handle_password (hp : s.prompt = .password) :
    handle s line = passwordPrompt s line := by
  unfold handle
  rw [hp]

theorem handle_oldPassword (hp : s.prompt = .oldPassword) :
    handle s line = oldPasswordPrompt s line := by
  unfold handle
  rw [hp]

theorem handle_newPassword (hp : s.prompt = .newPassword) :
    handle s line = newPasswordPrompt s line := by
  unfold handle
  rw [hp]

theorem handle_reenterPassword {w : Bytes 32} (hp : s.prompt = .reenterPassword w) :
    handle s line = reenterPasswordPrompt s line w := by
  unfold handle
  rw [hp]

/-! ## The configuration -/

/-- `xConfig` as it was, unless `bUpdatedConfig` is set. -/
def KeepsUnlessUpdated (c : Config) (o : Outcome) : Prop :=
  o.xConfig = c ∨ o.next = .menu true

theorem keeps_ite {c : Config} {d : Prop} [Decidable d] {a b : Outcome}
    (ha : KeepsUnlessUpdated c a) (hb : KeepsUnlessUpdated c b) :
    KeepsUnlessUpdated c (if d then a else b) :=
  outcome_ite (KeepsUnlessUpdated c) ha hb

theorem addressPrompt_keeps (s : ShellState) (line : Line) (pOldIP : BitVec 32)
    (ask : BitVec 32 → Prompt) :
    KeepsUnlessUpdated s.xConfig (addressPrompt s line pOldIP ask) := by
  unfold addressPrompt
  split <;> exact .inl rfl

/-- No item changes `xConfig` and leaves `bUpdatedConfig` as it is. -/
theorem handle_keeps (s : ShellState) (line : Line) :
    KeepsUnlessUpdated s.xConfig (handle s line) := by
  unfold handle
  cases s.prompt with
  | command => exact keeps_ite (.inl rfl) (.inl rfl)
  | password => exact keeps_ite (.inl rfl) (.inl rfl)
  | menu => exact keeps_ite (.inl rfl) (.inl rfl)
  | ipMode => exact keeps_ite (.inr rfl) (keeps_ite (.inl rfl) (.inl rfl))
  | ipAddress => exact addressPrompt_keeps _ _ _ _
  | netmask => exact addressPrompt_keeps _ _ _ _
  | gateway => exact addressPrompt_keeps _ _ _ _
  | confirmNetwork => exact keeps_ite (.inr rfl) (.inl rfl)
  | mac => exact keeps_ite (.inr rfl) (.inl rfl)
  | serverIP =>
      show KeepsUnlessUpdated _ (serverIPPrompt s line)
      unfold serverIPPrompt
      dsimp only
      split <;> exact .inl rfl
  | confirmServerIP => exact keeps_ite (.inr rfl) (.inl rfl)
  | port =>
      refine keeps_ite ?_ (.inl rfl)
      split
      · exact keeps_ite (.inl rfl) (.inl rfl)
      · exact .inl rfl
  | confirmPort => exact keeps_ite (.inr rfl) (.inl rfl)
  | oldPassword => exact keeps_ite (.inl rfl) (keeps_ite (.inl rfl) (.inl rfl))
  | newPassword => exact keeps_ite (.inl rfl) (.inl rfl)
  | reenterPassword => exact keeps_ite (.inl rfl) (keeps_ite (.inl rfl) (.inr rfl))
  | serialNumber => exact keeps_ite (.inl rfl) (.inl rfl)
  | confirmSerial => exact keeps_ite (.inr rfl) (.inl rfl)
  | restart => exact keeps_ite (.inl rfl) (.inl rfl)
  | quit => exact keeps_ite (.inl rfl) (.inl rfl)
  | stopped => exact .inl rfl

/-! ## Steps -/

/-- The prompt a step ends at. -/
def Next.prompt : Next → Prompt
  | .ask p => p
  | .menu _ => .menu
  | .top => .command
  | .reset => .stopped

@[simp] theorem shellStep_prompt (s : ShellState) (line : Line) :
    (shellStep s line).prompt = (handle s line).next.prompt := by
  rw [shellStep]
  obtain ⟨pInputLine, xConfig, next⟩ := handle s line
  cases next with
  | menu b => cases b <;> rfl
  | _ => rfl

/-! Where a step can have come from. -/

theorem Edge.top_of_command {p : Prompt} {next : Next} (h : Edge p next)
    (hnext : next.prompt = .command) : next = .top := by
  cases h <;> first
    | rfl
    | cases hnext

theorem Edge.of_password {p : Prompt} {next : Next} (h : Edge p next)
    (hnext : next.prompt = .password) : p = .command := by
  cases h <;> first
    | rfl
    | cases hnext

theorem Edge.of_newPassword {p : Prompt} {next : Next} (h : Edge p next)
    (hnext : next.prompt = .newPassword) : p = .oldPassword := by
  cases h <;> first
    | rfl
    | cases hnext

theorem Edge.of_reenterPassword {p : Prompt} {next : Next} {w : Bytes 32} (h : Edge p next)
    (hnext : next.prompt = .reenterPassword w) : p = .newPassword := by
  cases h <;> first
    | rfl
    | cases hnext

/-- `CONFIG_save` fills in the check sum, whatever becomes of the flash. -/
theorem configSave_xConfig (hal : HalOutcomes) (c : Config) (f : FlashState) :
    (configSave hal c f).2.1 = c.withCRC := by
  rcases configSave_cases hal c f with ⟨_, h⟩ | ⟨_, _, h⟩ | ⟨_, _, h⟩ <;> rw [h]

/-- A step that sets `bUpdatedConfig` saves the configuration. -/
theorem shellStep_updated (h : (handle s line).next = .menu true) :
    shellStep s line =
      ⟨(handle s line).pInputLine, (handle s line).xConfig.withCRC,
        (configSave line.hal (handle s line).xConfig s.flash).2.2, .menu⟩ := by
  rw [shellStep]
  generalize handle s line = o at h ⊢
  obtain ⟨pInputLine, xConfig, next⟩ := o
  obtain rfl : next = _ := h
  rw [resume, if_pos rfl, ← configSave_xConfig line.hal xConfig s.flash]

/-- A step that does not leaves configuration and flash as they were. -/
theorem shellStep_kept (h : (handle s line).next ≠ .menu true) :
    (shellStep s line).xConfig = s.xConfig ∧ (shellStep s line).flash = s.flash := by
  have hkeep := (handle_keeps s line).resolve_right h
  rw [← hkeep, shellStep]
  generalize handle s line = o at h ⊢
  obtain ⟨pInputLine, xConfig, next⟩ := o
  cases next with
  | menu b =>
      cases b with
      | false => exact ⟨rfl, rfl⟩
      | true => exact absurd rfl h
  | _ => exact ⟨rfl, rfl⟩

/-- `pInputLine` is cleared at the top of the outer loop. -/
theorem shellStep_pInputLine_top (h : (handle s line).next = .top) :
    (shellStep s line).pInputLine = .replicate cmdMAX_INPUT_SIZE 0 := by
  rw [shellStep]
  generalize handle s line = o at h ⊢
  obtain ⟨pInputLine, xConfig, next⟩ := o
  obtain rfl : next = _ := h
  rfl

theorem shellStep_pInputLine (h : (handle s line).next ≠ .top) :
    (shellStep s line).pInputLine = (handle s line).pInputLine := by
  rw [shellStep]
  generalize handle s line = o at h ⊢
  obtain ⟨pInputLine, xConfig, next⟩ := o
  cases next with
  | menu b => cases b <;> rfl
  | top => exact absurd rfl h
  | _ => rfl

/-! ## Sessions -/

/-- The shell as a system of steps, from what `main` boots into. -/
def shell : System ShellState Line :=
  .ofFun (fun s => ∃ hal malloc flash, s = boot hal malloc flash) shellStep

theorem boot_prompt (hal : HalOutcomes) (malloc : Option Config) (flash : FlashState) :
    (boot hal malloc flash).prompt = .command := rfl

theorem prompt_of_init (h : shell.init s) : s.prompt = .command := by
  obtain ⟨hal, malloc, flash, rfl⟩ := h
  exact boot_prompt hal malloc flash

/-- The shell of a board whose configuration page is still erased. -/
def firstBoot : ShellState := boot .ok (some zeroConfig) ⟨fun _ => 0xFF, true⟩

/-- Its menu, entered with the default password. -/
def firstMenu : ShellState :=
  shellRun firstBoot [.ofText "?" (by decide), .ofText "posudo" (by decide)]

theorem init_firstBoot : shell.init firstBoot :=
  ⟨.ok, some zeroConfig, ⟨fun _ => 0xFF, true⟩, by rw [firstBoot]⟩

theorem shellRun_append (s : ShellState) (as bs : List Line) :
    shellRun s (as ++ bs) = shellRun (shellRun s as) bs := List.foldl_append

theorem shellRun_snoc (s : ShellState) (lines : List Line) (line : Line) :
    shellRun s (lines ++ [line]) = shellStep (shellRun s lines) line := by
  rw [shellRun_append]
  rfl

end BillCounter.Shell
