import BillCounter.Shell.Confirm

/-!
# What a menu item may change

Each item of the menu that changes the configuration owns some of its members.
An execution of an item is a run from the menu through the prompts of the item;
up to its last line it leaves `xConfig` alone.
-/

namespace BillCounter.Shell

open BillCounter.Lib.RawBytes
open BillCounter.Lib.CString
open BillCounter.Lib.Runs
open BillCounter.Storage

/-- The items `1`, `2`, `3`, `4`, `p` and `s`. -/
inductive Item
  | network
  | mac
  | serverIP
  | serverPort
  | password
  | serialNumber
deriving DecidableEq

variable {k : Item} {s s' : ShellState} {line : Line} {ulMaxLength : Nat} {c d : Config}

/-- The item a prompt belongs to. -/
def Prompt.item : Prompt → Option Item
  | .ipMode => some .network
  | .ipAddress => some .network
  | .netmask _ => some .network
  | .gateway _ _ => some .network
  | .confirmNetwork _ _ _ => some .network
  | .mac => some .mac
  | .serverIP => some .serverIP
  | .confirmServerIP _ => some .serverIP
  | .port => some .serverPort
  | .confirmPort _ => some .serverPort
  | .oldPassword => some .password
  | .newPassword => some .password
  | .reenterPassword _ => some .password
  | .serialNumber => some .serialNumber
  | .confirmSerial _ => some .serialNumber
  | _ => none

/-- `c` with the members of the item taken from `d`. -/
def Item.put : Item → Config → Config → Config
  | .network, c, d =>
      { c with xNet := { c.xNet with
          bStatic := d.xNet.bStatic
          xIPAddr := d.xNet.xIPAddr
          xNetmask := d.xNet.xNetmask
          xGatewayIPAddr := d.xNet.xGatewayIPAddr } }
  | .mac, c, d => { c with xNet := { c.xNet with pMAC := d.xNet.pMAC } }
  | .serverIP, c, d => { c with xServer := { c.xServer with xIPAddr := d.xServer.xIPAddr } }
  | .serverPort, c, d => { c with xServer := { c.xServer with nPort := d.xServer.nPort } }
  | .password, c, d => { c with pPasswd := d.pPasswd }
  | .serialNumber, c, d => { c with pSerialNumber := d.pSerialNumber }

/-- `d` differs from `c` in the members of the item and in `nCRC` at most. -/
def Item.Frame (k : Item) (c d : Config) : Prop := d = { k.put c d with nCRC := d.nCRC }

theorem Item.frame_refl (k : Item) (c : Config) : k.Frame c c := by
  cases k <;> rfl

/-- The check sum is not part of the frame. -/
theorem Item.Frame.withCRC (h : k.Frame c d) : k.Frame c d.withCRC := by
  have hcrc := congrArg (fun x : Config => { x with nCRC := d.crc }) h
  cases k <;> exact hcrc

/-- The serial number is not item `1`'s to change. -/
theorem pSerialNumber_of_frame (h : Item.network.Frame c d) :
    d.pSerialNumber = c.pSerialNumber := by
  have heq : d = { Item.network.put c d with nCRC := d.nCRC } := h
  exact (congrArg Config.pSerialNumber heq).trans rfl

/-! ## Executions -/

/-- From the menu, the lines of an item, up to a prompt of the item. -/
structure Execution (k : Item) (s : ShellState) (lines : List Line) (s' : ShellState) :
    Prop where
  menu : s.prompt = .menu
  run : (shell.restrict fun s line => (shellStep s line).prompt.item = some k).Run
    s lines s'
  item : s'.prompt.item = some k

/-- Between its prompts an item changes nothing. -/
theorem Execution.xConfig_eq {lines : List Line} (h : Execution k s lines s') :
    s'.xConfig = s.xConfig := by
  refine h.run.invariant (I := fun t => t.xConfig = s.xConfig) ?_ rfl
  rintro t line _ ht ⟨hitem, rfl⟩
  have hnext : (handle t line).next ≠ .menu true := by
    intro hmenu
    rw [shellStep_prompt, hmenu] at hitem
    cases hitem
  exact (shellStep_kept hnext).1.trans ht

/-! ## The last line -/

/-- The configuration a (y/n) prompt is about. -/
def Prompt.prepared : Prompt → Config → Config
  | .confirmNetwork xIPAddr xNetmask xGatewayIPAddr, c =>
      { c with xNet := { c.xNet with
          bStatic := 1
          xIPAddr := xIPAddr
          xNetmask := xNetmask
          xGatewayIPAddr := xGatewayIPAddr } }
  | .confirmServerIP xNewServerIP, c =>
      { c with xServer := { c.xServer with xIPAddr := xNewServerIP } }
  | .confirmPort nPort, c => { c with xServer := { c.xServer with nPort := nPort.setWidth 16 } }
  | .confirmSerial pSerialNumber, c =>
      { c with pSerialNumber := strncpy c.pSerialNumber (cString pSerialNumber.val) 31 }
  | _, c => c

/-- Item `1` copies what is in `pInputLine` over the serial number, which leaves
it alone only if it is there already. -/
def SerialKept (s : ShellState) (line : Line) : Prop :=
  match s.prompt with
  | .confirmNetwork _ _ _ =>
      strncpy s.xConfig.pSerialNumber
        (typed 1 line.keys ++ leftover s.pInputLine 1 line.keys line.afterInputLine) 31 =
          s.xConfig.pSerialNumber
  | _ => True

/-- The configuration a (y/n) prompt saves when the test passes. -/
def saved (s : ShellState) (line : Line) : Config :=
  match s.prompt with
  | .confirmNetwork _ _ _ =>
      { s.prompt.prepared s.xConfig with
        pSerialNumber := strncpy s.xConfig.pSerialNumber
          (typed 1 line.keys ++ leftover s.pInputLine 1 line.keys line.afterInputLine) 31 }
  | p => p.prepared s.xConfig

theorem handle_passes (hitem : s.prompt.item = some k)
    (h : s.prompt.replyLength = some ulMaxLength) (hpass : Passes s ulMaxLength line) :
    (handle s line).next = .menu true ∧ (handle s line).xConfig = saved s line := by
  obtain ⟨pInputLine, xConfig, flash, prompt⟩ := s
  cases prompt <;> cases h <;> cases hitem
  all_goals
    unfold handle saved Prompt.prepared
    dsimp only
    rw [confirmPrompt_passes hpass]
    first
      | exact ⟨rfl, rfl⟩
      | (rw [inputString, cString_shellGetLine (by decide)]
         exact ⟨rfl, rfl⟩)

theorem saved_eq (h : SerialKept s line) : saved s line = s.prompt.prepared s.xConfig := by
  obtain ⟨pInputLine, xConfig, flash, prompt⟩ := s
  unfold SerialKept at h
  unfold saved
  cases prompt
  case confirmNetwork => rw [h]; rfl
  all_goals rfl

/-- A change that keeps to the members of an item does so when saved; that of
item `1` does so only if the serial number stays. -/
theorem frame_saved_iff (hitem : s.prompt.item = some k)
    (h : s.prompt.replyLength = some ulMaxLength) :
    k.Frame s.xConfig (saved s line).withCRC ↔ SerialKept s line := by
  constructor
  · intro hframe
    obtain ⟨pInputLine, xConfig, flash, prompt⟩ := s
    unfold SerialKept
    cases prompt <;> cases h <;> cases hitem <;> first
      | exact pSerialNumber_of_frame hframe
      | trivial
  · intro hkept
    rw [saved_eq hkept]
    apply Item.Frame.withCRC
    obtain ⟨pInputLine, xConfig, flash, prompt⟩ := s
    cases prompt <;> cases h <;> cases hitem <;> rfl

theorem frame_ite {p : Prop} [Decidable p] {a b : Outcome} (ha : k.Frame c a.xConfig)
    (hb : k.Frame c b.xConfig) : k.Frame c (if p then a else b).xConfig :=
  outcome_ite (fun o => k.Frame c o.xConfig) ha hb

/-- Where no confirmation is asked for, the members outside the item stay. -/
theorem handle_frame (hitem : s.prompt.item = some k) (h : s.prompt.replyLength = none) :
    k.Frame s.xConfig (handle s line).xConfig := by
  have hrefl := k.frame_refl s.xConfig
  have hkeeps := handle_keeps s line
  have hedge := handle_edge s line
  rcases hkeeps with hkeep | hnext
  · rwa [hkeep]
  · rw [hnext] at hedge
    obtain ⟨pInputLine, xConfig, flash, prompt⟩ := s
    cases hedge with
    | ipModeDone =>
        cases hitem
        exact frame_ite rfl (frame_ite hrefl hrefl)
    | macDone =>
        cases hitem
        exact frame_ite rfl hrefl
    | reenterDone =>
        cases hitem
        exact frame_ite hrefl (frame_ite hrefl rfl)
    | _ => cases h

theorem shellStep_frame (hitem : s.prompt.item = some k) (h : s.prompt.replyLength = none) :
    k.Frame s.xConfig (shellStep s line).xConfig := by
  by_cases hnext : (handle s line).next = .menu true
  · rw [shellStep_updated hnext]
    exact (handle_frame hitem h).withCRC
  · rw [(shellStep_kept hnext).1]
    exact k.frame_refl _

/-! ## The frame law -/

/-- What an execution of an item from `s` may do to the configuration with the
line it gets at `s'`. -/
structure FrameLaw (k : Item) (s s' : ShellState) (line : Line) : Prop where
  frame : k.Frame s.xConfig (shellStep s' line).xConfig
  rejected : (handle s' line).next ≠ .menu true → (shellStep s' line).xConfig = s.xConfig
  unconfirmed : ∀ ulMaxLength, s'.prompt.replyLength = some ulMaxLength →
    ¬ IsYes (typed ulMaxLength line.keys) → (shellStep s' line).xConfig = s.xConfig

/-- A reply the test lets through. -/
def Accepted (s : ShellState) (ulMaxLength : Nat) (line : Line) : Prop :=
  (typed ulMaxLength line.keys).length = 1 ∧
    (IsYes (typed ulMaxLength line.keys) →
      peak ulMaxLength line.keys = 1 ∧ s.pInputLine.val.getD 1 0 ≠ 0)

/-- The configuration holds what the prompt is about, and its own check sum. -/
def AlreadySet (s : ShellState) : Prop :=
  s.prompt.prepared s.xConfig = s.xConfig ∧ s.xConfig.crc = s.xConfig.nCRC

theorem passes_iff_accepted (h : s.prompt.replyLength = some ulMaxLength) :
    Passes s ulMaxLength line ↔ Accepted s ulMaxLength line := by
  rw [passes_iff (replyLength_le h), Accepted]
  refine and_congr_right fun hlen => ?_
  rw [leftover_eq_nil_iff hlen, not_and_not_right]

/-- Saving changes nothing exactly when nothing was to be saved. -/
theorem withCRC_eq_iff (h : d.nCRC = c.nCRC) :
    d.withCRC = c ↔ d = c ∧ c.crc = c.nCRC := by
  constructor
  · intro heq
    have hd : d = { d.withCRC with nCRC := d.nCRC } := rfl
    rw [heq, h] at hd
    refine ⟨hd, ?_⟩
    rw [← heq]
    exact d.crc_withCRC
  · rintro ⟨rfl, hcrc⟩
    rw [Config.withCRC, hcrc]

theorem nCRC_prepared (p : Prompt) (c : Config) : (p.prepared c).nCRC = c.nCRC := by
  cases p <;> rfl

/-- Behind the other items, `y` and `Y` are always in order. -/
theorem condition_of_yes (hitem : s.prompt.item ≠ some .network)
    (h : s.prompt.replyLength = some ulMaxLength)
    (hyes : IsYes (typed ulMaxLength line.keys)) :
    ∀ m, s.prompt.replyLength = some m → Accepted s m line →
      SerialKept s line ∧ (IsYes (typed m line.keys) ∨ AlreadySet s) := by
  intro m hm _
  obtain rfl := Option.some.inj (h.symm.trans hm)
  refine ⟨?_, .inl hyes⟩
  unfold SerialKept
  split
  · rename_i hprompt
    exact absurd (congrArg Prompt.item hprompt) hitem
  · trivial

/-- An execution keeps the frame law unless its last line gets past the test at a
(y/n) prompt; then the serial number has to stay, and the reply be `y` or `Y` or
the change one that is none. -/
theorem frameLaw_iff {lines : List Line} (h : Execution k s lines s') :
    FrameLaw k s s' line ↔
      ∀ ulMaxLength, s'.prompt.replyLength = some ulMaxLength →
        Accepted s' ulMaxLength line →
          SerialKept s' line ∧ (IsYes (typed ulMaxLength line.keys) ∨ AlreadySet s') := by
  have hconfig := h.xConfig_eq
  constructor
  · intro hlaw ulMaxLength hreply haccepted
    obtain ⟨hnext, hsaved⟩ :=
      handle_passes h.item hreply ((passes_iff_accepted hreply).mpr haccepted)
    have hstep : (shellStep s' line).xConfig = (saved s' line).withCRC := by
      rw [shellStep_updated hnext, hsaved]
    have hkept : SerialKept s' line := by
      rw [← frame_saved_iff h.item hreply, ← hstep, hconfig]
      exact hlaw.frame
    refine ⟨hkept, ?_⟩
    by_cases hyes : IsYes (typed ulMaxLength line.keys)
    · exact .inl hyes
    · have hsame := hlaw.unconfirmed ulMaxLength hreply hyes
      rw [hstep, saved_eq hkept, ← hconfig, withCRC_eq_iff (nCRC_prepared _ _)] at hsame
      exact .inr hsame
  · intro hcond
    cases hreply : s'.prompt.replyLength with
    | none =>
        refine ⟨?_, fun hnext => ?_, fun _ hsome => absurd hsome (by simp [hreply])⟩
        · rw [← hconfig]
          exact shellStep_frame h.item hreply
        · rw [(shellStep_kept hnext).1, hconfig]
    | some ulMaxLength =>
        by_cases haccepted : Accepted s' ulMaxLength line
        · obtain ⟨hkept, hyes⟩ := hcond ulMaxLength hreply haccepted
          obtain ⟨hnext, hsaved⟩ :=
            handle_passes h.item hreply ((passes_iff_accepted hreply).mpr haccepted)
          have hstep : (shellStep s' line).xConfig = (saved s' line).withCRC := by
            rw [shellStep_updated hnext, hsaved]
          refine ⟨?_, fun hne => absurd hnext hne, fun m hm hno => ?_⟩
          · rw [← hconfig, hstep]
            exact (frame_saved_iff h.item hreply).mpr hkept
          · obtain rfl := Option.some.inj (hreply.symm.trans hm)
            rw [hstep, saved_eq hkept, ← hconfig, withCRC_eq_iff (nCRC_prepared _ _)]
            exact hyes.resolve_left hno
        · have hdeclined := declined_of_fails
            (fun hpass => haccepted ((passes_iff_accepted hreply).mp hpass)) hreply
          have hnext : (handle s' line).next ≠ .menu true := by
            rw [hdeclined.1]
            decide
          have hsame := (shellStep_kept hnext).1.trans hconfig
          refine ⟨?_, fun _ => hsame, fun _ _ _ => hsame⟩
          rw [hsame]
          exact k.frame_refl _

/-- The (y/n) prompt of item `3`. -/
def firstServerIP : ShellState :=
  shellRun firstMenu [.ofText "3" (by decide), .ofText "10.0.0.1" (by decide)]

/-- Item `3`, confirmed with `y` over the address, keeps the frame law. -/
theorem frameLaw_firstServerIP :
    FrameLaw .serverIP firstMenu firstServerIP (.ofText "y" (by decide)) := by
  have hrun : (shell.restrict fun s line =>
      (shellStep s line).prompt.item = some Item.serverIP).Run firstMenu
      [.ofText "3" (by decide), .ofText "10.0.0.1" (by decide)] firstServerIP := by
    rw [firstServerIP, shellRun, List.foldl_cons, List.foldl_cons, List.foldl_nil]
    exact .cons ⟨by decide +kernel, rfl⟩ (.cons ⟨by decide +kernel, rfl⟩ (.nil _))
  have hprompt : firstServerIP.prompt = .confirmServerIP 0x0100000A := by decide +kernel
  have hlength : firstServerIP.prompt.replyLength = some 1 := by rw [hprompt]; rfl
  have hexecution : Execution .serverIP firstMenu _ firstServerIP :=
    ⟨by decide +kernel, hrun, by rw [hprompt]; rfl⟩
  have hitem : firstServerIP.prompt.item ≠ some .network := by
    rw [hprompt]
    decide
  exact (frameLaw_iff hexecution).mpr (condition_of_yes hitem hlength (by decide))

/-- Item `1`, confirmed with `y` where the password was typed before, gives the
board the serial number `yosudo`. -/
theorem static_address_sets_serial_number :
    ¬ FrameLaw .network firstMenu
      (shellRun firstMenu [.ofText "1" (by decide), .ofText "1" (by decide),
        .ofText "" (by decide), .ofText "" (by decide), .ofText "" (by decide)])
      (.ofText "y" (by decide)) := by
  intro hlaw
  exact absurd (pSerialNumber_of_frame hlaw.frame) (by decide +kernel)

end BillCounter.Shell
