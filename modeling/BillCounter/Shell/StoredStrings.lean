import BillCounter.Shell.Addressing
import BillCounter.Shell.Auth
import BillCounter.Shell.Frame
import BillCounter.Storage.Boot

/-!
# The strings of the configuration

The password and the serial number are compared, copied and printed as strings.  The
password is stored with its NUL.  Of a serial number 31 characters are stored, and then it
is up to the last byte, which nothing ever writes: it is what the memory held in which
`CONFIG_init` once made up the defaults.
-/

namespace BillCounter.Shell

open BillCounter.Lib.RawBytes
open BillCounter.Lib.CString
open BillCounter.Lib.Runs
open BillCounter.Storage

/-- Both strings end within their arrays. -/
structure Terminated (c : Config) : Prop where
  pPasswd : (0 : Byte) ∈ c.pPasswd.val
  pSerialNumber : (0 : Byte) ∈ c.pSerialNumber.val

variable {s t : ShellState} {line : Line}

/-! ## A board that is switched on -/

/-- A board that is off. -/
def switchedOff (flash : FlashState) : ShellState :=
  ⟨.replicate cmdMAX_INPUT_SIZE 0, zeroConfig, flash, .stopped⟩

/-- A line, or a reset. -/
def powerStep (s : ShellState) : BoardLabel → ShellState
  | .line line => shellStep s line
  | .reset hal malloc => boot hal malloc s.flash

/-- Boards that start with no valid configuration in flash. -/
def power : System ShellState BoardLabel :=
  .ofFun (fun s => ∃ flash, ¬ ValidBlock flash ∧ s = switchedOff flash) powerStep

/-- What is in flash after a save is the configuration saved, or what was there before, or
the check sum gives it away. -/
def SaveDetected (hal : HalOutcomes) (c : Config) (f : FlashState) : Prop :=
  ValidBlock (configSave hal c f).2.2 →
    storedConfig (configSave hal c f).2.2.memory = c.withCRC ∨
      (configSave hal c f).2.2.memory = f.memory

/-- The saves of a step that go wrong are detected. -/
def FlashDetected (s : ShellState) : BoardLabel → Prop
  | .line line =>
      (handle s line).next = .menu true → SaveDetected line.hal (handle s line).xConfig s.flash
  | .reset hal malloc =>
      ¬ ValidBlock s.flash → ∀ pConfig, malloc = some pConfig →
        SaveDetected hal (configSetDefault pConfig).2 s.flash

theorem saveDetected_ok (c : Config) (f : FlashState) : SaveDetected .ok c f :=
  fun _ => .inl (storedConfig_eq_iff.mpr (storedBytes_configSave c f))

/-! ## What is entered for a serial number -/

/-- The string a confirmation copies to the serial number: at item `1`, the reply and
what is left over behind it. -/
def serialEntered (s : ShellState) (line : Line) : Option (List Byte) :=
  match s.prompt with
  | .confirmNetwork _ _ _ =>
      some (typed 1 line.keys ++ leftover s.pInputLine 1 line.keys line.afterInputLine)
  | .confirmSerial pSerialNumber => some (cString pSerialNumber.val)
  | _ => none

/-- 31 characters or more are stored in front of a last byte that is no NUL. -/
def DropsTerminator (s : ShellState) (line : Line) : Prop :=
  ∃ src, serialEntered s line = some src ∧ Passes s 1 line ∧ 31 ≤ src.length ∧
    s.xConfig.pSerialNumber.val.getD 31 0 ≠ 0

/-- A step at which that does not happen. -/
def KeepsTerminator (s : ShellState) : BoardLabel → Prop
  | .line line => ¬ DropsTerminator s line
  | .reset _ _ => True

theorem zero_not_mem_serialEntered {src : List Byte} (h : serialEntered s line = some src) :
    (0 : Byte) ∉ src := by
  unfold serialEntered at h
  split at h
  · cases h
    rw [List.mem_append, not_or, leftover]
    refine ⟨zero_not_mem_typed 1 line.keys, ?_⟩
    split
    · exact List.not_mem_nil
    · exact zero_not_mem_cString _
  · cases h
    exact zero_not_mem_cString _
  · cases h

/-- It is copied when the test passes, -/
theorem shellStep_serialEntered {src : List Byte} (h : serialEntered s line = some src)
    (hpass : Passes s 1 line) :
    (shellStep s line).xConfig.pSerialNumber = strncpy s.xConfig.pSerialNumber src 31 := by
  obtain ⟨pInputLine, xConfig, flash, prompt⟩ := s
  cases prompt <;> cases h
  case confirmNetwork =>
    obtain ⟨hnext, hsaved⟩ := handle_passes (k := .network) rfl rfl hpass
    rw [shellStep_updated hnext, hsaved]
    rfl
  case confirmSerial =>
    obtain ⟨hnext, hsaved⟩ := handle_passes (k := .serialNumber) rfl rfl hpass
    rw [shellStep_updated hnext, hsaved]
    rfl

theorem pSerialNumber_ite {b : Bytes 32} {p : Prop} [Decidable p] {x y : Outcome}
    (hx : x.xConfig.pSerialNumber = b) (hy : y.xConfig.pSerialNumber = b) :
    (if p then x else y).xConfig.pSerialNumber = b :=
  outcome_ite (fun o => o.xConfig.pSerialNumber = b) hx hy

/-- and otherwise the serial number stays as it is. -/
theorem shellStep_pSerialNumber
    (h : ∀ src, serialEntered s line = some src → ¬ Passes s 1 line) :
    (shellStep s line).xConfig.pSerialNumber = s.xConfig.pSerialNumber := by
  by_cases hnext : (handle s line).next = .menu true
  · rw [shellStep_updated hnext]
    have hedge := handle_edge s line
    have hdeclined : s.prompt.replyLength = some 1 → ¬ Passes s 1 line → False := by
      intro hreply hfail
      rw [(declined_of_fails hfail hreply).1] at hnext
      cases hnext
    rw [hnext] at hedge
    obtain ⟨pInputLine, xConfig, flash, prompt⟩ := s
    show (handle _ line).xConfig.pSerialNumber = _
    cases hedge with
    | networkDone => exact absurd (h _ rfl) (hdeclined rfl)
    | confirmSerialDone => exact absurd (h _ rfl) (hdeclined rfl)
    | ipModeDone => exact pSerialNumber_ite rfl (pSerialNumber_ite rfl rfl)
    | reenterDone => exact pSerialNumber_ite rfl (pSerialNumber_ite rfl rfl)
    | _ => exact pSerialNumber_ite rfl rfl
  · rw [(shellStep_kept hnext).1]

/-! ## The invariant -/

/-- Both strings are terminated, so is a new password being entered, and so are the strings
the next boot would find. -/
structure StringsInv (s : ShellState) : Prop where
  terminated : Terminated s.xConfig
  new : ∀ w, s.prompt = .reenterPassword w → (0 : Byte) ∈ w.val
  flash : ValidBlock s.flash → Terminated (storedConfig s.flash.memory)

theorem terminated_default (c : Config) : Terminated (configSetDefault c).2 where
  pPasswd := zero_mem_strcpy _ (by decide)
  pSerialNumber := zero_mem_strcpy _ (by decide)

theorem Terminated.withCRC {c : Config} (h : Terminated c) : Terminated c.withCRC :=
  ⟨h.pPasswd, h.pSerialNumber⟩

theorem terminated_zeroConfig : Terminated zeroConfig :=
  ⟨by decide +kernel, by decide +kernel⟩

theorem stringsInv_switchedOff {flash : FlashState} (h : ¬ ValidBlock flash) :
    StringsInv (switchedOff flash) where
  terminated := terminated_zeroConfig
  new := fun _ hw => nomatch hw
  flash := fun hvalid => absurd hvalid h

/-- What a detected save leaves in flash. -/
theorem SaveDetected.flash {hal : HalOutcomes} {c : Config} {f : FlashState}
    (h : SaveDetected hal c f) (hc : Terminated c)
    (hf : ValidBlock f → Terminated (storedConfig f.memory))
    (hvalid : ValidBlock (configSave hal c f).2.2) :
    Terminated (storedConfig (configSave hal c f).2.2.memory) := by
  rcases h hvalid with hsaved | hkept
  · rw [hsaved]
    exact hc.withCRC
  · rw [ValidBlock, hkept] at hvalid
    rw [hkept]
    exact hf hvalid

/-- A line keeps the password terminated, -/
theorem pPasswd_shellStep (h : StringsInv s) (line : Line) :
    (0 : Byte) ∈ (shellStep s line).xConfig.pPasswd.val := by
  by_cases hre : ∃ w, s.prompt = .reenterPassword w
  · obtain ⟨w, hw⟩ := hre
    by_cases hnext : (handle s line).next = .menu true
    · rw [shellStep_updated hnext]
      show (0 : Byte) ∈ (handle s line).xConfig.pPasswd.val
      rw [handle_reenterPassword hw, reenterPasswordPrompt_eq]
      split
      · have hlt := length_cString_lt (h.new w hw)
        rw [w.property] at hlt
        exact zero_mem_strcpy _ hlt
      · exact h.terminated.pPasswd
    · rw [(shellStep_kept hnext).1]
      exact h.terminated.pPasswd
  · rw [shellStep_pPasswd fun w hw => hre ⟨w, hw⟩]
    exact h.terminated.pPasswd

/-- and the serial number exactly if the NUL behind it is not lost. -/
theorem pSerialNumber_shellStep_iff (h : (0 : Byte) ∈ s.xConfig.pSerialNumber.val)
    (line : Line) :
    (0 : Byte) ∈ (shellStep s line).xConfig.pSerialNumber.val ↔ ¬ DropsTerminator s line := by
  by_cases hcopied : ∃ src, serialEntered s line = some src ∧ Passes s 1 line
  · obtain ⟨src, hsrc, hpass⟩ := hcopied
    have hzero := zero_mem_strncpy_iff (n := 31) s.xConfig.pSerialNumber
      (zero_not_mem_serialEntered hsrc)
    rw [shellStep_serialEntered hsrc hpass, hzero]
    constructor
    · rintro hkept ⟨src', hsrc', _, hlong, hlast⟩
      obtain rfl := Option.some.inj (hsrc.symm.trans hsrc')
      rcases hkept with hshort | hnul
      · omega
      · exact hlast hnul
    · intro hdrops
      by_contra hkept
      rw [not_or] at hkept
      exact hdrops ⟨src, hsrc, hpass, Nat.not_lt.mp hkept.1, hkept.2⟩
  · rw [shellStep_pSerialNumber fun src hsrc hpass => hcopied ⟨src, hsrc, hpass⟩]
    refine ⟨fun _ hdrops => ?_, fun _ => h⟩
    obtain ⟨src, hsrc, hpass, _⟩ := hdrops
    exact hcopied ⟨src, hsrc, hpass⟩

/-- A line keeps the invariant. -/
theorem stringsInv_line (h : StringsInv s) (hflash : FlashDetected s (.line line))
    (hkeeps : ¬ DropsTerminator s line) : StringsInv (shellStep s line) := by
  have hterminated : Terminated (shellStep s line).xConfig :=
    ⟨pPasswd_shellStep h line,
      (pSerialNumber_shellStep_iff h.terminated.pSerialNumber line).mpr hkeeps⟩
  refine ⟨hterminated, fun w hw => ?_, fun hvalid => ?_⟩
  · have hprompt := (handle_edge s line).of_reenterPassword
      ((shellStep_prompt s line).symm.trans hw)
    obtain ⟨htyped, _⟩ := newPassword_step hprompt hw
    apply zero_mem_of_length_cString_lt
    rw [htyped, w.property]
    exact Nat.lt_succ_of_le (length_typed_le 31 line.keys)
  · by_cases hnext : (handle s line).next = .menu true
    · rw [shellStep_updated hnext] at hterminated hvalid ⊢
      exact (hflash hnext).flash ⟨hterminated.pPasswd, hterminated.pSerialNumber⟩ h.flash hvalid
    · rw [(shellStep_kept hnext).2] at hvalid ⊢
      exact h.flash hvalid

theorem boot_xConfig (hal : HalOutcomes) (malloc : Option Config) (flash : FlashState) :
    (boot hal malloc flash).xConfig =
      (configLoad (configSetDefault zeroConfig).2 (configInit hal malloc flash).2).2 := by
  unfold boot
  dsimp only

theorem boot_flash (hal : HalOutcomes) (malloc : Option Config) (flash : FlashState) :
    (boot hal malloc flash).flash = (configInit hal malloc flash).2 := by
  unfold boot
  dsimp only

theorem configLoad_of_invalid {f : FlashState} (h : ¬ ValidBlock f) (x : Config) :
    configLoad x f = (.RET_ERROR, x) :=
  if_pos fun heq => h heq.symm

/-- What `CONFIG_init` leaves in flash. -/
theorem terminated_configInit {hal : HalOutcomes} {malloc : Option Config} (h : StringsInv s)
    (hflash : FlashDetected s (.reset hal malloc))
    (hvalid : ValidBlock (configInit hal malloc s.flash).2) :
    Terminated (storedConfig (configInit hal malloc s.flash).2.memory) := by
  by_cases hblock : ValidBlock s.flash
  · rw [configInit_of_valid hblock]
    exact h.flash hblock
  · cases malloc with
    | none =>
        have hnone : configInit hal none s.flash = (.RET_ERROR, s.flash) := if_pos hblock
        rw [hnone] at hvalid
        exact absurd hvalid hblock
    | some pConfig =>
        rw [configInit_of_invalid hblock] at hvalid ⊢
        exact (hflash hblock pConfig rfl).flash (terminated_default pConfig) h.flash hvalid

/-- So does a reset. -/
theorem stringsInv_reset {hal : HalOutcomes} {malloc : Option Config} (h : StringsInv s)
    (hflash : FlashDetected s (.reset hal malloc)) : StringsInv (boot hal malloc s.flash) := by
  have hinit := terminated_configInit h hflash
  constructor
  · rw [boot_xConfig]
    by_cases hvalid : ValidBlock (configInit hal malloc s.flash).2
    · rw [configLoad_of_valid hvalid]
      exact hinit hvalid
    · rw [configLoad_of_invalid hvalid]
      exact terminated_default zeroConfig
  · intro w hw
    rw [boot_prompt] at hw
    cases hw
  · rw [boot_flash]
    exact hinit

/-! ## Whole runs -/

/-- From a board without a valid configuration, over any lines and resets: the strings stay
terminated exactly as long as no 31 characters are stored in front of a last byte that is no
NUL. -/
theorem stringsTerminated_iff (hinit : power.init s) {labels : List BoardLabel} :
    ((power.restrict FlashDetected).within fun s => Terminated s.xConfig).Run s labels t ↔
      ((power.restrict FlashDetected).restrict KeepsTerminator).Run s labels t := by
  obtain ⟨flash, hblock, rfl⟩ := hinit
  apply System.Run.within_iff_restrict (I := StringsInv) (J := fun _ => True)
  · rintro s label _ hs hkeeps ⟨hflash, rfl⟩
    cases label with
    | line line => exact stringsInv_line hs hflash hkeeps
    | reset hal malloc => exact stringsInv_reset hs hflash
  · exact fun s hs => hs.terminated
  · exact fun _ _ _ _ _ => trivial
  · rintro s label _ _ hs ⟨_, rfl⟩ ht
    cases label with
    | line line => exact (pSerialNumber_shellStep_iff hs.pSerialNumber line).mp ht.pSerialNumber
    | reset hal malloc => trivial
  · exact stringsInv_switchedOff hblock
  · trivial

/-- A step whose flash operations all succeed. -/
def BoardLabel.halOk : BoardLabel → Prop
  | .line line => line.hal = .ok
  | .reset hal _ => hal = .ok

theorem flashDetected_ok {label : BoardLabel} (h : label.halOk) : FlashDetected s label := by
  cases label with
  | line line =>
      have hok : line.hal = .ok := h
      rw [FlashDetected, hok]
      exact fun _ => saveDetected_ok _ _
  | reset hal malloc =>
      obtain rfl : hal = .ok := h
      exact fun _ _ _ => saveDetected_ok _ _

theorem power_run_foldl (s : ShellState) {labels : List BoardLabel}
    (h : ∀ label ∈ labels, label.halOk) :
    (power.restrict FlashDetected).Run s labels (labels.foldl powerStep s) := by
  induction labels generalizing s with
  | nil => exact .nil s
  | cons label labels ih =>
      exact .cons ⟨flashDetected_ok (h label List.mem_cons_self), rfl⟩
        (ih _ fun a ha => h a (List.mem_cons_of_mem label ha))

/-- A new board. -/
def newBoard : ShellState := switchedOff ⟨fun _ => 0xFF, true⟩

theorem init_newBoard : power.init newBoard :=
  ⟨⟨fun _ => 0xFF, true⟩, by unfold ValidBlock; decide +kernel, rfl⟩

/-- It boots, in memory that holds `0xFF`. -/
def firstSession (lines : List Line) : List BoardLabel :=
  .reset .ok (some (.ofBytes (.replicate sizeofConfig 0xFF))) :: lines.map .line

theorem keepsTerminator_of_short (h : ∀ src ∈ serialEntered s line, src.length < 31) :
    KeepsTerminator s (.line line) := by
  rintro ⟨src, hsrc, _, hlong, _⟩
  exact absurd (h src hsrc) (Nat.not_lt.mpr hlong)

/-- A serial number of eight characters is stored; the reply `n` confirms it. -/
theorem serial_terminated :
    ∃ t, ((power.restrict FlashDetected).within fun s => Terminated s.xConfig).Run newBoard
      (firstSession [.ofText "?" (by decide), .ofText "posudo" (by decide),
        .ofText "s" (by decide), .ofText "12345678" (by decide), .ofText "n" (by decide)]) t := by
  have hrun : ∃ t, ((power.restrict FlashDetected).restrict KeepsTerminator).Run newBoard
      (firstSession [.ofText "?" (by decide), .ofText "posudo" (by decide),
        .ofText "s" (by decide), .ofText "12345678" (by decide), .ofText "n" (by decide)]) t := by
    exact ⟨_,
      .cons ⟨trivial, flashDetected_ok rfl, rfl⟩ <|
      .cons ⟨keepsTerminator_of_short (by decide +kernel), flashDetected_ok rfl, rfl⟩ <|
      .cons ⟨keepsTerminator_of_short (by decide +kernel), flashDetected_ok rfl, rfl⟩ <|
      .cons ⟨keepsTerminator_of_short (by decide +kernel), flashDetected_ok rfl, rfl⟩ <|
      .cons ⟨keepsTerminator_of_short (by decide +kernel), flashDetected_ok rfl, rfl⟩ <|
      .cons ⟨keepsTerminator_of_short (by decide +kernel), flashDetected_ok rfl, rfl⟩ (.nil _)⟩
  obtain ⟨t, ht⟩ := hrun
  exact ⟨t, (stringsTerminated_iff init_newBoard).mpr ht⟩

/-- One of 32 characters is left without an end. -/
theorem serial_unterminated :
    ∃ labels t, power.init newBoard ∧ (power.restrict FlashDetected).Run newBoard labels t ∧
      ¬ Terminated t.xConfig := by
  refine ⟨firstSession [.ofText "?" (by decide), .ofText "posudo" (by decide),
    .ofText "s" (by decide), .ofText "0123456789ABCDEF0123456789ABCDEF" (by decide),
    .ofText "n" (by decide)], _, init_newBoard, power_run_foldl newBoard ?_, ?_⟩
  · simp [firstSession, BoardLabel.halOk, Line.ofText]
  · intro h
    exact absurd h.pSerialNumber (by decide +kernel)

end BillCounter.Shell
