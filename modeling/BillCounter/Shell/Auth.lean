import BillCounter.Shell.Control

/-!
# Passwords

The shell compares a password at three places: at the login, at `Old Password`,
and when the new password is entered again.  Each time it compares the string in
`pInputLine`, which is the line typed only if nothing is left over behind it.
-/

namespace BillCounter.Shell

open BillCounter.Lib.RawBytes
open BillCounter.Lib.CString
open BillCounter.Lib.Runs
open BillCounter.Storage

variable {s : ShellState} {line : Line} {w : Bytes 32}

/-- `xConfig.pPasswd` as a string. -/
def storedPassword (c : Config) : List Byte := cString c.pPasswd.val

/-- A string of 1 to 31 printable characters. -/
structure IsPassword (w : List Byte) : Prop where
  nonempty : w ≠ []
  length_le : w.length ≤ 31
  printable : ∀ c ∈ w, printable c = true

/-- A NUL inside `pPasswd` hides what lies behind the array. -/
theorem passwdString_eq {c : Config} (h : IsPassword (storedPassword c)) (line : Line) :
    passwdString c line = storedPassword c := by
  have hbody : c.body = c.pPasswd.val ++ c.body.drop 32 := by
    have htake : c.body.take 32 = c.pPasswd.val := by
      have happ : c.body = c.pPasswd.val ++ _ := rfl
      rw [happ, List.take_left' c.pPasswd.property]
    rw [← htake, List.take_append_drop]
  have hshort : (cString c.pPasswd.val).length < c.pPasswd.val.length := by
    have hle := h.length_le
    have hsize := c.pPasswd.property
    rw [storedPassword] at hle
    omega
  rw [passwdString, hbody, List.append_assoc, cString_append_of_lt hshort, storedPassword]

/-! ## The comparisons -/

/-- The string in `pInputLine` after a line. -/
def entered (s : ShellState) (ulMaxLength : Nat) (line : Line) : List Byte :=
  typed ulMaxLength line.keys ++
    leftover s.pInputLine ulMaxLength line.keys line.afterInputLine

theorem inputString_eq (s : ShellState) {ulMaxLength : Nat}
    (hmax : ulMaxLength ≤ cmdMAX_INPUT_SIZE) (line : Line) :
    inputString (shellGetLine s.pInputLine ulMaxLength line.keys).1 line =
      entered s ulMaxLength line :=
  cString_shellGetLine hmax _ _ _

theorem zero_not_mem_entered (s : ShellState) {ulMaxLength : Nat}
    (hmax : ulMaxLength ≤ cmdMAX_INPUT_SIZE) (line : Line) :
    (0 : Byte) ∉ entered s ulMaxLength line := by
  rw [← inputString_eq s hmax]
  exact zero_not_mem_cString _

/-- What the comparisons at `Old Password` and behind it come to. -/
def Matches (s : ShellState) (ulMaxLength : Nat) (line : Line) (w : List Byte) : Prop :=
  typed ulMaxLength line.keys ≠ [] ∧ entered s ulMaxLength line = w

instance (s : ShellState) (ulMaxLength : Nat) (line : Line) (w : List Byte) :
    Decidable (Matches s ulMaxLength line w) :=
  inferInstanceAs (Decidable (_ ∧ _))

theorem zero_not_mem_storedPassword (c : Config) : (0 : Byte) ∉ storedPassword c :=
  zero_not_mem_cString _

/-- The login. -/
theorem passwordPrompt_next (hpw : IsPassword (storedPassword s.xConfig)) :
    (passwordPrompt s line).next =
      if entered s cmdMAX_INPUT_SIZE line = storedPassword s.xConfig then .menu false
      else .top := by
  unfold passwordPrompt
  dsimp only
  rw [apply_ite Outcome.next, inputString_eq s (Nat.le_refl _), passwdString_eq hpw]
  exact if_congr (strcmp_eq_zero_iff (zero_not_mem_entered s (Nat.le_refl _) line)
    (zero_not_mem_storedPassword _)) rfl rfl

/-- `Old Password`. -/
theorem oldPasswordPrompt_next (hpw : IsPassword (storedPassword s.xConfig)) :
    (oldPasswordPrompt s line).next =
      if Matches s cmdMAX_INPUT_SIZE line (storedPassword s.xConfig) then .ask .newPassword
      else .menu false := by
  have hcompare := strcmp_eq_zero_iff (zero_not_mem_storedPassword s.xConfig)
    (zero_not_mem_entered s (Nat.le_refl _) line)
  unfold oldPasswordPrompt
  dsimp only
  rw [inputString_eq s (Nat.le_refl _), passwdString_eq hpw,
    shellGetLine_length (Nat.le_refl _)]
  by_cases hnil : typed cmdMAX_INPUT_SIZE line.keys = []
  · simp [Matches, hnil]
  · rw [if_neg (fun h => hnil (List.length_eq_zero_iff.mp h))]
    by_cases heq : entered s cmdMAX_INPUT_SIZE line = storedPassword s.xConfig
    · rw [if_neg (fun h => h (hcompare.mpr heq.symm)), if_pos ⟨hnil, heq⟩]
    · rw [if_pos (fun h => heq (hcompare.mp h).symm), if_neg (fun h => heq h.2)]

/-- `New Password` asks for the password again when anything was typed. -/
theorem newPasswordPrompt_next :
    (newPasswordPrompt s line).next =
      if typed 31 line.keys = [] then .menu false
      else .ask (.reenterPassword (shellGetLine (.replicate 32 0 : Bytes 32) 31
        line.keys).1) := by
  unfold newPasswordPrompt
  dsimp only
  rw [apply_ite Outcome.next, shellGetLine_length (by decide)]
  exact if_congr List.length_eq_zero_iff rfl rfl

/-- `Re-enter New Password`. -/
theorem reenterPasswordPrompt_eq (s : ShellState) (line : Line) (w : Bytes 32) :
    reenterPasswordPrompt s line w =
      if Matches s (cmdMAX_INPUT_SIZE - 1) line (cString w.val) then
        ⟨(shellGetLine s.pInputLine (cmdMAX_INPUT_SIZE - 1) line.keys).1,
          { s.xConfig with pPasswd := strcpy s.xConfig.pPasswd (cString w.val) },
          .menu true⟩
      else
        ⟨(shellGetLine s.pInputLine (cmdMAX_INPUT_SIZE - 1) line.keys).1, s.xConfig,
          .menu false⟩ := by
  have hmax : cmdMAX_INPUT_SIZE - 1 ≤ cmdMAX_INPUT_SIZE := Nat.sub_le _ _
  have hcompare := strcmp_eq_zero_iff (zero_not_mem_cString w.val)
    (zero_not_mem_entered s hmax line)
  unfold reenterPasswordPrompt
  dsimp only
  rw [inputString_eq s hmax, shellGetLine_length hmax]
  by_cases hnil : typed (cmdMAX_INPUT_SIZE - 1) line.keys = []
  · simp [Matches, hnil]
  · rw [if_neg (fun h => hnil (List.length_eq_zero_iff.mp h))]
    by_cases heq : entered s (cmdMAX_INPUT_SIZE - 1) line = cString w.val
    · rw [if_neg (fun h => h (hcompare.mpr heq.symm)), if_pos ⟨hnil, heq⟩]
    · rw [if_pos (fun h => heq (hcompare.mp h).symm), if_neg (fun h => heq h.2)]

/-- A line at the re-enter prompt sets the password to the new one or keeps it. -/
theorem reenterPassword_step (hp : s.prompt = .reenterPassword w)
    (hw : IsPassword (cString w.val)) :
    storedPassword (shellStep s line).xConfig =
      if Matches s (cmdMAX_INPUT_SIZE - 1) line (cString w.val) then cString w.val
      else storedPassword s.xConfig := by
  have hhandle : handle s line = _ :=
    (handle_reenterPassword hp).trans (reenterPasswordPrompt_eq s line w)
  by_cases haccept : Matches s (cmdMAX_INPUT_SIZE - 1) line (cString w.val)
  · rw [if_pos haccept] at hhandle
    have hnext : (handle s line).next = .menu true := by rw [hhandle]
    have hcopy := cString_strcpy s.xConfig.pPasswd (zero_not_mem_cString w.val)
      (Nat.lt_succ_of_le hw.length_le) []
    rw [List.append_nil] at hcopy
    rw [if_pos haccept, shellStep_updated hnext, hhandle]
    exact hcopy
  · rw [if_neg haccept] at hhandle
    have hnext : (handle s line).next ≠ .menu true := by simp [hhandle]
    rw [if_neg haccept, (shellStep_kept hnext).1]

/-! ## The invariant -/

/-- What holds at every prompt of a session: the stored password is one, so is the
new one being entered, and the login finds just the `?` behind a short line. -/
structure AuthInv (s : ShellState) : Prop where
  stored : IsPassword (storedPassword s.xConfig)
  new : ∀ w, s.prompt = .reenterPassword w → IsPassword (cString w.val)
  command : s.prompt = .command → s.pInputLine = .replicate cmdMAX_INPUT_SIZE 0
  login : s.prompt = .password →
    s.pInputLine.val = ascii '?' :: List.replicate (cmdMAX_INPUT_SIZE - 1) 0

theorem pPasswd_ite {b : Bytes 32} {p : Prop} [Decidable p] {x y : Outcome}
    (hx : x.xConfig.pPasswd = b) (hy : y.xConfig.pPasswd = b) :
    (if p then x else y).xConfig.pPasswd = b :=
  outcome_ite (fun o => o.xConfig.pPasswd = b) hx hy

/-- No other prompt changes the password. -/
theorem shellStep_pPasswd (h : ∀ w, s.prompt ≠ .reenterPassword w) :
    (shellStep s line).xConfig.pPasswd = s.xConfig.pPasswd := by
  by_cases hnext : (handle s line).next = .menu true
  · rw [shellStep_updated hnext]
    have hedge := handle_edge s line
    rw [hnext] at hedge
    obtain ⟨pInputLine, xConfig, flash, prompt⟩ := s
    show (handle _ line).xConfig.pPasswd = _
    cases hedge with
    | ipModeDone => exact pPasswd_ite rfl (pPasswd_ite rfl rfl)
    | reenterDone w => exact absurd rfl (h w)
    | _ => exact pPasswd_ite rfl rfl
  · rw [(shellStep_kept hnext).1]

/-- The new password is the line typed at `New Password`. -/
theorem newPassword_step (hp : s.prompt = .newPassword)
    (h : (shellStep s line).prompt = .reenterPassword w) :
    cString w.val = typed 31 line.keys ∧ typed 31 line.keys ≠ [] := by
  rw [shellStep_prompt, handle_newPassword hp, newPasswordPrompt_next] at h
  split at h
  · cases h
  · rename_i hnil
    obtain rfl := Prompt.reenterPassword.inj h
    exact ⟨cString_shellGetLine_replicate (by decide) _, hnil⟩

theorem newPassword_asks (hp : s.prompt = .newPassword) (h : typed 31 line.keys ≠ []) :
    ∃ w, (shellStep s line).prompt = .reenterPassword w := by
  rw [shellStep_prompt, handle_newPassword hp, newPasswordPrompt_next, if_neg h]
  exact ⟨_, rfl⟩

theorem isPassword_typed {keys : List Byte} (h : typed 31 keys ≠ []) :
    IsPassword (typed 31 keys) :=
  ⟨h, length_typed_le 31 keys, fun _ => printable_typed⟩

/-- The login prompt comes up behind a `?` in a cleared buffer. -/
theorem command_step (hp : s.prompt = .command)
    (hbuf : s.pInputLine = .replicate cmdMAX_INPUT_SIZE 0)
    (h : (shellStep s line).prompt = .password) :
    (shellStep s line).pInputLine.val =
      ascii '?' :: List.replicate (cmdMAX_INPUT_SIZE - 1) 0 := by
  have hnext : (handle s line).next ≠ .top := by
    intro htop
    rw [shellStep_prompt, htop] at h
    cases h
  rw [shellStep_pInputLine hnext]
  rw [handle_command hp, commandPrompt] at hnext ⊢
  dsimp only at hnext ⊢
  split at hnext
  · rename_i hquestion
    obtain ⟨hlen, hfirst⟩ := hquestion
    rw [if_pos ⟨hlen, hfirst⟩]
    rw [shellGetLine_length (Nat.le_refl _)] at hlen
    obtain ⟨c, hc⟩ := List.length_eq_one_iff.mp hlen
    have hpeak := length_typed_le_peak cmdMAX_INPUT_SIZE line.keys
    have hmax := peak_le cmdMAX_INPUT_SIZE line.keys
    have hval := shellGetLine_val (Nat.le_refl _) s.pInputLine line.keys
    have hzero : s.pInputLine.val = List.replicate cmdMAX_INPUT_SIZE 0 := by rw [hbuf]; rfl
    rw [hlen] at hpeak
    rw [hzero, hlen, hc, List.drop_replicate, List.replicate_append_replicate,
      show peak cmdMAX_INPUT_SIZE line.keys - 1 +
        (cmdMAX_INPUT_SIZE - peak cmdMAX_INPUT_SIZE line.keys) =
          cmdMAX_INPUT_SIZE - 1 by omega] at hval
    rw [hval] at hfirst ⊢
    have hc' : c = ascii '?' := hfirst
    rw [hc']
    rfl
  · exact absurd rfl hnext

/-- A step keeps the invariant. -/
theorem authInv_step (h : AuthInv s) (line : Line) : AuthInv (shellStep s line) := by
  have hedge := handle_edge s line
  have hprompt := shellStep_prompt s line
  refine ⟨?_, fun w hw => ?_, fun hcommand => ?_, fun hpassword => ?_⟩
  · by_cases hre : ∃ w, s.prompt = .reenterPassword w
    · obtain ⟨w, hw⟩ := hre
      rw [reenterPassword_step hw (h.new w hw)]
      split
      · exact h.new w hw
      · exact h.stored
    · rw [storedPassword, shellStep_pPasswd (fun w hw => hre ⟨w, hw⟩)]
      exact h.stored
  · obtain ⟨htyped, hnil⟩ :=
      newPassword_step (hedge.of_reenterPassword (hprompt.symm.trans hw)) hw
    rw [htyped]
    exact isPassword_typed hnil
  · exact shellStep_pInputLine_top (hedge.top_of_command (hprompt.symm.trans hcommand))
  · have hp := hedge.of_password (hprompt.symm.trans hpassword)
    exact command_step hp (h.command hp) hpassword

theorem authInv_foldl (h : AuthInv s) (lines : List Line) : AuthInv (shellRun s lines) := by
  induction lines generalizing s with
  | nil => exact h
  | cons line lines ih => exact ih (authInv_step h line)

/-- Every boot with a password establishes the invariant. -/
theorem authInv_of_init (hboot : shell.init s)
    (hpw : IsPassword (storedPassword s.xConfig)) : AuthInv s := by
  have hprompt := prompt_of_init hboot
  obtain ⟨hal, malloc, flash, rfl⟩ := hboot
  refine ⟨hpw, fun w hw => ?_, fun _ => rfl, fun hp => ?_⟩
  · rw [hprompt] at hw
    cases hw
  · rw [hprompt] at hp
    cases hp

/-! ## Misreading -/

/-- A comparison with `w` that comes out differently for `pInputLine` and for the
line typed: something is left over behind the line, and either the line is `w`, or
what is left over completes it. -/
def MisreadAs (s : ShellState) (ulMaxLength : Nat) (line : Line) (w : List Byte) : Prop :=
  typed ulMaxLength line.keys ≠ [] ∧
    leftover s.pInputLine ulMaxLength line.keys line.afterInputLine ≠ [] ∧
    (typed ulMaxLength line.keys = w ∨ entered s ulMaxLength line = w)

/-- The lines a comparison of the shell goes wrong on.  At the login it is the
empty line alone, taken for the `?` before it. -/
def Misread (s : ShellState) (line : Line) : Prop :=
  match s.prompt with
  | .password =>
      storedPassword s.xConfig = [ascii '?'] ∧ peak cmdMAX_INPUT_SIZE line.keys = 0
  | .oldPassword => MisreadAs s cmdMAX_INPUT_SIZE line (storedPassword s.xConfig)
  | .reenterPassword w => MisreadAs s (cmdMAX_INPUT_SIZE - 1) line (cString w.val)
  | _ => False

theorem not_misread_command (hp : s.prompt = .command) : ¬ Misread s line := by
  unfold Misread
  rw [hp]
  exact not_false

theorem misread_password_iff (hp : s.prompt = .password) :
    Misread s line ↔ storedPassword s.xConfig = [ascii '?'] ∧
      peak cmdMAX_INPUT_SIZE line.keys = 0 := by
  unfold Misread
  rw [hp]

theorem misread_oldPassword_iff (hp : s.prompt = .oldPassword) :
    Misread s line ↔ MisreadAs s cmdMAX_INPUT_SIZE line (storedPassword s.xConfig) := by
  unfold Misread
  rw [hp]

theorem misread_reenterPassword_iff (hp : s.prompt = .reenterPassword w) :
    Misread s line ↔ MisreadAs s (cmdMAX_INPUT_SIZE - 1) line (cString w.val) := by
  unfold Misread
  rw [hp]

/-- Away from those lines the shell compares the line typed. -/
theorem matches_iff {ulMaxLength : Nat} {w : List Byte} (hw : w ≠ [])
    (h : ¬ MisreadAs s ulMaxLength line w) :
    Matches s ulMaxLength line w ↔ typed ulMaxLength line.keys = w := by
  rw [Matches]
  by_cases hnil : typed ulMaxLength line.keys = []
  · rw [hnil]
    exact ⟨fun hm => absurd rfl hm.1, fun heq => absurd heq.symm hw⟩
  · have hread : entered s ulMaxLength line = w ↔ typed ulMaxLength line.keys = w :=
      line_read_iff.mpr fun hbad => h ⟨hnil, hbad⟩
    rw [hread]
    exact ⟨fun hm => hm.2, fun heq => ⟨hnil, heq⟩⟩

theorem leftover_of_length_eq {n ulMaxLength : Nat} {pLine : Bytes n} {keys after : List Byte}
    (h : (typed ulMaxLength keys).length = peak ulMaxLength keys) :
    leftover pLine ulMaxLength keys after =
      cString (pLine.val.drop (peak ulMaxLength keys) ++ after) := by
  rw [leftover, if_neg (by omega)]

/-- So it does at the login. -/
theorem login_iff (hinv : AuthInv s) (hp : s.prompt = .password) (h : ¬ Misread s line) :
    entered s cmdMAX_INPUT_SIZE line = storedPassword s.xConfig ↔
      typed cmdMAX_INPUT_SIZE line.keys = storedPassword s.xConfig := by
  rw [misread_password_iff hp] at h
  have hle := length_typed_le_peak cmdMAX_INPUT_SIZE line.keys
  have hmax := peak_le cmdMAX_INPUT_SIZE line.keys
  have hshort := hinv.stored.length_le
  have hsize : cmdMAX_INPUT_SIZE = 50 := rfl
  have hbuf := hinv.login hp
  rw [entered]
  rcases Nat.lt_or_eq_of_le hle with hlt | heq
  · rw [leftover, if_pos hlt, List.append_nil]
  · rw [leftover_of_length_eq heq, hbuf]
    rcases Nat.eq_zero_or_pos (peak cmdMAX_INPUT_SIZE line.keys) with hzero | hpos
    · -- nothing was typed: the string is the `?` of the command prompt
      have hnil : typed cmdMAX_INPUT_SIZE line.keys = [] :=
        List.length_eq_zero_iff.mp (heq.trans hzero)
      have hquestion : cString ((ascii '?' :: List.replicate (cmdMAX_INPUT_SIZE - 1) 0) ++
          line.afterInputLine) = [ascii '?'] := rfl
      rw [hzero, List.drop_zero, hquestion, hnil, List.nil_append]
      exact ⟨fun hq => absurd ⟨hq.symm, hzero⟩ h,
        fun hq => absurd hq.symm hinv.stored.nonempty⟩
    · rcases Nat.lt_or_eq_of_le hmax with hroom | hfull
      · -- the line is followed by a NUL
        obtain ⟨k, hk⟩ : ∃ k, peak cmdMAX_INPUT_SIZE line.keys = k + 1 :=
          ⟨_, (Nat.succ_pred_eq_of_pos hpos).symm⟩
        rw [hk, List.drop_succ_cons, List.drop_replicate,
          show cmdMAX_INPUT_SIZE - 1 - k = (cmdMAX_INPUT_SIZE - 2 - k) + 1 by omega,
          List.replicate_succ, List.cons_append, cString_zero_cons, List.append_nil]
      · -- the line fills the buffer, and is longer than any password
        have hlong : (typed cmdMAX_INPUT_SIZE line.keys).length = 50 := heq.trans hfull
        constructor
        · intro hq
          rw [← hq, List.length_append] at hshort
          omega
        · intro hq
          rw [← hq] at hshort
          omega

/-! ## Sessions -/

/-- Inside the menu loop. -/
def Prompt.InMenu : Prompt → Prop
  | .command => False
  | .password => False
  | .stopped => False
  | _ => True

/-- The last three lines answered `Old Password` with the password, and gave `w`
as the new one twice. -/
def PasswordEntered (s₀ : ShellState) (lines : List Line) (w : List Byte) : Prop :=
  ∃ before old new again,
    lines = before ++ [old, new, again] ∧
      (shellRun s₀ before).prompt = .oldPassword ∧
      typed cmdMAX_INPUT_SIZE old.keys = storedPassword (shellRun s₀ before).xConfig ∧
      typed 31 new.keys = w ∧ typed (cmdMAX_INPUT_SIZE - 1) again.keys = w ∧ w ≠ []

/-- What one more line of a session may do: enter the menu with the password only,
and change the password to what was asked for only. -/
structure Authentic (s₀ : ShellState) (lines : List Line) (line : Line) : Prop where
  login : ¬ (shellRun s₀ lines).prompt.InMenu →
    (shellRun s₀ (lines ++ [line])).prompt.InMenu →
      (shellRun s₀ lines).prompt = .password ∧
        typed cmdMAX_INPUT_SIZE line.keys = storedPassword (shellRun s₀ lines).xConfig
  changed : ∀ w, PasswordEntered s₀ (lines ++ [line]) w →
    storedPassword (shellRun s₀ (lines ++ [line])).xConfig = w
  kept : (∀ w, ¬ PasswordEntered s₀ (lines ++ [line]) w) →
    storedPassword (shellRun s₀ (lines ++ [line])).xConfig =
      storedPassword (shellRun s₀ lines).xConfig

/-- The menu is entered at the login. -/
theorem Edge.login {p : Prompt} {next : Next} (h : Edge p next) (hp : ¬ p.InMenu)
    (hnext : next.prompt.InMenu) : p = .password ∧ next = .menu false := by
  cases h <;> first
    | exact ⟨rfl, rfl⟩
    | exact absurd trivial hp
    | exact hnext.elim

/-- A line at `Old Password`. -/
theorem oldPassword_step (hp : s.prompt = .oldPassword) (hinv : AuthInv s)
    (hclean : ¬ Misread s line) :
    (shellStep s line).prompt =
        (if typed cmdMAX_INPUT_SIZE line.keys = storedPassword s.xConfig then .newPassword
          else .menu) ∧
      storedPassword (shellStep s line).xConfig = storedPassword s.xConfig := by
  rw [misread_oldPassword_iff hp] at hclean
  constructor
  · rw [shellStep_prompt, handle_oldPassword hp, oldPasswordPrompt_next hinv.stored,
      apply_ite Next.prompt]
    exact if_congr (matches_iff hinv.stored.nonempty hclean) rfl rfl
  · rw [storedPassword, shellStep_pPasswd (fun w hw => by rw [hp] at hw; cases hw)]
    rfl

/-- A line at the re-enter prompt. -/
theorem reenterPassword_iff (hp : s.prompt = .reenterPassword w) (hinv : AuthInv s)
    (hclean : ¬ Misread s line) :
    storedPassword (shellStep s line).xConfig =
      if typed (cmdMAX_INPUT_SIZE - 1) line.keys = cString w.val then cString w.val
      else storedPassword s.xConfig := by
  have hw := hinv.new w hp
  rw [misread_reenterPassword_iff hp] at hclean
  rw [reenterPassword_step hp hw]
  exact if_congr (matches_iff hw.nonempty hclean) rfl rfl

/-- How a session comes to the re-enter prompt. -/
theorem reenter_history {s₀ : ShellState} {lines : List Line}
    (hstart : s₀.prompt = .command)
    (hp : (shellRun s₀ lines).prompt = .reenterPassword w) :
    ∃ before old new, lines = before ++ [old, new] ∧
      (shellRun s₀ before).prompt = .oldPassword ∧
      (shellRun s₀ (before ++ [old])).prompt = .newPassword ∧
      cString w.val = typed 31 new.keys := by
  rcases List.eq_nil_or_concat lines with rfl | ⟨init, new, hlines⟩
  · exact absurd (hstart.symm.trans hp) (by simp)
  · rw [List.concat_eq_append] at hlines
    subst hlines
    rw [shellRun_snoc] at hp
    have hnew : (shellRun s₀ init).prompt = .newPassword :=
      (handle_edge _ new).of_reenterPassword ((shellStep_prompt _ new).symm.trans hp)
    rcases List.eq_nil_or_concat init with rfl | ⟨before, old, hinit⟩
    · exact absurd (hstart.symm.trans hnew) (by simp)
    · rw [List.concat_eq_append] at hinit
      subst hinit
      have hstep := hnew
      rw [shellRun_snoc] at hstep
      have hold : (shellRun s₀ before).prompt = .oldPassword :=
        (handle_edge _ old).of_newPassword ((shellStep_prompt _ old).symm.trans hstep)
      refine ⟨before, old, new, by simp, hold, hnew, ?_⟩
      exact (newPassword_step hnew hp).1

/-- No line of a session is misread. -/
def Clean (s₀ : ShellState) (lines : List Line) : Prop :=
  ∀ before line after, lines = before ++ line :: after →
    ¬ Misread (shellRun s₀ before) line

theorem clean_of_run {s₀ t : ShellState} {lines : List Line}
    (h : (shell.restrict fun s line => ¬ Misread s line).Run s₀ lines t) :
    Clean s₀ lines := by
  intro before line after hsplit
  rw [hsplit] at h
  exact h.restrict_ofFun_at

theorem Clean.last {s₀ : ShellState} {lines : List Line}
    (h : Clean s₀ (lines ++ [line])) : ¬ Misread (shellRun s₀ lines) line :=
  h lines line [] rfl

/-- The menu is entered with the password typed at the login. -/
theorem typed_of_login (hinv : AuthInv s) (hp : s.prompt = .password)
    (hclean : ¬ Misread s line) (hnext : (handle s line).next = .menu false) :
    typed cmdMAX_INPUT_SIZE line.keys = storedPassword s.xConfig := by
  rw [← login_iff hinv hp hclean]
  rw [handle_password hp, passwordPrompt_next hinv.stored] at hnext
  by_contra hne
  rw [if_neg hne] at hnext
  cases hnext

section

variable {s₀ : ShellState} {lines : List Line}
  (hinv : ∀ lines, AuthInv (shellRun s₀ lines)) (hclean : Clean s₀ (lines ++ [line]))

include hinv hclean

/-- Three lines that answer item `p` rightly change the password. -/
theorem password_of_entered {w : List Byte} (h : PasswordEntered s₀ (lines ++ [line]) w) :
    storedPassword (shellRun s₀ (lines ++ [line])).xConfig = w := by
  obtain ⟨before, old, new, again, hsplit, hp, hold, hnew, hagain, hne⟩ := h
  have hsplit' : lines ++ [line] = (before ++ [old, new]) ++ [again] := by
    rw [hsplit]
    simp
  obtain ⟨hlines, hlast⟩ := List.append_inj' hsplit' rfl
  obtain rfl := List.singleton_inj.mp hlast
  have hstep := oldPassword_step hp (hinv before) (hclean before old [new, line] hsplit)
  rw [if_pos hold, ← shellRun_snoc] at hstep
  have hsome : typed 31 new.keys ≠ [] := by
    rw [hnew]
    exact hne
  obtain ⟨w', hw'⟩ := newPassword_asks hstep.1 hsome
  have hcopy := (newPassword_step hstep.1 hw').1
  rw [← shellRun_snoc, List.append_assoc, List.singleton_append, ← hlines] at hw'
  rw [shellRun_snoc, reenterPassword_iff hw' (hinv lines) hclean.last,
    if_pos (by rw [hagain, hcopy, hnew]), hcopy, hnew]

/-- Without them it stays. -/
theorem password_of_not_entered (hstart : s₀.prompt = .command)
    (h : ∀ w, ¬ PasswordEntered s₀ (lines ++ [line]) w) :
    storedPassword (shellRun s₀ (lines ++ [line])).xConfig =
      storedPassword (shellRun s₀ lines).xConfig := by
  rw [shellRun_snoc]
  by_cases hre : ∃ w, (shellRun s₀ lines).prompt = .reenterPassword w
  · obtain ⟨w, hw⟩ := hre
    obtain ⟨before, old, new, hlines, hp, hnew, hcopy⟩ := reenter_history hstart hw
    rw [reenterPassword_iff hw (hinv lines) hclean.last]
    refine if_neg fun hagain => h (cString w.val) ?_
    have hsplit : lines ++ [line] = before ++ [old, new, line] := by
      rw [hlines]
      simp
    have hstep := oldPassword_step hp (hinv before) (hclean before old [new, line] hsplit)
    rw [← shellRun_snoc, hnew] at hstep
    refine ⟨before, old, new, line, hsplit, hp, ?_, hcopy.symm, hagain,
      ((hinv lines).new w hw).nonempty⟩
    by_contra hne
    rw [if_neg hne] at hstep
    cases hstep.1
  · rw [storedPassword, shellStep_pPasswd (fun w hw => hre ⟨w, hw⟩)]
    rfl

end

/-- In a session none of whose lines is misread, the menu is entered with the
password only and the password changed as asked for only. -/
theorem authentic_of_not_misread {s₀ t : ShellState} {lines : List Line} {line : Line}
    (hboot : shell.init s₀) (hpw : IsPassword (storedPassword s₀.xConfig))
    (hrun : (shell.restrict fun s line => ¬ Misread s line).Run s₀ (lines ++ [line]) t) :
    Authentic s₀ lines line := by
  have hstart := prompt_of_init hboot
  have hinv := authInv_foldl (authInv_of_init hboot hpw)
  have hclean := clean_of_run hrun
  refine ⟨fun hout hin => ?_, fun w hw => password_of_entered hinv hclean hw,
    password_of_not_entered hinv hclean hstart⟩
  rw [shellRun_snoc, shellStep_prompt] at hin
  obtain ⟨hp, hnext⟩ := (handle_edge _ line).login hout hin
  exact ⟨hp, typed_of_login (hinv lines) hp hclean.last hnext⟩

/-- The first login, with the default password. -/
theorem authentic_first_login :
    Authentic firstBoot [.ofText "?" (by decide)] (.ofText "posudo" (by decide)) := by
  have hstored : storedPassword firstBoot.xConfig = literal "posudo" := by decide +kernel
  have hpw : IsPassword (storedPassword firstBoot.xConfig) := by
    rw [hstored]
    exact ⟨by decide, by decide, by decide⟩
  have hlogin : ¬ Misread (shellStep firstBoot (.ofText "?" (by decide)))
      (.ofText "posudo" (by decide)) := by
    rw [misread_password_iff (by decide +kernel)]
    decide +kernel
  exact authentic_of_not_misread init_firstBoot hpw
    (.cons ⟨not_misread_command (prompt_of_init init_firstBoot), rfl⟩
      (.cons ⟨hlogin, rfl⟩ (.nil _)))

/-- Behind a login with the default password, the single letter `p` is taken for
it at `Old Password`. -/
theorem password_changed_without_old :
    ¬ Authentic firstBoot [.ofText "?" (by decide), .ofText "posudo" (by decide),
      .ofText "p" (by decide), .ofText "p" (by decide), .ofText "newpass" (by decide)]
      (.ofText "newpass" (by decide)) := by
  intro hauthentic
  refine absurd (hauthentic.kept ?_) (by decide +kernel)
  rintro w ⟨before, old, new, again, hsplit, -, hold, -⟩
  obtain ⟨rfl, htail⟩ := List.append_inj'
    (show [.ofText "?" (by decide), .ofText "posudo" (by decide), .ofText "p" (by decide)] ++
      [.ofText "p" (by decide), .ofText "newpass" (by decide),
        .ofText "newpass" (by decide)] = before ++ [old, new, again] from hsplit) rfl
  obtain rfl := (List.cons.inj htail).1
  exact absurd hold (by decide +kernel)

end BillCounter.Shell
