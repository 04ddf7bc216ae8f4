import BillCounter.Shell.Console

/-!
# The password and the console

The stored password is only ever compared: of two shells that differ in nothing else, and whose
comparisons come to the same, the console shows the same.  A password that is typed stays in
`pInputLine`, and item `1` copies it from there to the serial number, which is shown.
-/

namespace BillCounter.Shell

open BillCounter.Lib.RawBytes
open BillCounter.Lib.CString
open BillCounter.Driver
open BillCounter.Serial (WriterCall)
open BillCounter.Storage

variable {s t : ShellState} {line : Line}

/-! ## Shells that differ in the password -/

/-- The same configuration but for the password and the check sum. -/
structure SameButPassword (c d : Config) : Prop where
  pSerialNumber : d.pSerialNumber = c.pSerialNumber
  padding : d.padding = c.padding
  xNet : d.xNet = c.xNet
  xServer : d.xServer = c.xServer

/-- The same shell but for the password and what is in flash. -/
structure Alike (s t : ShellState) : Prop where
  pInputLine : t.pInputLine = s.pInputLine
  settings : SameButPassword s.xConfig t.xConfig
  prompt : t.prompt = s.prompt

structure AlikeOutcome (o o' : Outcome) : Prop where
  pInputLine : o'.pInputLine = o.pInputLine
  settings : SameButPassword o.xConfig o'.xConfig
  next : o'.next = o.next

/-- The prompts at which the stored password is compared. -/
def Prompt.compares : Prompt → Bool
  | .password | .oldPassword => true
  | _ => false

theorem SameButPassword.withCRC {c d : Config} (h : SameButPassword c d) :
    SameButPassword c.withCRC d.withCRC :=
  ⟨h.pSerialNumber, h.padding, h.xNet, h.xServer⟩

theorem alike_ite {p : Prop} [Decidable p] {a b a' b' : Outcome} (ha : AlikeOutcome a a')
    (hb : AlikeOutcome b b') : AlikeOutcome (if p then a else b) (if p then a' else b') := by
  split
  · exact ha
  · exact hb

theorem alike_const {c d : Config} (h : SameButPassword c d) (pInputLine : Bytes cmdMAX_INPUT_SIZE)
    (next : Next) : AlikeOutcome ⟨pInputLine, c, next⟩ ⟨pInputLine, d, next⟩ := ⟨rfl, h, rfl⟩

/-- A comparison of the password decides about the next prompt, and nothing else. -/
theorem passwordPrompt_parts (s : ShellState) (line : Line) :
    (passwordPrompt s line).pInputLine =
        (shellGetLine s.pInputLine cmdMAX_INPUT_SIZE line.keys).1 ∧
      (passwordPrompt s line).xConfig = s.xConfig := by
  unfold passwordPrompt
  dsimp only
  split <;> exact ⟨rfl, rfl⟩

theorem oldPasswordPrompt_parts (s : ShellState) (line : Line) :
    (oldPasswordPrompt s line).pInputLine =
        (shellGetLine s.pInputLine cmdMAX_INPUT_SIZE line.keys).1 ∧
      (oldPasswordPrompt s line).xConfig = s.xConfig := by
  unfold oldPasswordPrompt
  dsimp only
  split
  · exact ⟨rfl, rfl⟩
  · split <;> exact ⟨rfl, rfl⟩

theorem alike_of_parts {o o' : Outcome} {b : Bytes cmdMAX_INPUT_SIZE} {c d : Config}
    (h : o.pInputLine = b ∧ o.xConfig = c) (h' : o'.pInputLine = b ∧ o'.xConfig = d)
    (hsame : SameButPassword c d) (hnext : o.next = o'.next) : AlikeOutcome o o' where
  pInputLine := h'.1.trans h.1.symm
  settings := by
    rw [h.2, h'.2]
    exact hsame
  next := hnext.symm

/-- The same line does the same, if the comparison of the password comes to the same. -/
theorem handle_alike (h : Alike s t)
    (hnext : s.prompt.compares = true → (handle s line).next = (handle t line).next) :
    AlikeOutcome (handle s line) (handle t line) := by
  obtain ⟨pInputLine, ⟨crc, pw, sn, pad, net, srv⟩, flash, prompt⟩ := s
  obtain ⟨pInputLine', ⟨crc', pw', sn', pad', net', srv'⟩, flash', prompt'⟩ := t
  obtain ⟨rfl, ⟨rfl, rfl, rfl, rfl⟩, rfl⟩ := h
  have hsame : SameButPassword ⟨crc, pw, sn', pad', net', srv'⟩
      ⟨crc', pw', sn', pad', net', srv'⟩ := ⟨rfl, rfl, rfl, rfl⟩
  have hconst := alike_const hsame
  cases prompt' with
  | command => exact alike_ite (hconst _ _) (hconst _ _)
  | password =>
      exact alike_of_parts (passwordPrompt_parts _ line) (passwordPrompt_parts _ line) hsame
        (hnext rfl)
  | oldPassword =>
      exact alike_of_parts (oldPasswordPrompt_parts _ line) (oldPasswordPrompt_parts _ line) hsame
        (hnext rfl)
  | menu => exact alike_ite (hconst _ _) (hconst _ _)
  | ipMode =>
      exact alike_ite ⟨rfl, ⟨rfl, rfl, rfl, rfl⟩, rfl⟩ (alike_ite (hconst _ _) (hconst _ _))
  | ipAddress | netmask _ | gateway _ _ =>
      show AlikeOutcome (addressPrompt _ line _ _) (addressPrompt _ line _ _)
      unfold addressPrompt
      dsimp only
      split <;> exact hconst _ _
  | confirmNetwork _ _ _ | confirmServerIP _ | confirmPort _ | confirmSerial _ =>
      exact alike_ite ⟨rfl, ⟨rfl, rfl, rfl, rfl⟩, rfl⟩ (hconst _ _)
  | restart | quit => exact alike_ite (hconst _ _) (hconst _ _)
  | mac => exact alike_ite ⟨rfl, ⟨rfl, rfl, rfl, rfl⟩, rfl⟩ (hconst _ _)
  | serverIP =>
      show AlikeOutcome (serverIPPrompt _ line) (serverIPPrompt _ line)
      unfold serverIPPrompt
      dsimp only
      split <;> exact hconst _ _
  | port =>
      refine alike_ite ?_ (hconst _ _)
      dsimp only
      split
      · exact alike_ite (hconst _ _) (hconst _ _)
      · exact hconst _ _
  | newPassword => exact alike_ite (hconst _ _) (hconst _ _)
  | reenterPassword w =>
      exact alike_ite (hconst _ _)
        (alike_ite (hconst _ _) ⟨rfl, ⟨rfl, rfl, rfl, rfl⟩, rfl⟩)
  | serialNumber => exact alike_ite (hconst _ _) (hconst _ _)
  | stopped => exact hconst _ _

theorem shellStep_alike (h : Alike s t)
    (hnext : s.prompt.compares = true → (handle s line).next = (handle t line).next) :
    Alike (shellStep s line) (shellStep t line) := by
  have ho := handle_alike h hnext
  rw [shellStep, shellStep]
  generalize handle s line = o at ho ⊢
  generalize handle t line = o' at ho ⊢
  obtain ⟨pInputLine, c, next⟩ := o
  obtain ⟨pInputLine', c', next'⟩ := o'
  obtain ⟨rfl, hsame, rfl⟩ := ho
  cases next' with
  | ask p => exact ⟨rfl, hsame, rfl⟩
  | top => exact ⟨rfl, hsame, rfl⟩
  | reset => exact ⟨rfl, hsame, rfl⟩
  | menu b =>
      cases b with
      | false => exact ⟨rfl, hsame, rfl⟩
      | true =>
          refine ⟨rfl, ?_, rfl⟩
          show SameButPassword (configSave _ c _).2.1 (configSave _ c' _).2.1
          rw [configSave_xConfig, configSave_xConfig]
          exact hsame.withCRC

/-! ## What is shown -/

/-- What is behind the password in memory. -/
theorem drop_body (c : Config) :
    c.body.drop 32 = c.pSerialNumber.val ++ (c.padding.val ++ ((netConfigLayout c.xNet).val ++
      (serverConfigLayout c.xServer).val)) :=
  List.drop_left' c.pPasswd.property

theorem SameButPassword.serialNumberString {c d : Config} (h : SameButPassword c d)
    (afterConfig : List Byte) :
    serialNumberString d afterConfig = serialNumberString c afterConfig := by
  rw [Shell.serialNumberString, Shell.serialNumberString, drop_body, drop_body, h.pSerialNumber,
    h.padding, h.xNet, h.xServer]

theorem SameButPassword.promptText {c d : Config} (h : SameButPassword c d) (x : Fixed)
    (afterConfig : List Byte) (p : Prompt) :
    promptText x afterConfig d p = promptText x afterConfig c p := by
  cases p <;> simp only [Shell.promptText, h.xNet, h.xServer, h.serialNumberString afterConfig]

theorem SameButPassword.displayEnv {c d : Config} (h : SameButPassword c d) (pName : List Byte)
    (pInfos : List (List Byte)) (afterConfig : List Byte) :
    displayEnv pName pInfos afterConfig d = displayEnv pName pInfos afterConfig c := by
  have hserial := h.serialNumberString afterConfig
  rw [Shell.serialNumberString, Shell.serialNumberString] at hserial
  simp only [Shell.displayEnv, h.xNet, h.xServer, hserial]

theorem reply_alike (x : Fixed) (h : Alike s t)
    (ho : AlikeOutcome (handle s line) (handle t line)) : reply x t line = reply x s line := by
  unfold reply
  rw [h.prompt, h.pInputLine]
  generalize handle s line = o at ho ⊢
  generalize handle t line = o' at ho ⊢
  dsimp only
  rw [ho.next]
  cases s.prompt with
  | menu => simp only [h.settings.displayEnv]
  | mac => simp only [ho.settings.xNet]
  | confirmSerial p => simp only [ho.settings.serialNumberString]
  | _ => rfl

theorem output_alike (x : Fixed) (h : Alike s t)
    (hnext : s.prompt.compares = true → (handle s line).next = (handle t line).next) :
    output x t line = output x s line := by
  have ho := handle_alike h hnext
  have hstep := shellStep_alike h hnext
  rw [output, output, h.prompt, reply_alike x h ho, hstep.prompt,
    hstep.settings.promptText]

/-- The comparisons of the password in a session come to the same in both shells. -/
def SameAnswers (s t : ShellState) (lines : List Line) : Prop :=
  ∀ front line back, lines = front ++ line :: back → (shellRun s front).prompt.compares = true →
    (handle (shellRun s front) line).next = (handle (shellRun t front) line).next

/-- The console does not tell two shells apart that differ in the stored password only, as long
as every comparison of it comes to the same. -/
theorem stored_password_hidden (x : Fixed) {lines : List Line} (h : Alike s t)
    (hsame : SameAnswers s t lines) : transcript x s lines = transcript x t lines := by
  induction lines generalizing s t with
  | nil => rfl
  | cons line lines ih =>
      have hnext := hsame [] line lines rfl
      have hrest := ih (shellStep_alike h hnext) fun front l back hlines =>
        hsame (line :: front) l back (congrArg (line :: ·) hlines)
      rw [transcript, transcript, output_alike x h hnext, hrest]

/-- A login with nothing but zeros for a configuration. -/
def zeroLogin (pPasswd : Bytes 32) : ShellState where
  pInputLine := .replicate cmdMAX_INPUT_SIZE 0
  xConfig := { zeroConfig with pPasswd := pPasswd }
  flash := ⟨fun _ => 0xFF, true⟩
  prompt := .password

theorem stored_password_hidden_wrong :
    transcript ⟨literal "P16", []⟩ (zeroLogin (strcpy (.replicate 32 0) (literal "posudo")))
        [.ofText "wrong" (by decide)] =
      transcript ⟨literal "P16", []⟩ (zeroLogin (strcpy (.replicate 32 0) (literal "secret")))
        [.ofText "wrong" (by decide)] := by
  refine stored_password_hidden _ ⟨rfl, ⟨rfl, rfl, rfl, rfl⟩, rfl⟩ fun front line back h _ => ?_
  cases front with
  | nil =>
      obtain ⟨rfl, _⟩ := List.cons.inj h
      decide +kernel
  | cons l front => simp at h

/-! ## The password in `pInputLine` -/

theorem keys_of_printable {c : Byte} (h : printable c = true) : erases c = false ∧ c ≠ 0x0D := by
  revert h
  revert c
  decide

/-- A line of one character goes over the first one of what was there. -/
theorem shellGetLine_one {n ulMaxLength : Nat} {c : Byte} (hc : printable c = true)
    (hroom : 0 < ulMaxLength) (b : Bytes n) :
    shellGetLine b ulMaxLength [c] = (store b 0 c, 1) := by
  obtain ⟨herases, hcr⟩ := keys_of_printable hc
  show getLineStep ulMaxLength (b, 0) c = _
  rw [getLineStep, herases, if_neg Bool.false_ne_true, if_neg hcr, if_pos hc, if_pos hroom]

theorem cString_store_zero {n : Nat} {b : Bytes n} {c d : Byte} {w : List Byte} (hc : c ≠ 0)
    (h : cString b.val = d :: w) : cString (store b 0 c).val = c :: w := by
  show cString (b.val.set 0 c) = _
  cases hb : b.val with
  | nil =>
      rw [hb] at h
      cases h
  | cons e bs =>
      rw [hb, cString, List.takeWhile_cons] at h
      split at h
      · rw [List.set_cons_zero, cString, List.takeWhile_cons, if_pos (by simpa using hc)]
        rw [(List.cons.inj h).2]
      · cases h

/-- A string that is shorter than its array is all in it. -/
theorem cString_of_append {as : List Byte} (bs : List Byte)
    (h : (cString (as ++ bs)).length < as.length) : cString as = cString (as ++ bs) := by
  by_cases hzero : (0 : Byte) ∈ as
  · exact (cString_append_of_lt (length_cString_lt hzero) bs).symm
  · rw [cString_append hzero, List.length_append] at h
    omega

variable {b : Bytes cmdMAX_INPUT_SIZE} {c : Config} {f : FlashState}

/-- An item is chosen. -/
theorem menu_step {k : Byte} {p : Prompt} (hkeys : line.keys = [k]) (hk : printable k = true)
    (hask : menuItem k = .ask p) :
    shellStep ⟨b, c, f, .menu⟩ line = ⟨store b 0 k, c, f, p⟩ := by
  have hfirst : (store b 0 k).val.getD 0 0 = k := store_getD (by decide)
  have hhandle : handle ⟨b, c, f, .menu⟩ line = ⟨store b 0 k, c, .ask p⟩ := by
    show menuPrompt _ line = _
    rw [menuPrompt, hkeys, shellGetLine_one hk (by decide)]
    show (if (1 : Nat) ≠ 1 then _ else _) = _
    rw [if_neg (by decide), hfirst, hask]
  rw [shellStep, hhandle, resume]

theorem ipMode_step (hkeys : line.keys = [ascii '1']) :
    shellStep ⟨b, c, f, .ipMode⟩ line = ⟨store b 0 (ascii '1'), c, f, .ipAddress⟩ := by
  have hfirst : (store b 0 (ascii '1')).val.getD 0 0 = ascii '1' := store_getD (by decide)
  have hhandle : handle ⟨b, c, f, .ipMode⟩ line =
      ⟨store b 0 (ascii '1'), c, .ask .ipAddress⟩ := by
    show ipModePrompt _ line = _
    rw [ipModePrompt, hkeys, shellGetLine_one (by decide) (by decide)]
    dsimp only
    rw [hfirst, if_neg (by decide), if_pos (by decide)]
  rw [shellStep, hhandle, resume]

/-- An empty line keeps an address. -/
theorem shellGetIP_nil (hkeys : line.keys = []) (pOldIP : BitVec 32) :
    shellGetIP pOldIP line = some pOldIP := by
  rw [shellGetIP, hkeys]
  rfl

theorem address_steps {l₁ l₂ l₃ : Line} (h₁ : l₁.keys = []) (h₂ : l₂.keys = [])
    (h₃ : l₃.keys = []) :
    shellRun ⟨b, c, f, .ipAddress⟩ [l₁, l₂, l₃] =
      ⟨b, c, f, .confirmNetwork c.xNet.xIPAddr c.xNet.xNetmask c.xNet.xGatewayIPAddr⟩ := by
  have hask : ∀ (l : Line) (p : Prompt) (pOldIP : BitVec 32) (ask : BitVec 32 → Prompt),
      l.keys = [] → handle ⟨b, c, f, p⟩ l = addressPrompt ⟨b, c, f, p⟩ l pOldIP ask →
      shellStep ⟨b, c, f, p⟩ l = ⟨b, c, f, ask pOldIP⟩ := by
    intro l p pOldIP ask hl hhandle
    rw [shellStep, hhandle, addressPrompt, shellGetIP_nil hl, resume]
  show shellStep (shellStep (shellStep _ l₁) l₂) l₃ = _
  rw [hask l₁ .ipAddress c.xNet.xIPAddr .netmask h₁ rfl,
    hask l₂ (.netmask _) c.xNet.xNetmask (.gateway _) h₂ rfl,
    hask l₃ (.gateway _ _) c.xNet.xGatewayIPAddr (.confirmNetwork _ _) h₃ rfl]

/-- The confirmation copies what is left of the password to the serial number. -/
theorem confirm_step {x y z : BitVec 32} {d : Byte} {w : List Byte}
    (hkeys : line.keys = [ascii 'n']) (hb : cString b.val = d :: w) (hlen : w.length < 49) :
    (shellStep ⟨b, c, f, .confirmNetwork x y z⟩ line).prompt = .menu ∧
      (shellStep ⟨b, c, f, .confirmNetwork x y z⟩ line).xConfig.pSerialNumber =
        strncpy c.pSerialNumber (ascii 'n' :: w) 31 := by
  have hstored : cString (store b 0 (ascii 'n')).val = ascii 'n' :: w :=
    cString_store_zero (by decide) hb
  have hstring : inputString (store b 0 (ascii 'n')) line = ascii 'n' :: w := by
    rw [inputString, cString_append_of_lt, hstored]
    rw [hstored, (store b 0 (ascii 'n')).property, List.length_cons, cmdMAX_INPUT_SIZE]
    omega
  have hne : strcasecmp (ascii 'n' :: w) (literal "y") ≠ 0 := by
    rw [strcasecmp, show literal "y" = [ascii 'y'] from rfl, compareBy, if_neg (by decide)]
    decide
  have hconfirms : confirms (store b 0 (ascii 'n')) line 1 = true := by
    rw [confirms, hstring]
    simpa using hne
  have hhandle : (handle ⟨b, c, f, .confirmNetwork x y z⟩ line).next = .menu true ∧
      (handle ⟨b, c, f, .confirmNetwork x y z⟩ line).xConfig.pSerialNumber =
        strncpy c.pSerialNumber (ascii 'n' :: w) 31 := by
    show (confirmPrompt 1 _ line _ _).next = _ ∧
      (confirmPrompt 1 _ line _ _).xConfig.pSerialNumber = _
    rw [confirmPrompt, hkeys, shellGetLine_one (by decide) (by decide)]
    dsimp only
    rw [if_pos hconfirms, hstring]
    exact ⟨rfl, rfl⟩
  rw [shellStep_updated hhandle.1]
  exact ⟨rfl, hhandle.2⟩

/-- What the serial number begins with is what is shown first. -/
theorem serialNumberString_strncpy {w : List Byte} {dest : Bytes 32} (hw : (0 : Byte) ∉ w)
    (hlen : w.length ≤ 31) (hcopied : c.pSerialNumber = strncpy dest w 31)
    (afterConfig : List Byte) : ∃ rest, serialNumberString c afterConfig = w ++ rest := by
  obtain ⟨rest, hval⟩ : ∃ rest, (strncpy dest w 31).val = w ++ rest := by
    rw [strncpy]
    dsimp only
    rw [List.take_of_length_le hlen, List.append_assoc, List.take_append,
      List.take_of_length_le (by omega)]
    exact ⟨_, rfl⟩
  rw [serialNumberString, drop_body, hcopied, hval, List.append_assoc, List.append_assoc,
    cString_append hw]
  exact ⟨_, rfl⟩

/-- The password as it is typed is in `pInputLine` behind the login. -/
theorem login_step (hp : s.prompt = .password) (hlogin : (handle s line).next = .menu false)
    (hpw : IsPassword (storedPassword s.xConfig)) :
    ∃ b, shellStep s line = ⟨b, s.xConfig, s.flash, .menu⟩ ∧
      cString b.val = storedPassword s.xConfig := by
  have hhandle : handle s line = passwordPrompt s line := handle_password hp
  have hentered : entered s cmdMAX_INPUT_SIZE line = storedPassword s.xConfig := by
    rw [hhandle, passwordPrompt_next hpw] at hlogin
    by_contra hne
    rw [if_neg hne] at hlogin
    cases hlogin
  have hstring := inputString_eq s (Nat.le_refl cmdMAX_INPUT_SIZE) line
  rw [hentered, inputString] at hstring
  have hshort := hpw.length_le
  refine ⟨(shellGetLine s.pInputLine cmdMAX_INPUT_SIZE line.keys).1, ?_, ?_⟩
  · have hparts := passwordPrompt_parts s line
    rw [shellStep, hhandle]
    rw [hhandle] at hlogin
    generalize passwordPrompt s line = o at hlogin hparts ⊢
    obtain ⟨pInputLine, xConfig, next⟩ := o
    obtain rfl : next = .menu false := hlogin
    obtain ⟨rfl, rfl⟩ := hparts
    rfl
  · rw [cString_of_append line.afterInputLine, hstring]
    rw [hstring, Bytes.property, cmdMAX_INPUT_SIZE]
    omega

theorem transcript_append (x : Fixed) (s : ShellState) (as bs : List Line) :
    transcript x s (as ++ bs) = transcript x s as ++ transcript x (shellRun s as) bs := by
  induction as generalizing s with
  | nil => rfl
  | cons a as ih =>
      rw [List.cons_append, transcript, ih, transcript, List.append_assoc]
      rfl

/-- `SERIAL_printf` sends what fits its buffer. -/
theorem isPrefix_pData {text rest : List Byte} (htext : (0 : Byte) ∉ text)
    (hlen : text.length ≤ 127) : text <+: (WriterCall.printf (text ++ rest)).pData := by
  show text <+: cString ((text ++ rest).take 127)
  rw [List.take_append, List.take_of_length_le hlen, cString_append htext]
  exact List.prefix_append ..

/-- Seven lines behind a login bring all of the password but its first character to the
console: item `1` with the addresses as they are, the reply `n`, and item `s`. -/
theorem password_shown (x : Fixed) (hp : s.prompt = .password)
    (hlogin : (handle s line).next = .menu false) (hpw : IsPassword (storedPassword s.xConfig))
    {lines : List Line} (hkeys : lines.map Line.keys =
      [literal "1", literal "1", [], [], [], literal "n", literal "s"]) :
    literal "Set Serial Number (n" ++ (storedPassword s.xConfig).tail <:+:
      (transcript x s (line :: lines)).flatMap WriterCall.pData := by
  obtain ⟨l₁, lines, rfl, h₁, hkeys⟩ := List.map_eq_cons_iff.1 hkeys
  obtain ⟨l₂, lines, rfl, h₂, hkeys⟩ := List.map_eq_cons_iff.1 hkeys
  obtain ⟨l₃, lines, rfl, h₃, hkeys⟩ := List.map_eq_cons_iff.1 hkeys
  obtain ⟨l₄, lines, rfl, h₄, hkeys⟩ := List.map_eq_cons_iff.1 hkeys
  obtain ⟨l₅, lines, rfl, h₅, hkeys⟩ := List.map_eq_cons_iff.1 hkeys
  obtain ⟨l₆, lines, rfl, h₆, hkeys⟩ := List.map_eq_cons_iff.1 hkeys
  obtain ⟨l₇, lines, rfl, h₇, hkeys⟩ := List.map_eq_cons_iff.1 hkeys
  obtain rfl : lines = [] := List.map_eq_nil_iff.1 hkeys
  obtain ⟨b, hstep, hb⟩ := login_step hp hlogin hpw
  obtain ⟨d, w, hw⟩ := List.exists_cons_of_ne_nil hpw.nonempty
  have hzero := zero_not_mem_storedPassword s.xConfig
  have hlen := hpw.length_le
  rw [hw] at hb hzero hlen ⊢
  rw [List.length_cons] at hlen
  rw [List.mem_cons, not_or] at hzero
  -- up to the confirmation nothing changes but the first character of `pInputLine`
  have hfront : shellRun s [line, l₁, l₂, l₃, l₄, l₅] =
      ⟨store (store b 0 (ascii '1')) 0 (ascii '1'), s.xConfig, s.flash,
        .confirmNetwork s.xConfig.xNet.xIPAddr s.xConfig.xNet.xNetmask
          s.xConfig.xNet.xGatewayIPAddr⟩ := by
    show shellRun (shellStep (shellStep (shellStep s line) l₁) l₂) [l₃, l₄, l₅] = _
    rw [hstep, menu_step (k := ascii '1') (p := .ipMode) h₁ (by decide) (by decide),
      ipMode_step h₂, address_steps h₃ h₄ h₅]
  have hinput : cString (store (store b 0 (ascii '1')) 0 (ascii '1')).val = ascii '1' :: w :=
    cString_store_zero (by decide) (cString_store_zero (by decide) hb)
  obtain ⟨hmenu, hserial⟩ := confirm_step (c := s.xConfig) (f := s.flash)
    (x := s.xConfig.xNet.xIPAddr) (y := s.xConfig.xNet.xNetmask)
    (z := s.xConfig.xNet.xGatewayIPAddr) h₆ hinput (by omega)
  rw [← hfront] at hmenu hserial
  have hsplit : transcript x s (line :: [l₁, l₂, l₃, l₄, l₅, l₆, l₇]) =
      transcript x s [line, l₁, l₂, l₃, l₄, l₅, l₆] ++
        output x (shellStep (shellRun s [line, l₁, l₂, l₃, l₄, l₅]) l₆) l₇ := by
    rw [show line :: [l₁, l₂, l₃, l₄, l₅, l₆, l₇] = [line, l₁, l₂, l₃, l₄, l₅, l₆] ++ [l₇] from rfl,
      transcript_append]
    exact congrArg _ (List.append_nil _)
  rw [hsplit, List.flatMap_append]
  refine List.infix_append_of_infix_right ?_
  generalize shellStep (shellRun s [line, l₁, l₂, l₃, l₄, l₅]) l₆ = u at hmenu hserial ⊢
  obtain ⟨b', c', f', prompt⟩ := u
  obtain rfl : prompt = .menu := hmenu
  obtain ⟨rest, hshown⟩ := serialNumberString_strncpy (List.mem_cons.not.2 (not_or.2
    ⟨by decide, hzero.2⟩)) (by simpa using hlen) hserial l₇.afterConfig
  have hprompt : promptText x l₇.afterConfig (shellStep ⟨b', c', f', .menu⟩ l₇).xConfig
      (shellStep ⟨b', c', f', .menu⟩ l₇).prompt =
        [.printf (literal "Set Serial Number (n" ++ w ++ (rest ++ literal ") : "))] := by
    rw [menu_step (k := ascii 's') (p := .serialNumber) h₇ (by decide) (by decide)]
    show [ask (literal "Set Serial Number ") (serialNumberString c' _)] = _
    rw [ask, hshown, show literal "Set Serial Number (n" =
      literal "Set Serial Number " ++ literal "(" ++ [ascii 'n'] from rfl]
    simp only [List.append_assoc, List.cons_append, List.nil_append]
  have hfits : (literal "Set Serial Number (n" ++ w).length ≤ 127 := by
    rw [List.length_append, show (literal "Set Serial Number (n").length = 20 from rfl]
    omega
  rw [output, if_neg (by simp), hprompt, List.flatMap_append]
  refine List.infix_append_of_infix_right ?_
  rw [List.flatMap_singleton]
  refine (isPrefix_pData ?_ hfits).isInfix
  rw [List.mem_append, not_or]
  exact ⟨by decide, hzero.2⟩

theorem newline_not_mem_question : (0x0A : Byte) ∉ literal "?" := by
  decide

/-- The login of a board whose configuration page is still erased. -/
def firstLogin : ShellState := shellRun firstBoot [.ofText "?" newline_not_mem_question]

/-- Item `1` with the addresses as they are, the reply `n`, and item `s`. -/
def sevenLines : List Line :=
  [.ofText "1" (by decide), .ofText "1" (by decide), .ofText "" (by decide),
    .ofText "" (by decide), .ofText "" (by decide), .ofText "n" (by decide),
    .ofText "s" (by decide)]

theorem password_shown_posudo :
    literal "Set Serial Number (nosudo" <:+:
      (transcript ⟨literal "P16", []⟩ firstLogin
        (.ofText "posudo" (by decide) :: sevenLines)).flatMap WriterCall.pData := by
  have hstored : storedPassword firstLogin.xConfig = literal "posudo" := by
    decide +kernel
  have hpw : IsPassword (storedPassword firstLogin.xConfig) := by
    rw [hstored]
    exact ⟨by decide, by decide, by decide⟩
  have hkeys : sevenLines.map Line.keys =
      [literal "1", literal "1", [], [], [], literal "n", literal "s"] := rfl
  have hshown : _ <:+: (transcript ⟨literal "P16", []⟩ firstLogin
      (.ofText "posudo" (by decide) :: sevenLines)).flatMap WriterCall.pData :=
    password_shown _ (by decide +kernel) (by decide +kernel) hpw hkeys
  rw [hstored] at hshown
  exact hshown

end BillCounter.Shell
