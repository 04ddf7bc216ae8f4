import BillCounter.Shell.Control

/-!
# The (y/n) prompts

Six prompts ask for confirmation and share one test, `strcasecmp` used as if it
were true on equal strings.  What the test compares is not the reply either, but
the reply and whatever `pInputLine` held behind it.
-/

namespace BillCounter.Shell

open BillCounter.Lib.RawBytes
open BillCounter.Lib.CString
open BillCounter.Storage

variable {s : ShellState} {line : Line} {ulMaxLength : Nat}

/-- The six prompts, and how many characters they take. -/
def Prompt.replyLength : Prompt → Option Nat
  | .confirmNetwork _ _ _ => some 1
  | .confirmServerIP _ => some 1
  | .confirmPort _ => some 16
  | .confirmSerial _ => some 1
  | .restart => some 16
  | .quit => some 16
  | _ => none

/-- The single character `y` or `Y`. -/
def IsYes (reply : List Byte) : Prop := reply = [ascii 'y'] ∨ reply = [ascii 'Y']

instance (reply : List Byte) : Decidable (IsYes reply) :=
  inferInstanceAs (Decidable (_ ∨ _))

/-- The prepared change is in `xConfig` and `bUpdatedConfig` set, or the action
taken. -/
def Taken (s : ShellState) (line : Line) : Prop :=
  match s.prompt with
  | .confirmNetwork xIPAddr xNetmask xGatewayIPAddr =>
      (handle s line).next = .menu true ∧
        (handle s line).xConfig.xNet = { s.xConfig.xNet with
          bStatic := 1
          xIPAddr := xIPAddr
          xNetmask := xNetmask
          xGatewayIPAddr := xGatewayIPAddr }
  | .confirmServerIP xNewServerIP =>
      (handle s line).next = .menu true ∧
        (handle s line).xConfig.xServer = { s.xConfig.xServer with xIPAddr := xNewServerIP }
  | .confirmPort nPort =>
      (handle s line).next = .menu true ∧
        (handle s line).xConfig.xServer =
          { s.xConfig.xServer with nPort := nPort.setWidth 16 }
  | .confirmSerial pSerialNumber =>
      (handle s line).next = .menu true ∧
        (handle s line).xConfig.pSerialNumber =
          strncpy s.xConfig.pSerialNumber (cString pSerialNumber.val) 31
  | .restart => (handle s line).next = .reset
  | .quit => (handle s line).next = .top
  | _ => False

/-- Back to the menu, with nothing changed and nothing to save. -/
def Declined (s : ShellState) (line : Line) : Prop :=
  (handle s line).next = .menu false ∧ (handle s line).xConfig = s.xConfig

theorem Declined.not_taken (h : Declined s line) : ¬ Taken s line := by
  unfold Taken
  rw [h.1]
  cases s.prompt <;> simp

/-! ## The test -/

/-- The outcome of the test at a prompt of `ulMaxLength` characters. -/
def Passes (s : ShellState) (ulMaxLength : Nat) (line : Line) : Prop :=
  confirms (shellGetLine s.pInputLine ulMaxLength line.keys).1 line
    (shellGetLine s.pInputLine ulMaxLength line.keys).2 = true

theorem confirmPrompt_passes {commit : Bytes cmdMAX_INPUT_SIZE → Config} {next : Next}
    (h : Passes s ulMaxLength line) :
    confirmPrompt ulMaxLength s line commit next =
      ⟨(shellGetLine s.pInputLine ulMaxLength line.keys).1,
        commit (shellGetLine s.pInputLine ulMaxLength line.keys).1, next⟩ :=
  if_pos h

theorem confirmPrompt_fails {commit : Bytes cmdMAX_INPUT_SIZE → Config} {next : Next}
    (h : ¬ Passes s ulMaxLength line) :
    confirmPrompt ulMaxLength s line commit next =
      ⟨(shellGetLine s.pInputLine ulMaxLength line.keys).1, s.xConfig, .menu false⟩ :=
  if_neg h

/-- What is done at each of the six prompts. -/
theorem handle_confirm (h : s.prompt.replyLength = some ulMaxLength) (line : Line) :
    ∃ commit next, handle s line = confirmPrompt ulMaxLength s line commit next := by
  unfold handle
  revert h
  cases s.prompt <;> intro h <;> first
    | (cases h; exact ⟨_, _, rfl⟩)
    | cases h

theorem Passes.taken (hpass : Passes s ulMaxLength line)
    (h : s.prompt.replyLength = some ulMaxLength) : Taken s line := by
  obtain ⟨pInputLine, xConfig, flash, prompt⟩ := s
  cases prompt <;> cases h
  all_goals
    unfold Taken handle
    dsimp only
    simp only [confirmPrompt_passes hpass, and_self]

theorem declined_of_fails (hfail : ¬ Passes s ulMaxLength line)
    (h : s.prompt.replyLength = some ulMaxLength) : Declined s line := by
  obtain ⟨commit, next, hhandle⟩ := handle_confirm h line
  rw [Declined, hhandle, confirmPrompt_fails hfail]
  exact ⟨rfl, rfl⟩

theorem tolower_eq_zero {c : Byte} (h : tolower c = 0) : c = 0 := by
  revert h
  revert c
  decide

/-- One character and more behind it, compared with `"y"`. -/
theorem strcasecmp_y_iff {reply rest : List Byte} (hlen : reply.length = 1)
    (hreply : (0 : Byte) ∉ reply) (hrest : (0 : Byte) ∉ rest) :
    strcasecmp (reply ++ rest) (literal "y") = 0 ↔ IsYes reply ∧ rest = [] := by
  obtain ⟨c, rfl⟩ := List.length_eq_one_iff.mp hlen
  have hlower : ∀ c : Byte, tolower c = tolower (ascii 'y') ↔
      c = ascii 'y' ∨ c = ascii 'Y' := by decide
  have hzero : (0 : Byte) ∉ [c] ++ rest := by
    rw [List.mem_append, not_or]
    exact ⟨hreply, hrest⟩
  have hcompare := compareBy_eq_zero_iff (f := tolower) (fun _ => tolower_eq_zero) hzero
    (show (0 : Byte) ∉ literal "y" by decide)
  have hmap : ([c] ++ rest).map tolower = (literal "y").map tolower ↔
      tolower c = tolower (ascii 'y') ∧ rest = [] := by
    simp [literal]
  rw [strcasecmp, hcompare, hmap, hlower, IsYes]
  simp

/-- The test passes on any single character, unless the string in the buffer is
`y` or `Y`. -/
theorem passes_iff (hmax : ulMaxLength ≤ cmdMAX_INPUT_SIZE) :
    Passes s ulMaxLength line ↔
      (typed ulMaxLength line.keys).length = 1 ∧
        ¬ (IsYes (typed ulMaxLength line.keys) ∧
          leftover s.pInputLine ulMaxLength line.keys line.afterInputLine = []) := by
  have hrest : (0 : Byte) ∉
      leftover s.pInputLine ulMaxLength line.keys line.afterInputLine := by
    rw [leftover]
    split
    · exact List.not_mem_nil
    · exact zero_not_mem_cString _
  rw [Passes, confirms, shellGetLine_length hmax, inputString,
    cString_shellGetLine hmax, Bool.and_eq_true, beq_iff_eq, bne_iff_ne]
  constructor
  · rintro ⟨hlen, hne⟩
    exact ⟨hlen, fun h => hne
      ((strcasecmp_y_iff hlen (zero_not_mem_typed _ _) hrest).mpr h)⟩
  · rintro ⟨hlen, hno⟩
    exact ⟨hlen, fun h => hno
      ((strcasecmp_y_iff hlen (zero_not_mem_typed _ _) hrest).mp h)⟩

/-- Behind one character there is nothing when a backspace was used, or
`pInputLine[1]` was NUL already. -/
theorem leftover_eq_nil_iff (hlen : (typed ulMaxLength line.keys).length = 1) :
    leftover s.pInputLine ulMaxLength line.keys line.afterInputLine = [] ↔
      ¬ (peak ulMaxLength line.keys = 1 ∧ s.pInputLine.val.getD 1 0 ≠ 0) := by
  have hpeak := length_typed_le_peak ulMaxLength line.keys
  rw [hlen] at hpeak
  by_cases hone : peak ulMaxLength line.keys = 1
  · have hlt : peak ulMaxLength line.keys < cmdMAX_INPUT_SIZE := by
      rw [hone]
      decide
    rw [leftover_eq_nil_iff_of_lt hlt, hlen, hone]
    simp
  · rw [leftover, hlen, if_pos (by omega)]
    simp [hone]

/-! ## Confirmation -/

theorem taken_iff (h : s.prompt.replyLength = some ulMaxLength) :
    Taken s line ↔ Passes s ulMaxLength line := by
  constructor
  · intro htaken
    by_contra hfail
    exact (declined_of_fails hfail h).not_taken htaken
  · exact fun hpass => hpass.taken h

theorem declined_iff (h : s.prompt.replyLength = some ulMaxLength) :
    Declined s line ↔ ¬ Passes s ulMaxLength line := by
  constructor
  · exact fun hdeclined hpass => hdeclined.not_taken (hpass.taken h)
  · exact fun hfail => declined_of_fails hfail h

/-- What a reply at a (y/n) prompt should do.  The reply is the whole line typed, also at
the prompts that take one character of it. -/
structure Obeyed (s : ShellState) (line : Line) : Prop where
  yes : IsYes (lineTyped line.keys) → Taken s line
  no : ¬ IsYes (lineTyped line.keys) → Declined s line

theorem obeyed_iff_passes (h : s.prompt.replyLength = some ulMaxLength) :
    Obeyed s line ↔ (Passes s ulMaxLength line ↔ IsYes (lineTyped line.keys)) := by
  constructor
  · intro hobeyed
    constructor
    · intro hpass
      by_contra hno
      exact (declined_iff h).mp (hobeyed.no hno) hpass
    · exact fun hyes => (taken_iff h).mp (hobeyed.yes hyes)
  · intro hiff
    constructor
    · exact fun hyes => (taken_iff h).mpr (hiff.mpr hyes)
    · exact fun hno => (declined_iff h).mpr fun hpass => hno (hiff.mp hpass)

theorem IsYes.length {reply : List Byte} (h : IsYes reply) : reply.length = 1 := by
  rcases h with rfl | rfl <;> rfl

theorem replyLength_le (h : s.prompt.replyLength = some ulMaxLength) :
    ulMaxLength ≤ cmdMAX_INPUT_SIZE := by
  revert h
  cases s.prompt <;> intro h <;> cases h <;> decide

/-- A reply is obeyed in two cases.  It is `y` or `Y`, the prompt has that character, and
the second character of an earlier line is still behind it.  Or it is another line, and what
the prompt keeps of it is not one character, or it is `y` or `Y` with nothing behind it. -/
theorem obeyed_iff (h : s.prompt.replyLength = some ulMaxLength) :
    Obeyed s line ↔
      (IsYes (lineTyped line.keys) ∧ (typed ulMaxLength line.keys).length = 1 ∧
        peak ulMaxLength line.keys = 1 ∧ s.pInputLine.val.getD 1 0 ≠ 0) ∨
      (¬ IsYes (lineTyped line.keys) ∧
        ((typed ulMaxLength line.keys).length ≠ 1 ∨
          (IsYes (typed ulMaxLength line.keys) ∧
            ¬ (peak ulMaxLength line.keys = 1 ∧ s.pInputLine.val.getD 1 0 ≠ 0)))) := by
  have hpasses : Passes s ulMaxLength line ↔ _ := passes_iff (replyLength_le h)
  rw [obeyed_iff_passes h, hpasses]
  by_cases hlen : (typed ulMaxLength line.keys).length = 1
  · rw [leftover_eq_nil_iff hlen]
    by_cases hyes : IsYes (lineTyped line.keys)
    · -- what the prompt keeps is as long as the line, so it is the line
      have hkept : typed ulMaxLength line.keys = lineTyped line.keys :=
        (keptOf_lineTyped ulMaxLength line.keys).eq (hlen.trans hyes.length.symm)
      rw [hkept] at hlen ⊢
      simp only [hyes, hlen, true_and, not_not, iff_true, not_true_eq_false, false_and, or_false]
    · simp only [hyes, hlen, true_and, iff_false, not_not, not_false_eq_true, false_and,
        false_or, ne_eq, not_true_eq_false]
  · simp only [hlen, false_and, false_iff, and_false, false_or, ne_eq, not_false_eq_true,
      true_or, and_true]

/-- The prompt of item `4`, with the port number typed. -/
def firstPort : ShellState :=
  shellRun firstMenu [.ofText "4" (by decide), .ofText "8080" (by decide)]

/-- With the port number still behind it, `y` is obeyed. -/
theorem obeyed_firstPort : Obeyed firstPort (.ofText "y" (by decide)) :=
  (obeyed_iff (by decide +kernel : _ = some 16)).mpr
    (.inl ⟨by decide, by decide, by decide, by decide +kernel⟩)

/-- `n` restarts the board. -/
theorem restarts_on_n :
    ¬ Obeyed (shellRun firstMenu [.ofText "R" (by decide)]) (.ofText "n" (by decide)) := by
  intro hobeyed
  have hdeclined := hobeyed.no (by decide)
  exact absurd hdeclined.1 (by decide +kernel)

end BillCounter.Shell
