import BillCounter.Lib.CString

/-!
# Reading a line

`SHELL_getLine` stores the printable characters of a line in the caller's
buffer, at most `ulMaxLength` of them, and writes a NUL over each character a
backspace takes back.  It stores no NUL at the end.  What the buffer holds
afterwards therefore depends on three things: the line as edited, how long it
ever was while it was typed, and what the buffer held before.
-/

namespace BillCounter.Shell

open BillCounter.Lib.RawBytes
open BillCounter.Lib.CString

/-- The characters between `' '` and `'~'`. -/
def printable (c : Byte) : Bool := 0x20 ≤ c && c ≤ 0x7E

/-- `'\b'` and `cmdASCII_DEL`. -/
def erases (c : Byte) : Bool := c == 0x08 || c == 0x7F

/-- One character of the loop of `SHELL_getLine`, on `pLine` and
`nReadLength`. -/
def getLineStep {n : Nat} (ulMaxLength : Nat) (s : Bytes n × Nat) (cRxedChar : Byte) :
    Bytes n × Nat :=
  let (pLine, nReadLength) := s
  if erases cRxedChar then
    if 0 < nReadLength then (store pLine (nReadLength - 1) 0, nReadLength - 1) else s
  else if cRxedChar = 0x0D then s
  else if printable cRxedChar then
    if nReadLength < ulMaxLength then
      (store pLine nReadLength cRxedChar, nReadLength + 1)
    else s
  else s

/-- `SHELL_getLine` on the characters up to the end of the line: what it leaves
in `pLine`, and the length it returns. -/
def shellGetLine {n : Nat} (pLine : Bytes n) (ulMaxLength : Nat) (keys : List Byte) :
    Bytes n × Nat :=
  keys.foldl (getLineStep ulMaxLength) (pLine, 0)

/-! ## The line typed -/

/-- What one key makes of the line typed so far. -/
def typeKey (ulMaxLength : Nat) (line : List Byte) (c : Byte) : List Byte :=
  if erases c then line.dropLast
  else if printable c ∧ line.length < ulMaxLength then line ++ [c]
  else line

/-- The line typed so far, and the greatest length it has had. -/
def typeKeyPeak (ulMaxLength : Nat) (p : List Byte × Nat) (c : Byte) : List Byte × Nat :=
  let line := typeKey ulMaxLength p.1 c
  (line, max p.2 line.length)

/-- The line typed at a prompt that takes `ulMaxLength` characters. -/
def typed (ulMaxLength : Nat) (keys : List Byte) : List Byte :=
  (keys.foldl (typeKeyPeak ulMaxLength) ([], 0)).1

/-- The greatest length the line had while it was typed. -/
def peak (ulMaxLength : Nat) (keys : List Byte) : Nat :=
  (keys.foldl (typeKeyPeak ulMaxLength) ([], 0)).2

/-- What one key makes of a line that may be of any length. -/
def editKey (line : List Byte) (c : Byte) : List Byte :=
  if erases c then line.dropLast
  else if printable c then line ++ [c]
  else line

/-- The whole line typed, whatever the prompt takes of it. -/
def lineTyped (keys : List Byte) : List Byte := keys.foldl editKey []

variable {n ulMaxLength : Nat} {pLine : Bytes n} {keys : List Byte}

/-- What the loop keeps: the buffer is the line, NULs as far as the line ever
went, and what was there before. -/
structure LineInv (pLine : Bytes n) (ulMaxLength : Nat) (s : Bytes n × Nat)
    (p : List Byte × Nat) : Prop where
  length : s.2 = p.1.length
  buffer : s.1.val = p.1 ++ List.replicate (p.2 - p.1.length) 0 ++ pLine.val.drop p.2
  length_le : p.1.length ≤ p.2
  peak_le : p.2 ≤ ulMaxLength
  printable : ∀ c ∈ p.1, printable c = true

/-- Storing just behind a line. -/
theorem set_append_length (line rest : List Byte) (c : Byte) :
    (line ++ rest).set line.length c = line ++ rest.set 0 c := by
  rw [List.set_append_right _ _ (Nat.le_refl _), Nat.sub_self]

/-- A backspace puts a NUL in place of the last character. -/
theorem buffer_erase {line old : List Byte} {last : Byte} {top : Nat}
    (h : line.length + 1 ≤ top) :
    (line ++ [last] ++ List.replicate (top - (line.length + 1)) 0 ++ old.drop top).set
        line.length 0 =
      line ++ List.replicate (top - line.length) 0 ++ old.drop top := by
  rw [List.append_assoc, List.append_assoc, set_append_length,
    show top - line.length = (top - (line.length + 1)) + 1 by omega, List.replicate_succ]
  simp

/-- A character goes over a NUL left by a backspace, or over what was there
before. -/
theorem buffer_type {line old : List Byte} {c : Byte} {top : Nat}
    (hle : line.length ≤ top) (hroom : line.length < old.length) :
    (line ++ List.replicate (top - line.length) 0 ++ old.drop top).set line.length c =
      line ++ [c] ++ List.replicate (max top (line.length + 1) - (line.length + 1)) 0 ++
        old.drop (max top (line.length + 1)) := by
  rw [List.append_assoc, set_append_length]
  rcases Nat.lt_or_ge line.length top with hlt | hge
  · rw [Nat.max_eq_left (by omega),
      show top - line.length = (top - (line.length + 1)) + 1 by omega, List.replicate_succ]
    simp
  · obtain rfl : top = line.length := by omega
    cases hdrop : old.drop line.length with
    | nil =>
        have hlen := congrArg List.length hdrop
        rw [List.length_drop, List.length_nil] at hlen
        omega
    | cons d rest =>
        have hrest : old.drop (line.length + 1) = rest := by
          rw [← List.tail_drop, hdrop, List.tail_cons]
        rw [Nat.max_eq_right (by omega), hrest]
        simp

/-- A key keeps the invariant. -/
theorem lineInv_step (hmax : ulMaxLength ≤ n) {s : Bytes n × Nat} {p : List Byte × Nat}
    (h : LineInv pLine ulMaxLength s p) (c : Byte) :
    LineInv pLine ulMaxLength (getLineStep ulMaxLength s c)
      (typeKeyPeak ulMaxLength p c) := by
  obtain ⟨b, k⟩ := s
  obtain ⟨line, top⟩ := p
  obtain ⟨rfl, hbuf, hle, htop, hprint⟩ := h
  simp only at hbuf hle htop hprint ⊢
  have hkeep : LineInv pLine ulMaxLength (b, line.length) (line, max top line.length) := by
    rw [Nat.max_eq_left hle]
    exact ⟨rfl, hbuf, hle, htop, hprint⟩
  simp only [getLineStep, typeKeyPeak, typeKey]
  by_cases herase : erases c = true
  · rw [if_pos herase, if_pos herase]
    rcases List.eq_nil_or_concat line with rfl | ⟨init, last, hline⟩
    · exact hkeep
    · rw [List.concat_eq_append] at hline
      subst hline
      rw [List.length_append, List.length_singleton] at hbuf hle ⊢
      rw [if_pos (Nat.succ_pos _), Nat.add_sub_cancel, List.dropLast_concat,
        Nat.max_eq_left (by omega)]
      refine ⟨rfl, ?_, by simp only; omega, htop,
        fun c hc => hprint c (List.mem_append_left _ hc)⟩
      exact (congrArg (fun bs => bs.set init.length 0) hbuf).trans (buffer_erase hle)
  · rw [if_neg herase, if_neg herase]
    by_cases hcr : c = 0x0D
    · subst hcr
      exact hkeep
    · rw [if_neg hcr]
      by_cases hprintc : printable c = true
      · rw [if_pos hprintc]
        by_cases hroom : line.length < ulMaxLength
        · rw [if_pos hroom, if_pos ⟨hprintc, hroom⟩]
          rw [List.length_append, List.length_singleton]
          refine ⟨by simp, ?_, ?_, ?_, fun d hd => ?_⟩
          · have htype := buffer_type (c := c) hle
              (show line.length < pLine.val.length by rw [pLine.property]; omega)
            rw [← hbuf] at htype
            simp only [List.length_append, List.length_singleton]
            exact htype
          · simp only [List.length_append, List.length_singleton]
            omega
          · simp only
            omega
          · rcases List.mem_append.mp hd with hd | hd
            · exact hprint d hd
            · rw [List.mem_singleton.mp hd]
              exact hprintc
        · rw [if_neg hroom, if_neg (fun h => hroom h.2)]
          exact hkeep
      · rw [if_neg hprintc, if_neg (fun h => hprintc h.1)]
        exact hkeep

theorem lineInv_foldl (hmax : ulMaxLength ≤ n) {s : Bytes n × Nat} {p : List Byte × Nat}
    (h : LineInv pLine ulMaxLength s p) (keys : List Byte) :
    LineInv pLine ulMaxLength (keys.foldl (getLineStep ulMaxLength) s)
      (keys.foldl (typeKeyPeak ulMaxLength) p) := by
  induction keys generalizing s p with
  | nil => exact h
  | cons c keys ih => exact ih (lineInv_step hmax h c)

/-- What `SHELL_getLine` leaves in the buffer. -/
theorem shellGetLine_spec (hmax : ulMaxLength ≤ n) (pLine : Bytes n) (keys : List Byte) :
    LineInv pLine ulMaxLength (shellGetLine pLine ulMaxLength keys)
      (typed ulMaxLength keys, peak ulMaxLength keys) := by
  have hstart : LineInv pLine ulMaxLength (pLine, 0) ([], 0) :=
    ⟨rfl, rfl, Nat.le_refl 0, Nat.zero_le ulMaxLength, fun _ h => absurd h List.not_mem_nil⟩
  exact lineInv_foldl hmax hstart keys

/-! ## The line read -/

/-- What a string function finds behind the line: what the buffer held there
before, unless a backspace has put a NUL in between. -/
def leftover (pLine : Bytes n) (ulMaxLength : Nat) (keys after : List Byte) : List Byte :=
  if (typed ulMaxLength keys).length < peak ulMaxLength keys then []
  else cString (pLine.val.drop (peak ulMaxLength keys) ++ after)

theorem length_typed_le_peak (ulMaxLength : Nat) (keys : List Byte) :
    (typed ulMaxLength keys).length ≤ peak ulMaxLength keys :=
  (shellGetLine_spec (Nat.le_refl ulMaxLength) (.replicate ulMaxLength 0) keys).length_le

theorem peak_le (ulMaxLength : Nat) (keys : List Byte) :
    peak ulMaxLength keys ≤ ulMaxLength :=
  (shellGetLine_spec (Nat.le_refl ulMaxLength) (.replicate ulMaxLength 0) keys).peak_le

theorem length_typed_le (ulMaxLength : Nat) (keys : List Byte) :
    (typed ulMaxLength keys).length ≤ ulMaxLength :=
  Nat.le_trans (length_typed_le_peak ulMaxLength keys) (peak_le ulMaxLength keys)

theorem printable_typed {c : Byte} (h : c ∈ typed ulMaxLength keys) :
    printable c = true :=
  (shellGetLine_spec (Nat.le_refl ulMaxLength) (.replicate ulMaxLength 0) keys).printable c h

theorem zero_not_mem_of_printable {line : List Byte}
    (h : ∀ c ∈ line, printable c = true) : (0 : Byte) ∉ line :=
  fun hmem => absurd (h 0 hmem) (by decide)

theorem zero_not_mem_typed (ulMaxLength : Nat) (keys : List Byte) :
    (0 : Byte) ∉ typed ulMaxLength keys :=
  zero_not_mem_of_printable fun _ => printable_typed

/-- `SHELL_getLine` returns the length of the line. -/
theorem shellGetLine_length (hmax : ulMaxLength ≤ n) (pLine : Bytes n)
    (keys : List Byte) :
    (shellGetLine pLine ulMaxLength keys).2 = (typed ulMaxLength keys).length :=
  (shellGetLine_spec hmax pLine keys).length

/-- The line is at the front of the buffer. -/
theorem shellGetLine_val (hmax : ulMaxLength ≤ n) (pLine : Bytes n) (keys : List Byte) :
    (shellGetLine pLine ulMaxLength keys).1.val =
      typed ulMaxLength keys ++
        (List.replicate (peak ulMaxLength keys - (typed ulMaxLength keys).length) 0 ++
          pLine.val.drop (peak ulMaxLength keys)) := by
  rw [(shellGetLine_spec hmax pLine keys).buffer, List.append_assoc]

theorem shellGetLine_take (hmax : ulMaxLength ≤ n) (pLine : Bytes n) (keys : List Byte) :
    (shellGetLine pLine ulMaxLength keys).1.val.take (shellGetLine pLine ulMaxLength keys).2 =
      typed ulMaxLength keys := by
  rw [shellGetLine_length hmax, shellGetLine_val hmax, List.take_left]

theorem shellGetLine_getD (hmax : ulMaxLength ≤ n) (pLine : Bytes n) {i : Nat}
    (hi : i < (typed ulMaxLength keys).length) :
    (shellGetLine pLine ulMaxLength keys).1.val.getD i 0 =
      (typed ulMaxLength keys).getD i 0 := by
  rw [shellGetLine_val hmax, List.getD_eq_getElem?_getD, List.getElem?_append_left hi,
    ← List.getD_eq_getElem?_getD]

/-- The string in the buffer is the line and the leftover behind it. -/
theorem cString_shellGetLine (hmax : ulMaxLength ≤ n) (pLine : Bytes n)
    (keys after : List Byte) :
    cString ((shellGetLine pLine ulMaxLength keys).1.val ++ after) =
      typed ulMaxLength keys ++ leftover pLine ulMaxLength keys after := by
  rw [shellGetLine_val hmax, List.append_assoc,
    cString_append (zero_not_mem_typed ulMaxLength keys), leftover]
  congr 1
  by_cases hlt : (typed ulMaxLength keys).length < peak ulMaxLength keys
  · rw [if_pos hlt, show peak ulMaxLength keys - (typed ulMaxLength keys).length =
      (peak ulMaxLength keys - (typed ulMaxLength keys).length - 1) + 1 by omega,
      List.replicate_succ]
    rfl
  · have hle := length_typed_le_peak ulMaxLength keys
    rw [if_neg hlt, Nat.sub_eq_zero_of_le (Nat.not_lt.mp hlt), List.replicate_zero,
      List.nil_append]

/-- A zeroed buffer with room for a NUL leaves nothing over. -/
theorem leftover_replicate (hmax : ulMaxLength < n) (keys : List Byte) :
    leftover (.replicate n 0 : Bytes n) ulMaxLength keys [] = [] := by
  have hpeak := peak_le ulMaxLength keys
  rw [leftover]
  split
  · rfl
  · have hval : (Bytes.replicate n 0 : Bytes n).val = List.replicate n 0 := rfl
    rw [hval, List.drop_replicate, List.append_nil,
      show n - peak ulMaxLength keys = (n - peak ulMaxLength keys - 1) + 1 by omega,
      List.replicate_succ, cString_zero_cons]

/-- The string read into a zeroed local buffer is the line. -/
theorem cString_shellGetLine_replicate (hmax : ulMaxLength < n) (keys : List Byte) :
    cString (shellGetLine (.replicate n 0 : Bytes n) ulMaxLength keys).1.val =
      typed ulMaxLength keys := by
  have h := cString_shellGetLine (Nat.le_of_lt hmax) (.replicate n 0 : Bytes n) keys []
  rwa [List.append_nil, leftover_replicate hmax, List.append_nil] at h

/-- What the comparison of the buffer with a string sees.  It is right unless
there is a leftover and either the line is that string or the leftover completes
it. -/
theorem line_read_iff {leftover line w : List Byte} :
    (line ++ leftover = w ↔ line = w) ↔
      ¬ (leftover ≠ [] ∧ (line = w ∨ line ++ leftover = w)) := by
  by_cases hnil : leftover = []
  · simp [hnil]
  · have hne : line ++ leftover ≠ line := by
      intro h
      exact hnil (List.append_right_eq_self.mp h)
    constructor
    · rintro h ⟨_, hline | happ⟩
      · exact hne ((h.mpr hline).trans hline.symm)
      · exact hne (happ.trans (h.mp happ).symm)
    · intro h
      constructor
      · exact fun happ => absurd ⟨hnil, .inr happ⟩ h
      · exact fun hline => absurd ⟨hnil, .inl hline⟩ h

/-! ## The line editor -/

theorem typed_eq_foldl (ulMaxLength : Nat) (keys : List Byte) :
    typed ulMaxLength keys = keys.foldl (typeKey ulMaxLength) [] := by
  have hfst : ∀ p : List Byte × Nat,
      (keys.foldl (typeKeyPeak ulMaxLength) p).1 = keys.foldl (typeKey ulMaxLength) p.1 := by
    induction keys with
    | nil => exact fun _ => rfl
    | cons c keys ih => exact fun p => ih (typeKeyPeak ulMaxLength p c)
  exact hfst ([], 0)

/-- The line a prompt keeps is not longer than the line typed, and is that line if it is as
long. -/
structure KeptOf (kept line : List Byte) : Prop where
  length_le : kept.length ≤ line.length
  eq : kept.length = line.length → kept = line

theorem keptOf_step {kept line : List Byte} (h : KeptOf kept line) (c : Byte) :
    KeptOf (typeKey ulMaxLength kept c) (editKey line c) := by
  have hle := h.length_le
  unfold typeKey editKey
  by_cases herase : erases c = true
  · rw [if_pos herase, if_pos herase]
    constructor
    · rw [List.length_dropLast, List.length_dropLast]
      omega
    · intro hlen
      rw [List.length_dropLast, List.length_dropLast] at hlen
      rcases Nat.eq_zero_or_pos kept.length with hzero | hpos
      · -- a backspace in an empty line that the prompt keeps
        have hkept := List.length_eq_zero_iff.mp hzero
        have hline : line.dropLast = [] := by
          rw [← List.length_eq_zero_iff, List.length_dropLast]
          omega
        rw [hkept, hline, List.dropLast_nil]
      · rw [h.eq (by omega)]
  · rw [if_neg herase, if_neg herase]
    by_cases hprint : printable c = true
    · by_cases hroom : kept.length < ulMaxLength
      · rw [if_pos ⟨hprint, hroom⟩, if_pos hprint]
        constructor
        · rw [List.length_append, List.length_append]
          omega
        · intro hlen
          rw [List.length_append, List.length_append] at hlen
          rw [h.eq (by omega)]
      · rw [if_neg (fun hboth => hroom hboth.2), if_pos hprint]
        constructor
        · rw [List.length_append]
          omega
        · intro hlen
          rw [List.length_append, List.length_singleton] at hlen
          omega
    · rw [if_neg (fun hboth => hprint hboth.1), if_neg hprint]
      exact h

theorem keptOf_lineTyped (ulMaxLength : Nat) (keys : List Byte) :
    KeptOf (typed ulMaxLength keys) (lineTyped keys) := by
  rw [typed_eq_foldl, lineTyped]
  suffices hfrom : ∀ kept line, KeptOf kept line →
      KeptOf (keys.foldl (typeKey ulMaxLength) kept) (keys.foldl editKey line) from
    hfrom [] [] ⟨Nat.le_refl _, fun _ => rfl⟩
  induction keys with
  | nil => exact fun _ _ h => h
  | cons c keys ih => exact fun kept line h => ih _ _ (keptOf_step h c)

/-- The buffer holds the line as edited, as a string, and `SHELL_getLine` returns its
length. -/
structure EditsLine (pLine : Bytes n) (ulMaxLength : Nat) (keys : List Byte) : Prop where
  length_le : (shellGetLine pLine ulMaxLength keys).2 ≤ ulMaxLength
  length : (shellGetLine pLine ulMaxLength keys).2 =
    (keys.foldl (typeKey ulMaxLength) []).length
  string : ∀ after, cString ((shellGetLine pLine ulMaxLength keys).1.val ++ after) =
    keys.foldl (typeKey ulMaxLength) []
  beyond : ∀ i, ulMaxLength ≤ i →
    (shellGetLine pLine ulMaxLength keys).1.val.getD i 0 = pLine.val.getD i 0 ∨
      (shellGetLine pLine ulMaxLength keys).1.val.getD i 0 = 0

/-- Nothing from `ulMaxLength` on is written. -/
theorem shellGetLine_beyond (hmax : ulMaxLength ≤ n) (pLine : Bytes n) (keys : List Byte)
    {i : Nat} (hi : ulMaxLength ≤ i) :
    (shellGetLine pLine ulMaxLength keys).1.val.getD i 0 = pLine.val.getD i 0 := by
  have hpeak := peak_le ulMaxLength keys
  have hle := length_typed_le_peak ulMaxLength keys
  have hfront : (typed ulMaxLength keys ++
      List.replicate (peak ulMaxLength keys - (typed ulMaxLength keys).length) (0 : Byte)).length
        = peak ulMaxLength keys := by
    rw [List.length_append, List.length_replicate]
    omega
  rw [shellGetLine_val hmax, ← List.append_assoc, List.getD_eq_getElem?_getD,
    List.getElem?_append_right (by omega), hfront, List.getElem?_drop,
    Nat.add_sub_of_le (by omega), ← List.getD_eq_getElem?_getD]

/-- Nothing is left over if a character was taken back last, or the buffer had a NUL behind
the longest the line was. -/
theorem leftover_eq_nil_iff_of_lt {pLine : Bytes n} (hlt : peak ulMaxLength keys < n)
    (after : List Byte) :
    leftover pLine ulMaxLength keys after = [] ↔
      (typed ulMaxLength keys).length < peak ulMaxLength keys ∨
        pLine.val.getD (peak ulMaxLength keys) 0 = 0 := by
  have hsize : peak ulMaxLength keys < pLine.val.length := by rwa [pLine.property]
  have hget : pLine.val.getD (peak ulMaxLength keys) 0 = pLine.val[peak ulMaxLength keys] := by
    rw [List.getD_eq_getElem?_getD, List.getElem?_eq_getElem hsize]
    rfl
  by_cases hshort : (typed ulMaxLength keys).length < peak ulMaxLength keys
  · simp [leftover, hshort]
  · rw [leftover, if_neg hshort, List.drop_eq_getElem_cons hsize, List.cons_append,
      cString_cons_eq_nil_iff, hget]
    constructor
    · intro h
      exact .inr h
    · intro h
      exact h.resolve_left hshort

/-- `SHELL_getLine` leaves the line as edited exactly when the line ends shorter than it
once was, or the buffer had a NUL behind the longest it was. -/
theorem editsLine_iff (hmax : ulMaxLength < n) (pLine : Bytes n) (keys : List Byte) :
    EditsLine pLine ulMaxLength keys ↔
      (typed ulMaxLength keys).length < peak ulMaxLength keys ∨
        pLine.val.getD (peak ulMaxLength keys) 0 = 0 := by
  have hle : ulMaxLength ≤ n := Nat.le_of_lt hmax
  have hstring : ∀ after, cString ((shellGetLine pLine ulMaxLength keys).1.val ++ after) =
      keys.foldl (typeKey ulMaxLength) [] ↔ leftover pLine ulMaxLength keys after = [] := by
    intro after
    rw [cString_shellGetLine hle, ← typed_eq_foldl]
    exact List.append_right_eq_self
  have hlt : peak ulMaxLength keys < n := Nat.lt_of_le_of_lt (peak_le ulMaxLength keys) hmax
  constructor
  · intro h
    exact (leftover_eq_nil_iff_of_lt hlt []).mp ((hstring []).mp (h.string []))
  · intro h
    constructor
    · rw [shellGetLine_length hle]
      exact length_typed_le ulMaxLength keys
    · rw [shellGetLine_length hle, typed_eq_foldl]
    · intro after
      exact (hstring after).mpr ((leftover_eq_nil_iff_of_lt hlt after).mpr h)
    · intro i hi
      exact .inl (shellGetLine_beyond hle pLine keys hi)

/-- Characters taken back leave a NUL. -/
theorem editsLine_erased :
    EditsLine (.replicate 50 0x41 : Bytes 50) 49 (literal "abc" ++ [0x08]) :=
  (editsLine_iff (by decide) _ _).mpr (by decide)

/-- `y`, read at a (y/n) prompt over the address typed before, is `y0.0.0.1`. -/
theorem reply_over_address :
    ¬ EditsLine (⟨literal "10.0.0.1" ++ List.replicate 42 0, by decide⟩ : Bytes 50) 1
      (literal "y") := by
  intro h
  exact absurd (h.string []) (by decide)

end BillCounter.Shell
