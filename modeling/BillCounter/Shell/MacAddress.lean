import BillCounter.Shell.Confirm

/-!
# The MAC address entered

Item `2` takes a line of 17 characters and goes through it in one loop.  Every third
character is checked to be a separator.  The others are only looked at: one that is no
digit leaves `nValue` as it is, and the loop goes on.
-/

namespace BillCounter.Shell

open BillCounter.Lib.RawBytes
open BillCounter.Lib.CString
open BillCounter.Storage

/-! ## The grammar -/

/-- `'-'` and `':'`. -/
def IsSeparator (c : Byte) : Prop := c = ascii '-' ∨ c = ascii ':'

instance (c : Byte) : Decidable (IsSeparator c) := inferInstanceAs (Decidable (_ ∨ _))

/-- The number a pair of hexadecimal digits denotes. -/
def hexPair (c d : Byte) : Option Nat :=
  match hexDigit c, hexDigit d with
  | some hi, some lo => some (16 * hi.toNat + lo.toNat)
  | _, _ => none

/-- Six pairs of hexadecimal digits, separated by `-` or `:`, and the bytes they
denote. -/
structure DenotesMAC (line : List Byte) (pMAC : Bytes 6) : Prop where
  length : line.length = 17
  separated : ∀ i < 5, IsSeparator (line.getD (3 * i + 2) 0)
  pairs : ∀ i < 6, hexPair (line.getD (3 * i) 0) (line.getD (3 * i + 1) 0) =
    some (pMAC.val.getD i 0).toNat

/-- The separators are in their places, but there is something else where a digit
belongs. -/
structure Misplaced (line : List Byte) : Prop where
  length : line.length = 17
  separated : ∀ i < 5, IsSeparator (line.getD (3 * i + 2) 0)
  noDigit : ∃ i < 6, hexPair (line.getD (3 * i) 0) (line.getD (3 * i + 1) 0) = none

instance (line : List Byte) : Decidable (Misplaced line) :=
  decidable_of_iff (line.length = 17 ∧ (∀ i < 5, IsSeparator (line.getD (3 * i + 2) 0)) ∧
      ∃ i < 6, hexPair (line.getD (3 * i) 0) (line.getD (3 * i + 1) 0) = none)
    ⟨fun ⟨h, h', h''⟩ => ⟨h, h', h''⟩, fun ⟨h, h', h''⟩ => ⟨h, h', h''⟩⟩

theorem hexDigit_lt {c d : Byte} (h : hexDigit c = some d) : d.toNat < 16 := by
  have hall : ∀ c : Byte, ((hexDigit c).map BitVec.toNat).getD 0 < 16 := by decide
  have hd := hall c
  rwa [h] at hd

/-- The two assignments to `nValue` put the digits of a pair together. -/
theorem toNat_shift_or {hi lo : Byte} (hhi : hi.toNat < 16) (hlo : lo.toNat < 16) :
    (hi <<< 4 ||| lo).toNat = 16 * hi.toNat + lo.toNat := by
  have hshift : hi.toNat <<< 4 % 2 ^ 8 = hi.toNat <<< 4 := by
    rw [Nat.shiftLeft_eq]
    omega
  rw [BitVec.toNat_or, BitVec.toNat_shiftLeft, hshift,
    ← Nat.shiftLeft_add_eq_or_of_lt (i := 4) hlo, Nat.shiftLeft_eq]
  omega

theorem hexPair_eq_some {c d : Byte} {v : Nat} (h : hexPair c d = some v) :
    ∃ hi lo, hexDigit c = some hi ∧ hexDigit d = some lo ∧ v = (hi <<< 4 ||| lo).toNat := by
  unfold hexPair at h
  split at h
  · rename_i hi lo hc hd
    cases h
    exact ⟨hi, lo, hc, hd, (toNat_shift_or (hexDigit_lt hc) (hexDigit_lt hd)).symm⟩
  · cases h

/-! ## The loop -/

variable {pInputLine : Bytes cmdMAX_INPUT_SIZE} {k : Nat} {scan : MacScan}

/-- After `k` rounds: the separators so far, the first digit of a pair begun, and the
pairs so far. -/
structure ScanInv (pInputLine : Bytes cmdMAX_INPUT_SIZE) (k : Nat) (scan : MacScan) :
    Prop where
  valid : scan.bInvalid = false ↔
    ∀ i, 3 * i + 2 < k → IsSeparator (pInputLine.val.getD (3 * i + 2) 0)
  begun : scan.bInvalid = false → ∀ i hi, k = 3 * i + 1 →
    hexDigit (pInputLine.val.getD (3 * i) 0) = some hi → scan.nValue = hi <<< 4
  pairs : scan.bInvalid = false → ∀ i v, 3 * i + 1 < k →
    hexPair (pInputLine.val.getD (3 * i) 0) (pInputLine.val.getD (3 * i + 1) 0) = some v →
      (scan.pMAC.val.getD i 0).toNat = v

/-! A round while the line is valid, by the place of its character. -/

theorem macStep_invalid (h : scan.bInvalid = true) (i : Nat) :
    macStep pInputLine scan i = scan := if_pos h

theorem macStep_first (h : scan.bInvalid = false) (i : Nat) :
    macStep pInputLine scan (3 * i) = { scan with
      nValue := ((hexDigit (pInputLine.val.getD (3 * i) 0)).map
        fun d : Byte => d <<< 4).getD scan.nValue } := by
  have hmod : 3 * i % 3 = 0 := by omega
  simp only [macStep, h, hmod, Bool.false_eq_true, if_false]

theorem macStep_second (h : scan.bInvalid = false) (i : Nat) :
    macStep pInputLine scan (3 * i + 1) =
      let nValue := ((hexDigit (pInputLine.val.getD (3 * i + 1) 0)).map
        (scan.nValue ||| ·)).getD scan.nValue
      { scan with nValue := nValue, pMAC := store scan.pMAC i nValue } := by
  have hmod : (3 * i + 1) % 3 = 1 := by omega
  have hdiv : (3 * i + 1) / 3 = i := by omega
  simp only [macStep, h, hmod, hdiv, Bool.false_eq_true, if_false]

theorem macStep_third (h : scan.bInvalid = false) (i : Nat) :
    macStep pInputLine scan (3 * i + 2) = { scan with
      bInvalid := ¬ IsSeparator (pInputLine.val.getD (3 * i + 2) 0) } := by
  have hmod : (3 * i + 2) % 3 = 2 := by omega
  simp only [macStep, h, hmod, Bool.false_eq_true, if_false, IsSeparator, not_or]

/-- A round keeps the invariant. -/
theorem scanInv_step (hk : k < 17) (h : ScanInv pInputLine k scan) :
    ScanInv pInputLine (k + 1) (macStep pInputLine scan k) := by
  obtain ⟨hvalid, hbegun, hpairs⟩ := h
  cases hinvalid : scan.bInvalid with
  | true =>
      rw [macStep_invalid hinvalid]
      rw [hinvalid] at hvalid
      refine ⟨?_, fun h => ?_, fun h => ?_⟩
      · rw [hinvalid]
        refine ⟨fun h => absurd h (by decide), fun h => ?_⟩
        exact hvalid.mpr fun i hi => h i (by omega)
      · rw [hinvalid] at h
        cases h
      · rw [hinvalid] at h
        cases h
  | false =>
      have hsep := hvalid.mp hinvalid
      obtain ⟨j, hj⟩ : ∃ j, k = 3 * j ∨ k = 3 * j + 1 ∨ k = 3 * j + 2 := ⟨k / 3, by omega⟩
      rcases hj with rfl | rfl | rfl
      · rw [macStep_first hinvalid]
        refine ⟨⟨fun _ i hi => hsep i (by omega), fun _ => hinvalid⟩, ?_, ?_⟩
        · intro _ i hi heq hdigit
          obtain rfl : i = j := by omega
          simp only [hdigit, Option.map_some, Option.getD_some]
        · intro _ i v hi hpair
          exact hpairs hinvalid i v (by omega) hpair
      · rw [macStep_second hinvalid]
        refine ⟨⟨fun _ i hi => hsep i (by omega), fun _ => hinvalid⟩, ?_, ?_⟩
        · intro _ i hi heq
          omega
        · intro _ i v hi hpair
          rcases Nat.lt_or_ge i j with hlt | hge
          · simp only [store_getD_of_ne (Nat.ne_of_gt hlt)]
            exact hpairs hinvalid i v (by omega) hpair
          · obtain rfl : i = j := by omega
            obtain ⟨hi, lo, hhi, hlo, rfl⟩ := hexPair_eq_some hpair
            simp only [hlo, hbegun hinvalid i hi rfl hhi, Option.map_some, Option.getD_some,
              store_getD (show i < 6 by omega)]
      · rw [macStep_third hinvalid]
        refine ⟨?_, ?_, ?_⟩
        · simp only [decide_not, Bool.not_eq_false', decide_eq_true_eq]
          constructor
          · intro h i hi
            rcases Nat.lt_or_ge i j with hlt | hge
            · exact hsep i (by omega)
            · obtain rfl : i = j := by omega
              exact h
          · intro h
            exact h j (by omega)
        · intro _ i hi heq
          omega
        · intro _ i v hi hpair
          exact hpairs hinvalid i v (by omega) hpair

/-- The loop keeps it. -/
theorem scanInv_foldl (hk : k ≤ 17) :
    ScanInv pInputLine k
      ((List.range k).foldl (macStep pInputLine) ⟨0, .replicate 6 0, false⟩) := by
  induction k with
  | zero =>
      refine ⟨⟨fun _ i hi => ?_, fun _ => rfl⟩, fun _ i hi h => ?_, fun _ i v h => ?_⟩ <;> omega
  | succ k ih =>
      rw [List.range_succ, List.foldl_append]
      exact scanInv_step hk (ih (by omega))

/-! ## The prompt -/

variable {s : ShellState} {line : Line}

/-- What a line at item `2` should do: an address is stored, anything else changes and
saves nothing. -/
structure MacExact (s : ShellState) (line : Line) : Prop where
  accepted : ∀ pMAC, DenotesMAC (typed cmdMAX_INPUT_SIZE line.keys) pMAC →
    (handle s line).next = .menu true ∧
      (handle s line).xConfig =
        { s.xConfig with xNet := { s.xConfig.xNet with pMAC := pMAC } }
  rejected : (¬ ∃ pMAC, DenotesMAC (typed cmdMAX_INPUT_SIZE line.keys) pMAC) →
    Declined s line

theorem handle_mac (hp : s.prompt = .mac) :
    handle s line =
      let pInputLine := (shellGetLine s.pInputLine cmdMAX_INPUT_SIZE line.keys).1
      if (typed cmdMAX_INPUT_SIZE line.keys).length = 17 ∧
          (macScan pInputLine).bInvalid = false then
        ⟨pInputLine,
          { s.xConfig with xNet := { s.xConfig.xNet with pMAC := (macScan pInputLine).pMAC } },
          .menu true⟩
      else ⟨pInputLine, s.xConfig, .menu false⟩ := by
  unfold handle
  rw [hp, ← shellGetLine_length (Nat.le_refl cmdMAX_INPUT_SIZE) s.pInputLine]
  rfl

/-- What the loop leaves, by the line typed. -/
theorem macScan_spec (pInputLine : Bytes cmdMAX_INPUT_SIZE)
    (hlen : (typed cmdMAX_INPUT_SIZE line.keys).length = 17) :
    let scan := macScan (shellGetLine pInputLine cmdMAX_INPUT_SIZE line.keys).1
    let line := typed cmdMAX_INPUT_SIZE line.keys
    (scan.bInvalid = false ↔ ∀ i < 5, IsSeparator (line.getD (3 * i + 2) 0)) ∧
      (scan.bInvalid = false → ∀ i < 6, ∀ v,
        hexPair (line.getD (3 * i) 0) (line.getD (3 * i + 1) 0) = some v →
          (scan.pMAC.val.getD i 0).toNat = v) := by
  intro scan line
  have hinv : ScanInv (shellGetLine pInputLine cmdMAX_INPUT_SIZE _).1 17 scan :=
    scanInv_foldl (Nat.le_refl 17)
  have hval : ∀ i < 17, _ = line.getD i 0 := fun i hi =>
    shellGetLine_getD (Nat.le_refl cmdMAX_INPUT_SIZE) pInputLine (hlen ▸ hi)
  obtain ⟨hvalid, _, hpairs⟩ := hinv
  constructor
  · rw [hvalid]
    constructor
    · intro h i hi
      rw [← hval _ (by omega)]
      exact h i (by omega)
    · intro h i hi
      rw [hval _ (by omega)]
      exact h i (by omega)
  · intro h i hi v hpair
    rw [← hval _ (by omega), ← hval _ (by omega)] at hpair
    exact hpairs h i v (by omega) hpair

theorem DenotesMAC.eq {line : List Byte} {pMAC pMAC' : Bytes 6} (h : DenotesMAC line pMAC)
    (h' : DenotesMAC line pMAC') : pMAC = pMAC' := by
  apply Bytes.ext
  apply List.ext_getElem (by rw [pMAC.property, pMAC'.property])
  intro i hi hi'
  have hsix : i < 6 := pMAC.property ▸ hi
  have hpair := (h.pairs i hsix).symm.trans (h'.pairs i hsix)
  have hbyte := BitVec.eq_of_toNat_eq (Option.some.inj hpair)
  simpa [hi, hi'] using hbyte

theorem Misplaced.not_denotes {line : List Byte} (h : Misplaced line) :
    ¬ ∃ pMAC, DenotesMAC line pMAC := by
  rintro ⟨pMAC, hdenotes⟩
  obtain ⟨i, hi, hnone⟩ := h.noDigit
  rw [hdenotes.pairs i hi] at hnone
  cases hnone

/-- A line with separators in their places is accepted. -/
theorem handle_mac_separated (hp : s.prompt = .mac)
    (hlen : (typed cmdMAX_INPUT_SIZE line.keys).length = 17)
    (hsep : ∀ i < 5, IsSeparator ((typed cmdMAX_INPUT_SIZE line.keys).getD (3 * i + 2) 0)) :
    (handle s line).next = .menu true ∧
      (handle s line).xConfig = { s.xConfig with xNet := { s.xConfig.xNet with
        pMAC := (macScan (shellGetLine s.pInputLine cmdMAX_INPUT_SIZE line.keys).1).pMAC } } := by
  have hvalid := (macScan_spec s.pInputLine hlen).1.mpr hsep
  rw [handle_mac hp]
  dsimp only
  rw [if_pos ⟨hlen, hvalid⟩]
  exact ⟨rfl, rfl⟩

/-- Any other line is not. -/
theorem handle_mac_declined (hp : s.prompt = .mac)
    (h : ¬ ((typed cmdMAX_INPUT_SIZE line.keys).length = 17 ∧
      ∀ i < 5, IsSeparator ((typed cmdMAX_INPUT_SIZE line.keys).getD (3 * i + 2) 0))) :
    Declined s line := by
  rw [Declined, handle_mac hp]
  dsimp only
  rw [if_neg]
  · exact ⟨rfl, rfl⟩
  · rintro ⟨hlen, hvalid⟩
    exact h ⟨hlen, (macScan_spec s.pInputLine hlen).1.mp hvalid⟩

/-- Item `2` keeps to its grammar on every line but those with something else where a digit
belongs. -/
theorem macExact_iff (hp : s.prompt = .mac) :
    MacExact s line ↔ ¬ Misplaced (typed cmdMAX_INPUT_SIZE line.keys) := by
  constructor
  · intro hexact hmisplaced
    have haccepted := (handle_mac_separated hp hmisplaced.length hmisplaced.separated).1
    rw [(hexact.rejected hmisplaced.not_denotes).1] at haccepted
    cases haccepted
  · intro hplaced
    have hdenotes : ∀ hlen : (typed cmdMAX_INPUT_SIZE line.keys).length = 17,
        (∀ i < 5, IsSeparator ((typed cmdMAX_INPUT_SIZE line.keys).getD (3 * i + 2) 0)) →
          DenotesMAC (typed cmdMAX_INPUT_SIZE line.keys)
            (macScan (shellGetLine s.pInputLine cmdMAX_INPUT_SIZE line.keys).1).pMAC := by
      intro hlen hsep
      obtain ⟨hvalid, hpairs⟩ := macScan_spec s.pInputLine hlen
      refine ⟨hlen, hsep, fun i hi => ?_⟩
      cases hpair : hexPair ((typed cmdMAX_INPUT_SIZE line.keys).getD (3 * i) 0)
          ((typed cmdMAX_INPUT_SIZE line.keys).getD (3 * i + 1) 0) with
      | none => exact absurd ⟨hlen, hsep, i, hi, hpair⟩ hplaced
      | some v => rw [hpairs (hvalid.mpr hsep) i hi v hpair]
    constructor
    · intro pMAC h
      rw [h.eq (hdenotes h.length h.separated)]
      exact handle_mac_separated hp h.length h.separated
    · intro h
      apply handle_mac_declined hp
      rintro ⟨hlen, hsep⟩
      exact h ⟨_, hdenotes hlen hsep⟩

/-- The prompt of item `2`. -/
def firstMAC : ShellState := shellRun firstMenu [.ofText "2" (by decide)]

theorem macExact_firstMAC :
    MacExact firstMAC (.ofText "00-1A-2b:3C:4d-5E" (by decide)) :=
  (macExact_iff (by decide +kernel)).mpr (by decide)

/-- With an `x` for its last digit an address is stored all the same. -/
theorem address_with_x : ¬ MacExact firstMAC (.ofText "00-1A-2B-3C-4D-5x" (by decide)) := by
  intro h
  have hmisplaced : Misplaced (typed cmdMAX_INPUT_SIZE (literal "00-1A-2B-3C-4D-5x")) := by
    decide
  exact absurd (h.rejected hmisplaced.not_denotes).1 (by decide +kernel)

end BillCounter.Shell
