import BillCounter.Lib.Positional
import BillCounter.Shell.Confirm

/-!
# The port entered

Item `4` reads up to 50 digits into an `int` and checks the range once they are all in.
By then the `int` may have wrapped round.
-/

namespace BillCounter.Shell

open BillCounter.Lib.RawBytes
open BillCounter.Lib.CString
open BillCounter.Lib.Positional

/-! ## The loop -/

theorem inRange_digit (c : Byte) : inRange c (ascii '0') (ascii '9') = true ↔ IsDecimal c := by
  rw [inRange, Bool.and_eq_true, decide_eq_true_eq, decide_eq_true_eq]
  rfl

/-- The digits of a line of digits are all read, -/
theorem portDigits_of_digits {cs : List Byte} (h : ∀ c ∈ cs, IsDecimal c) (nPort : BitVec 32) :
    portDigits nPort cs = some ((cs.map (digitWord 32)).foldl (fun n d => n * 10 + d) nPort) := by
  induction cs generalizing nPort with
  | nil => rfl
  | cons c cs ih =>
      have hc : inRange c (ascii '0') (ascii '9') = true :=
        (inRange_digit c).mpr (h c List.mem_cons_self)
      rw [portDigits, if_pos hc, ih fun d hd => h d (List.mem_cons_of_mem c hd)]
      rfl

/-- and the loop stops at anything else. -/
theorem portDigits_eq_none {cs : List Byte} (h : ¬ ∀ c ∈ cs, IsDecimal c) (nPort : BitVec 32) :
    portDigits nPort cs = none := by
  induction cs generalizing nPort with
  | nil => exact absurd (fun c hc => absurd hc List.not_mem_nil) h
  | cons c cs ih =>
      by_cases hc : IsDecimal c
      · rw [portDigits, if_pos ((inRange_digit c).mpr hc)]
        exact ih (fun hcs => h (List.forall_mem_cons.mpr ⟨hc, hcs⟩)) _
      · rw [portDigits, if_neg (fun hin => hc ((inRange_digit c).mp hin))]

/-- What `nPort` holds at the end, if it is reached. -/
theorem portDigits_eq_some {cs : List Byte} {nPort : BitVec 32}
    (h : portDigits 0 cs = some nPort) :
    (∀ c ∈ cs, IsDecimal c) ∧ nPort.toNat = decimal cs % 2 ^ 32 := by
  by_cases hdigits : ∀ c ∈ cs, IsDecimal c
  · rw [portDigits_of_digits hdigits] at h
    refine ⟨hdigits, ?_⟩
    rw [← Option.some.inj h]
    exact toNat_accumulate_decimal (by decide) cs
  · rw [portDigits_eq_none hdigits] at h
    cases h

/-- The range check, on an `int`. -/
theorem slt_iff (nPort : BitVec 32) :
    ((0 : BitVec 32).slt nPort ∧ nPort.slt 65536) ↔ 0 < nPort.toNat ∧ nPort.toNat < 65536 := by
  have hlt := nPort.isLt
  rw [BitVec.slt_iff_toInt_lt, BitVec.slt_iff_toInt_lt, BitVec.toInt_eq_toNat_cond nPort]
  have hzero : (0 : BitVec 32).toInt = 0 := rfl
  have hmax : (65536 : BitVec 32).toInt = 65536 := rfl
  rw [hzero, hmax]
  split <;> omega

/-! ## The prompt -/

variable {s : ShellState} {line : Line}

/-- A port in decimal. -/
structure DenotesPort (line : List Byte) (port : Nat) : Prop where
  nonempty : line ≠ []
  digits : ∀ c ∈ line, IsDecimal c
  value : decimal line = port
  pos : 1 ≤ port
  le : port ≤ 65535

/-- What a line at item `4` should do: a port is offered, with no digit of it lost on the
way, and anything else changes nothing. -/
structure PortExact (s : ShellState) (line : Line) : Prop where
  accepted : ∀ port, DenotesPort (typed cmdMAX_INPUT_SIZE line.keys) port →
    ∃ nPort, (handle s line).next = .ask (.confirmPort nPort) ∧
      (nPort.setWidth 16).toNat = port
  rejected : (¬ ∃ port, DenotesPort (typed cmdMAX_INPUT_SIZE line.keys) port) →
    Declined s line
  noWrap : ∀ nPort, (handle s line).next = .ask (.confirmPort nPort) →
    ∀ k, ∃ n, portDigits 0 ((typed cmdMAX_INPUT_SIZE line.keys).take k) = some n ∧
      n.toInt = decimal ((typed cmdMAX_INPUT_SIZE line.keys).take k)

/-- A number that is a port modulo `2 ^ 32`. -/
structure ReadAsPort (line : List Byte) : Prop where
  digits : ∀ c ∈ line, IsDecimal c
  pos : 0 < decimal line % 2 ^ 32
  lt : decimal line % 2 ^ 32 < 65536

/-- A number that wraps round to a port. -/
structure WrapsToPort (line : List Byte) : Prop extends ReadAsPort line where
  big : 65535 < decimal line

theorem ReadAsPort.denotes {line : List Byte} (h : ReadAsPort line)
    (hle : decimal line ≤ 65535) : DenotesPort line (decimal line) := by
  have hpos := h.pos
  refine ⟨?_, h.digits, rfl, by omega, hle⟩
  rintro rfl
  exact absurd hpos (by decide)

theorem DenotesPort.readAsPort {line : List Byte} {port : Nat} (h : DenotesPort line port) :
    ReadAsPort line := by
  obtain ⟨_, hdigits, rfl, hpos, hle⟩ := h
  exact ⟨hdigits, by omega, by omega⟩

theorem handle_port (hp : s.prompt = .port) : handle s line = portPrompt s line := by
  unfold handle
  rw [hp]

/-- That is what the loop and the check take. -/
theorem handle_port_accepts (hp : s.prompt = .port)
    (h : ReadAsPort (typed cmdMAX_INPUT_SIZE line.keys)) :
    ∃ nPort, (handle s line).next = .ask (.confirmPort nPort) ∧
      nPort.toNat = decimal (typed cmdMAX_INPUT_SIZE line.keys) % 2 ^ 32 := by
  have hne : (typed cmdMAX_INPUT_SIZE line.keys).length ≠ 0 := by
    intro hnil
    have hpos := h.pos
    rw [List.length_eq_zero_iff.mp hnil] at hpos
    exact absurd hpos (by decide)
  have hsome := portDigits_of_digits h.digits 0
  obtain ⟨_, hvalue⟩ := portDigits_eq_some hsome
  refine ⟨_, ?_, hvalue⟩
  rw [handle_port hp, portPrompt]
  dsimp only
  rw [shellGetLine_take (Nat.le_refl _), shellGetLine_length (Nat.le_refl _), if_pos hne, hsome]
  dsimp only
  rw [if_pos ((slt_iff _).mpr (hvalue ▸ ⟨h.pos, h.lt⟩))]

theorem handle_port_declines (hp : s.prompt = .port)
    (h : ¬ ReadAsPort (typed cmdMAX_INPUT_SIZE line.keys)) : Declined s line := by
  rw [Declined, handle_port hp, portPrompt]
  dsimp only
  rw [shellGetLine_take (Nat.le_refl _)]
  split
  · cases hdigits : portDigits 0 (typed cmdMAX_INPUT_SIZE line.keys) with
    | none => exact ⟨rfl, rfl⟩
    | some nPort =>
        obtain ⟨hall, hvalue⟩ := portDigits_eq_some hdigits
        dsimp only
        rw [if_neg]
        · exact ⟨rfl, rfl⟩
        · intro hrange
          rw [slt_iff, hvalue] at hrange
          exact h ⟨hall, hrange.1, hrange.2⟩
  · exact ⟨rfl, rfl⟩

/-- Item `4` is exact on every line but those whose number wraps round to a port. -/
theorem portExact_iff (hp : s.prompt = .port) :
    PortExact s line ↔ ¬ WrapsToPort (typed cmdMAX_INPUT_SIZE line.keys) := by
  constructor
  · intro hexact hwraps
    obtain ⟨nPort, hask, _⟩ := handle_port_accepts hp hwraps.toReadAsPort
    have hbig := hwraps.big
    have hdeclined := hexact.rejected fun ⟨port, hport⟩ => by
      have hvalue := hport.value
      have hle := hport.le
      omega
    rw [hdeclined.1] at hask
    cases hask
  · intro hwraps
    have hle : ReadAsPort (typed cmdMAX_INPUT_SIZE line.keys) →
        decimal (typed cmdMAX_INPUT_SIZE line.keys) ≤ 65535 :=
      fun hread => Nat.not_lt.mp fun hbig => hwraps ⟨hread, hbig⟩
    constructor
    · intro port hport
      obtain ⟨nPort, hask, hvalue⟩ := handle_port_accepts hp hport.readAsPort
      have hport_le := hport.le
      refine ⟨nPort, hask, ?_⟩
      rw [BitVec.toNat_setWidth, hvalue, hport.value]
      omega
    · intro hnone
      apply handle_port_declines hp
      exact fun hread => hnone ⟨_, hread.denotes (hle hread)⟩
    · intro nPort hask k
      have hread : ReadAsPort (typed cmdMAX_INPUT_SIZE line.keys) := by
        by_contra hread
        rw [(handle_port_declines hp hread).1] at hask
        cases hask
      have hall : ∀ c ∈ (typed cmdMAX_INPUT_SIZE line.keys).take k, IsDecimal c :=
        fun c hc => hread.digits c (List.mem_of_mem_take hc)
      have hdigits := portDigits_of_digits hall 0
      have hvalue := (portDigits_eq_some hdigits).2
      have hfront := Nat.le_trans (decimal_take_le _ k) (hle hread)
      refine ⟨_, hdigits, ?_⟩
      rw [BitVec.toInt_eq_toNat_cond, hvalue]
      omega

/-- At the prompt of item `4`. -/
theorem portExact_8080 :
    PortExact (shellRun firstMenu [.ofText "4" (by decide)]) (.ofText "8080" (by decide)) :=
  (portExact_iff (by decide +kernel)).mpr fun h => absurd h.big (by decide)

/-- `2 ^ 32 + 1` is taken for port 1. -/
theorem wraps_to_port_one :
    ¬ PortExact (shellRun firstMenu [.ofText "4" (by decide)])
      (.ofText "4294967297" (by decide)) := by
  intro h
  have hdeclined := h.rejected fun ⟨port, hport⟩ => by
    have hbig : port = 4294967297 := hport.value.symm.trans (by decide)
    have hle := hport.le
    omega
  exact absurd hdeclined.1 (by decide +kernel)

end BillCounter.Shell
