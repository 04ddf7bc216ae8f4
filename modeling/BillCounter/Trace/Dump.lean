import BillCounter.Lib.CString
import BillCounter.Lib.Columns

/-!
# Hexadecimal dumps

`TRACE_printDump` prints bytes in rows.  A row is put together in the static `pBuff` with
one `sprintf` behind the other, and nothing there looks at how long it gets.  Accesses are
checked here: the model stops where the source would read or write outside its array.  The
tasks share `pBuff`; a call is taken to be alone with it.
-/

namespace BillCounter.Trace

open BillCounter.Lib.Columns
open BillCounter.Lib.CString
open BillCounter.Lib.RawBytes

/-! ## The code -/

/-- Why a call has no result. -/
inductive Fault
  | outOfFuel
  | readOutside
  | writeOutside
deriving DecidableEq

/-- `sizeof(pBuff)`. -/
def sizeofPBuff : Nat := 128

/-- What `"%02x "` makes of a byte. -/
def format02x (b : Byte) : List Byte :=
  ((Nat.toDigits 16 b.toNat).leftpad 2 '0').map ascii ++ literal " "

/-- What `"\n"` makes. -/
def newline : Byte := 0x0a

/-- `pValue[i]`. -/
def readAt (pValue : List Byte) (i : Nat) : Except Fault Byte :=
  match pValue[i]? with
  | some b => .ok b
  | none => .error .readOutside

/-- `sprintf(&pBuff[ulLen], …)` of `text`, with its NUL. -/
def sprintfAt {n : Nat} (pBuff : Bytes n) (ulLen : Nat) (text : List Byte) :
    Except Fault (Bytes n) :=
  if h : ulLen + (text ++ [0]).length ≤ n then
    .ok ⟨patch pBuff.val ulLen (text ++ [0]), by
      rw [length_patch (by rw [pBuff.property]; exact h), pBuff.property]⟩
  else .error .writeOutside

/-- The `for` loop, from `i` on: `i` and `ulLen` behind it, and `pBuff`. -/
def dumpRow (pValue : List Byte) (ulCount ulColumnLength : BitVec 32) :
    Nat → BitVec 32 → BitVec 32 → Bytes sizeofPBuff →
      Except Fault (BitVec 32 × BitVec 32 × Bytes sizeofPBuff)
  | 0, _, _, _ => .error .outOfFuel
  | fuel + 1, i, ulLen, pBuff =>
      if i < ulCount ∧ (ulColumnLength = 0 ∨ i < ulColumnLength) then do
        let b ← readAt pValue i.toNat
        let pBuff ← sprintfAt pBuff ulLen.toNat (format02x b)
        dumpRow pValue ulCount ulColumnLength fuel (i + 1)
          (ulLen + BitVec.ofNat 32 (format02x b).length) pBuff
      else .ok (i, ulLen, pBuff)

/-- The `while` loop: the strings given to `SHELL_print`, and `pBuff`. -/
def dumpRows (ulColumnLength : BitVec 32) :
    Nat → List Byte → BitVec 32 → Bytes sizeofPBuff →
      Except Fault (List (List Byte) × Bytes sizeofPBuff)
  | 0, _, _, _ => .error .outOfFuel
  | fuel + 1, pValue, ulCount, pBuff =>
      if 0 < ulCount then do
        let (i, ulLen, pBuff) ← dumpRow pValue ulCount ulColumnLength (fuel + 1) 0 0 pBuff
        let pBuff ← sprintfAt pBuff ulLen.toNat [newline]
        let (rows, pBuff') ← dumpRows ulColumnLength fuel (pValue.drop i.toNat) (ulCount - i) pBuff
        return (cString pBuff.val :: rows, pBuff')
      else .ok ([], pBuff)

/-- `TRACE_printDump`. -/
def tracePrintDump (fuel : Nat) (bTrace : Bool) (pValue : List Byte)
    (ulCount ulColumnLength : BitVec 32) (pBuff : Bytes sizeofPBuff) :
    Except Fault (List (List Byte) × Bytes sizeofPBuff) :=
  if bTrace then dumpRows ulColumnLength fuel pValue ulCount pBuff else .ok ([], pBuff)

/-! ## What it is to print -/

/-- A byte in two hexadecimal digits. -/
def hexPair (b : Byte) : List Byte :=
  [(literal "0123456789abcdef").getD (b.toNat / 16) 0,
    (literal "0123456789abcdef").getD (b.toNat % 16) 0]

/-- The bytes in order, in columns. -/
def dumpText (ulColumnLength : Nat) (bs : List Byte) : List Byte :=
  columns (fun b => hexPair b ++ [ascii ' ']) newline ulColumnLength bs

/-- A call: the bytes of the array from `pValue` on, and the other arguments. -/
structure Dump where
  pValue : List Byte
  ulCount : BitVec 32
  ulColumnLength : BitVec 32

/-- How many bytes are in the first row, which is the longest. -/
def Dump.firstRow (d : Dump) : Nat := rowLength d.ulColumnLength.toNat d.ulCount.toNat

/-- There are as many bytes as are to be printed, and no more than 42 in a row. -/
structure Dump.Short (d : Dump) : Prop where
  read : d.ulCount.toNat ≤ d.pValue.length
  row : d.firstRow ≤ 42

/-- The call ends with all bytes printed, and each row fits `pBuff` with its NUL.  Without
`bTrace` nothing is printed. -/
def Dump.Completes (d : Dump) : Prop :=
  ∀ bTrace pBuff fuel, d.ulCount.toNat < fuel →
    ∃ rows pBuff', tracePrintDump fuel bTrace d.pValue d.ulCount d.ulColumnLength pBuff =
        .ok (rows, pBuff') ∧
      rows.flatten = (if bTrace then
        dumpText d.ulColumnLength.toNat (d.pValue.take d.ulCount.toNat) else []) ∧
      ∀ row ∈ rows, row.length + 1 ≤ sizeofPBuff

/-! ## The text of a byte -/

theorem format02x_eq (b : Byte) : format02x b = hexPair b ++ [ascii ' '] := by
  revert b
  decide +kernel

theorem length_format02x (b : Byte) : (format02x b).length = 3 := by
  rw [format02x_eq]
  rfl

theorem zero_not_mem_format02x (b : Byte) : (0 : Byte) ∉ format02x b := by
  revert b
  decide +kernel

theorem length_rowText (bs : List Byte) : (bs.flatMap format02x).length = 3 * bs.length := by
  induction bs with
  | nil => rfl
  | cons b bs ih =>
      rw [List.flatMap_cons, List.length_append, length_format02x, ih, List.length_cons]
      omega

theorem zero_not_mem_rowText (bs : List Byte) : (0 : Byte) ∉ bs.flatMap format02x := by
  intro h
  obtain ⟨b, -, hb⟩ := List.mem_flatMap.mp h
  exact zero_not_mem_format02x b hb

/-! ## Accesses -/

@[simp] theorem ok_bind {α β : Type} (a : α) (f : α → Except Fault β) :
    (Except.ok a >>= f) = f a := rfl

@[simp] theorem error_bind {α β : Type} (e : Fault) (f : α → Except Fault β) :
    (Except.error e >>= f) = .error e := rfl

theorem readAt_eq {pValue : List Byte} {i : Nat} {b : Byte} (h : pValue[i]? = some b) :
    readAt pValue i = .ok b := by
  rw [readAt, h]

variable {n : Nat} (pBuff : Bytes n) {ulLen : Nat} {text : List Byte}

/-- A string that fits is put behind the bytes in front of it, and ends there. -/
theorem sprintfAt_ok (h : ulLen + text.length + 1 ≤ n) :
    ∃ b rest, sprintfAt pBuff ulLen text = .ok b ∧
      b.val = pBuff.val.take ulLen ++ text ++ 0 :: rest := by
  have hfits : ulLen + (text ++ [0]).length ≤ n := by
    rw [List.length_append, List.length_singleton]
    omega
  rw [sprintfAt, dif_pos hfits]
  refine ⟨_, pBuff.val.drop (ulLen + (text ++ [0]).length), rfl, ?_⟩
  show pBuff.val.take ulLen ++ (text ++ [0]) ++ _ = _
  rw [← List.append_assoc, List.append_assoc, List.singleton_append]

theorem sprintfAt_error (h : n < ulLen + text.length + 1) :
    sprintfAt pBuff ulLen text = .error .writeOutside := by
  rw [sprintfAt, dif_neg]
  rw [List.length_append, List.length_singleton]
  omega

/-! ## A row -/

variable {pValue : List Byte} {ulCount ulColumnLength i : BitVec 32}

theorem lt_rowLength_iff :
    (i < ulCount ∧ (ulColumnLength = 0 ∨ i < ulColumnLength)) ↔
      i.toNat < rowLength ulColumnLength.toNat ulCount.toNat := by
  have hzero : ulColumnLength = 0 ↔ ulColumnLength.toNat = 0 := BitVec.toNat_inj.symm
  rw [BitVec.lt_def, BitVec.lt_def, hzero, rowLength]
  split <;> omega

/-- The first `k` bytes are in `pBuff`. -/
structure RowState (pValue : List Byte) (k : Nat) (ulLen : BitVec 32)
    (pBuff : Bytes sizeofPBuff) : Prop where
  ulLen : ulLen.toNat = 3 * k
  text : pBuff.val.take (3 * k) = (pValue.take k).flatMap format02x

/-- Before the first `sprintf`, whatever `pBuff` holds. -/
theorem rowState_zero (pValue : List Byte) (pBuff : Bytes sizeofPBuff) :
    RowState pValue (0 : BitVec 32).toNat 0 pBuff := ⟨rfl, rfl⟩

/-- One round of the loop. -/
theorem RowState.step {k : Nat} {ulLen : BitVec 32} {pBuff : Bytes sizeofPBuff} {b : Byte}
    (h : RowState pValue k ulLen pBuff) (hb : pValue[k]? = some b) (hk : k < 42) :
    ∃ pBuff', sprintfAt pBuff ulLen.toNat (format02x b) = .ok pBuff' ∧
      RowState pValue (k + 1) (ulLen + BitVec.ofNat 32 (format02x b).length) pBuff' := by
  have hthree := length_format02x b
  have hlen := h.ulLen
  have hfits : ulLen.toNat + (format02x b).length + 1 ≤ sizeofPBuff := by
    rw [hthree, hlen, sizeofPBuff]
    omega
  obtain ⟨pBuff', rest, hok, hval⟩ := sprintfAt_ok pBuff hfits
  refine ⟨pBuff', hok, ?_, ?_⟩
  · rw [hthree, BitVec.toNat_add, BitVec.toNat_ofNat, hlen]
    omega
  · have hfront : (pBuff.val.take (3 * k) ++ format02x b).length = 3 * (k + 1) := by
      rw [List.length_append, List.length_take, pBuff.property, hthree, sizeofPBuff]
      omega
    rw [hval, hlen, List.take_left' hfront, h.text, List.take_add_one, hb, List.flatMap_append]
    simp

theorem dumpRow_next {fuel : Nat} {ulLen : BitVec 32} {pBuff : Bytes sizeofPBuff} {b : Byte}
    (hlt : i.toNat < rowLength ulColumnLength.toNat ulCount.toNat)
    (hb : pValue[i.toNat]? = some b) :
    dumpRow pValue ulCount ulColumnLength (fuel + 1) i ulLen pBuff =
      sprintfAt pBuff ulLen.toNat (format02x b) >>=
        dumpRow pValue ulCount ulColumnLength fuel (i + 1)
          (ulLen + BitVec.ofNat 32 (format02x b).length) := by
  rw [dumpRow, if_pos (lt_rowLength_iff.mpr hlt), readAt_eq hb, ok_bind]

theorem toNat_next (hlt : i.toNat < rowLength ulColumnLength.toNat ulCount.toNat) :
    (i + 1).toNat = i.toNat + 1 := by
  have hcount := rowLength_le ulColumnLength.toNat ulCount.toNat
  have hone : (1 : BitVec 32).toNat = 1 := rfl
  rw [BitVec.toNat_add, hone]
  omega

/-- A row of up to 42 bytes goes through. -/
theorem dumpRow_ok (hread : ulCount.toNat ≤ pValue.length)
    (hrow : rowLength ulColumnLength.toNat ulCount.toNat ≤ 42) (fuel : Nat) {ulLen : BitVec 32}
    {pBuff : Bytes sizeofPBuff} (h : RowState pValue i.toNat ulLen pBuff)
    (hi : i.toNat ≤ rowLength ulColumnLength.toNat ulCount.toNat)
    (hfuel : rowLength ulColumnLength.toNat ulCount.toNat < i.toNat + fuel) :
    ∃ j ulLen' pBuff', dumpRow pValue ulCount ulColumnLength fuel i ulLen pBuff =
        .ok (j, ulLen', pBuff') ∧
      j.toNat = rowLength ulColumnLength.toNat ulCount.toNat ∧
      RowState pValue j.toNat ulLen' pBuff' := by
  have hcount := rowLength_le ulColumnLength.toNat ulCount.toNat
  induction fuel generalizing i ulLen pBuff with
  | zero => omega
  | succ fuel ih =>
      rcases Nat.lt_or_ge i.toNat (rowLength ulColumnLength.toNat ulCount.toNat) with hlt | hge
      · have hnext := toNat_next hlt
        have hb := List.getElem?_eq_getElem (l := pValue) (i := i.toNat) (by omega)
        obtain ⟨pBuff', hok, hstep⟩ := h.step hb (by omega)
        rw [← hnext] at hstep
        rw [dumpRow_next hlt hb, hok, ok_bind]
        exact ih hstep (by omega) (by omega)
      · rw [dumpRow, if_neg (by rw [lt_rowLength_iff]; omega)]
        exact ⟨i, ulLen, pBuff, rfl, Nat.le_antisymm hi hge, h⟩

/-- A longer one is written beyond `pBuff`. -/
theorem dumpRow_error (hread : ulCount.toNat ≤ pValue.length)
    (hrow : 42 < rowLength ulColumnLength.toNat ulCount.toNat) (fuel : Nat) {ulLen : BitVec 32}
    {pBuff : Bytes sizeofPBuff} (h : RowState pValue i.toNat ulLen pBuff) (hi : i.toNat ≤ 42)
    (hfuel : 42 < i.toNat + fuel) :
    dumpRow pValue ulCount ulColumnLength fuel i ulLen pBuff = .error .writeOutside := by
  have hcount := rowLength_le ulColumnLength.toNat ulCount.toNat
  induction fuel generalizing i ulLen pBuff with
  | zero => omega
  | succ fuel ih =>
      have hlt : i.toNat < rowLength ulColumnLength.toNat ulCount.toNat := by omega
      have hb := List.getElem?_eq_getElem (l := pValue) (i := i.toNat) (by omega)
      rw [dumpRow_next hlt hb]
      rcases Nat.lt_or_ge i.toNat 42 with hfits | hend
      · have hnext := toNat_next hlt
        obtain ⟨pBuff', hok, hstep⟩ := h.step hb hfits
        rw [← hnext] at hstep
        rw [hok, ok_bind]
        exact ih hstep (by omega) (by omega)
      · have hlen := h.ulLen
        rw [sprintfAt_error _ (by rw [length_format02x, hlen, sizeofPBuff]; omega), error_bind]

/-! ## All rows -/

/-- What is given to `SHELL_print` is the text of a row, and it fits. -/
theorem row_printed {k : Nat} {ulLen : BitVec 32} {pBuff : Bytes sizeofPBuff}
    (h : RowState pValue k ulLen pBuff) (hk : k ≤ 42) :
    ∃ pBuff', sprintfAt pBuff ulLen.toNat [newline] = .ok pBuff' ∧
      cString pBuff'.val = (pValue.take k).flatMap format02x ++ [newline] ∧
      (cString pBuff'.val).length + 1 ≤ sizeofPBuff := by
  have hlen := h.ulLen
  have hroom : ulLen.toNat + [newline].length + 1 ≤ sizeofPBuff := by
    rw [hlen, List.length_singleton, sizeofPBuff]
    omega
  obtain ⟨pBuff', rest, hok, hval⟩ := sprintfAt_ok pBuff hroom
  rw [hlen, h.text] at hval
  have hzero : (0 : Byte) ∉ (pValue.take k).flatMap format02x ++ [newline] := by
    rw [List.mem_append, not_or]
    exact ⟨zero_not_mem_rowText _, by decide⟩
  have hstring : cString pBuff'.val = (pValue.take k).flatMap format02x ++ [newline] := by
    rw [hval, cString_append_zero hzero]
  refine ⟨pBuff', hok, hstring, ?_⟩
  have htake := List.length_take_le k pValue
  rw [hstring, List.length_append, length_rowText, List.length_singleton, sizeofPBuff]
  omega

theorem dumpText_eq (c : Nat) (bs : List Byte) : dumpText c bs = columns format02x newline c bs :=
  congrArg (fun render => columns render newline c bs) (funext fun b => (format02x_eq b).symm)

example : dumpText 2 [0x01, 0xab, 0x03] = literal "01 ab \n03 \n" := by decide

/-- The rows are printed one behind the other; each takes bytes off the count. -/
theorem dumpRows_ok (fuel : Nat) (pValue : List Byte) (ulCount : BitVec 32)
    (hread : ulCount.toNat ≤ pValue.length)
    (hrow : rowLength ulColumnLength.toNat ulCount.toNat ≤ 42) (hfuel : ulCount.toNat < fuel)
    (pBuff : Bytes sizeofPBuff) :
    ∃ rows pBuff', dumpRows ulColumnLength fuel pValue ulCount pBuff = .ok (rows, pBuff') ∧
      rows.flatten = columns format02x newline ulColumnLength.toNat
        (pValue.take ulCount.toNat) ∧
      ∀ row ∈ rows, row.length + 1 ≤ sizeofPBuff := by
  induction fuel generalizing pValue ulCount pBuff with
  | zero => omega
  | succ fuel ih =>
      have hcount : 0 < ulCount ↔ 0 < ulCount.toNat := BitVec.lt_def
      rw [dumpRows]
      rcases Nat.eq_zero_or_pos ulCount.toNat with hzero | hpos
      · rw [if_neg (by rw [hcount]; omega), hzero]
        exact ⟨[], pBuff, rfl, rfl, fun row h => absurd h List.not_mem_nil⟩
      · have hle := rowLength_le ulColumnLength.toNat ulCount.toNat
        have hlen : (pValue.take ulCount.toNat).length = ulCount.toNat :=
          List.length_take_of_le hread
        have hne : pValue.take ulCount.toNat ≠ [] := by
          rw [← List.length_pos_iff, hlen]
          exact hpos
        obtain ⟨i, ulLen, pBuff₁, hloop, hi, hstate⟩ := dumpRow_ok hread hrow (fuel + 1)
          (rowState_zero pValue pBuff) (Nat.zero_le _)
          (show _ < 0 + (fuel + 1) by omega)
        obtain ⟨pBuff₂, hnewline, hstring, hfits⟩ := row_printed hstate (by omega)
        -- the loop of the row took a step, so less is left
        have hstep := rowLength_pos ulColumnLength.toNat hpos
        have hleft : (ulCount - i).toNat = ulCount.toNat - i.toNat :=
          BitVec.toNat_sub_of_le (by rw [BitVec.le_def]; omega)
        have hmono := rowLength_mono ulColumnLength.toNat (m := ulCount.toNat - i.toNat)
          (Nat.sub_le _ _)
        obtain ⟨rows, pBuff₃, hrest, htext, hrows⟩ := ih (pValue.drop i.toNat) (ulCount - i)
          (by rw [hleft, List.length_drop]; omega)
          (by rw [hleft]; omega) (by rw [hleft]; omega) pBuff₂
        refine ⟨cString pBuff₂.val :: rows, pBuff₃, ?_, ?_, ?_⟩
        · simp only [if_pos (hcount.mpr hpos), hloop, ok_bind, hnewline, hrest]
          rfl
        · rw [List.flatten_cons, htext, hstring, columns_row format02x newline hne, hlen, ← hi,
            List.take_take, Nat.min_eq_left (by omega), List.drop_take, hleft, List.append_assoc,
            List.singleton_append]
        · exact List.forall_mem_cons.mpr ⟨hfits, hrows⟩

theorem completes_of_short {d : Dump} (h : d.Short) : d.Completes := by
  intro bTrace pBuff fuel hfuel
  cases bTrace with
  | false => exact ⟨[], pBuff, rfl, rfl, fun row h => absurd h List.not_mem_nil⟩
  | true =>
      obtain ⟨rows, pBuff', hrows, htext, hfits⟩ := dumpRows_ok fuel _ _ h.read h.row hfuel pBuff
      refine ⟨rows, pBuff', hrows, ?_, hfits⟩
      rw [if_pos rfl, dumpText_eq]
      exact htext

/-- 42 bytes in a row are as many as there is room for. -/
theorem completes_iff {d : Dump} (hread : d.ulCount.toNat ≤ d.pValue.length) :
    d.Completes ↔ d.firstRow ≤ 42 := by
  refine ⟨fun h => ?_, fun h => completes_of_short ⟨hread, h⟩⟩
  by_contra hlong
  have hle := rowLength_le d.ulColumnLength.toNat d.ulCount.toNat
  have hcount : 42 < rowLength d.ulColumnLength.toNat d.ulCount.toNat := Nat.lt_of_not_le hlong
  have herror := dumpRow_error hread hcount (d.ulCount.toNat + 1)
    (rowState_zero d.pValue (.replicate sizeofPBuff 0)) (Nat.zero_le 42)
    (show 42 < 0 + (d.ulCount.toNat + 1) by omega)
  obtain ⟨rows, pBuff', hok, -⟩ := h true (.replicate sizeofPBuff 0) _ (Nat.lt_succ_self _)
  rw [tracePrintDump, if_pos rfl, dumpRows,
    if_pos (by rw [BitVec.lt_def]; show 0 < _; omega), herror] at hok
  cases hok

end BillCounter.Trace
