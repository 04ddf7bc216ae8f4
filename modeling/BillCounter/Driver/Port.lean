import BillCounter.Lib.Positional

/-!
# A counter's port, as its driver sees it

`SERIAL_getc` and `SERIAL_gets` give up after a while.  What matters to a driver is
only which of its calls are served in time, so the line is a list of the bytes that
arrive, with a `none` wherever a call waits for one in vain.
-/

namespace BillCounter.Driver

open BillCounter.Lib.Positional
open BillCounter.Lib.RawBytes

/-- What the port delivers, and when it lets a call down. -/
abbrev Arrivals := List (Option Byte)

/-- `SERIAL_getc`: the byte, or `none` for `RET_ERROR`. -/
def serialGetc : Arrivals → Option Byte × Arrivals
  | [] => (none, [])
  | b :: line => (b, line)

/-- `SERIAL_gets`: up to `ulSize` bytes, fewer if the time runs out. -/
def serialGets : Nat → Arrivals → List Byte × Arrivals
  | 0, line => ([], line)
  | _ + 1, [] => ([], [])
  | _ + 1, none :: line => ([], line)
  | ulSize + 1, some b :: line =>
      (b :: (serialGets ulSize line).1, (serialGets ulSize line).2)

/-- Bytes that arrive in time. -/
def inTime (bs : List Byte) : Arrivals := bs.map some

theorem serialGetc_inTime (b : Byte) (bs : List Byte) (line : Arrivals) :
    serialGetc (inTime (b :: bs) ++ line) = (some b, inTime bs ++ line) := rfl

/-- Bytes that arrive in time are read. -/
theorem serialGets_inTime (bs : List Byte) (line : Arrivals) :
    serialGets bs.length (inTime bs ++ line) = (bs, line) := by
  induction bs with
  | nil => cases line <;> rfl
  | cons b bs ih =>
      rw [List.length_cons, inTime, List.map_cons, List.cons_append, serialGets]
      rw [inTime] at ih
      rw [ih]

/-- A frame arrives as its first byte and the rest. -/
theorem frame_arrives {n : Nat} {stx : Byte} (F : Bytes (n + 1)) (h : F.val.head? = some stx)
    (line : Arrivals) :
    ∃ bs, F.val = stx :: bs ∧ bs.length = n ∧ serialGets n (inTime bs ++ line) = (bs, line) := by
  obtain ⟨bs, hbs⟩ := List.head?_eq_some_iff.mp h
  have hlen : bs.length = n := by
    have hval := F.property
    rw [hbs, List.length_cons] at hval
    exact Nat.succ.inj hval
  have hgets := serialGets_inTime bs line
  rw [hlen] at hgets
  exact ⟨bs, hbs, hlen, hgets⟩

/-- A read that gets all it asked for took its bytes off the line. -/
theorem eq_of_serialGets {n : Nat} {line : Arrivals} (h : (serialGets n line).1.length = n) :
    line = inTime (serialGets n line).1 ++ (serialGets n line).2 := by
  induction n generalizing line with
  | zero => rfl
  | succ n ih =>
      cases line with
      | nil => cases h
      | cons b line =>
          cases b with
          | none => cases h
          | some b => exact congrArg (some b :: ·) (ih (Nat.succ.inj h))

/-! ## Bytes of a message -/

/-- The two bytes of a count in the message. -/
def countBytes (n : BitVec 32) : List Byte :=
  [((n >>> 8) &&& 0xff).setWidth 8, (n &&& 0xff).setWidth 8]

theorem setWidth_and_ff (x : BitVec 32) : (x &&& 0xff).setWidth 8 = x.setWidth 8 := by
  have hff : (0xff : BitVec 32).setWidth 8 = BitVec.allOnes 8 := rfl
  rw [BitVec.setWidth_and, hff, BitVec.and_allOnes]

/-- The count in a message: its bytes 1 to 3. -/
def counted (message : List Byte) : Nat := beValue (slice message 1 3)

theorem counted_cons (tag b₁ b₂ b₃ : Byte) (rest : List Byte) :
    counted (tag :: b₁ :: b₂ :: b₃ :: rest) =
      b₁.toNat * 2 ^ 16 + b₂.toNat * 2 ^ 8 + b₃.toNat := by
  simp [counted, slice, beValue, value, Nat.ofDigits]
  omega

/-- The four bytes of a word, as they are put into a message. -/
def wordInMessage (n : BitVec 32) : List Byte :=
  [((n >>> 24) &&& 0xff).setWidth 8, ((n >>> 16) &&& 0xff).setWidth 8,
   ((n >>> 8) &&& 0xff).setWidth 8, (n &&& 0xff).setWidth 8]

theorem beValue_wordInMessage (n : BitVec 32) : beValue (wordInMessage n) = n.toNat := by
  have hlt := n.isLt
  rw [wordInMessage, setWidth_and_ff, setWidth_and_ff, setWidth_and_ff, setWidth_and_ff]
  simp [beValue, value, Nat.ofDigits, Nat.shiftRight_eq_div_pow]
  omega

end BillCounter.Driver
