import BillCounter.Lib.RawBytes
import Mathlib.Logic.Equiv.Prod

/-!
# Records as byte strings

A C object without invalid representations is the same thing as its bytes: a
layout of `α` in `n` bytes is an equivalence `α ≃ Bytes n`.  Layouts of records
are put together from those of their members, in address order and with padding
as a member, so that both round trips come for free.
-/

namespace BillCounter.Lib.Layout

open BillCounter.Lib.RawBytes

universe u v

variable {α : Type u} {β : Type v} {m n : Nat}

/-- An array of bytes. -/
def array (n : Nat) : Bytes n ≃ Bytes n := .refl _

/-- A little-endian word. -/
def word (w n : Nat) (hw : 2 ^ w = 256 ^ n) : BitVec w ≃ Bytes n where
  toFun x := ⟨wordBytes n x, length_wordBytes n x⟩
  invFun bs := wordAt w bs.val
  left_inv x := wordAt_wordBytes x hw
  right_inv bs := Bytes.ext (wordBytes_wordAt bs.val bs.property hw)

/-- Two byte strings one after the other. -/
def append (m n : Nat) : Bytes m × Bytes n ≃ Bytes (m + n) where
  toFun p := ⟨p.1.val ++ p.2.val, by rw [List.length_append, p.1.property, p.2.property]⟩
  invFun bs := ⟨⟨bs.val.take m, by rw [List.length_take, bs.property]; omega⟩,
    ⟨bs.val.drop m, by rw [List.length_drop, bs.property]; omega⟩⟩
  left_inv p := by
    obtain ⟨⟨xs, hxs⟩, ys, hys⟩ := p
    simp [← hxs]
  right_inv bs := Bytes.ext (List.take_append_drop m bs.val)

/-- A member of `α`, then one of `β`. -/
def seq (a : α ≃ Bytes m) (b : β ≃ Bytes n) : α × β ≃ Bytes (m + n) :=
  (a.prodCongr b).trans (append m n)

end BillCounter.Lib.Layout
