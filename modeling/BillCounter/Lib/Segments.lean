import BillCounter.Lib.RawBytes
import Mathlib.Logic.Function.Basic

/-!
# Equal buffers as one store

A frame that does not fit one buffer lies in several buffers of one size, and whoever
fills or reads them goes through them in order.  Behind each other the buffers are one
store (`flat`): position `k * size + off` is offset `off` of buffer `k`.  A read or a
write inside one buffer is a read or a write of the store (`read_flat`, `flat_store`),
so that a loop over the buffers can be followed by its position alone.

Offsets of a buffer are not bounded by its size; what is beyond belongs to no position.
-/

namespace BillCounter.Lib.Segments

open BillCounter.Lib.RawBytes

universe u

/-! ## Consecutive writes -/

/-- What a write leaves at an address depends on what was there alone. -/
theorem write_congr {m m' : Memory} {x : Nat} (h : m x = m' x) (a : Nat) (bs : List Byte) :
    write m a bs x = write m' a bs x := by
  rw [write, write, h]

@[simp] theorem write_nil (m : Memory) (a : Nat) : write m a [] = m := by
  funext x
  exact write_of_disjoint (by simp; omega)

/-- Two writes behind each other are one. -/
theorem write_append (m : Memory) (a : Nat) (bs cs : List Byte) :
    write (write m a bs) (a + bs.length) cs = write m a (bs ++ cs) := by
  funext x
  simp only [write, List.length_append]
  by_cases hlow : x < a + bs.length
  · rw [if_neg (by omega)]
    by_cases ha : a ≤ x
    · rw [if_pos ⟨ha, hlow⟩, if_pos ⟨ha, by omega⟩, List.getD_eq_getElem?_getD,
        List.getD_eq_getElem?_getD, List.getElem?_append_left (by omega)]
    · rw [if_neg (by omega), if_neg (by omega)]
  · by_cases hhigh : x < a + bs.length + cs.length
    · rw [if_pos ⟨by omega, hhigh⟩, if_pos ⟨by omega, by omega⟩, List.getD_eq_getElem?_getD,
        List.getD_eq_getElem?_getD, List.getElem?_append_right (by omega), Nat.sub_add_eq]
    · rw [if_neg (by omega), if_neg (by omega), if_neg (by omega)]

/-! ## The store -/

variable {δ : Type u} {size count k off n : Nat} {seg : Nat → δ} {memory : δ → Memory}

/-- The buffers `seg 0`, `seg 1` and so on behind each other. -/
def flat (size : Nat) (seg : Nat → δ) (memory : δ → Memory) : Memory := fun p =>
  memory (seg (p / size)) (p % size)

/-- What the first `n` buffers hold. -/
def contents (size : Nat) (seg : Nat → δ) (memory : δ → Memory) (n : Nat) : List Byte :=
  (List.range n).flatMap fun k => read (memory (seg k)) 0 size

theorem flat_offset (h : off < size) :
    flat size seg memory (k * size + off) = memory (seg k) off := by
  rw [flat, Nat.mul_comm, Nat.mul_add_div (by omega), Nat.div_eq_of_lt h, Nat.add_zero,
    Nat.mul_add_mod, Nat.mod_eq_of_lt h]

/-- A read inside a buffer is one of the store. -/
theorem read_flat (h : off + n ≤ size) :
    read (flat size seg memory) (k * size + off) n = read (memory (seg k)) off n :=
  read_congr fun i hi => by rw [Nat.add_assoc, flat_offset (by omega)]

/-- The store is what the buffers hold. -/
theorem contents_eq_read (n : Nat) :
    contents size seg memory n = read (flat size seg memory) 0 (n * size) := by
  induction n with
  | zero => simp [contents, RawBytes.read]
  | succ n ih =>
      have hlast : read (flat size seg memory) (n * size + 0) size =
          read (memory (seg n)) 0 size := read_flat (Nat.le_of_eq (Nat.zero_add size))
      rw [Nat.add_zero] at hlast
      rw [Nat.succ_mul, read_add, ← ih, Nat.zero_add, hlast]
      simp [contents, List.range_succ]

theorem take_contents (h : n ≤ count * size) :
    (contents size seg memory count).take n = read (flat size seg memory) 0 n := by
  obtain ⟨m, hm⟩ := Nat.exists_eq_add_of_le h
  rw [contents_eq_read, hm, read_add, List.take_left' (length_read _ _ _)]

/-- Only what is inside the buffers counts. -/
theorem contents_congr {memory' : δ → Memory}
    (h : ∀ k, k < n → ∀ o, o < size → memory (seg k) o = memory' (seg k) o) :
    contents size seg memory n = contents size seg memory' n := by
  rw [contents_eq_read, contents_eq_read]
  refine read_congr fun p hp => ?_
  have hsize : 0 < size := Nat.pos_of_mul_pos_left (Nat.lt_of_le_of_lt (Nat.zero_le p) hp)
  rw [Nat.zero_add, flat, flat]
  exact h _ (Nat.div_lt_of_lt_mul (by rwa [Nat.mul_comm])) _ (Nat.mod_lt _ hsize)

/-! ## Writes -/

variable [DecidableEq δ]

/-- Write `bs` into buffer `d` from offset `off`. -/
def store (memory : δ → Memory) (d : δ) (off : Nat) (bs : List Byte) : δ → Memory :=
  Function.update memory d (write (memory d) off bs)

/-- A write inside a buffer is one of the store, as long as the buffers are different. -/
theorem flat_store (hseg : ∀ j k, j < count → k < count → seg j = seg k → j = k)
    (hk : k < count) {bs : List Byte} (h : off + bs.length ≤ size) {p : Nat}
    (hp : p < count * size) :
    flat size seg (store memory (seg k) off bs) p =
      write (flat size seg memory) (k * size + off) bs p := by
  have hsize : 0 < size := Nat.pos_of_mul_pos_left (Nat.lt_of_le_of_lt (Nat.zero_le p) hp)
  obtain ⟨j, r, hr, rfl⟩ : ∃ j r, r < size ∧ p = j * size + r :=
    ⟨p / size, p % size, Nat.mod_lt _ hsize, (Nat.div_add_mod' p size).symm⟩
  have hj : j < count := by
    by_contra hle
    have hmul := Nat.mul_le_mul_right size (Nat.le_of_not_lt hle)
    omega
  rw [flat_offset hr, store]
  by_cases heq : j = k
  · subst heq
    rw [Function.update_self, write, write, flat_offset hr]
    by_cases hin : off ≤ r ∧ r < off + bs.length
    · rw [if_pos hin, if_pos (by omega)]
      congr 1
      omega
    · rw [if_neg hin, if_neg (by omega)]
  · rw [Function.update_of_ne fun h => heq (hseg _ _ hj hk h), write_of_disjoint, flat_offset hr]
    rcases Nat.lt_or_gt_of_ne heq with hlt | hlt
    · have hmul := Nat.mul_le_mul_right size (Nat.succ_le_of_lt hlt)
      rw [Nat.succ_mul] at hmul
      exact .inl (by omega)
    · have hmul := Nat.mul_le_mul_right size (Nat.succ_le_of_lt hlt)
      rw [Nat.succ_mul] at hmul
      exact .inr (by omega)

/-- A write inside a buffer touches nothing beyond any. -/
theorem store_beyond {d d' : δ} {bs : List Byte} (h : off + bs.length ≤ size) {o : Nat}
    (ho : size ≤ o) : store memory d off bs d' o = memory d' o := by
  by_cases hd : d' = d
  · subst hd
    rw [store, Function.update_self, write_of_disjoint (.inr (by omega))]
  · rw [store, Function.update_of_ne hd]

/-- `memory'` is `memory` with `bs` written from position `pos` on, and unchanged beyond
the buffers. -/
structure Stored (size count : Nat) (seg : Nat → δ) (memory memory' : δ → Memory)
    (pos : Nat) (bs : List Byte) : Prop where
  flat_eq : ∀ p, p < count * size →
    flat size seg memory' p = write (flat size seg memory) pos bs p
  beyond : ∀ d o, size ≤ o → memory' d o = memory d o

variable {memory' memory'' : δ → Memory} {pos : Nat} {bs cs : List Byte}

theorem stored_store (hseg : ∀ j k, j < count → k < count → seg j = seg k → j = k)
    (hk : k < count) (h : off + bs.length ≤ size) :
    Stored size count seg memory (store memory (seg k) off bs) (k * size + off) bs where
  flat_eq _ hp := flat_store hseg hk h hp
  beyond _ _ ho := store_beyond h ho

omit [DecidableEq δ]

theorem Stored.nil : Stored size count seg memory memory pos [] where
  flat_eq p _ := by rw [write_nil]
  beyond _ _ _ := rfl

/-- What is stored piece by piece is stored. -/
theorem Stored.append (h : Stored size count seg memory memory' pos bs)
    (h' : Stored size count seg memory' memory'' (pos + bs.length) cs) :
    Stored size count seg memory memory'' pos (bs ++ cs) where
  flat_eq p hp := by
    rw [h'.flat_eq p hp, write_congr (h.flat_eq p hp), write_append]
  beyond d o ho := (h'.beyond d o ho).trans (h.beyond d o ho)

/-- What is stored can be read. -/
theorem Stored.read_eq (h : Stored size count seg memory memory' pos bs)
    (hpos : pos + bs.length ≤ count * size) :
    read (flat size seg memory') pos bs.length = bs := by
  have hsame : read (flat size seg memory') pos bs.length =
      read (write (flat size seg memory) pos bs) pos bs.length :=
    read_congr fun i hi => h.flat_eq _ (by omega)
  rw [hsame, read_write_self]

end BillCounter.Lib.Segments
