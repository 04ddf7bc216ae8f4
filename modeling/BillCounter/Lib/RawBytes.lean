import Mathlib.Algebra.Group.Nat.Defs

/-!
# Bytes, little-endian words and byte-addressed memory

The firmware's records live in flash and are read back through casted
pointers, so their proofs are about bytes: what a write leaves at an address,
what a read of a neighbouring range still sees, what an erase sets to `0xFF`.
Memory is a function from addresses to bytes; a write and a fill are its
pointwise updates.

## Main results

* `leValue_leBytes`, `leBytes_leValue` — the two directions of the
  little-endian round trip.
* `read_write_self`, `read_write_of_disjoint` — a write is read back, and
  does not touch ranges disjoint from it.
* `read_fill_inside`, `read_fill_of_disjoint` — the same for a fill.
-/

namespace BillCounter.Lib.RawBytes

abbrev Byte := BitVec 8

/-- Byte strings of a fixed length: C arrays of `char` and `uint8_t`. -/
@[ext] structure Bytes (n : Nat) where
  val : List Byte
  property : val.length = n
deriving DecidableEq

/-- `n` copies of one byte, the result of `memset`. -/
def Bytes.replicate (n : Nat) (b : Byte) : Bytes n :=
  ⟨List.replicate n b, List.length_replicate⟩

/-! ## Little-endian numbers -/

/-- The number a little-endian byte string denotes. -/
def leValue : List Byte → Nat
  | [] => 0
  | b :: bs => b.toNat + 256 * leValue bs

/-- The `n` low bytes of a number, least significant first. -/
def leBytes : Nat → Nat → List Byte
  | 0, _ => []
  | n + 1, v => BitVec.ofNat 8 v :: leBytes n (v / 256)

@[simp] theorem length_leBytes (n v : Nat) : (leBytes n v).length = n := by
  induction n generalizing v with
  | zero => rfl
  | succ n ih => simp [leBytes, ih]

theorem leValue_leBytes (n v : Nat) : leValue (leBytes n v) = v % 256 ^ n := by
  induction n generalizing v with
  | zero => simp [leBytes, leValue, Nat.mod_one]
  | succ n ih =>
      have hlow : (BitVec.ofNat 8 v).toNat = v % 256 := by simp
      rw [leBytes, leValue, ih, hlow, Nat.pow_succ, Nat.mul_comm (256 ^ n),
        Nat.mod_mul]

theorem leBytes_leValue (bs : List Byte) : leBytes bs.length (leValue bs) = bs := by
  induction bs with
  | nil => rfl
  | cons b bs ih =>
      have hb : b.toNat < 256 := b.isLt
      have hhead : BitVec.ofNat 8 (b.toNat + 256 * leValue bs) = b := by
        apply BitVec.eq_of_toNat_eq
        rw [BitVec.toNat_ofNat]
        omega
      have htail : (b.toNat + 256 * leValue bs) / 256 = leValue bs := by omega
      rw [List.length_cons, leValue, leBytes, hhead, htail, ih]

theorem leValue_lt (bs : List Byte) : leValue bs < 256 ^ bs.length := by
  have h := leValue_leBytes bs.length (leValue bs)
  rw [leBytes_leValue] at h
  rw [h]
  exact Nat.mod_lt _ (Nat.pow_pos (by decide))

/-- A machine word stored in `n` bytes. -/
def wordBytes (n : Nat) {w : Nat} (x : BitVec w) : List Byte := leBytes n x.toNat

/-- The word a byte string holds, least significant byte first. -/
def wordAt (w : Nat) (bs : List Byte) : BitVec w := BitVec.ofNat w (leValue bs)

@[simp] theorem length_wordBytes (n : Nat) {w : Nat} (x : BitVec w) :
    (wordBytes n x).length = n := length_leBytes n x.toNat

/-- A word that fits its bytes is read back as it was stored. -/
theorem wordAt_wordBytes {n w : Nat} (x : BitVec w) (hw : 2 ^ w = 256 ^ n) :
    wordAt w (wordBytes n x) = x := by
  apply BitVec.eq_of_toNat_eq
  have hx : x.toNat < 256 ^ n := hw ▸ x.isLt
  rw [wordAt, wordBytes, leValue_leBytes, BitVec.toNat_ofNat,
    Nat.mod_eq_of_lt hx, Nat.mod_eq_of_lt x.isLt]

/-- Storing the word a byte string holds gives the byte string back. -/
theorem wordBytes_wordAt {n w : Nat} (bs : List Byte) (hlen : bs.length = n)
    (hw : 2 ^ w = 256 ^ n) : wordBytes n (wordAt w bs) = bs := by
  have hlt : leValue bs < 2 ^ w := by
    rw [hw, ← hlen]
    exact leValue_lt bs
  rw [wordBytes, wordAt, BitVec.toNat_ofNat, Nat.mod_eq_of_lt hlt, ← hlen,
    leBytes_leValue]

/-! ## Members of a byte string -/

/-- The `n` bytes from offset `off`. -/
def slice (bs : List Byte) (off n : Nat) : List Byte := (bs.drop off).take n

/-- Store `v` at offset `off`. -/
def patch (bs : List Byte) (off : Nat) (v : List Byte) : List Byte :=
  bs.take off ++ v ++ bs.drop (off + v.length)

theorem length_slice {bs : List Byte} {off n : Nat} (h : off + n ≤ bs.length) :
    (slice bs off n).length = n := by
  simp only [slice, List.length_take, List.length_drop]
  omega

theorem length_patch {bs : List Byte} {off : Nat} {v : List Byte}
    (h : off + v.length ≤ bs.length) : (patch bs off v).length = bs.length := by
  simp only [patch, List.length_append, List.length_take, List.length_drop]
  omega

theorem slice_patch_self {bs : List Byte} {off : Nat} {v : List Byte}
    (h : off + v.length ≤ bs.length) :
    slice (patch bs off v) off v.length = v := by
  have hoff : (bs.take off).length = off := by
    rw [List.length_take]
    omega
  rw [slice, patch, List.append_assoc, List.drop_append_of_le_length (by omega),
    List.drop_eq_nil_of_le (by omega), List.nil_append, List.take_left]

/-- A store leaves the bytes before it alone. -/
theorem slice_patch_below {bs : List Byte} {off o n : Nat} {v : List Byte}
    (h : off + v.length ≤ bs.length) (ho : o + n ≤ off) :
    slice (patch bs off v) o n = slice bs o n := by
  have hoff : (bs.take off).length = off := by
    rw [List.length_take]
    omega
  rw [slice, slice, patch, List.append_assoc,
    List.drop_append_of_le_length (by omega), List.take_append_of_le_length
      (by rw [List.length_drop]; omega), List.drop_take, List.take_take,
    Nat.min_eq_left (by omega)]

/-- A store leaves the bytes after it alone. -/
theorem drop_patch_above {bs : List Byte} {off o : Nat} {v : List Byte}
    (h : off + v.length ≤ bs.length) (ho : off + v.length ≤ o) :
    (patch bs off v).drop o = bs.drop o := by
  have hlen : (bs.take off ++ v).length = off + v.length := by
    rw [List.length_append, List.length_take]
    omega
  rw [patch, List.drop_append, List.drop_eq_nil_of_le (by omega), List.nil_append,
    List.drop_drop, hlen]
  congr 1
  omega

/-! ## Memory -/

abbrev Memory := Nat → Byte

/-- The `n` bytes from address `a`. -/
def read (m : Memory) (a n : Nat) : List Byte :=
  (List.range n).map fun k => m (a + k)

/-- Store `bs` from address `a`. -/
def write (m : Memory) (a : Nat) (bs : List Byte) : Memory := fun x =>
  if a ≤ x ∧ x < a + bs.length then bs.getD (x - a) 0 else m x

/-- Set the `n` bytes from address `a` to `b`. -/
def fill (m : Memory) (a n : Nat) (b : Byte) : Memory := fun x =>
  if a ≤ x ∧ x < a + n then b else m x

@[simp] theorem length_read (m : Memory) (a n : Nat) : (read m a n).length = n := by
  simp [read]

/-- Ranges with the same bytes read the same. -/
theorem read_congr {m m' : Memory} {a a' n : Nat}
    (h : ∀ k, k < n → m (a + k) = m' (a' + k)) : read m a n = read m' a' n := by
  apply List.map_congr_left
  intro k hk
  exact h k (List.mem_range.mp hk)

theorem getElem_read (m : Memory) (a n k : Nat) (hk : k < (read m a n).length) :
    (read m a n)[k] = m (a + k) := by
  simp [read]

/-- A read splits into the reads of its parts. -/
theorem read_add (m : Memory) (a n k : Nat) :
    read m a (n + k) = read m a n ++ read m (a + n) k := by
  simp [read, List.range_add, Nat.add_assoc, Function.comp_def]

/-- Part of what a range reads as. -/
theorem read_slice {m : Memory} {a off n k : Nat} (h : off + k ≤ n) :
    read m (a + off) k = slice (read m a n) off k := by
  have hsplit : read m a n = read m a off ++ (read m (a + off) k ++
      read m (a + off + k) (n - off - k)) := by
    rw [← read_add, ← read_add]
    congr 1
    omega
  rw [slice, hsplit, List.drop_left' (length_read _ _ _),
    List.take_left' (length_read _ _ _)]

/-- A range read in pieces of `w` bytes. -/
theorem read_eq_iff_pieces {m : Memory} {a n w : Nat} {bs : List Byte}
    (h : bs.length = n * w) :
    read m a (n * w) = bs ↔
      ∀ i, i < n → read m (a + i * w) w = slice bs (i * w) w := by
  have hfits : ∀ i k, i < k → i * w + w ≤ k * w := by
    intro i k hi
    rw [← Nat.succ_mul]
    exact Nat.mul_le_mul_right w hi
  constructor
  · rintro rfl i hi
    exact read_slice (hfits i n hi)
  · intro hpieces
    induction n generalizing bs with
    | zero =>
        rw [Nat.zero_mul] at h ⊢
        exact (List.length_eq_zero_iff.mp h).symm
    | succ n ih =>
        have hn : n * w ≤ bs.length := by
          rw [h]
          exact Nat.mul_le_mul_right w (Nat.le_succ n)
        have hlast : (bs.drop (n * w)).take w = bs.drop (n * w) := by
          apply List.take_of_length_le
          rw [List.length_drop, h, Nat.succ_mul]
          omega
        have hfirst : read m a (n * w) = bs.take (n * w) := by
          refine ih (by rw [List.length_take]; omega) fun i hi => ?_
          rw [hpieces i (by omega), slice, slice, List.drop_take, List.take_take,
            Nat.min_eq_left (by have := hfits i n hi; omega)]
        rw [Nat.succ_mul, read_add, hfirst, hpieces n (Nat.lt_succ_self n), slice, hlast,
          List.take_append_drop]

theorem read_write_self (m : Memory) (a : Nat) (bs : List Byte) :
    read (write m a bs) a bs.length = bs := by
  apply List.ext_getElem (by simp)
  intro k h₁ h₂
  rw [getElem_read, write, if_pos ⟨by omega, by omega⟩]
  simp [h₂]

theorem write_of_disjoint {m : Memory} {a x : Nat} {bs : List Byte}
    (h : x < a ∨ a + bs.length ≤ x) : write m a bs x = m x := by
  rw [write, if_neg (by omega)]

theorem read_write_of_disjoint {m : Memory} {a b n : Nat} {bs : List Byte}
    (h : b + n ≤ a ∨ a + bs.length ≤ b) :
    read (write m a bs) b n = read m b n :=
  read_congr fun k hk => write_of_disjoint (by omega)

/-- A write just behind a range appends to what it reads as. -/
theorem read_write_append (m : Memory) (a n : Nat) (bs : List Byte) :
    read (write m (a + n) bs) a (n + bs.length) = read m a n ++ bs := by
  rw [read_add, read_write_self, read_write_of_disjoint (.inl (Nat.le_refl _))]

theorem fill_inside {m : Memory} {a n x : Nat} {b : Byte}
    (h : a ≤ x ∧ x < a + n) : fill m a n b x = b := by
  rw [fill, if_pos h]

theorem fill_of_disjoint {m : Memory} {a n x : Nat} {b : Byte}
    (h : x < a ∨ a + n ≤ x) : fill m a n b x = m x := by
  rw [fill, if_neg (by omega)]

theorem read_fill_inside {m : Memory} {a n b k : Nat} {v : Byte}
    (h : a ≤ b ∧ b + k ≤ a + n) : read (fill m a n v) b k = List.replicate k v := by
  apply List.ext_getElem (by simp)
  intro i h₁ h₂
  have hi : i < k := by simpa using h₁
  rw [getElem_read, fill_inside (by omega), List.getElem_replicate]

theorem read_fill_of_disjoint {m : Memory} {a n b k : Nat} {v : Byte}
    (h : b + k ≤ a ∨ a + n ≤ b) : read (fill m a n v) b k = read m b k :=
  read_congr fun i hi => fill_of_disjoint (by omega)

end BillCounter.Lib.RawBytes
