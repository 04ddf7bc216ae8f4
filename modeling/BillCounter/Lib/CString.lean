import BillCounter.Lib.RawBytes
import Mathlib.Data.List.TakeWhile

/-!
# C strings in byte arrays

The functions of `string.h` the firmware uses, on arrays of known length.
`cString` is the string an array holds: its bytes up to the first NUL.
-/

namespace BillCounter.Lib.CString

open BillCounter.Lib.RawBytes

/-- The byte of a character literal. -/
def ascii (c : Char) : Byte := BitVec.ofNat 8 c.toNat

/-- The bytes of a string literal. -/
def literal (s : String) : List Byte := s.toList.map ascii

/-- The string at the front of a byte string: everything before the first NUL. -/
def cString (bs : List Byte) : List Byte := bs.takeWhile (· ≠ 0)

/-- `strcpy` of the string `src`: its bytes and a NUL; what lies behind stays.
Of a string too long for the array the part that fits is stored. -/
def strcpy {n : Nat} (dest : Bytes n) (src : List Byte) : Bytes n where
  val := (src ++ 0 :: dest.val.drop (src.length + 1)).take n
  property := by
    have h := dest.property
    simp only [List.length_take, List.length_append, List.length_cons, List.length_drop]
    omega

/-- `strncpy` of the string `src` for `k` bytes: its first `k` bytes, filled up
with NULs. -/
def strncpy {n : Nat} (dest : Bytes n) (src : List Byte) (k : Nat) : Bytes n where
  val := (src.take k ++ List.replicate (k - src.length) 0 ++ dest.val.drop k).take n
  property := by
    have h := dest.property
    simp only [List.length_take, List.length_append, List.length_replicate,
      List.length_drop]
    omega

/-- `b[i] = x`. -/
def store {n : Nat} (b : Bytes n) (i : Nat) (x : Byte) : Bytes n where
  val := b.val.set i x
  property := by rw [List.length_set, b.property]

theorem store_getD {n i : Nat} {b : Bytes n} {x : Byte} (hi : i < n) :
    (store b i x).val.getD i 0 = x := by
  have hlen : i < b.val.length := by rwa [b.property]
  simp [store, hlen]

theorem store_getD_of_ne {n i j : Nat} {b : Bytes n} {x : Byte} (h : i ≠ j) :
    (store b i x).val.getD j 0 = b.val.getD j 0 := by
  simp [store, List.getElem?_set_ne h]

/-- `tolower`. -/
def tolower (c : Byte) : Byte := if 0x41 ≤ c ∧ c ≤ 0x5A then c + 0x20 else c

/-- The comparison of two strings by the characters `f` makes of theirs: the
difference of the first two that differ. -/
def compareBy (f : Byte → Byte) : List Byte → List Byte → Int
  | [], [] => 0
  | [], d :: _ => -(f d).toNat
  | c :: _, [] => (f c).toNat
  | c :: cs, d :: ds =>
      if f c = f d then compareBy f cs ds else (f c).toNat - (f d).toNat

def strcmp : List Byte → List Byte → Int := compareBy id

def strcasecmp : List Byte → List Byte → Int := compareBy tolower

/-- `strncmp`, of bytes that may hold no NUL among the first `n`. -/
def strncmp (as bs : List Byte) (n : Nat) : Int :=
  strcmp (cString (as.take n)) (cString (bs.take n))

/-! ## Strings and their bytes -/

theorem zero_not_mem_cString (bs : List Byte) : (0 : Byte) ∉ cString bs := by
  intro h
  have hne := List.mem_takeWhile_imp h
  simp at hne

/-- The string at the front of bytes that begin with no NUL. -/
theorem cString_append {as : List Byte} (h : (0 : Byte) ∉ as) (bs : List Byte) :
    cString (as ++ bs) = as ++ cString bs := by
  apply List.takeWhile_append_of_pos
  intro b hb
  have hne : b ≠ 0 := fun heq => h (heq ▸ hb)
  simpa using hne

theorem cString_eq_self {bs : List Byte} (h : (0 : Byte) ∉ bs) : cString bs = bs := by
  have happend := cString_append h []
  rwa [List.append_nil, show cString [] = [] from rfl, List.append_nil] at happend

@[simp] theorem cString_zero_cons (bs : List Byte) : cString (0 :: bs) = [] := rfl

theorem cString_cons_eq_nil_iff {b : Byte} {bs : List Byte} : cString (b :: bs) = [] ↔ b = 0 := by
  simp [cString]

theorem cString_append_zero {as : List Byte} (h : (0 : Byte) ∉ as) (bs : List Byte) :
    cString (as ++ 0 :: bs) = as := by
  rw [cString_append h, cString_zero_cons, List.append_nil]

/-- A string that ends in the bytes at hand is not affected by what follows. -/
theorem cString_append_of_lt {as : List Byte} (h : (cString as).length < as.length)
    (bs : List Byte) : cString (as ++ bs) = cString as := by
  rw [cString, List.takeWhile_append, if_neg]
  · rfl
  · exact Nat.ne_of_lt h

/-- A string shorter than its array ends in a NUL there. -/
theorem zero_mem_of_length_cString_lt {bs : List Byte} (h : (cString bs).length < bs.length) :
    (0 : Byte) ∈ bs := by
  by_contra hzero
  rw [cString_eq_self hzero] at h
  exact Nat.lt_irrefl _ h

theorem length_cString_lt {bs : List Byte} (h : (0 : Byte) ∈ bs) :
    (cString bs).length < bs.length := by
  obtain ⟨as, cs, rfl⟩ := List.append_of_mem h
  clear h
  induction as with
  | nil =>
      rw [List.nil_append, cString_zero_cons]
      exact Nat.succ_pos _
  | cons a as ih =>
      rw [List.cons_append, cString, List.takeWhile_cons]
      split
      · exact Nat.succ_lt_succ ih
      · exact Nat.succ_pos _

/-- Copying a string that fits. -/
theorem strcpy_val {n : Nat} (dest : Bytes n) {src : List Byte} (hlen : src.length < n) :
    (strcpy dest src).val = src ++ 0 :: dest.val.drop (src.length + 1) := by
  apply List.take_of_length_le
  have h := dest.property
  simp only [List.length_append, List.length_cons, List.length_drop]
  omega

theorem zero_mem_strcpy {n : Nat} (dest : Bytes n) {src : List Byte} (hlen : src.length < n) :
    (0 : Byte) ∈ (strcpy dest src).val := by
  rw [strcpy_val dest hlen]
  exact List.mem_append_right _ List.mem_cons_self

/-- It makes it the string of the array. -/
theorem cString_strcpy {n : Nat} (dest : Bytes n) {src : List Byte}
    (hsrc : (0 : Byte) ∉ src) (hlen : src.length < n) (rest : List Byte) :
    cString ((strcpy dest src).val ++ rest) = src := by
  rw [strcpy_val dest hlen, List.append_assoc, List.cons_append, cString_append_zero hsrc]

/-- `strncpy` of all but the last byte writes a NUL only behind a shorter string. -/
theorem zero_mem_strncpy_iff {n : Nat} (dest : Bytes (n + 1)) {src : List Byte}
    (hsrc : (0 : Byte) ∉ src) :
    (0 : Byte) ∈ (strncpy dest src n).val ↔ src.length < n ∨ dest.val.getD n 0 = 0 := by
  have hlen := dest.property
  have hlast : dest.val.drop n = [dest.val.getD n 0] := by
    apply List.ext_getElem?
    intro i
    rw [List.getElem?_drop]
    cases i with
    | zero => simp [hlen]
    | succ i => simp [hlen]
  have hval : (strncpy dest src n).val =
      src.take n ++ List.replicate (n - src.length) 0 ++ [dest.val.getD n 0] := by
    rw [← hlast]
    apply List.take_of_length_le
    simp only [List.length_append, List.length_take, List.length_replicate, List.length_drop]
    omega
  rw [hval, List.mem_append, List.mem_append, List.mem_replicate, List.mem_singleton]
  constructor
  · rintro ((hmem | hmem) | hmem)
    · exact absurd (List.mem_of_mem_take hmem) hsrc
    · exact .inl (by omega)
    · exact .inr hmem.symm
  · rintro (hlt | hzero)
    · exact .inl (.inr ⟨by omega, rfl⟩)
    · exact .inr hzero.symm

/-- A loop that stores what `f` makes of some bytes, from index `k` on. -/
theorem foldl_store_val {n : Nat} (f : Byte → Byte) (b : Bytes n) {xs : List Byte} {k : Nat}
    (hlen : k + xs.length ≤ n) :
    ((xs.zipIdx k).foldl (fun d p => store d p.2 (f p.1)) b).val =
      b.val.take k ++ (xs.map f ++ b.val.drop (k + xs.length)) := by
  induction xs generalizing b k with
  | nil => simp
  | cons x xs ih =>
      rw [List.length_cons] at hlen
      have hk : k < b.val.length := by
        rw [b.property]
        omega
      have hset : (store b k (f x)).val = b.val.take k ++ f x :: b.val.drop (k + 1) := by
        show b.val.set k (f x) = _
        rw [List.set_eq_take_append_cons_drop, if_pos hk]
      have hfront : (b.val.take k ++ [f x]).length = k + 1 := by
        rw [List.length_append, List.length_take, List.length_singleton]
        omega
      have hrest : k + 1 + (k + 1 + xs.length - (k + 1)) = k + (xs.length + 1) := by omega
      rw [List.zipIdx_cons, List.foldl_cons, ih (store b k (f x)) (by omega), hset,
        List.append_cons, List.take_left' hfront, List.drop_append, hfront,
        List.drop_eq_nil_of_le (by omega), List.nil_append, List.drop_drop, hrest,
        List.length_cons, List.map_cons, List.append_assoc]
      rfl

/-- Strings compare equal when they agree up to `f`, which keeps NUL apart from
the other characters. -/
theorem compareBy_eq_zero_iff {f : Byte → Byte} (hf : ∀ c, f c = 0 → c = 0)
    {as bs : List Byte} (ha : (0 : Byte) ∉ as) (hb : (0 : Byte) ∉ bs) :
    compareBy f as bs = 0 ↔ as.map f = bs.map f := by
  have hpos : ∀ c, c ≠ 0 → (f c).toNat ≠ 0 := by
    intro c hc hzero
    exact hc (hf c (BitVec.eq_of_toNat_eq hzero))
  induction as generalizing bs with
  | nil =>
      cases bs with
      | nil => simp [compareBy]
      | cons d ds =>
          have hd := hpos d (fun h => hb (h ▸ List.mem_cons_self))
          simp only [compareBy, List.map_nil, List.map_cons]
          constructor
          · intro h
            omega
          · intro h
            exact absurd h (by simp)
  | cons c cs ih =>
      cases bs with
      | nil =>
          have hc := hpos c (fun h => ha (h ▸ List.mem_cons_self))
          simp only [compareBy, List.map_nil, List.map_cons]
          constructor
          · intro h
            omega
          · intro h
            exact absurd h (by simp)
      | cons d ds =>
          rw [compareBy, List.map_cons, List.map_cons, List.cons.injEq]
          have htail : compareBy f cs ds = 0 ↔ cs.map f = ds.map f :=
            ih (fun h => ha (List.mem_cons_of_mem c h))
              (fun h => hb (List.mem_cons_of_mem d h))
          by_cases hcd : f c = f d
          · rw [if_pos hcd, htail]
            exact ⟨fun h => ⟨hcd, h⟩, fun h => h.2⟩
          · rw [if_neg hcd]
            constructor
            · intro h
              exact absurd (BitVec.eq_of_toNat_eq (by omega)) hcd
            · exact fun h => absurd h.1 hcd

theorem strcmp_eq_zero_iff {as bs : List Byte} (ha : (0 : Byte) ∉ as)
    (hb : (0 : Byte) ∉ bs) : strcmp as bs = 0 ↔ as = bs := by
  have h := compareBy_eq_zero_iff (f := id) (fun _ h => h) ha hb
  rwa [List.map_id, List.map_id] at h

/-- Against a string of `n` characters `strncmp` compares all `n` bytes. -/
theorem strncmp_eq_zero_iff {as bs : List Byte} {n : Nat} (ha : as.length = n)
    (hb : bs.length = n) (hzero : (0 : Byte) ∉ bs) : strncmp as bs n = 0 ↔ as = bs := by
  have hbs := cString_eq_self hzero
  rw [strncmp, List.take_of_length_le (Nat.le_of_eq ha), List.take_of_length_le (Nat.le_of_eq hb),
    hbs, strcmp_eq_zero_iff (zero_not_mem_cString as) hzero]
  constructor
  · intro h
    have hstart_eq : cString as <+: as := List.takeWhile_prefix _
    rw [h] at hstart_eq
    exact (hstart_eq.eq_of_length (by omega)).symm
  · intro h
    rw [h, hbs]

end BillCounter.Lib.CString
