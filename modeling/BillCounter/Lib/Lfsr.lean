import Mathlib.Logic.Function.Iterate

/-!
# Shift registers with linear feedback, and what they detect

A cyclic redundancy check divides a bit string by a fixed polynomial.  In the
reflected form used by serial protocols the remainder is a register `x`: `step`
shifts it right and, if a one fell out, exclusive-ors the feedback word; `feed`
exclusive-ors each message bit into the low end before a step.

Everything is linear in exclusive or, so whether an error pattern is noticed
does not depend on the message: `feed_xor` reduces it to the remainder of the
pattern itself, started from zero.  The three detection theorems are

* `feed_ne_zero_of_odd` — an odd number of flipped bits, when the feedback word
  has odd parity;
* `feed_ne_zero_of_two` — two flipped bits, within the period of the register;
* `feed_ne_zero_of_burst` — a non-zero pattern no longer than the register.
-/

namespace BillCounter.Lib.Lfsr

variable {w : Nat} (poly : BitVec w)

/-- One shift of the register. -/
def step (x : BitVec w) : BitVec w :=
  if x.getLsbD 0 then (x >>> 1) ^^^ poly else x >>> 1

/-- `n` shifts of the register. -/
def steps (n : Nat) (x : BitVec w) : BitVec w := (step poly)^[n] x

/-- A message bit, at the low end of the register. -/
def bit (b : Bool) : BitVec w := BitVec.ofNat w b.toNat

/-- Feed a bit string, first bit first. -/
def feed (x : BitVec w) (bs : List Bool) : BitVec w :=
  bs.foldl (fun x b => step poly (x ^^^ bit b)) x

/-- The `n` low bits of a word, low end first. -/
def lowBits : Nat → BitVec w → List Bool
  | 0, _ => []
  | n + 1, x => x.getLsbD 0 :: lowBits n (x >>> 1)

/-! ## Linearity -/

theorem step_xor (x y : BitVec w) :
    step poly (x ^^^ y) = step poly x ^^^ step poly y := by
  unfold step
  simp only [BitVec.getLsbD_xor, BitVec.ushiftRight_xor_distrib]
  cases x.getLsbD 0 <;> cases y.getLsbD 0 <;>
    simp only [Bool.xor_false, Bool.xor_true, Bool.not_false, Bool.not_true, if_true,
      Bool.false_eq_true, if_false]
  · rw [BitVec.xor_assoc]
  · rw [BitVec.xor_assoc, BitVec.xor_assoc, BitVec.xor_comm (y >>> 1) poly]
  · -- the two feedback words cancel
    rw [BitVec.xor_comm (y >>> 1) poly, BitVec.xor_assoc, ← BitVec.xor_assoc poly,
      BitVec.xor_self, BitVec.zero_xor]

@[simp] theorem step_zero : step poly 0#w = 0#w := by
  simp [step]

theorem steps_succ (n : Nat) (x : BitVec w) :
    steps poly (n + 1) x = steps poly n (step poly x) := rfl

theorem steps_add (m n : Nat) (x : BitVec w) :
    steps poly (m + n) x = steps poly m (steps poly n x) :=
  Function.iterate_add_apply (step poly) m n x

theorem steps_xor (n : Nat) (x y : BitVec w) :
    steps poly n (x ^^^ y) = steps poly n x ^^^ steps poly n y := by
  induction n generalizing x y with
  | zero => rfl
  | succ n ih => rw [steps_succ, step_xor, ih, steps_succ, steps_succ]

@[simp] theorem steps_zero (n : Nat) : steps poly n 0#w = 0#w := by
  induction n with
  | zero => rfl
  | succ n ih => rw [steps_succ, step_zero, ih]

@[simp] theorem bit_false : (bit false : BitVec w) = 0#w := rfl

theorem bit_xor (a b : Bool) : (bit (a ^^ b) : BitVec w) = bit a ^^^ bit b := by
  cases a <;> cases b <;> simp [bit]

/-- Feeding splits over exclusive or, in the register and in the message. -/
theorem feed_xor (x y : BitVec w) (as bs : List Bool) (h : as.length = bs.length) :
    feed poly (x ^^^ y) (List.zipWith xor as bs) =
      feed poly x as ^^^ feed poly y bs := by
  induction as generalizing x y bs with
  | nil =>
      cases bs with
      | nil => rfl
      | cons b bs => simp at h
  | cons a as ih =>
      cases bs with
      | nil => simp at h
      | cons b bs =>
          have hswap : x ^^^ y ^^^ (bit a ^^^ bit b) =
              x ^^^ bit a ^^^ (y ^^^ bit b) := by
            rw [BitVec.xor_assoc, BitVec.xor_assoc, ← BitVec.xor_assoc y,
              BitVec.xor_comm y, BitVec.xor_assoc (bit a)]
          simp only [List.length_cons, Nat.succ.injEq] at h
          simp only [feed, List.zipWith_cons_cons, List.foldl_cons, bit_xor] at ih ⊢
          rw [hswap, step_xor, ih _ _ _ h]

theorem feed_append (x : BitVec w) (as bs : List Bool) :
    feed poly x (as ++ bs) = feed poly (feed poly x as) bs :=
  List.foldl_append

theorem feed_replicate_false (x : BitVec w) (n : Nat) :
    feed poly x (List.replicate n false) = steps poly n x := by
  induction n generalizing x with
  | zero => rfl
  | succ n ih =>
      rw [List.replicate_succ, steps_succ, ← ih]
      simp [feed]

/-- What was in the register and what is fed to it contribute separately. -/
theorem feed_eq (x : BitVec w) (bs : List Bool) :
    feed poly x bs = steps poly bs.length x ^^^ feed poly 0#w bs := by
  have h := feed_xor poly x 0#w (List.replicate bs.length false) bs (by simp)
  have hzip : List.zipWith xor (List.replicate bs.length false) bs = bs := by
    induction bs with
    | nil => rfl
    | cons b bs ih => simp [List.replicate_succ, ih (feed_xor poly x 0#w _ bs (by simp))]
  rw [BitVec.xor_zero, hzip, feed_replicate_false] at h
  exact h

theorem feed_cons (b : Bool) (bs : List Bool) :
    feed poly 0#w (b :: bs) = steps poly (bs.length + 1) (bit b) ^^^ feed poly 0#w bs := by
  have h : feed poly 0#w (b :: bs) = feed poly (step poly (bit b)) bs := by
    simp [feed]
  rw [h, feed_eq, steps_succ]

/-! ## Feeding a word -/

/-- A word whose low bits are clear only moves down. -/
theorem steps_of_low_clear (n : Nat) (x : BitVec w)
    (h : ∀ i, i < n → x.getLsbD i = false) : steps poly n x = x >>> n := by
  induction n generalizing x with
  | zero => simp [steps]
  | succ n ih =>
      have h₀ : x.getLsbD 0 = false := h 0 (Nat.succ_pos n)
      have hrest : ∀ i, i < n → (x >>> 1).getLsbD i = false := by
        intro i hi
        rw [BitVec.getLsbD_ushiftRight]
        exact h (1 + i) (by omega)
      rw [steps_succ, step, h₀, if_neg Bool.false_ne_true, ih _ hrest,
        ← BitVec.shiftRight_add, Nat.add_comm]

/-- The low bit of a word, and the rest of it. -/
private theorem step_split (x : BitVec w) :
    step poly x = step poly (bit (x.getLsbD 0)) ^^^ (x >>> 1) := by
  have hclear : (x ^^^ bit (x.getLsbD 0)).getLsbD 0 = false := by
    rcases Nat.eq_zero_or_pos w with rfl | hw
    · simp
    · rw [BitVec.getLsbD_xor, bit, BitVec.getLsbD_ofNat]
      cases x.getLsbD 0 <;> simp [hw]
  have hone : (bit (x.getLsbD 0) : BitVec w) >>> 1 = 0#w := by
    apply BitVec.eq_of_getLsbD_eq
    intro i hi
    rw [BitVec.getLsbD_ushiftRight, bit, BitVec.getLsbD_ofNat]
    cases x.getLsbD 0 <;> simp [Nat.add_comm 1 i, Nat.testBit_succ]
  have heven : step poly (x ^^^ bit (x.getLsbD 0)) = x >>> 1 := by
    rw [step, hclear, if_neg Bool.false_ne_true, BitVec.ushiftRight_xor_distrib, hone,
      BitVec.xor_zero]
  calc
    step poly x = step poly (bit (x.getLsbD 0) ^^^ (x ^^^ bit (x.getLsbD 0))) := by
      rw [BitVec.xor_comm x, ← BitVec.xor_assoc, BitVec.xor_self, BitVec.zero_xor]
    _ = step poly (bit (x.getLsbD 0)) ^^^ (x >>> 1) := by rw [step_xor, heven]

/-- Feeding the low bits of a word is exclusive-oring it in whole, then
shifting. -/
theorem feed_lowBits (n : Nat) (x y : BitVec w)
    (h : ∀ i, n ≤ i → y.getLsbD i = false) :
    feed poly x (lowBits n y) = steps poly n (x ^^^ y) := by
  induction n generalizing x y with
  | zero =>
      have hy : y = 0#w := BitVec.eq_of_getLsbD_eq fun i _ => by simp [h i (Nat.zero_le i)]
      simp [feed, lowBits, steps, hy]
  | succ n ih =>
      have hrest : ∀ i, n ≤ i → (y >>> 1).getLsbD i = false := by
        intro i hi
        rw [BitVec.getLsbD_ushiftRight]
        exact h (1 + i) (by omega)
      have hfeed : feed poly x (lowBits (n + 1) y) =
          feed poly (step poly (x ^^^ bit (y.getLsbD 0))) (lowBits n (y >>> 1)) := rfl
      rw [hfeed, ih _ _ hrest, steps_succ, step_xor, step_xor,
        step_split poly y, BitVec.xor_assoc]

@[simp] theorem length_lowBits (n : Nat) (x : BitVec w) : (lowBits n x).length = n := by
  induction n generalizing x with
  | zero => rfl
  | succ n ih => simp [lowBits, ih]

theorem getElem_lowBits (n : Nat) (x : BitVec w) (i : Nat)
    (hi : i < (lowBits n x).length) : (lowBits n x)[i] = x.getLsbD i := by
  induction n generalizing x i with
  | zero => simp at hi
  | succ n ih =>
      cases i with
      | zero => rfl
      | succ i =>
          have htail : i < (lowBits n (x >>> 1)).length := by
            rw [length_lowBits] at hi ⊢
            omega
          have h : (lowBits (n + 1) x)[i + 1] = (lowBits n (x >>> 1))[i] := rfl
          rw [h, ih _ _ htail, BitVec.getLsbD_ushiftRight, Nat.add_comm]

theorem lowBits_injective {x y : BitVec w} (h : lowBits w x = lowBits w y) : x = y := by
  apply BitVec.eq_of_getLsbD_eq
  intro i hi
  have hx := getElem_lowBits w x i (by simpa using hi)
  have hy := getElem_lowBits w y i (by simpa using hi)
  rw [← hx, ← hy]
  simp only [h]

/-! ## Differences -/

theorem zipWith_xor_self (bs : List Bool) :
    List.zipWith xor bs bs = List.replicate bs.length false := by
  induction bs with
  | nil => rfl
  | cons b bs ih =>
      rw [List.zipWith_cons_cons, ih, Bool.xor_self]
      rfl

/-- Strings that do not differ anywhere are the same. -/
theorem eq_of_zipWith_xor {as bs : List Bool} (hlen : as.length = bs.length)
    (h : true ∉ List.zipWith xor as bs) : as = bs := by
  induction as generalizing bs with
  | nil => exact (List.length_eq_zero_iff.mp hlen.symm).symm
  | cons a as ih =>
      cases bs with
      | nil => cases hlen
      | cons b bs =>
          rw [List.zipWith_cons_cons, List.mem_cons, not_or] at h
          have hhead : a = b := by
            cases a <;> cases b <;> simp at h ⊢
          rw [hhead, ih (Nat.succ.inj hlen) h.2]

/-! ## Invertibility -/

/-- With the top feedback bit set a step can be undone: that bit of the result
tells what fell out. -/
theorem step_injective (hw : 0 < w) (hpoly : poly.getLsbD (w - 1) = true) :
    Function.Injective (step poly) := by
  have hzero : ∀ x : BitVec w, step poly x = 0#w → x = 0#w := by
    intro x hx
    have htop : (x >>> 1).getLsbD (w - 1) = false := by
      rw [BitVec.getLsbD_ushiftRight]
      exact BitVec.getLsbD_of_ge _ _ (by omega)
    unfold step at hx
    split at hx
    · have hbit := congrArg (fun z => z.getLsbD (w - 1)) hx
      simp [BitVec.getLsbD_xor, htop, hpoly] at hbit
    · rename_i hlow
      apply BitVec.eq_of_getLsbD_eq
      intro i hi
      cases i with
      | zero => simpa using hlow
      | succ i =>
          have hbit := congrArg (fun z => z.getLsbD i) hx
          rw [BitVec.getLsbD_ushiftRight, Nat.add_comm] at hbit
          simpa using hbit
  intro x y hxy
  have hdiff : step poly (x ^^^ y) = 0#w := by
    rw [step_xor, hxy, BitVec.xor_self]
  have h := hzero _ hdiff
  calc
    x = x ^^^ y ^^^ y := by rw [BitVec.xor_assoc, BitVec.xor_self, BitVec.xor_zero]
    _ = y := by rw [h, BitVec.zero_xor]

theorem steps_injective (hw : 0 < w) (hpoly : poly.getLsbD (w - 1) = true) (n : Nat) :
    Function.Injective (steps poly n) :=
  (step_injective poly hw hpoly).iterate n

theorem steps_eq_zero (hw : 0 < w) (hpoly : poly.getLsbD (w - 1) = true) {n : Nat}
    {x : BitVec w} (h : steps poly n x = 0#w) : x = 0#w :=
  steps_injective poly hw hpoly n (h.trans (steps_zero poly n).symm)

/-! ## Parity -/

/-- Parity of the `n` low bits. -/
def parity : Nat → BitVec w → Bool
  | 0, _ => false
  | n + 1, x => parity n x ^^ x.getLsbD n

theorem parity_xor (n : Nat) (x y : BitVec w) :
    parity n (x ^^^ y) = (parity n x ^^ parity n y) := by
  induction n with
  | zero => rfl
  | succ n ih =>
      rw [parity, parity, parity, ih, BitVec.getLsbD_xor]
      cases parity n x <;> cases parity n y <;> cases x.getLsbD n <;> simp

@[simp] theorem parity_zero (n : Nat) : parity n 0#w = false := by
  induction n with
  | zero => rfl
  | succ n ih => simp [parity, ih]

theorem parity_shift (n : Nat) (x : BitVec w) :
    parity n (x >>> 1) = (parity (n + 1) x ^^ x.getLsbD 0) := by
  induction n with
  | zero => simp [parity]
  | succ n ih =>
      have hsucc : parity (n + 1 + 1) x = (parity (n + 1) x ^^ x.getLsbD (n + 1)) := rfl
      rw [parity, ih, BitVec.getLsbD_ushiftRight, hsucc, Nat.add_comm 1 n]
      cases parity (n + 1) x <;> cases x.getLsbD 0 <;> cases x.getLsbD (n + 1) <;> rfl

/-- A feedback word of odd parity makes a step preserve parity. -/
theorem parity_step (hpoly : parity w poly = true) (x : BitVec w) :
    parity w (step poly x) = parity w x := by
  have hshift : parity w (x >>> 1) = (parity w x ^^ x.getLsbD 0) := by
    rw [parity_shift, parity, BitVec.getLsbD_of_ge x w (Nat.le_refl w), Bool.xor_false]
  unfold step
  split
  · rename_i hlow
    rw [parity_xor, hshift, hpoly, hlow]
    cases parity w x <;> rfl
  · rename_i hlow
    rw [hshift, eq_false_of_ne_true hlow, Bool.xor_false]

theorem parity_bit (hw : 0 < w) (b : Bool) : parity w (bit b : BitVec w) = b := by
  have hone : ∀ n, 0 < n → n ≤ w → parity n (bit b : BitVec w) = b := by
    intro n hn hle
    induction n with
    | zero => exact absurd hn (Nat.lt_irrefl 0)
    | succ n ih =>
        rcases Nat.eq_zero_or_pos n with rfl | hpos
        · cases b <;> simp [parity, bit, hw]
        · have hclear : (bit b : BitVec w).getLsbD n = false := by
            cases b
            · simp
            · obtain ⟨m, rfl⟩ := Nat.exists_eq_succ_of_ne_zero (Nat.ne_of_gt hpos)
              simp [bit, BitVec.getLsbD_ofNat, Nat.testBit_succ]
          rw [parity, ih hpos (Nat.le_of_succ_le hle), hclear, Bool.xor_false]
  exact hone w hw (Nat.le_refl w)

/-- The parity of the remainder is the parity of what was fed. -/
theorem parity_feed (hw : 0 < w) (hpoly : parity w poly = true) (bs : List Bool) :
    parity w (feed poly 0#w bs) = decide (bs.count true % 2 = 1) := by
  have hsteps : ∀ n x, parity w (steps poly n x) = parity w x := by
    intro n x
    induction n generalizing x with
    | zero => rfl
    | succ n ih => rw [steps_succ, ih, parity_step poly hpoly]
  induction bs with
  | nil => simp [feed]
  | cons b bs ih =>
      rw [feed_cons, parity_xor, hsteps, parity_bit hw, ih]
      cases b with
      | false => simp
      | true =>
          rw [List.count_cons_self, Bool.true_xor, ← decide_not]
          congr 1
          apply propext
          omega

/-! ## Period -/

/-- `start` is not met within `n` shifts of `x`. -/
def avoids (start : BitVec w) : Nat → BitVec w → Bool
  | 0, _ => true
  | n + 1, x => step poly x != start && avoids start n (step poly x)

theorem steps_ne_of_avoids {start x : BitVec w} {n : Nat}
    (h : avoids poly start n x = true) {d : Nat} (hpos : 0 < d) (hd : d ≤ n) :
    steps poly d x ≠ start := by
  induction n generalizing x d with
  | zero => omega
  | succ n ih =>
      simp only [avoids, Bool.and_eq_true, bne_iff_ne] at h
      obtain ⟨d, rfl⟩ := Nat.exists_eq_succ_of_ne_zero (Nat.ne_of_gt hpos)
      rcases Nat.eq_zero_or_pos d with rfl | hd'
      · exact h.1
      · rw [Nat.succ_eq_add_one, steps_succ]
        exact ih h.2 hd' (by omega)

/-! ## Detection -/

/-- An odd number of flipped bits leaves a remainder. -/
theorem feed_ne_zero_of_odd (hw : 0 < w) (hpoly : parity w poly = true)
    {bs : List Bool} (h : bs.count true % 2 = 1) : feed poly 0#w bs ≠ 0#w := by
  intro hzero
  have hpar := parity_feed poly hw hpoly bs
  rw [hzero, parity_zero] at hpar
  simp [h] at hpar

/-- A single one leaves the remainder its distance from the end decides. -/
theorem feed_single {bs : List Bool} (h : bs.count true = 1) :
    ∃ k, 0 < k ∧ k ≤ bs.length ∧ feed poly 0#w bs = steps poly k (bit true) := by
  induction bs with
  | nil => simp at h
  | cons b bs ih =>
      cases b with
      | false =>
          obtain ⟨k, hpos, hle, hk⟩ := ih (by simpa using h)
          refine ⟨k, hpos, Nat.le_succ_of_le hle, ?_⟩
          rw [feed_cons, bit_false, steps_zero, BitVec.zero_xor, hk]
      | true =>
          have hrest : bs = List.replicate bs.length false := by
            apply List.eq_replicate_iff.mpr ⟨rfl, fun b hb => ?_⟩
            have hcount : bs.count true = 0 := by
              rw [List.count_cons_self] at h
              omega
            cases b with
            | false => rfl
            | true => exact absurd hb (List.count_eq_zero.mp hcount)
          refine ⟨bs.length + 1, Nat.succ_pos _, Nat.le_refl _, ?_⟩
          rw [feed_cons, hrest, feed_replicate_false, steps_zero, BitVec.xor_zero]

/-- Two flipped bits leave a remainder, within a length the register does not
repeat in. -/
theorem feed_ne_zero_of_two (hw : 0 < w) (hpoly : poly.getLsbD (w - 1) = true)
    {n : Nat} (havoids : avoids poly (bit true) n (bit true) = true)
    {bs : List Bool} (hlen : bs.length ≤ n) (h : bs.count true = 2) :
    feed poly 0#w bs ≠ 0#w := by
  induction bs with
  | nil => simp at h
  | cons b bs ih =>
      rw [List.length_cons] at hlen
      cases b with
      | false =>
          rw [feed_cons, bit_false, steps_zero, BitVec.zero_xor]
          exact ih (by omega) (by simpa using h)
      | true =>
          have hcount : bs.count true = 1 := by
            rw [List.count_cons_self] at h
            omega
          obtain ⟨k, hpos, hle, hk⟩ := feed_single poly hcount
          intro hzero
          rw [feed_cons, hk, show bs.length + 1 = k + (bs.length + 1 - k) by omega,
            steps_add, ← steps_xor] at hzero
          have hxor := steps_eq_zero poly hw hpoly hzero
          refine steps_ne_of_avoids poly havoids (d := bs.length + 1 - k)
            (by omega) (by omega) ?_
          calc
            steps poly (bs.length + 1 - k) (bit true) =
                steps poly (bs.length + 1 - k) (bit true) ^^^ bit true ^^^ bit true := by
              rw [BitVec.xor_assoc, BitVec.xor_self, BitVec.xor_zero]
            _ = bit true := by rw [hxor, BitVec.zero_xor]

/-- A short bit string, as the low end of a word. -/
theorem exists_lowBits_eq {bs : List Bool} (hlen : bs.length ≤ w) :
    ∃ y : BitVec w, lowBits bs.length y = bs ∧
      ∀ i, bs.length ≤ i → y.getLsbD i = false := by
  refine ⟨(BitVec.ofBoolListLE bs).setWidth w, ?_, fun i hi => ?_⟩
  · apply List.ext_getElem (length_lowBits _ _)
    intro i h₁ h₂
    rw [getElem_lowBits, BitVec.getLsbD_setWidth, BitVec.getLsbD_ofBoolListLE,
      List.getD_eq_getElem?_getD, List.getElem?_eq_getElem h₂]
    simp [show i < w by omega]
  · rw [BitVec.getLsbD_setWidth, BitVec.getLsbD_of_ge _ _ hi, Bool.and_false]

/-- A pattern no longer than the register leaves a remainder unless it is
zero. -/
theorem feed_ne_zero_of_burst (hw : 0 < w) (hpoly : poly.getLsbD (w - 1) = true)
    {a c : Nat} {bs : List Bool} (hlen : bs.length ≤ w) (h : true ∈ bs) :
    feed poly 0#w (List.replicate a false ++ bs ++ List.replicate c false) ≠ 0#w := by
  rw [feed_append, feed_append, feed_replicate_false, feed_replicate_false, steps_zero]
  intro hzero
  obtain ⟨y, hy, hclear⟩ := exists_lowBits_eq hlen
  have hburst := steps_eq_zero poly hw hpoly hzero
  rw [← hy, feed_lowBits poly _ _ _ hclear, BitVec.zero_xor] at hburst
  have hyzero := steps_eq_zero poly hw hpoly hburst
  rw [← hy, hyzero] at h
  obtain ⟨i, hi, htrue⟩ := List.getElem_of_mem h
  rw [getElem_lowBits] at htrue
  simp at htrue

end BillCounter.Lib.Lfsr
