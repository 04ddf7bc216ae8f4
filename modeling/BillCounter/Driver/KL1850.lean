import BillCounter.Driver.Port
import BillCounter.Lib.CString

/-!
# The driver of the KL1850

In front of the code that reads a frame there is a loop that prints whatever comes in, and
has no end.  What stands behind it is modelled as well: it would decode the frame, and print
it from one byte before the buffer.
-/

namespace BillCounter.Driver

open BillCounter.Lib.CString
open BillCounter.Lib.Positional
open BillCounter.Lib.RawBytes

/-! ## A line without end -/

/-- What the port delivers to one call after the other; nothing for ever, behind a finite
input. -/
abbrev Feed := Nat → Option Byte

/-- What is left after `n` calls. -/
def Feed.drop (hSerial : Feed) (n : Nat) : Feed := fun i => hSerial (n + i)

/-- `SERIAL_getc`. -/
def feedGetc (hSerial : Feed) : Option Byte × Feed := (hSerial 0, hSerial.drop 1)

/-- `SERIAL_gets`. -/
def feedGets : Nat → Feed → List Byte × Feed
  | 0, hSerial => ([], hSerial)
  | ulSize + 1, hSerial =>
      match feedGetc hSerial with
      | (none, hSerial) => ([], hSerial)
      | (some b, hSerial) =>
          (b :: (feedGets ulSize hSerial).1, (feedGets ulSize hSerial).2)

/-! ## The driver -/

/-- `BC_KL1850_STX`. -/
def bcKL1850Stx : Byte := 0x3e

/-- `BC_KL1850_FRAME_SIZE`. -/
def bcKL1850FrameSize : Nat := 11

/-- `BC_KL1850`, without `pInfo`: see `BcJ305`. -/
structure BcKL1850 where
  ulCount : BitVec 32
deriving DecidableEq

/-- What a call comes to.  `pDump` is what `TRACE_printDump` reads of `pFrame`: from where,
and how many bytes. -/
structure KL1850Outcome where
  ret : Bool
  pKL1850 : BcKL1850
  hSerial : Feed
  pDump : Option (Int × Nat)

/-- `pFrame[5] | (pFrame[6] << 8) | (pFrame[7] << 16) | (pFrame[8] << 24)`. -/
def bcKL1850Count (pFrame : List Byte) : BitVec 32 :=
  (pFrame.getD 5 0).setWidth 32 ||| (pFrame.getD 6 0).setWidth 32 <<< 8 |||
    (pFrame.getD 7 0).setWidth 32 <<< 16 ||| (pFrame.getD 8 0).setWidth 32 <<< 24

/-- `BC_KL1850_input` behind its `while(1)`, with `bTrace` of `trace.c`.  `nStartIndex` is
still `-1` when the frame is dumped. -/
def bcKL1850Behind (bTrace : Bool) (pKL1850 : BcKL1850) (hSerial : Feed) : KL1850Outcome :=
  let nStartIndex : Int := -1
  match feedGetc hSerial with
  | (none, hSerial) => ⟨false, pKL1850, hSerial, none⟩
  | (some stx, hSerial) =>
      if stx ≠ bcKL1850Stx then ⟨false, pKL1850, hSerial, none⟩
      else
        let (bs, hSerial) := feedGets 4 hSerial
        if 1 + bs.length ≠ 5 ∨ strncmp (stx :: bs) (literal ">1SV4") 5 ≠ 0 then
          ⟨false, pKL1850, hSerial, none⟩
        else
          let (cs, hSerial) := feedGets 6 hSerial
          if 5 + cs.length ≠ bcKL1850FrameSize then ⟨false, pKL1850, hSerial, none⟩
          else
            ⟨true, { pKL1850 with ulCount := bcKL1850Count (stx :: bs ++ cs) }, hSerial,
              if bTrace then some (nStartIndex, bcKL1850FrameSize) else none⟩

/-- The `while(1)`, a round for each call of `SERIAL_getc`; `none` when the fuel is out.
There is no other end to it. -/
def bcKL1850Loop : Nat → Feed → Option Feed
  | 0, _ => none
  | fuel + 1, hSerial => bcKL1850Loop fuel (feedGetc hSerial).2

/-- `BC_KL1850_input`. -/
def bcKL1850Input (fuel : Nat) (bTrace : Bool) (pKL1850 : BcKL1850) (hSerial : Feed) :
    Option KL1850Outcome :=
  (bcKL1850Loop fuel hSerial).map (bcKL1850Behind bTrace pKL1850)

/-- `BC_KL1850_getMessage`. -/
def bcKL1850GetMessage (pKL1850 : BcKL1850) : List Byte :=
  [1, ((pKL1850.ulCount >>> 16) &&& 0xff).setWidth 8, ((pKL1850.ulCount >>> 8) &&& 0xff).setWidth 8,
   (pKL1850.ulCount &&& 0xff).setWidth 8, 0, 0, 0]

/-! ## What a call is to do -/

/-- The next bytes are `bs`, and each comes in time. -/
def Arrives (hSerial : Feed) (bs : List Byte) : Prop := ∀ i < bs.length, hSerial i = bs[i]?

/-- The next 11 bytes are a frame. -/
structure ArrivesFrame (hSerial : Feed) (bs : List Byte) : Prop where
  arrives : Arrives hSerial bs
  length : bs.length = bcKL1850FrameSize
  start : bs.take 5 = literal ">1SV4"

/-- A frame is decoded, and anything else rejected, with no more than 11 bytes read. -/
structure Decodes (pKL1850 : BcKL1850) (hSerial : Feed) (r : KL1850Outcome) : Prop where
  accepted : r.ret = true ↔ ∃ bs, ArrivesFrame hSerial bs
  count : ∀ bs, ArrivesFrame hSerial bs → r.pKL1850.ulCount.toNat = leValue (slice bs 5 4)
  message : r.ret = true → r.pKL1850.ulCount.toNat < 2 ^ 24 →
    counted (bcKL1850GetMessage r.pKL1850) = r.pKL1850.ulCount.toNat
  rejected : r.ret = false → r.pKL1850 = pKL1850
  consumed : ∃ n, r.hSerial = hSerial.drop n ∧
    ((List.range n).filterMap hSerial).length ≤ bcKL1850FrameSize

/-- The bytes dumped are those of `pFrame`. -/
def InFrame (r : KL1850Outcome) : Prop :=
  ∀ d ∈ r.pDump, 0 ≤ d.1 ∧ d.1 + d.2 ≤ bcKL1850FrameSize

/-- The call returns, and is right. -/
def ReturnsDecoded (bTrace : Bool) (pKL1850 : BcKL1850) (hSerial : Feed) : Prop :=
  ∃ fuel r, bcKL1850Input fuel bTrace pKL1850 hSerial = some r ∧ Decodes pKL1850 hSerial r ∧
    InFrame r

/-! ## Reading a line -/

variable {hSerial : Feed} {as bs : List Byte} {bTrace : Bool} {pKL1850 : BcKL1850}

theorem drop_drop (hSerial : Feed) (n m : Nat) :
    (hSerial.drop n).drop m = hSerial.drop (n + m) := by
  funext i
  rw [Feed.drop, Feed.drop, Feed.drop, Nat.add_assoc]

theorem arrives_cons {b : Byte} (hb : hSerial 0 = some b) (h : Arrives (hSerial.drop 1) bs) :
    Arrives hSerial (b :: bs) := by
  intro i hi
  cases i with
  | zero => exact hb
  | succ i =>
      rw [List.getElem?_cons_succ, ← h i (Nat.lt_of_succ_lt_succ hi), Feed.drop, Nat.add_comm]

theorem arrives_append (ha : Arrives hSerial as) (hb : Arrives (hSerial.drop as.length) bs) :
    Arrives hSerial (as ++ bs) := by
  intro i hi
  rcases Nat.lt_or_ge i as.length with hlt | hge
  · rw [List.getElem?_append_left hlt]
    exact ha i hlt
  · rw [List.length_append] at hi
    rw [List.getElem?_append_right hge, ← hb (i - as.length) (by omega), Feed.drop,
      Nat.add_sub_of_le hge]

theorem Arrives.take_eq (ha : Arrives hSerial as) (hb : Arrives hSerial bs)
    (hle : as.length ≤ bs.length) : bs.take as.length = as := by
  apply List.ext_getElem?
  intro i
  rw [List.getElem?_take]
  split
  · rw [← hb i (by omega), ha i (by omega)]
  · rw [List.getElem?_eq_none (by omega)]

theorem Arrives.length_le (h : Arrives hSerial bs) {i : Nat} (hi : hSerial i = none) :
    bs.length ≤ i := by
  by_contra hlt
  have hsome := h i (by omega)
  rw [hi, List.getElem?_eq_getElem (by omega)] at hsome
  cases hsome

/-- `SERIAL_gets` reads all it was asked for, or up to a byte that does not come. -/
theorem feedGets_spec (n : Nat) (hSerial : Feed) :
    Arrives hSerial (feedGets n hSerial).1 ∧
      (((feedGets n hSerial).1.length = n ∧ (feedGets n hSerial).2 = hSerial.drop n) ∨
        ((feedGets n hSerial).1.length < n ∧ hSerial (feedGets n hSerial).1.length = none ∧
          (feedGets n hSerial).2 = hSerial.drop ((feedGets n hSerial).1.length + 1))) := by
  induction n generalizing hSerial with
  | zero =>
      refine ⟨fun i hi => absurd hi (Nat.not_lt_zero i), .inl ⟨rfl, ?_⟩⟩
      funext i
      rw [Feed.drop, Nat.zero_add]
      rfl
  | succ n ih =>
      rw [feedGets, feedGetc]
      cases hb : hSerial 0 with
      | none => exact ⟨fun i hi => absurd hi (Nat.not_lt_zero i), .inr ⟨Nat.succ_pos n, hb, rfl⟩⟩
      | some b =>
          obtain ⟨harrives, hrest⟩ := ih (hSerial.drop 1)
          refine ⟨arrives_cons hb harrives, ?_⟩
          rcases hrest with ⟨hlen, hdrop⟩ | ⟨hlen, hnone, hdrop⟩
          · refine .inl ⟨congrArg (· + 1) hlen, ?_⟩
            rw [hdrop, drop_drop, Nat.add_comm]
          · refine .inr ⟨Nat.succ_lt_succ hlen, ?_, ?_⟩
            · rw [← hnone, Feed.drop, Nat.add_comm]
              rfl
            · rw [hdrop, drop_drop, Nat.add_comm]
              rfl

/-! ## Behind the loop -/

theorem not_frame_of_none {i : Nat} (hi : hSerial i = none) (hlt : i < 11) :
    ¬ ∃ bs, ArrivesFrame hSerial bs := by
  rintro ⟨bs, hbs⟩
  have hle := hbs.arrives.length_le hi
  rw [hbs.length, bcKL1850FrameSize] at hle
  omega

theorem not_frame_of_ne (h : Arrives hSerial as) (hlen : as.length ≤ 5)
    (hne : as ≠ (literal ">1SV4").take as.length) : ¬ ∃ bs, ArrivesFrame hSerial bs := by
  rintro ⟨bs, hbs⟩
  have htake := h.take_eq hbs.arrives (by rw [hbs.length, bcKL1850FrameSize]; omega)
  apply hne
  rw [← hbs.start, List.take_take, Nat.min_eq_left hlen, htake]

/-- What stands behind the loop accepts a frame, and rejects anything else within 11
calls. -/
theorem bcKL1850Behind_cases (bTrace : Bool) (pKL1850 : BcKL1850) (hSerial : Feed) :
    (∃ bs, ArrivesFrame hSerial bs ∧
      bcKL1850Behind bTrace pKL1850 hSerial =
        ⟨true, ⟨bcKL1850Count bs⟩, hSerial.drop 11, if bTrace then some (-1, 11) else none⟩) ∨
    ((¬ ∃ bs, ArrivesFrame hSerial bs) ∧ ∃ n ≤ 11,
      bcKL1850Behind bTrace pKL1850 hSerial = ⟨false, pKL1850, hSerial.drop n, none⟩) := by
  unfold bcKL1850Behind feedGetc
  cases hget : hSerial 0 with
  | none => exact .inr ⟨not_frame_of_none hget (by decide), 1, by decide, rfl⟩
  | some stx =>
      have hone : Arrives hSerial [stx] :=
        arrives_cons hget fun i hi => absurd hi (Nat.not_lt_zero i)
      dsimp only
      by_cases hstx : stx = bcKL1850Stx
      · rw [if_neg (not_not_intro hstx)]
        obtain ⟨hfour, hread⟩ := feedGets_spec 4 (hSerial.drop 1)
        generalize feedGets 4 (hSerial.drop 1) = r at hfour hread ⊢
        obtain ⟨bs, rest⟩ := r
        dsimp only at hfour hread ⊢
        have hfive : Arrives hSerial (stx :: bs) := arrives_cons hget hfour
        rcases hread with ⟨hlen, rfl⟩ | ⟨hlen, hnone, rfl⟩
        · have hcompare : strncmp (stx :: bs) (literal ">1SV4") 5 = 0 ↔
              stx :: bs = literal ">1SV4" :=
            strncmp_eq_zero_iff (congrArg (· + 1) hlen) rfl (by decide)
          by_cases hstart : stx :: bs = literal ">1SV4"
          · rw [if_neg (by rw [not_or, not_not, not_not, hcompare]; exact ⟨by omega, hstart⟩),
              drop_drop]
            obtain ⟨hsix, hread⟩ := feedGets_spec 6 (hSerial.drop (1 + 4))
            generalize feedGets 6 (hSerial.drop (1 + 4)) = r at hsix hread ⊢
            obtain ⟨cs, rest⟩ := r
            dsimp only at hsix hread ⊢
            have hlen_five : (stx :: bs).length = 5 := congrArg (· + 1) hlen
            rcases hread with ⟨hlen', rfl⟩ | ⟨hlen', hnone, rfl⟩
            · refine .inl ⟨stx :: bs ++ cs, ⟨?_, ?_, ?_⟩, ?_⟩
              · exact arrives_append hfive (by rw [hlen_five]; exact hsix)
              · rw [List.length_append, hlen_five, hlen']
                rfl
              · rw [List.take_left' hlen_five, hstart]
              · rw [if_neg (by rw [hlen']; decide), drop_drop]
                rfl
            · refine .inr ⟨not_frame_of_none (i := 5 + cs.length) hnone (by omega),
                5 + (cs.length + 1), by omega, ?_⟩
              rw [if_pos (by rw [bcKL1850FrameSize]; omega), drop_drop]
          · refine .inr ⟨not_frame_of_ne hfive (by rw [List.length_cons]; omega) ?_, 5,
              by decide, ?_⟩
            · rw [List.length_cons, hlen]
              exact hstart
            · rw [if_pos (.inr (mt hcompare.mp hstart)), drop_drop]
        · refine .inr ⟨not_frame_of_none (i := 1 + bs.length) hnone (by omega),
            1 + (bs.length + 1), by omega, ?_⟩
          rw [if_pos (.inl (by omega)), drop_drop]
      · refine .inr ⟨not_frame_of_ne hone (Nat.succ_le_succ (Nat.zero_le 4)) ?_, 1, by decide,
          if_pos hstx⟩
        intro heq
        exact hstx (List.cons.inj heq).1

/-- Bytes put together by shifts. -/
theorem toNat_or_shiftLeft {n : BitVec 32} {k : Nat} (b : Byte) (hn : n.toNat < 2 ^ k)
    (hk : k ≤ 24) : (n ||| b.setWidth 32 <<< k).toNat = n.toNat + b.toNat * 2 ^ k := by
  have hb := b.isLt
  have hpow : 2 ^ k ≤ 2 ^ 24 := Nat.pow_le_pow_right (by decide) hk
  have hprod : b.toNat * 2 ^ k < 2 ^ 32 := by
    calc b.toNat * 2 ^ k < 2 ^ 8 * 2 ^ k := Nat.mul_lt_mul_of_pos_right hb (Nat.two_pow_pos k)
      _ ≤ 2 ^ 8 * 2 ^ 24 := Nat.mul_le_mul_left _ hpow
  have hword : b.toNat % 2 ^ 32 = b.toNat := Nat.mod_eq_of_lt (by omega)
  have hshift : (b.setWidth 32 <<< k).toNat = b.toNat <<< k := by
    rw [BitVec.toNat_shiftLeft, BitVec.toNat_setWidth, hword, Nat.shiftLeft_eq,
      Nat.mod_eq_of_lt hprod]
  rw [BitVec.toNat_or, hshift, Nat.or_comm, ← Nat.shiftLeft_add_eq_or_of_lt hn, Nat.shiftLeft_eq,
    Nat.add_comm]

/-- The count is the one in the frame, least significant byte first. -/
theorem toNat_bcKL1850Count {bs : List Byte} (h : bs.length = 11) :
    (bcKL1850Count bs).toNat = leValue (slice bs 5 4) := by
  match bs, h with
  | [_, _, _, _, _, b₅, b₆, b₇, b₈, _, _], _ =>
      have hb₅ := b₅.isLt
      have hb₆ := b₆.isLt
      have hb₇ := b₇.isLt
      have hlow : (b₅.setWidth 32).toNat = b₅.toNat := by
        rw [BitVec.toNat_setWidth]
        omega
      have htwo := toNat_or_shiftLeft b₆ (n := b₅.setWidth 32) (k := 8) (by omega) (by decide)
      have hthree := toNat_or_shiftLeft b₇ (k := 16) (by rw [htwo, hlow]; omega) (by decide)
      have hfour := toNat_or_shiftLeft b₈ (k := 24) (by rw [hthree, htwo, hlow]; omega) (by decide)
      rw [bcKL1850Count]
      refine hfour.trans ?_
      rw [hthree, htwo, hlow]
      simp only [slice, List.drop_succ_cons, List.drop_zero, List.take_succ_cons, List.take_zero,
        leValue]
      omega

theorem counted_bcKL1850 (pKL1850 : BcKL1850) :
    counted (bcKL1850GetMessage pKL1850) = pKL1850.ulCount.toNat % 2 ^ 24 := by
  rw [bcKL1850GetMessage, counted_cons, setWidth_and_ff, setWidth_and_ff, setWidth_and_ff]
  simp [Nat.shiftRight_eq_div_pow]
  omega

/-- What stands behind the loop decodes, -/
theorem decodes_behind (bTrace : Bool) (pKL1850 : BcKL1850) (hSerial : Feed) :
    Decodes pKL1850 hSerial (bcKL1850Behind bTrace pKL1850 hSerial) := by
  have hconsumed : ∀ n ≤ 11, ((List.range n).filterMap hSerial).length ≤ bcKL1850FrameSize := by
    intro n hn
    have hlen := List.length_filterMap_le hSerial (List.range n)
    rw [List.length_range] at hlen
    exact Nat.le_trans hlen hn
  rcases bcKL1850Behind_cases bTrace pKL1850 hSerial with ⟨bs, hframe, hout⟩ | ⟨hnone, n, hn, hout⟩
  · rw [hout]
    constructor
    · exact ⟨fun _ => ⟨bs, hframe⟩, fun _ => rfl⟩
    · intro bs' hframe'
      have htake := hframe.arrives.take_eq hframe'.arrives
        (Nat.le_of_eq (hframe.length.trans hframe'.length.symm))
      rw [List.take_of_length_le (by rw [hframe.length, hframe'.length])] at htake
      rw [htake]
      exact toNat_bcKL1850Count hframe.length
    · intro _ hlt
      rw [counted_bcKL1850, Nat.mod_eq_of_lt hlt]
    · intro hfalse
      cases hfalse
    · exact ⟨11, rfl, hconsumed 11 (Nat.le_refl 11)⟩
  · rw [hout]
    constructor
    · exact ⟨fun htrue => (nomatch htrue), fun hframe => absurd hframe hnone⟩
    · exact fun bs hframe => absurd ⟨bs, hframe⟩ hnone
    · intro htrue
      cases htrue
    · exact fun _ => rfl
    · exact ⟨n, rfl, hconsumed n hn⟩

/-- but a frame is not dumped from its start. -/
theorem inFrame_behind_iff (bTrace : Bool) (pKL1850 : BcKL1850) (hSerial : Feed) :
    InFrame (bcKL1850Behind bTrace pKL1850 hSerial) ↔
      bTrace = false ∨ ¬ ∃ bs, ArrivesFrame hSerial bs := by
  rcases bcKL1850Behind_cases bTrace pKL1850 hSerial with ⟨bs, hframe, hout⟩ | ⟨hnone, n, _, hout⟩
  · rw [hout]
    cases bTrace with
    | false => exact ⟨fun _ => .inl rfl, fun _ d hd => (nomatch hd)⟩
    | true =>
        refine ⟨fun hin => ?_, fun hor => ?_⟩
        · exact absurd (hin (-1, 11) rfl).1 (by decide)
        · rcases hor with hfalse | hno
          · cases hfalse
          · exact absurd ⟨bs, hframe⟩ hno
  · rw [hout]
    exact ⟨fun _ => .inr hnone, fun _ d hd => (nomatch hd)⟩

/-! ## The loop -/

theorem bcKL1850Loop_eq_none (fuel : Nat) (hSerial : Feed) : bcKL1850Loop fuel hSerial = none := by
  induction fuel generalizing hSerial with
  | zero => rfl
  | succ fuel ih => exact ih _

theorem bcKL1850Input_eq_none (fuel : Nat) (bTrace : Bool) (pKL1850 : BcKL1850) (hSerial : Feed) :
    bcKL1850Input fuel bTrace pKL1850 hSerial = none := by
  rw [bcKL1850Input, bcKL1850Loop_eq_none]
  rfl

/-- No call returns, whatever comes in. -/
theorem never_returnsDecoded (bTrace : Bool) (pKL1850 : BcKL1850) (hSerial : Feed) :
    ¬ ReturnsDecoded bTrace pKL1850 hSerial := by
  rintro ⟨fuel, r, hreturns, _⟩
  rw [bcKL1850Input_eq_none] at hreturns
  cases hreturns

/-- A frame with the count 1, and silence. -/
def feedOfOne : Feed := fun i => (literal ">1SV4" ++ [1, 0, 0, 0, 0, 0])[i]?

theorem frame_not_returned : ¬ ReturnsDecoded false ⟨0⟩ feedOfOne := by
  rintro ⟨fuel, r, hreturns, _⟩
  rw [bcKL1850Input_eq_none] at hreturns
  cases hreturns

end BillCounter.Driver
