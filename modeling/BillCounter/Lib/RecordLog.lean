import BillCounter.Lib.LeastKey
import BillCounter.Lib.Runs
import Mathlib.Algebra.Group.Nat.Defs
import Mathlib.Logic.Function.Iterate

/-!
# A rotating record log

`slots` record slots are written in rotation, each record under a key derived
from the one before it.  Slots are grouped in erase units (`page`), and a write
first wipes the whole unit of the slot it goes to.  After a restart only the
slots are left; `boot` takes the readable slot of *least* key as the current
one, and writes a blank record when there is none.

The purpose of such a log is that a restart finds the record written last.
This file says exactly when this one does: `BootsTo` describes what a restart
finds, `recent_of_run` carries recency along every run whose restarts find the
record written last, `recent_of_onePage` and `onePage_of_recent` say for which
grouping into erase units no run at all loses it, and `powerSafe_iff` says which states survive a
loss of power inside a write.
-/

namespace BillCounter.Lib.RecordLog

open BillCounter.Lib.LeastKey
open BillCounter.Lib.Runs

universe u v

/-- What is fixed while a log is in use. -/
structure Shape (κ : Type u) (ρ : Type v) where
  slots : Nat
  page : Nat → Nat
  first : κ
  next : κ → κ
  blank : ρ
  slots_pos : 0 < slots

/-- The readable slots, and the one in use. -/
structure Log (κ : Type u) (ρ : Type v) where
  slot : Nat → Option (κ × ρ)
  current : Option Nat

variable {κ : Type u} {ρ : Type v}

/-- The record in use. -/
def Log.get (s : Log κ ρ) : Option ρ :=
  s.current.bind fun c => (s.slot c).map Prod.snd

variable (S : Shape κ ρ)

/-- The slot the next write goes to. -/
def target (s : Log κ ρ) : Nat :=
  match s.current with
  | none => 0
  | some c => (c + 1) % S.slots

/-- The key the next write uses. -/
def nextKey (s : Log κ ρ) : κ :=
  match s.current with
  | none => S.first
  | some c => (s.slot c).elim S.first fun e => S.next e.1

/-- Wipe the erase unit of slot `t`. -/
def wipe (t : Nat) (slot : Nat → Option (κ × ρ)) : Nat → Option (κ × ρ) :=
  fun i => if S.page i = S.page t then none else slot i

/-- Write `r` to the next slot in rotation. -/
def put (r : ρ) (s : Log κ ρ) : Log κ ρ where
  slot i := if i = target S s then some (nextKey S s, r)
    else wipe S (target S s) s.slot i
  current := some (target S s)

/-- Rewrite the record in use, if `f` asks for a change. -/
def amend (f : ρ → Option ρ) (s : Log κ ρ) : Log κ ρ :=
  match s.get.bind f with
  | none => s
  | some r => put S r s

/-- What a loss of power inside a write leaves, short of the whole record:
either nothing has happened yet, or the unit is wiped and the slot being
written is not readable. -/
inductive Tear
  | before
  | wiped

/-- The slots left by an interrupted write. -/
def torn (s : Log κ ρ) : Tear → Nat → Option (κ × ρ)
  | .before => s.slot
  | .wiped => wipe S (target S s) s.slot

/-- No slot is readable. -/
def Empty (slot : Nat → Option (κ × ρ)) : Prop :=
  ∀ i, i < S.slots → slot i = none

/-- A slot is in use and readable. -/
def Wf (s : Log κ ρ) : Prop :=
  ∃ c, s.current = some c ∧ c < S.slots ∧ (s.slot c).isSome

/-- All slots lie in one erase unit. -/
def OnePage : Prop :=
  ∀ i j, i < S.slots → j < S.slots → S.page i = S.page j

theorem target_lt (s : Log κ ρ) : target S s < S.slots := by
  unfold target
  split
  · exact S.slots_pos
  · exact Nat.mod_lt _ S.slots_pos

@[simp] theorem get_put (r : ρ) (s : Log κ ρ) : (put S r s).get = some r := by
  simp [put, Log.get]

theorem wf_put (r : ρ) (s : Log κ ρ) : Wf S (put S r s) :=
  ⟨target S s, rfl, target_lt S s, by simp [put]⟩

theorem wf_get {s : Log κ ρ} (h : Wf S s) : ∃ r, s.get = some r := by
  obtain ⟨c, hc, _, hsome⟩ := h
  obtain ⟨e, he⟩ := Option.isSome_iff_exists.mp hsome
  exact ⟨e.2, by simp [Log.get, hc, he]⟩

/-- An amendment either leaves the log alone or is a write. -/
theorem amend_cases (f : ρ → Option ρ) (s : Log κ ρ) :
    (s.get.bind f = none ∧ amend S f s = s) ∨
      ∃ r, s.get.bind f = some r ∧ amend S f s = put S r s := by
  unfold amend
  cases h : s.get.bind f with
  | none => exact .inl ⟨rfl, rfl⟩
  | some r => exact .inr ⟨r, rfl, rfl⟩

/-- What is done to a log from outside. -/
inductive Op (ρ : Type v)
  | put (r : ρ)
  | amend (f : ρ → Option ρ)
  | reboot

/-- A log together with the record last written to it, if any. -/
structure Tracked (κ : Type u) (ρ : Type v) where
  log : Log κ ρ
  last : Option ρ

/-- The record in use is the one written last. -/
def Recent (t : Tracked κ ρ) : Prop :=
  ∀ r, t.last = some r → t.log.get = some r

theorem recent_put (r : ρ) (s : Log κ ρ) : Recent ⟨put S r s, some r⟩ := by
  rintro r' ⟨⟩
  exact get_put S r s

/-- The slot in use is the only readable one. -/
def Alone (s : Log κ ρ) : Prop :=
  ∃ c, s.current = some c ∧ c < S.slots ∧ (s.slot c).isSome ∧
    ∀ i, i < S.slots → i ≠ c → s.slot i = none

/-- With one erase unit a write leaves no other slot readable. -/
theorem alone_put (hone : OnePage S) (r : ρ) (s : Log κ ρ) :
    Alone S (put S r s) := by
  refine ⟨target S s, rfl, target_lt S s, by simp [put], fun i hi hne => ?_⟩
  simp [put, hne, wipe, hone i (target S s) hi (target_lt S s)]

/-- What one erase unit guarantees between restarts. -/
def AloneOnceWritten (t : Tracked κ ρ) : Prop :=
  Recent t ∧ ∀ r, t.last = some r → Alone S t.log

theorem aloneOnceWritten_put (hone : OnePage S) (r : ρ) (s : Log κ ρ) :
    AloneOnceWritten S ⟨put S r s, some r⟩ :=
  ⟨recent_put S r s, fun _ _ => alone_put S hone r s⟩

/-! ## Writing the blank record over and over -/

/-- The log after the blank record has been written `k + 1` times to slots that
held nothing. -/
def ladder : Nat → Log κ ρ
  | 0 => put S S.blank ⟨fun _ => none, none⟩
  | k + 1 => put S S.blank (ladder k)

/-- What the ladder holds: the top rung is in use, under the key of its rank. -/
structure LadderSpec (k : Nat) (s : Log κ ρ) : Prop where
  current : s.current = some k
  top : s.slot k = some (S.next^[k] S.first, S.blank)
  below : ∀ i e, s.slot i = some e →
    e.2 = S.blank ∧ ∃ j, j ≤ k ∧ e.1 = S.next^[j] S.first

theorem LadderSpec.target_eq {k : Nat} {s : Log κ ρ} (h : LadderSpec S k s)
    (hk : k + 1 < S.slots) : target S s = k + 1 := by
  simp [target, h.current, Nat.mod_eq_of_lt hk]

theorem LadderSpec.nextKey_eq {k : Nat} {s : Log κ ρ} (h : LadderSpec S k s) :
    nextKey S s = S.next^[k + 1] S.first := by
  simp [nextKey, h.current, h.top, Function.iterate_succ_apply']

theorem ladder_spec {k : Nat} (hk : k < S.slots) : LadderSpec S k (ladder S k) := by
  induction k with
  | zero =>
      refine ⟨rfl, rfl, fun i e he => ?_⟩
      by_cases hi : i = 0
      · subst hi
        cases he
        exact ⟨rfl, 0, Nat.le_refl _, rfl⟩
      · have hnone : (ladder S 0).slot i = none := by
          simp only [ladder, put, target, hi, if_false]
          exact ite_self none
        exact absurd (hnone.symm.trans he) (by simp)
  | succ k ih =>
      have hprev := ih (Nat.lt_of_succ_lt hk)
      have htarget := hprev.target_eq S hk
      have hkey := hprev.nextKey_eq S
      refine ⟨by simp [ladder, put, htarget], by simp [ladder, put, htarget, hkey],
        fun i e he => ?_⟩
      by_cases hi : i = k + 1
      · have heq : (S.next^[k + 1] S.first, S.blank) = e := by
          simpa [ladder, put, htarget, hkey, hi] using he
        exact ⟨heq ▸ rfl, k + 1, Nat.le_refl _, heq ▸ rfl⟩
      · have hold : (ladder S k).slot i = some e := by
          simp only [ladder, put, htarget, hi, if_false, wipe] at he
          split at he
          · exact absurd he (by simp)
          · exact he
        obtain ⟨hblank, j, hj, hkeyj⟩ := hprev.below i e hold
        exact ⟨hblank, j, Nat.le_succ_of_le hj, hkeyj⟩

/-! ## Restarting -/

section Boot

variable [LinearOrder κ]

/-- The key of a slot, for the scan. -/
def slotKey (slot : Nat → Option (κ × ρ)) (i : Nat) : κ :=
  (slot i).elim S.first Prod.fst

/-- `c` is the readable slot of least key, the lowest one among equals. -/
def IsOldest (slot : Nat → Option (κ × ρ)) (c : Nat) : Prop :=
  IsFirstLeast (fun i => (slot i).isSome) (slotKey S slot) S.slots c

/-- The slot a restart picks. -/
def oldest (slot : Nat → Option (κ × ρ)) : Option Nat :=
  scan (fun i => (slot i).isSome) (slotKey S slot) S.slots

/-- Restart on the given slots. -/
def boot (slot : Nat → Option (κ × ρ)) : Log κ ρ :=
  match oldest S slot with
  | some c => ⟨slot, some c⟩
  | none => put S S.blank ⟨slot, none⟩

/-- The oldest readable slot holds `r`. -/
def OldestHolds (slot : Nat → Option (κ × ρ)) (r : ρ) : Prop :=
  ∃ c, IsOldest S slot c ∧ (slot c).map Prod.snd = some r

/-- A restart on these slots finds `r`: the oldest readable slot holds it, or
nothing is readable and `r` is the blank record. -/
def BootsTo (slot : Nat → Option (κ × ρ)) (r : ρ) : Prop :=
  OldestHolds S slot r ∨ (Empty S slot ∧ r = S.blank)

theorem boot_cases (slot : Nat → Option (κ × ρ)) :
    (∃ c, IsOldest S slot c ∧ boot S slot = ⟨slot, some c⟩) ∨
      (Empty S slot ∧ boot S slot = put S S.blank ⟨slot, none⟩) := by
  unfold boot
  cases h : oldest S slot with
  | some c => exact .inl ⟨c, scan_eq_some_iff.mp h, rfl⟩
  | none =>
      refine .inr ⟨fun i hi => ?_, rfl⟩
      simpa using scan_eq_none_iff.mp h i hi

theorem wf_boot (slot : Nat → Option (κ × ρ)) : Wf S (boot S slot) := by
  rcases boot_cases S slot with ⟨c, hc, hboot⟩ | ⟨_, hboot⟩
  · rw [hboot]
    exact ⟨c, rfl, hc.lt, hc.admissible⟩
  · rw [hboot]
    exact wf_put S _ _

/-- `BootsTo` is what a restart finds. -/
theorem get_boot_iff (slot : Nat → Option (κ × ρ)) (r : ρ) :
    (boot S slot).get = some r ↔ BootsTo S slot r := by
  rcases boot_cases S slot with ⟨c, hc, hboot⟩ | ⟨hempty, hboot⟩
  · have hget : (boot S slot).get = (slot c).map Prod.snd := by
      rw [hboot]
      rfl
    rw [hget]
    constructor
    · exact fun h => .inl ⟨c, hc, h⟩
    · rintro (⟨d, hd, hr⟩ | ⟨hempty, _⟩)
      · exact hc.unique hd ▸ hr
      · have hsome := hc.admissible
        rw [hempty c hc.lt] at hsome
        exact absurd hsome Bool.false_ne_true
  · rw [hboot, get_put, Option.some.injEq]
    constructor
    · exact fun h => .inr ⟨hempty, h.symm⟩
    · rintro (⟨d, hd, _⟩ | ⟨_, hr⟩)
      · have hsome := hd.admissible
        rw [hempty d hd.lt] at hsome
        exact absurd hsome Bool.false_ne_true
      · exact hr.symm

/-- A restart always finds some record. -/
theorem boot_get (slot : Nat → Option (κ × ρ)) :
    ∃ r, (boot S slot).get = some r ∧ BootsTo S slot r := by
  obtain ⟨r, hr⟩ := wf_get S (wf_boot S slot)
  exact ⟨r, hr, (get_boot_iff S slot r).mp hr⟩

/-! ## Recency over runs -/

/-- Restart, keeping track of a blank record the restart has to write. -/
def reboot (slot : Nat → Option (κ × ρ)) (last : Option ρ) : Tracked κ ρ where
  log := boot S slot
  last := if oldest S slot = none then some S.blank else last

/-- One operation on a tracked log. -/
def step (t : Tracked κ ρ) : Op ρ → Tracked κ ρ
  | .put r => ⟨put S r t.log, some r⟩
  | .amend f => ⟨amend S f t.log, (t.log.get.bind f).or t.last⟩
  | .reboot => reboot S t.log.slot t.last

/-- Tracked logs, started on slots of any content. -/
def system : System (Tracked κ ρ) (Op ρ) :=
  .ofFun (fun t => ∃ slot, t = reboot S slot none) (step S)

/-- The restart condition: before a restart, the oldest readable slot holds the
record written last. -/
def RestartSafe (t : Tracked κ ρ) : Op ρ → Prop
  | .reboot => ∀ r, t.last = some r → OldestHolds S t.log.slot r
  | _ => True

theorem reboot_cases (slot : Nat → Option (κ × ρ)) (last : Option ρ) :
    (∃ c, IsOldest S slot c ∧ reboot S slot last = ⟨⟨slot, some c⟩, last⟩) ∨
      (Empty S slot ∧
        reboot S slot last = ⟨put S S.blank ⟨slot, none⟩, some S.blank⟩) := by
  unfold reboot boot
  cases h : oldest S slot with
  | some c => exact .inl ⟨c, scan_eq_some_iff.mp h, rfl⟩
  | none =>
      refine .inr ⟨fun i hi => ?_, rfl⟩
      simpa using scan_eq_none_iff.mp h i hi

theorem recent_reboot_none (slot : Nat → Option (κ × ρ)) :
    Recent (reboot S slot none) := by
  rcases reboot_cases S slot none with ⟨c, _, hboot⟩ | ⟨_, hboot⟩
  · rw [hboot]
    exact fun r hr => absurd hr (by simp)
  · rw [hboot]
    rintro r ⟨⟩
    exact get_put S _ _

/-- One step under the restart condition keeps recency. -/
theorem recent_step {t : Tracked κ ρ} {op : Op ρ} (h : Recent t)
    (hsafe : RestartSafe S t op) : Recent (step S t op) := by
  cases op with
  | put r => exact recent_put S r t.log
  | amend f =>
      rcases amend_cases S f t.log with ⟨hnone, hlog⟩ | ⟨r, hsome, hlog⟩
      · simpa [step, hlog, hnone] using h
      · simpa [step, hlog, hsome] using recent_put S r t.log
  | reboot =>
      rcases reboot_cases S t.log.slot t.last with ⟨c, hc, hboot⟩ | ⟨_, hboot⟩
      · intro r hr
        rw [step, hboot] at hr ⊢
        obtain ⟨d, hd, hrec⟩ := hsafe r hr
        exact hc.unique hd ▸ hrec
      · rw [step, hboot]
        exact recent_put S _ _

/-- Every run whose restarts all meet the condition keeps recency. -/
theorem recent_of_run {t t' : Tracked κ ρ} {ops : List (Op ρ)}
    (hinit : (system S).init t)
    (hrun : ((system S).restrict (RestartSafe S)).Run t ops t') : Recent t' := by
  obtain ⟨slot, rfl⟩ := hinit
  refine hrun.invariant (fun s op s' hs hst => ?_) (recent_reboot_none S slot)
  obtain ⟨hsafe, rfl⟩ := hst
  exact recent_step S hs hsafe

/-! ## Which groupings into erase units are always safe -/

theorem Alone.isOldest {s : Log κ ρ} (h : Alone S s) :
    ∃ c, s.current = some c ∧ IsOldest S s.slot c := by
  obtain ⟨c, hc, hlt, hsome, hothers⟩ := h
  refine ⟨c, hc, hlt, hsome, fun i hi hoki => ?_⟩
  by_cases hic : i = c
  · exact .inr ⟨by rw [hic], Nat.le_of_eq hic.symm⟩
  · rw [hothers i hi hic] at hoki
    exact absurd hoki Bool.false_ne_true

/-- With one erase unit every step keeps the guarantee, restarts included. -/
theorem aloneOnceWritten_step (hone : OnePage S) {t : Tracked κ ρ}
    (op : Op ρ) (h : AloneOnceWritten S t) : AloneOnceWritten S (step S t op) := by
  cases op with
  | put r => exact aloneOnceWritten_put S hone r t.log
  | amend f =>
      rcases amend_cases S f t.log with ⟨hnone, hlog⟩ | ⟨r, hsome, hlog⟩
      · simpa [step, hlog, hnone] using h
      · simpa [step, hlog, hsome] using aloneOnceWritten_put S hone r t.log
  | reboot =>
      rcases reboot_cases S t.log.slot t.last with ⟨c, hc, hboot⟩ | ⟨_, hboot⟩
      · -- the slot in use was alone, so the restart picks it again
        have hcur : ∀ r, t.last = some r → t.log.current = some c := by
          intro r hr
          obtain ⟨d, hd, hold⟩ := (h.2 r hr).isOldest S
          rw [hd, hold.unique hc]
        have hlog : ∀ r, t.last = some r →
            (⟨t.log.slot, some c⟩ : Log κ ρ) = t.log := by
          intro r hr
          rw [← hcur r hr]
        rw [step, hboot]
        refine ⟨fun r hr => ?_, fun r hr => ?_⟩
        · exact (congrArg Log.get (hlog r hr)).trans (h.1 r hr)
        · exact (hlog r hr).symm ▸ h.2 r hr
      · rw [step, hboot]
        exact aloneOnceWritten_put S hone _ _

theorem recent_of_onePage (hone : OnePage S) {t t' : Tracked κ ρ}
    {ops : List (Op ρ)} (hinit : (system S).init t)
    (hrun : (system S).Run t ops t') : Recent t' := by
  obtain ⟨slot, rfl⟩ := hinit
  have hstart : AloneOnceWritten S (reboot S slot none) := by
    rcases reboot_cases S slot none with ⟨c, _, hboot⟩ | ⟨_, hboot⟩
    · rw [hboot]
      exact ⟨fun r hr => absurd hr (by simp), fun r hr => absurd hr (by simp)⟩
    · rw [hboot]
      exact aloneOnceWritten_put S hone _ _
  refine (hrun.invariant (fun s op s' hs hst => ?_) hstart).1
  exact hst ▸ aloneOnceWritten_step S hone op hs

/-- No key in the slots is one that `next` fails to raise. -/
def Unwrapped (s : Log κ ρ) : Prop :=
  ∀ i e, i < S.slots → s.slot i = some e → e.1 < S.next e.1

/-- Writes and restarts before and after which every key can still be raised. -/
structure Plain (t : Tracked κ ρ) (op : Op ρ) : Prop where
  before : Unwrapped S t.log
  after : Unwrapped S (step S t op).log
  op_cases : op = .reboot ∨ ∃ r, op = .put r

/-- One more write, into another erase unit than the rung below it, leaves that
rung readable under a smaller key: a restart goes back to the blank record. -/
theorem boot_put_ladder {c : Nat} {r : ρ} (hc : c + 1 < S.slots)
    (hpage : S.page c ≠ S.page (c + 1))
    (hkey : S.next^[c] S.first < S.next^[c + 1] S.first) :
    (boot S (put S r (ladder S c)).slot).get = some S.blank := by
  have hspec := ladder_spec S (Nat.lt_of_succ_lt hc)
  have htarget := hspec.target_eq S hc
  have hslot : ∀ i, i ≠ c + 1 → (put S r (ladder S c)).slot i =
      if S.page i = S.page (c + 1) then none else (ladder S c).slot i := by
    intro i hi
    simp [put, htarget, hi, wipe]
  have hrung : (put S r (ladder S c)).slot c =
      some (S.next^[c] S.first, S.blank) := by
    rw [hslot c (by omega), if_neg hpage, hspec.top]
  have htop : (put S r (ladder S c)).slot (c + 1) =
      some (S.next^[c + 1] S.first, r) := by
    simp [put, htarget, hspec.nextKey_eq S]
  generalize hs : (put S r (ladder S c)).slot = slot at hslot hrung htop
  rcases boot_cases S slot with ⟨o, ho, hboot⟩ | ⟨hempty, _⟩
  · -- the pick is not the top slot, since the rung below has a smaller key
    have hne : o ≠ c + 1 := by
      rintro rfl
      have := ho.least c (Nat.lt_of_succ_lt hc) (by simp [hrung])
      simp only [slotKey, hrung, htop, Option.elim] at this
      rcases this with h | ⟨h, _⟩
      · exact absurd (lt_trans hkey h) (lt_irrefl _)
      · exact absurd (h ▸ hkey) (lt_irrefl _)
    obtain ⟨e, he⟩ := Option.isSome_iff_exists.mp ho.admissible
    have hold : (ladder S c).slot o = some e := by
      have h := he
      rw [hslot o hne] at h
      split at h
      · exact absurd h (by simp)
      · exact h
    simp [hboot, Log.get, he, (hspec.below o e hold).1]
  · rw [hempty c (Nat.lt_of_succ_lt hc)] at hrung
    exact absurd hrung (by simp)

theorem unwrapped_ladder {k : Nat} (hk : k < S.slots)
    (hmono : ∀ j, j ≤ S.slots → S.next^[j] S.first < S.next^[j + 1] S.first) :
    Unwrapped S (ladder S k) := by
  intro i e _ he
  obtain ⟨_, j, hj, hkey⟩ := (ladder_spec S hk).below i e he
  rw [hkey, ← Function.iterate_succ_apply' S.next]
  exact hmono j (by omega)

theorem unwrapped_put_ladder {c : Nat} {r : ρ} (hc : c + 1 < S.slots)
    (hmono : ∀ j, j ≤ S.slots → S.next^[j] S.first < S.next^[j + 1] S.first) :
    Unwrapped S (put S r (ladder S c)) := by
  have hspec := ladder_spec S (Nat.lt_of_succ_lt hc)
  have htarget := hspec.target_eq S hc
  intro i e hi he
  by_cases htop : i = c + 1
  · have heq : (S.next^[c + 1] S.first, r) = e := by
      simpa [put, htarget, hspec.nextKey_eq S, htop] using he
    rw [← heq, ← Function.iterate_succ_apply' S.next]
    exact hmono (c + 1) (by omega)
  · have hold : (ladder S c).slot i = some e := by
      simp only [put, htarget, htop, if_false, wipe] at he
      split at he
      · exact absurd he (by simp)
      · exact he
    exact unwrapped_ladder S (Nat.lt_of_succ_lt hc) hmono i e hi hold

theorem reboot_empty :
    reboot S (fun _ => none) none = ⟨ladder S 0, some S.blank⟩ := by
  rcases reboot_cases S (fun _ => none) none with ⟨c, hc, _⟩ | ⟨_, hboot⟩
  · exact absurd hc.admissible Bool.false_ne_true
  · exact hboot

/-- Climbing the ladder, as a run. -/
theorem run_ladder {k : Nat} (hk : k < S.slots)
    (hmono : ∀ j, j ≤ S.slots → S.next^[j] S.first < S.next^[j + 1] S.first) :
    ((system S).restrict (Plain S)).Run (reboot S (fun _ => none) none)
      (List.replicate k (.put S.blank)) ⟨ladder S k, some S.blank⟩ := by
  induction k with
  | zero =>
      rw [reboot_empty]
      exact .nil _
  | succ k ih =>
      rw [List.replicate_succ']
      refine (ih (Nat.lt_of_succ_lt hk)).snoc ⟨⟨?_, ?_, .inr ⟨_, rfl⟩⟩, rfl⟩
      · exact unwrapped_ladder S (Nat.lt_of_succ_lt hk) hmono
      · exact unwrapped_ladder S hk hmono

theorem unwrapped_boot {s : Log κ ρ} (hw : Wf S s) (h : Unwrapped S s) :
    Unwrapped S (boot S s.slot) := by
  rcases boot_cases S s.slot with ⟨c, _, hboot⟩ | ⟨hempty, _⟩
  · rw [hboot]
    exact h
  · obtain ⟨c, _, hlt, hsome⟩ := hw
    rw [hempty c hlt] at hsome
    exact absurd hsome Bool.false_ne_true

/-- If no run of writes and restarts over blank slots loses the last record,
all slots lie in one erase unit. -/
theorem onePage_of_recent
    (hmono : ∀ j, j ≤ S.slots → S.next^[j] S.first < S.next^[j + 1] S.first)
    {r : ρ} (hr : r ≠ S.blank)
    (h : ∀ ops t', ((system S).restrict (Plain S)).Run
      (reboot S (fun _ => none) none) ops t' → Recent t') : OnePage S := by
  have hstep : ∀ c, c + 1 < S.slots → S.page c = S.page (c + 1) := by
    intro c hc
    by_contra hpage
    have hfresh := unwrapped_put_ladder (r := r) S hc hmono
    have hclimb := run_ladder S (Nat.lt_of_succ_lt hc) hmono
    have hput : ((system S).restrict (Plain S)).step
        ⟨ladder S c, some S.blank⟩ (.put r) ⟨put S r (ladder S c), some r⟩ :=
      ⟨⟨unwrapped_ladder S (Nat.lt_of_succ_lt hc) hmono, hfresh, .inr ⟨r, rfl⟩⟩, rfl⟩
    have hboot : ((system S).restrict (Plain S)).step
        ⟨put S r (ladder S c), some r⟩ .reboot
        (reboot S (put S r (ladder S c)).slot (some r)) :=
      ⟨⟨hfresh, unwrapped_boot S (wf_put S r _) hfresh, .inl rfl⟩, rfl⟩
    have hrecent := h _ _ ((hclimb.snoc hput).snoc hboot)
    have hblank := boot_put_ladder (r := r) S hc hpage (hmono c (by omega))
    have hget := hrecent r ?_
    · exact hr (Option.some.inj (hget.symm.trans hblank))
    · rcases reboot_cases S (put S r (ladder S c)).slot (some r) with
        ⟨_, _, heq⟩ | ⟨hempty, _⟩
      · rw [heq]
      · have hslot := hempty (target S (ladder S c)) (target_lt S _)
        simp [put] at hslot
  have hzero : ∀ i, i < S.slots → S.page 0 = S.page i := by
    intro i
    induction i with
    | zero => exact fun _ => rfl
    | succ i ih => exact fun hi => (ih (Nat.lt_of_succ_lt hi)).trans (hstep i hi)
  exact fun i j hi hj => (hzero i hi).symm.trans (hzero j hj)

/-! ## Losing power inside a write -/

/-- The states whose record survives a loss of power inside the next write:
a restart finds the record in use as things stand, and also once the erase unit
of the slot to be written has been wiped. -/
def PowerSafe (s : Log κ ρ) (old : ρ) : Prop :=
  BootsTo S s.slot old ∧ BootsTo S (wipe S (target S s) s.slot) old

/-- Once the record is written, a restart finds it, or whatever a restart would
have found without it. -/
theorem bootsTo_put {s : Log κ ρ} {r x : ρ}
    (h : BootsTo S (put S r s).slot x) :
    x = r ∨ BootsTo S (wipe S (target S s) s.slot) x := by
  have hwritten : (put S r s).slot (target S s) = some (nextKey S s, r) := by
    simp [put]
  rcases h with ⟨o, ho, hrec⟩ | ⟨hempty, _⟩
  · by_cases htop : o = target S s
    · rw [htop, hwritten] at hrec
      exact .inl (by simpa using hrec.symm)
    · have hkeep : ∀ i, i ≠ target S s →
          (put S r s).slot i = wipe S (target S s) s.slot i := by
        intro i hi
        simp [put, hi]
      have hkeys : ∀ i, i ≠ target S s → slotKey S (put S r s).slot i =
          slotKey S (wipe S (target S s) s.slot) i := by
        intro i hi
        rw [slotKey, hkeep i hi, slotKey]
      have hwiped : wipe S (target S s) s.slot (target S s) = none := by
        simp [wipe]
      refine .inr (.inl ⟨o, ⟨ho.lt, ?_, fun i hi hoki => ?_⟩, ?_⟩)
      · exact hkeep o htop ▸ ho.admissible
      · have hi' : i ≠ target S s := by
          rintro rfl
          rw [hwiped] at hoki
          exact Bool.false_ne_true hoki
        rw [← hkeys o htop, ← hkeys i hi']
        exact ho.least i hi (hkeep i hi' ▸ hoki)
      · rw [← hkeep o htop]
        exact hrec
  · rw [hempty (target S s) (target_lt S s)] at hwritten
    exact absurd hwritten (by simp)

/-- Exactly in the states described by `PowerSafe` every interruption of every
write leaves slots on which a restart finds the old record or the new one. -/
theorem powerSafe_iff (s : Log κ ρ) (old : ρ) (hne : ∀ x : ρ, ∃ y, y ≠ x) :
    (∀ r, (∀ e x, (boot S (torn S s e)).get = some x → x = old ∨ x = r) ∧
      ∀ x, (boot S (put S r s).slot).get = some x → x = old ∨ x = r) ↔
    PowerSafe S s old := by
  constructor
  · intro h
    have hpoint : ∀ e, BootsTo S (torn S s e) old := by
      intro e
      obtain ⟨x, hx, hboots⟩ := boot_get S (torn S s e)
      obtain ⟨y, hy⟩ := hne x
      rcases (h y).1 e x hx with hold | hnew
      · exact hold ▸ hboots
      · exact absurd hnew.symm hy
    exact ⟨hpoint .before, hpoint .wiped⟩
  · rintro ⟨hbefore, hwiped⟩ r
    have hfind : ∀ slot x, BootsTo S slot old → (boot S slot).get = some x →
        x = old := by
      intro slot x hslot hx
      exact Option.some.inj (hx.symm.trans ((get_boot_iff S slot old).mpr hslot))
    refine ⟨fun e x hx => ?_, fun x hx => ?_⟩
    · cases e with
      | before => exact .inl (hfind _ x hbefore hx)
      | wiped => exact .inl (hfind _ x hwiped hx)
    · rcases bootsTo_put S ((get_boot_iff S _ x).mp hx) with hnew | hold
      · exact .inr hnew
      · exact .inl (hfind _ x hwiped ((get_boot_iff S _ x).mpr hold))

end Boot

end BillCounter.Lib.RecordLog
