import BillCounter.Storage.Model

/-!
# What `CONFIG_save` reports, and what it leaves in flash

`CONFIG_save` has three ways out.  It returns early when the stored block is
already right, and with `RET_ERROR`, the flash still unlocked, when the erase
fails; otherwise it programs all words and returns `RET_OK` without looking at
what `HAL_FLASH_Program` returned.
-/

namespace BillCounter.Storage

open BillCounter.Lib.RawBytes

/-- A configuration with its check sum filled in. -/
def Config.withCRC (c : Config) : Config := { c with nCRC := c.crc }

@[simp] theorem Config.crc_withCRC (c : Config) : c.withCRC.crc = c.crc := by
  rw [Config.crc, Config.crc, Config.drop_bytes, Config.drop_bytes]
  rfl

/-! ## Stored blocks -/

theorem storedConfig_eq_iff {m : Memory} {c : Config} :
    storedConfig m = c ↔ storedBytes m = c.bytes := by
  constructor
  · rintro rfl
    rw [storedConfig, Config.bytes_ofBytes]
  · intro h
    apply Config.bytes_injective
    rw [storedConfig, Config.bytes_ofBytes]
    exact h

/-- A stored configuration with its check sum is loaded as it was stored. -/
theorem configLoad_of_stored {f : FlashState} {c : Config}
    (h : storedBytes f.memory = c.withCRC.bytes) (x : Config) :
    configLoad x f = (.RET_OK, c.withCRC) := by
  have hcrc : c.withCRC.crc = c.withCRC.nCRC := c.crc_withCRC
  rw [configLoad, storedConfig_eq_iff.mpr h, if_neg (fun hne => hne hcrc)]

/-! ## The program loop -/

theorem programWords_succ (hal : HalOutcomes) (c : Config) (m : Memory) (n : Nat) :
    programWords hal c m (n + 1) =
      halFlashProgram (hal.program n) (programWords hal c m n)
        (CONFIG_ADDRESS + n * 4) (c.pWord n) := by
  rw [programWords, List.range_succ, List.foldl_append, ← programWords]
  rfl

theorem wordBytes_pWord (c : Config) {i : Nat} (hi : i < 25) :
    wordBytes 4 (c.pWord i) = slice c.bytes (i * 4) 4 := by
  apply wordBytes_wordAt _ _ (by decide)
  apply length_slice
  rw [Config.length_bytes, sizeofConfig]
  omega

/-- Each word of the block after the loop: programmed, or as it was. -/
theorem read_programWords (hal : HalOutcomes) (c : Config) (m : Memory) {n i : Nat}
    (hn : n ≤ 25) :
    read (programWords hal c m n) (CONFIG_ADDRESS + i * 4) 4 =
      if i < n ∧ hal.program i = true then slice c.bytes (i * 4) 4
      else read m (CONFIG_ADDRESS + i * 4) 4 := by
  induction n with
  | zero =>
      rw [if_neg (fun h => absurd h.1 (Nat.not_lt_zero i))]
      rfl
  | succ n ih =>
      rw [programWords_succ, halFlashProgram]
      by_cases hi : i = n
      · subst hi
        cases hprog : hal.program i with
        | false => simp [ih (Nat.le_of_succ_le hn)]
        | true =>
            have hself := read_write_self (programWords hal c m i)
              (CONFIG_ADDRESS + i * 4) (wordBytes 4 (c.pWord i))
            rw [length_wordBytes] at hself
            rw [if_pos rfl, hself, wordBytes_pWord c (by omega),
              if_pos ⟨Nat.lt_succ_self i, rfl⟩]
      · have hother : read (if hal.program n = true then
            write (programWords hal c m n) (CONFIG_ADDRESS + n * 4)
              (wordBytes 4 (c.pWord n)) else programWords hal c m n)
            (CONFIG_ADDRESS + i * 4) 4 =
            read (programWords hal c m n) (CONFIG_ADDRESS + i * 4) 4 := by
          split
          · apply read_write_of_disjoint
            rw [length_wordBytes]
            omega
          · rfl
        have hlt : i < n + 1 ↔ i < n := by omega
        simp only [hother, ih (Nat.le_of_succ_le hn), hlt]

/-- The block after erase and loop is the configuration exactly when every word
whose program failed is one that erased flash already reads as. -/
theorem storedBytes_programmed_iff (hal : HalOutcomes) (c : Config) (m : Memory) :
    storedBytes (programWords hal c (fill m CONFIG_ADDRESS FLASH_PAGE_SIZE 0xFF) 25) =
        c.bytes ↔
      ∀ i, i < 25 → hal.program i = false → c.pWord i = 0xFFFFFFFF := by
  have hpieces : storedBytes (programWords hal c
      (fill m CONFIG_ADDRESS FLASH_PAGE_SIZE 0xFF) 25) = c.bytes ↔ _ :=
    read_eq_iff_pieces (n := 25) (w := 4) c.length_bytes
  rw [hpieces]
  refine forall_congr' fun i => forall_congr' fun hi => ?_
  have hall : wordBytes 4 (0xFFFFFFFF : BitVec 32) = List.replicate 4 0xFF := by decide
  have herased : read (fill m CONFIG_ADDRESS FLASH_PAGE_SIZE 0xFF)
      (CONFIG_ADDRESS + i * 4) 4 = wordBytes 4 (0xFFFFFFFF : BitVec 32) := by
    rw [hall]
    apply read_fill_inside
    rw [FLASH_PAGE_SIZE]
    omega
  rw [read_programWords hal c _ (Nat.le_refl 25), herased]
  cases hprog : hal.program i with
  | true => simp [hi]
  | false =>
      rw [if_neg (fun h => absurd h.2 Bool.false_ne_true), ← wordBytes_pWord c hi]
      constructor
      · intro h _
        have hword := congrArg (wordAt 32) h
        rwa [wordAt_wordBytes _ (by decide), wordAt_wordBytes _ (by decide), eq_comm]
          at hword
      · intro h
        rw [h rfl]

/-! ## The three ways out -/

/-- What `CONFIG_save` does, by cases. -/
theorem configSave_cases (hal : HalOutcomes) (c : Config) (f : FlashState) :
    (c.withCRC.bytes = storedBytes f.memory ∧
        configSave hal c f = (.RET_OK, c.withCRC, f)) ∨
      (c.withCRC.bytes ≠ storedBytes f.memory ∧ hal.erase = false ∧
        configSave hal c f = (.RET_ERROR, c.withCRC, ⟨f.memory, false⟩)) ∨
      (c.withCRC.bytes ≠ storedBytes f.memory ∧ hal.erase = true ∧
        configSave hal c f = (.RET_OK, c.withCRC,
          ⟨programWords hal c.withCRC
            (fill f.memory CONFIG_ADDRESS FLASH_PAGE_SIZE 0xFF) 25, true⟩)) := by
  by_cases heq : c.withCRC.bytes = storedBytes f.memory
  · exact .inl ⟨heq, if_pos heq⟩
  · cases herase : hal.erase with
    | false =>
        refine .inr (.inl ⟨heq, rfl, (if_neg heq).trans ?_⟩)
        simp only [herase, if_true]
        rfl
    | true =>
        refine .inr (.inr ⟨heq, rfl, (if_neg heq).trans ?_⟩)
        simp only [herase, Bool.true_eq_false, if_false]
        rfl

/-- When every HAL call succeeds the block is the configuration. -/
theorem storedBytes_configSave (c : Config) (f : FlashState) :
    storedBytes (configSave .ok c f).2.2.memory = c.withCRC.bytes := by
  rcases configSave_cases .ok c f with ⟨heq, hsave⟩ | ⟨_, herase, _⟩ | ⟨_, _, hsave⟩
  · rw [hsave]
    exact heq.symm
  · exact absurd herase (by decide)
  · rw [hsave]
    exact (storedBytes_programmed_iff .ok c.withCRC f.memory).mpr
      fun i _ hfail => absurd hfail (by decide : ¬ true = false)

/-- `CONFIG_save` says `RET_OK` exactly when the block afterwards is the
configuration with its check sum, which is then loaded again, and leaves the
flash locked. -/
structure SaveTruthful (hal : HalOutcomes) (c : Config) (f : FlashState) : Prop where
  reports : (configSave hal c f).1 = .RET_OK ↔
    storedBytes (configSave hal c f).2.2.memory = (configSave hal c f).2.1.bytes
  loads : storedBytes (configSave hal c f).2.2.memory = (configSave hal c f).2.1.bytes →
    ∀ x, configLoad x (configSave hal c f).2.2 = (.RET_OK, (configSave hal c f).2.1)
  locked : (configSave hal c f).2.2.locked = true

/-- It does so exactly when there is nothing to write, or the erase succeeds and
only words fail that are all ones. -/
theorem saveTruthful_iff (hal : HalOutcomes) (c : Config) (m : Memory) :
    SaveTruthful hal c ⟨m, true⟩ ↔
      c.withCRC.bytes = storedBytes m ∨
        (hal.erase = true ∧
          ∀ i, i < 25 → hal.program i = false → c.withCRC.pWord i = 0xFFFFFFFF) := by
  rcases configSave_cases hal c ⟨m, true⟩ with ⟨heq, hsave⟩ | ⟨heq, herase, hsave⟩ |
    ⟨heq, herase, hsave⟩
  · refine ⟨fun _ => .inl heq, fun _ => ?_⟩
    refine ⟨?_, fun hblock x => ?_, ?_⟩
    · rw [hsave]
      exact ⟨fun _ => heq.symm, fun _ => rfl⟩
    · rw [hsave] at hblock ⊢
      exact configLoad_of_stored hblock x
    · rw [hsave]
  · constructor
    · intro h
      have hlocked := h.locked
      rw [hsave] at hlocked
      exact absurd hlocked Bool.false_ne_true
    · rintro (hsame | ⟨hok, _⟩)
      · exact absurd hsame heq
      · exact absurd (herase.symm.trans hok) Bool.false_ne_true
  · have hblock := storedBytes_programmed_iff hal c.withCRC m
    constructor
    · intro h
      have hreports := h.reports
      rw [hsave] at hreports
      exact .inr ⟨herase, hblock.mp (hreports.mp rfl)⟩
    · rintro (hsame | ⟨_, hwords⟩)
      · exact absurd hsame heq
      · have hstored := hblock.mpr hwords
        refine ⟨?_, fun _ x => ?_, ?_⟩
        · rw [hsave]
          exact ⟨fun _ => hstored, fun _ => rfl⟩
        · rw [hsave]
          exact configLoad_of_stored hstored x
        · rw [hsave]

/-- The default configuration over an erased page, the first word failing to
program: `RET_OK` over a block that is not the configuration. -/
theorem saveTruthful_fails_first_word :
    ¬ SaveTruthful ⟨true, fun i => i != 0⟩ (configSetDefault zeroConfig).2
      ⟨fun _ => 0xFF, true⟩ := by
  intro h
  have hok := h.reports.mp (by decide +kernel)
  exact absurd hok (by decide +kernel)

end BillCounter.Storage
