import BillCounter.Shell.Control

/-!
# The stored copy of the configuration

While flash operations succeed, the block at `CONFIG_ADDRESS` is the
configuration the shell holds, from the boot on and at every prompt.  A reset at
any prompt therefore boots into the same configuration.
-/

namespace BillCounter.Shell

open BillCounter.Lib.RawBytes
open BillCounter.Lib.Runs
open BillCounter.Storage

variable {s : ShellState} {line : Line}

/-- The block in flash is the configuration, byte for byte, and its check sum is
right. -/
structure Durable (xConfig : Config) (flash : FlashState) : Prop where
  stored : storedBytes flash.memory = xConfig.bytes
  valid : xConfig.crc = xConfig.nCRC

/-- What `CONFIG_load` reads then. -/
theorem Durable.load {c : Config} {f : FlashState} (h : Durable c f) (x : Config) :
    configLoad x f = (.RET_OK, c) := by
  rw [configLoad, storedConfig_eq_iff.mpr h.stored, if_neg (fun hne => hne h.valid)]

theorem durable_configSave (c : Config) (f : FlashState) :
    Durable c.withCRC (configSave .ok c f).2.2 :=
  ⟨storedBytes_configSave c f, c.crc_withCRC⟩

/-- `CONFIG_init` leaves a valid block in flash: what was there, or the
defaults. -/
theorem durable_configInit (malloc : Config) (f : FlashState) :
    ∃ c, Durable c (configInit .ok (some malloc) f).2 := by
  unfold configInit
  dsimp only
  by_cases hcrc : (storedConfig f.memory).nCRC = (storedConfig f.memory).crc
  · rw [if_neg (fun hne => hne hcrc)]
    exact ⟨storedConfig f.memory, storedConfig_eq_iff.mp rfl, hcrc.symm⟩
  · rw [if_pos hcrc]
    exact ⟨_, durable_configSave (configSetDefault malloc).2 f⟩

/-- With a valid block in flash there is nothing for `CONFIG_init` to do. -/
theorem Durable.init {c : Config} {f : FlashState} (h : Durable c f) (hal : HalOutcomes)
    (malloc : Option Config) : (configInit hal malloc f).2 = f := by
  unfold configInit
  dsimp only
  rw [storedConfig_eq_iff.mpr h.stored, if_neg (fun hne => hne h.valid.symm)]

/-- A board boots into the configuration in flash. -/
theorem Durable.boot {c : Config} {f : FlashState} (h : Durable c f) (hal : HalOutcomes)
    (malloc : Option Config) :
    (boot hal malloc f).xConfig = c ∧ (boot hal malloc f).flash = f := by
  unfold Shell.boot
  rw [show configInit hal malloc f = ((configInit hal malloc f).1, f) from
    Prod.ext rfl (h.init hal malloc)]
  dsimp only
  rw [h.load]
  exact ⟨rfl, rfl⟩

theorem durable_boot (malloc : Config) (f : FlashState) :
    Durable (boot .ok (some malloc) f).xConfig (boot .ok (some malloc) f).flash := by
  obtain ⟨c, hc⟩ := durable_configInit malloc f
  have hload := hc.load (configSetDefault zeroConfig).2
  unfold boot
  dsimp only
  rw [hload]
  exact hc

/-- Every line keeps flash and configuration the same: it changes neither, or
saves. -/
theorem durable_shellStep (hok : line.hal = .ok) (h : Durable s.xConfig s.flash) :
    Durable (shellStep s line).xConfig (shellStep s line).flash := by
  by_cases hnext : (handle s line).next = .menu true
  · rw [shellStep_updated hnext, hok]
    exact durable_configSave _ _
  · obtain ⟨hconfig, hflash⟩ := shellStep_kept hnext
    rw [hconfig, hflash]
    exact h

theorem durable_shellRun {lines : List Line} (hok : ∀ line ∈ lines, line.hal = .ok)
    (h : Durable s.xConfig s.flash) :
    Durable (shellRun s lines).xConfig (shellRun s lines).flash := by
  induction lines generalizing s with
  | nil => exact h
  | cons line lines ih =>
      exact ih (fun l hl => hok l (List.mem_cons_of_mem line hl))
        (durable_shellStep (hok line List.mem_cons_self) h)

/-- At every prompt of every session the block in flash is valid and is
`xConfig`, byte for byte, and a reset boots into `xConfig` again. -/
theorem session_durable (malloc : Config) (flash : FlashState) {lines : List Line}
    (hok : ∀ line ∈ lines, line.hal = .ok) :
    storedBytes (shellRun (boot .ok (some malloc) flash) lines).flash.memory =
        (shellRun (boot .ok (some malloc) flash) lines).xConfig.bytes ∧
      (storedConfig (shellRun (boot .ok (some malloc) flash) lines).flash.memory).crc =
        (storedConfig (shellRun (boot .ok (some malloc) flash) lines).flash.memory).nCRC ∧
      ∀ hal malloc',
        (boot hal malloc' (shellRun (boot .ok (some malloc) flash) lines).flash).xConfig =
          (shellRun (boot .ok (some malloc) flash) lines).xConfig := by
  have h := durable_shellRun hok (durable_boot malloc flash)
  refine ⟨h.stored, ?_, fun hal malloc' => (h.boot hal malloc').1⟩
  rw [storedConfig_eq_iff.mpr h.stored]
  exact h.valid

/-- A session on an erased page that changes the server's port. -/
theorem session_durable_port :
    let lines : List Line := [.ofText "?" (by decide), .ofText "posudo" (by decide),
      .ofText "4" (by decide), .ofText "8080" (by decide), .ofText "y" (by decide)]
    storedBytes (shellRun firstBoot lines).flash.memory =
        (shellRun firstBoot lines).xConfig.bytes ∧
      (storedConfig (shellRun firstBoot lines).flash.memory).crc =
        (storedConfig (shellRun firstBoot lines).flash.memory).nCRC ∧
      ∀ hal malloc', (boot hal malloc' (shellRun firstBoot lines).flash).xConfig =
        (shellRun firstBoot lines).xConfig := by
  intro lines
  unfold firstBoot
  have hok : ∀ line ∈ lines, line.hal = .ok := by
    simp [lines, Line.ofText]
  exact session_durable zeroConfig ⟨fun _ => 0xFF, true⟩ hok

end BillCounter.Shell
