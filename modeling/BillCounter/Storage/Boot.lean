import BillCounter.Storage.Corruption

/-!
# The configuration behind a boot

`CONFIG_init` replaces a block whose check sum is wrong by the default configuration,
in memory it allocates for that.  It does not look at what `CONFIG_save` returns, nor
`CONFIG_save` at what a program of a word does.
-/

namespace BillCounter.Storage

open BillCounter.Crc16
open BillCounter.Lib.CString
open BillCounter.Lib.Lfsr
open BillCounter.Lib.RawBytes

/-! ## Two bytes in the middle -/

theorem bits_append (as bs : List Byte) : bits (as ++ bs) = bits as ++ bits bs :=
  List.flatMap_append

theorem bits_pair_injective {a b a' b' : Byte} (h : bits [a, b] = bits [a', b']) :
    [a, b] = [a', b'] := by
  rw [bits_cons, bits_cons, bits_cons, bits_cons] at h
  have hparts := List.append_inj h (by simp)
  have htail := List.append_inj hparts.2 (by simp)
  rw [lowBits_injective hparts.1, lowBits_injective htail.1]

/-- Two other bytes behind the check sum are a burst. -/
theorem burstFlips_of_pair {as cs : List Byte} {a b a' b' : Byte} (h : 2 ≤ as.length)
    (hne : [a, b] ≠ [a', b']) :
    BurstFlips (flips (as ++ ([a, b] ++ cs)) (as ++ ([a', b'] ++ cs))) := by
  refine ⟨(bits as).length, List.zipWith xor (bits [a, b]) (bits [a', b']),
    (bits cs).length, ?_, ?_, ?_, ?_⟩
  · rw [flips, bits_append, bits_append, bits_append, bits_append, List.zipWith_append rfl,
      List.zipWith_append (by simp), zipWith_xor_self, zipWith_xor_self, List.append_assoc]
  · simp
  · simp
    omega
  · by_cases htrue : true ∈ List.zipWith xor (bits [a, b]) (bits [a', b'])
    · exact htrue
    · exact absurd (bits_pair_injective (eq_of_zipWith_xor (by simp) htrue)) hne

/-! ## Members -/

/-- The members `CONFIG_setDefault` fills in agree. -/
structure SameSettings (c d : Config) : Prop where
  pPasswd : c.pPasswd = d.pPasswd
  pSerialNumber : c.pSerialNumber = d.pSerialNumber
  xNet : c.xNet = d.xNet
  xServer : c.xServer = d.xServer

/-- The bytes of a block up to its padding, and those behind. -/
theorem Config.bytes_split (c : Config) :
    c.bytes = (wordBytes 2 c.nCRC ++ c.pPasswd.val ++ c.pSerialNumber.val) ++
      (c.padding.val ++ ((netConfigLayout c.xNet).val ++ (serverConfigLayout c.xServer).val)) := by
  rw [List.append_assoc, List.append_assoc]
  rfl

theorem Bytes.exists_pair (bs : Bytes 2) : ∃ a b, bs.val = [a, b] := by
  rcases bs with ⟨val, hlen⟩
  match val, hlen with
  | [a, b], _ => exact ⟨a, b, rfl⟩

/-- Blocks that differ in their padding alone differ in a burst. -/
theorem SameSettings.burstFlips {c d : Config} (h : SameSettings c d) (hcrc : c.nCRC = d.nCRC)
    (hpadding : c.padding ≠ d.padding) : BurstFlips (flips c.bytes d.bytes) := by
  rcases Bytes.exists_pair c.padding with ⟨a, b, hc⟩
  rcases Bytes.exists_pair d.padding with ⟨a', b', hd⟩
  rw [c.bytes_split, d.bytes_split, hcrc, h.pPasswd, h.pSerialNumber, h.xNet, h.xServer, hc, hd]
  apply burstFlips_of_pair
  · simp
  · intro heq
    apply hpadding
    exact Bytes.ext (hc.trans (heq.trans hd.symm))

/-- Blocks with the same members and the same check sum, which is right for both, are
the same: the padding is too short to hide a difference. -/
theorem SameSettings.eq_of_valid {m m' : Memory}
    (h : SameSettings (storedConfig m) (storedConfig m'))
    (hcrc : (storedConfig m).nCRC = (storedConfig m').nCRC)
    (hm : (storedConfig m).crc = (storedConfig m).nCRC)
    (hm' : (storedConfig m').crc = (storedConfig m').nCRC) :
    storedBytes m = storedBytes m' := by
  have hbytes := storedConfig_eq_iff.mp (rfl : storedConfig m = storedConfig m)
  have hbytes' := storedConfig_eq_iff.mp (rfl : storedConfig m' = storedConfig m')
  by_cases hpadding : (storedConfig m).padding = (storedConfig m').padding
  · rw [hbytes, hbytes', Config.bytes_eq, Config.bytes_eq, hcrc, Config.body, Config.body,
      h.pPasswd, h.pSerialNumber, hpadding, h.xNet, h.xServer]
  · have hzero := feed_flips hm hm'
    rw [hbytes, hbytes'] at hzero
    exact absurd hzero (feed_burstFlips (h.burstFlips hcrc hpadding))

/-! ## The first word -/

/-- The block behind the erase and the loop of `CONFIG_save`. -/
def programmed (hal : HalOutcomes) (c : Config) (m : Memory) : Memory :=
  programWords hal c (fill m CONFIG_ADDRESS FLASH_PAGE_SIZE 0xFF) 25

theorem take_programmed (hal : HalOutcomes) (c : Config) (m : Memory) :
    (storedConfig (programmed hal c m)).bytes.take 4 =
      if hal.program 0 = true then c.bytes.take 4 else List.replicate 4 0xFF := by
  have hread := read_programWords hal c (fill m CONFIG_ADDRESS FLASH_PAGE_SIZE 0xFF)
    (i := 0) (Nat.le_refl 25)
  have hslice : read (programmed hal c m) (CONFIG_ADDRESS + 0 * 4) 4 =
      slice (storedBytes (programmed hal c m)) (0 * 4) 4 := read_slice (by decide)
  have herased : read (fill m CONFIG_ADDRESS FLASH_PAGE_SIZE 0xFF) (CONFIG_ADDRESS + 0 * 4) 4 =
      List.replicate 4 0xFF := read_fill_inside (by decide)
  rw [← programmed, herased, hslice] at hread
  rw [storedConfig, Config.bytes_ofBytes]
  simpa [slice] using hread

/-- A password that does not start with an erased byte was programmed, and with it the
check sum. -/
theorem nCRC_programmed {hal : HalOutcomes} {c : Config} {m : Memory}
    (h : (storedConfig (programmed hal c m)).pPasswd = c.pPasswd)
    (hfirst : c.pPasswd.val.head? ≠ some 0xFF) :
    (storedConfig (programmed hal c m)).nCRC = c.nCRC := by
  have htake := take_programmed hal c m
  cases hprog : hal.program 0 with
  | true =>
      rw [hprog, if_pos rfl] at htake
      have htwo := congrArg (List.take 2) htake
      rw [List.take_take, List.take_take] at htwo
      rw [← Config.wordAt_take_bytes, ← c.wordAt_take_bytes]
      exact congrArg (wordAt 16) htwo
  | false =>
      rw [hprog, if_neg Bool.false_ne_true, Config.bytes_split, h] at htake
      cases hval : c.pPasswd.val with
      | nil => exact absurd (hval ▸ c.pPasswd.property) (by decide)
      | cons b bs =>
          rw [hval] at htake hfirst
          have hbyte : some b = some 0xFF := congrArg (fun bs => bs[2]?) htake
          exact absurd hbyte hfirst

/-! ## Booting -/

/-- The check sum of the block in flash is right. -/
def ValidBlock (f : FlashState) : Prop :=
  (storedConfig f.memory).nCRC = (storedConfig f.memory).crc

/-- What a boot is to leave behind. -/
structure BootValid (hal : HalOutcomes) (malloc : Option Config) (f : FlashState) : Prop where
  valid : (configInit hal malloc f).1 = .RET_OK → ValidBlock (configInit hal malloc f).2
  unchanged : ValidBlock f → configInit hal malloc f = (.RET_OK, f) ∧
    ∀ pConfig, configLoad pConfig f = (.RET_OK, storedConfig f.memory)
  defaulted : ¬ ValidBlock f → ∀ pConfig, malloc = some pConfig →
    (configInit hal malloc f).1 = .RET_OK → ∀ x, ∃ c,
      configLoad x (configInit hal malloc f).2 = (.RET_OK, c) ∧
        SameSettings c (configSetDefault pConfig).2

theorem configLoad_of_valid {f : FlashState} (h : ValidBlock f) (x : Config) :
    configLoad x f = (.RET_OK, storedConfig f.memory) :=
  if_neg fun hne => hne h.symm

theorem configInit_of_valid {hal : HalOutcomes} {malloc : Option Config} {f : FlashState}
    (h : ValidBlock f) : configInit hal malloc f = (.RET_OK, f) :=
  if_neg fun hne => hne h

theorem configInit_of_invalid {hal : HalOutcomes} {pConfig : Config} {f : FlashState}
    (h : ¬ ValidBlock f) :
    configInit hal (some pConfig) f =
      (.RET_OK, (configSave hal (configSetDefault pConfig).2 f).2.2) :=
  if_pos h

theorem validBlock_of_stored {f : FlashState} {c : Config}
    (h : storedBytes f.memory = c.withCRC.bytes) : ValidBlock f := by
  rw [ValidBlock, storedConfig_eq_iff.mpr h, Config.crc_withCRC]
  rfl

/-- Over an invalid block `CONFIG_save` does not find the configuration in place. -/
theorem configSave_of_invalid {hal : HalOutcomes} {c : Config} {f : FlashState}
    (h : ¬ ValidBlock f) :
    (configSave hal c f).2.2 =
      if hal.erase then ⟨programmed hal c.withCRC f.memory, true⟩ else ⟨f.memory, false⟩ := by
  rcases configSave_cases hal c f with ⟨heq, _⟩ | ⟨_, herase, hsave⟩ | ⟨_, herase, hsave⟩
  · exact absurd (validBlock_of_stored heq.symm) h
  · rw [hsave, herase]
    rfl
  · rw [hsave, herase]
    rfl

/-- A configuration that is programmed with the right check sum and its members in
place is in flash as a whole. -/
theorem stored_of_sameSettings {hal : HalOutcomes} {c : Config} {m : Memory}
    (hfirst : c.pPasswd.val.head? ≠ some 0xFF)
    (hvalid : ValidBlock ⟨programmed hal c.withCRC m, true⟩)
    (hsame : SameSettings (storedConfig (programmed hal c.withCRC m)) c) :
    storedBytes (programmed hal c.withCRC m) = c.withCRC.bytes := by
  have hnCRC := nCRC_programmed (c := c.withCRC) hsame.pPasswd hfirst
  have hok := storedBytes_configSave c ⟨m, true⟩
  have hstored := storedConfig_eq_iff.mpr hok
  have hsame' : SameSettings (storedConfig (programmed hal c.withCRC m))
      (storedConfig (configSave .ok c ⟨m, true⟩).2.2.memory) := by
    rw [hstored]
    exact ⟨hsame.pPasswd, hsame.pSerialNumber, hsame.xNet, hsame.xServer⟩
  rw [hsame'.eq_of_valid (hnCRC.trans (by rw [hstored])) hvalid.symm
    (by rw [hstored]; exact c.crc_withCRC), hok]

section Cases

variable {hal : HalOutcomes} {malloc : Option Config} {pConfig : Config} {f : FlashState}

theorem bootValid_of_valid (h : ValidBlock f) : BootValid hal malloc f where
  valid _ := by
    rw [configInit_of_valid h]
    exact h
  unchanged _ := ⟨configInit_of_valid h, configLoad_of_valid h⟩
  defaulted hnot := absurd h hnot

theorem bootValid_none (h : ¬ ValidBlock f) : BootValid hal none f := by
  have hinit : configInit hal none f = (.RET_ERROR, f) := if_pos h
  constructor
  · intro hok
    rw [hinit] at hok
    cases hok
  · intro hblock
    exact absurd hblock h
  · intro _ pConfig hsome
    cases hsome

/-- Without a valid block it comes down to what is in flash in the end. -/
theorem bootValid_some_iff (h : ¬ ValidBlock f) :
    BootValid hal (some pConfig) f ↔
      hal.erase = true ∧
        storedBytes (programmed hal (configSetDefault pConfig).2.withCRC f.memory) =
          (configSetDefault pConfig).2.withCRC.bytes := by
  have hinit : configInit hal (some pConfig) f = _ := configInit_of_invalid h
  rw [configSave_of_invalid h] at hinit
  cases herase : hal.erase with
  | false =>
      rw [herase] at hinit
      constructor
      · intro hboot
        have hvalid := hboot.valid
        rw [hinit] at hvalid
        exact absurd (hvalid rfl) h
      · intro hboth
        cases hboth.1
  | true =>
      rw [herase, if_pos rfl] at hinit
      constructor
      · intro hboot
        have hvalid := hboot.valid
        have hdefaulted := hboot.defaulted h pConfig rfl
        rw [hinit] at hvalid hdefaulted
        rcases hdefaulted rfl zeroConfig with ⟨c, hload, hsame⟩
        rw [configLoad_of_valid (hvalid rfl)] at hload
        cases hload
        have hfirst : (configSetDefault pConfig).2.pPasswd.val.head? ≠ some 0xFF := by
          simp [configSetDefault, strcpy, literal, ascii]
        exact ⟨rfl, stored_of_sameSettings hfirst (hvalid rfl) hsame⟩
      · intro hboth
        constructor
        · intro _
          rw [hinit]
          exact validBlock_of_stored hboth.2
        · intro hblock
          exact absurd hblock h
        · intro _ pConfig' hsome _ x
          cases hsome
          rw [hinit]
          exact ⟨_, configLoad_of_stored hboth.2 x, ⟨rfl, rfl, rfl, rfl⟩⟩

end Cases

/-- A boot leaves a valid configuration exactly when there is one already, there is no
memory to make another, or the page is erased and only words fail that are all ones. -/
theorem bootValid_iff (hal : HalOutcomes) (malloc : Option Config) (f : FlashState) :
    BootValid hal malloc f ↔
      ValidBlock f ∨ malloc = none ∨
        (hal.erase = true ∧ ∀ pConfig, malloc = some pConfig → ∀ i, i < 25 →
          hal.program i = false →
            (configSetDefault pConfig).2.withCRC.pWord i = 0xFFFFFFFF) := by
  by_cases hblock : ValidBlock f
  · constructor
    · intro _
      exact .inl hblock
    · intro _
      exact bootValid_of_valid hblock
  · cases malloc with
    | none =>
        constructor
        · intro _
          exact .inr (.inl rfl)
        · intro _
          exact bootValid_none hblock
    | some pConfig =>
        rw [bootValid_some_iff hblock, programmed, storedBytes_programmed_iff]
        constructor
        · intro h
          refine .inr (.inr ⟨h.1, ?_⟩)
          intro pConfig' hsome
          cases hsome
          exact h.2
        · intro h
          rcases h with h | h | h
          · exact absurd h hblock
          · cases h
          · exact ⟨h.1, h.2 pConfig rfl⟩

/-- The page of a new board, and an erase that fails: `RET_OK`, and no configuration. -/
theorem failed_erase_boots :
    ¬ BootValid ⟨false, fun _ => true⟩ (some zeroConfig) ⟨fun _ => 0xFF, true⟩ := by
  intro h
  have hvalid := h.valid (by decide +kernel)
  exact absurd hvalid (by unfold ValidBlock; decide +kernel)

end BillCounter.Storage
