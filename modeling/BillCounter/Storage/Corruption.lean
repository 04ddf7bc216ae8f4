import BillCounter.Storage.Save

/-!
# Which altered blocks `CONFIG_load` rejects

The block in flash is its check sum followed by what the check sum is over.
Turned round, it is a bit string that leaves nothing in the register of
`Lib.Lfsr`; an altered block is accepted exactly when the flipped bits alone,
turned round in the same way, leave nothing either.  The detection theorems of
the register then cover every flip of up to three bits and every burst of
sixteen that stays clear of the check sum.
-/

namespace BillCounter.Storage

open BillCounter.Crc16
open BillCounter.Lib.RawBytes
open BillCounter.Lib.Lfsr

/-- The bits in which two byte strings differ, least significant bit of each byte
first, bytes in address order. -/
def flips (as bs : List Byte) : List Bool := List.zipWith xor (bits as) (bits bs)

/-- Flips of one, two or three bits. -/
def FewFlips (e : List Bool) : Prop := 1 ≤ e.count true ∧ e.count true ≤ 3

/-- Flips confined to sixteen consecutive bits behind the first two bytes. -/
def BurstFlips (e : List Bool) : Prop :=
  ∃ a u c, e = List.replicate a false ++ u ++ List.replicate c false ∧
    u.length = 16 ∧ 16 ≤ a ∧ true ∈ u

/-! ## Acceptance as a remainder -/

/-- The bits of a block with the check sum at the end, as the register sees
them. -/
def turned (e : List Bool) : List Bool := e.drop 16 ++ e.take 16

theorem lowBits_wordAt (a b : Byte) :
    lowBits 16 (wordAt 16 [a, b]) = bits [a, b] := by
  have hvalue : leValue [a, b] = a.toNat + 256 * b.toNat := by
    simp [leValue]
  apply List.ext_getElem (by simp)
  intro i h₁ h₂
  have hi : i < 16 := by simpa using h₁
  have hbits : bits [a, b] = lowBits 8 a ++ lowBits 8 b := by simp [bits]
  have hword : (wordAt 16 [a, b]).getLsbD i =
      if i < 8 then a.getLsbD i else b.getLsbD (i - 8) := by
    rw [wordAt, BitVec.getLsbD_ofNat, hvalue, decide_eq_true hi, Bool.true_and,
      show 256 * b.toNat = 2 ^ 8 * b.toNat from rfl, Nat.add_comm,
      Nat.testBit_two_pow_mul_add _ a.isLt]
    rfl
  simp only [hbits]
  rw [getElem_lowBits, hword, List.getElem_append]
  simp only [length_lowBits]
  split
  · rw [getElem_lowBits]
  · rw [getElem_lowBits]

/-- The test of `CONFIG_load`. -/
theorem crc_eq_iff (m : Memory) :
    (storedConfig m).crc = (storedConfig m).nCRC ↔
      feed poly 0xFFFF (turned (bits (storedBytes m))) = 0#16 := by
  have hlen := length_storedBytes m
  obtain ⟨a, b, rest, hbytes⟩ : ∃ a b rest, storedBytes m = a :: b :: rest := by
    match h : storedBytes m with
    | [] => simp [h, sizeofConfig] at hlen
    | [a] => simp [h, sizeofConfig] at hlen
    | a :: b :: rest => exact ⟨a, b, rest, rfl⟩
  have hturned : turned (bits (storedBytes m)) =
      bits rest ++ lowBits 16 (wordAt 16 [a, b]) := by
    rw [lowBits_wordAt, hbytes, turned, bits_cons, bits_cons, ← List.append_assoc]
    have hhead : (lowBits 8 a ++ lowBits 8 b).length = 16 := by simp
    rw [List.drop_left' hhead, List.take_left' hhead]
    simp [bits]
  have hcrc : (storedConfig m).crc = feed poly 0xFFFF (bits rest) := by
    rw [Config.crc, storedConfig, Config.bytes_ofBytes, crc16Calc_eq_feed]
    simp only [hbytes]
    rfl
  have hword : (storedConfig m).nCRC = wordAt 16 [a, b] := by
    rw [← Config.wordAt_take_bytes, storedConfig, Config.bytes_ofBytes]
    simp only [hbytes]
    rfl
  rw [hturned, feed_append_crc, hcrc, hword]

theorem turned_zipWith {as bs : List Bool} (h : as.length = bs.length) :
    turned (List.zipWith xor as bs) = List.zipWith xor (turned as) (turned bs) := by
  have hdrop : (as.drop 16).length = (bs.drop 16).length := by
    rw [List.length_drop, List.length_drop, h]
  rw [turned, List.drop_zipWith, List.take_zipWith, turned, turned,
    List.zipWith_append hdrop]

/-- Two accepted blocks differ by a pattern that leaves nothing. -/
theorem feed_flips {m m' : Memory} (h : (storedConfig m).crc = (storedConfig m).nCRC)
    (h' : (storedConfig m').crc = (storedConfig m').nCRC) :
    feed poly 0#16 (turned (flips (storedBytes m) (storedBytes m'))) = 0#16 := by
  have hlen : (bits (storedBytes m)).length = (bits (storedBytes m')).length := by simp
  have hturned : (turned (bits (storedBytes m))).length =
      (turned (bits (storedBytes m'))).length := by
    simp [turned]
  have hxor := feed_xor poly 0xFFFF 0xFFFF _ _ hturned
  rw [(crc_eq_iff m).mp h, (crc_eq_iff m').mp h', BitVec.xor_self, BitVec.xor_self] at hxor
  rw [flips, turned_zipWith hlen]
  exact hxor

/-! ## Detection -/

theorem poly_top : poly.getLsbD (16 - 1) = true := by decide

theorem poly_parity : parity 16 poly = true := by decide

/-- The register does not repeat within the length of a block. -/
theorem poly_avoids : avoids poly (bit true) 800 (bit true) = true := by
  decide +kernel

theorem feed_fewFlips {e : List Bool} (hlen : e.length = 800) (h : FewFlips e) :
    feed poly 0#16 (turned e) ≠ 0#16 := by
  obtain ⟨hlow, hhigh⟩ := h
  have hcount : (turned e).count true = e.count true := by
    rw [turned, List.count_append, Nat.add_comm, ← List.count_append,
      List.take_append_drop]
  have hturned : (turned e).length = 800 := by
    rw [turned, List.length_append, List.length_drop, List.length_take]
    omega
  rcases (by omega : e.count true = 2 ∨ e.count true % 2 = 1) with htwo | hodd
  · exact feed_ne_zero_of_two poly (by decide) poly_top poly_avoids
      (Nat.le_of_eq hturned) (hcount.trans htwo)
  · exact feed_ne_zero_of_odd poly (by decide) poly_parity (hcount ▸ hodd)

theorem feed_burstFlips {e : List Bool} (h : BurstFlips e) :
    feed poly 0#16 (turned e) ≠ 0#16 := by
  obtain ⟨a, u, c, rfl, hlen, ha, htrue⟩ := h
  have hturned : turned (List.replicate a false ++ u ++ List.replicate c false) =
      List.replicate (a - 16) false ++ u ++ List.replicate (c + 16) false := by
    have hfits : 16 ≤ (List.replicate a false).length := by
      rw [List.length_replicate]
      exact ha
    rw [turned, List.append_assoc, List.drop_append_of_le_length hfits,
      List.take_append_of_le_length hfits, List.drop_replicate, List.take_replicate,
      Nat.min_eq_left ha, List.append_assoc, List.append_assoc, List.append_assoc,
      List.replicate_append_replicate]
  rw [hturned]
  exact feed_ne_zero_of_burst poly (by decide) poly_top (Nat.le_of_eq hlen) htrue

/-- Every alteration of a saved block by one, two or three flips, or by a burst
of at most sixteen bits behind the check sum, is rejected, and the target of the
load is left alone. -/
theorem configLoad_rejects_altered (c : Config) (f : FlashState) (x : Config)
    (f' : FlashState)
    (h : FewFlips (flips (storedBytes (configSave .ok c f).2.2.memory)
        (storedBytes f'.memory)) ∨
      BurstFlips (flips (storedBytes (configSave .ok c f).2.2.memory)
        (storedBytes f'.memory))) :
    configLoad x f' = (.RET_ERROR, x) := by
  have hsaved : (storedConfig (configSave .ok c f).2.2.memory).crc =
      (storedConfig (configSave .ok c f).2.2.memory).nCRC := by
    rw [storedConfig_eq_iff.mpr (storedBytes_configSave c f)]
    exact c.crc_withCRC
  refine if_pos fun haltered => ?_
  have hzero := feed_flips hsaved haltered
  rcases h with hfew | hburst
  · refine feed_fewFlips ?_ hfew hzero
    simp [flips, sizeofConfig]
  · exact feed_burstFlips hburst hzero

theorem configLoad_rejects_one_flip :
    let m := (configSave .ok (configSetDefault zeroConfig).2
      ⟨fun _ => 0xFF, true⟩).2.2.memory
    configLoad zeroConfig
        ⟨fun a => if a = CONFIG_ADDRESS + 5 then m a ^^^ 1 else m a, true⟩ =
      (.RET_ERROR, zeroConfig) :=
  configLoad_rejects_altered (configSetDefault zeroConfig).2 ⟨fun _ => 0xFF, true⟩
    zeroConfig _ (.inl ⟨by decide +kernel, by decide +kernel⟩)

end BillCounter.Storage
