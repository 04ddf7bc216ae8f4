import BillCounter.Lib.Framing
import BillCounter.Lib.RawBytes

/-!
# Messages and their frames on the wire

`SVRIF_send` copies the bytes of a counter reading into a `MESSAGE`.
`SVRIF_client` builds a frame around it in the static `pBuffer`: `0x58 0x00`, a
length byte, the MAC address backwards, the bytes, `0x64`.  Nothing is escaped; a
receiver finds its way by the length alone.
-/

namespace BillCounter.Server

open BillCounter.Lib.Framing
open BillCounter.Lib.RawBytes

/-- `MESSAGE`: behind `nLength` there are as many bytes as it says. -/
structure Message where
  nLength : BitVec 8
  pData : List Byte
  length_pData : pData.length = nLength.toNat
deriving DecidableEq

/-- The block `SVRIF_send` fills with `nDataLength` bytes from `pData` on. -/
def svrifMessage (pData : List Byte) (nDataLength : BitVec 8)
    (h : nDataLength.toNat ≤ pData.length) : Message where
  nLength := 0 + nDataLength
  pData := pData.take nDataLength.toNat
  length_pData := by
    have hsum : (0 : BitVec 8) + nDataLength = nDataLength := BitVec.zero_add nDataLength
    rw [hsum, List.length_take]
    exact Nat.min_eq_left h

/-- `sizeof(pBuffer)`. -/
def sizeofBuffer : Nat := 128

/-- `pBuffer`, with the memory behind it, and `nLen`. -/
structure SendBuffer where
  pBuffer : Memory
  nLen : Nat

/-- Store at `&pBuffer[nLen]` and move `nLen` on. -/
def SendBuffer.put (s : SendBuffer) (bs : List Byte) : SendBuffer :=
  ⟨write s.pBuffer s.nLen bs, s.nLen + bs.length⟩

/-- What `SVRIF_client` does with a message before `lwip_write`. -/
def buildFrame (pMAC : Bytes 6) (pMsg : Message) (pBuffer : Memory) : SendBuffer :=
  let s : SendBuffer := ⟨pBuffer, 0⟩
  let s := s.put [0x58]
  let s := s.put [0x00]
  let s := s.put [6 + pMsg.nLength]
  let s := s.put [pMAC.val.getD 5 0]
  let s := s.put [pMAC.val.getD 4 0]
  let s := s.put [pMAC.val.getD 3 0]
  let s := s.put [pMAC.val.getD 2 0]
  let s := s.put [pMAC.val.getD 1 0]
  let s := s.put [pMAC.val.getD 0 0]
  let s := s.put pMsg.pData
  s.put [0x64]

/-- The first `nLen` bytes of `pBuffer`, which `lwip_write` is given. -/
def SendBuffer.bytes (s : SendBuffer) : List Byte := read s.pBuffer 0 s.nLen

/-! ## What is on the wire -/

/-- A frame. -/
def frame (pMAC : Bytes 6) (pMsg : Message) : List Byte :=
  0x58 :: 0x00 :: (6 + pMsg.nLength) :: (pMAC.val.reverse ++ (pMsg.pData ++ [0x64]))

theorem frame_ne_nil (pMAC : Bytes 6) (pMsg : Message) : frame pMAC pMsg ≠ [] :=
  List.cons_ne_nil _ _

@[simp] theorem length_frame (pMAC : Bytes 6) (pMsg : Message) :
    (frame pMAC pMsg).length = pMsg.pData.length + 10 := by
  have hmac := pMAC.property
  simp only [frame, List.length_cons, List.length_append, List.length_reverse,
    List.length_nil]
  omega

@[simp] theorem SendBuffer.bytes_put (s : SendBuffer) (bs : List Byte) :
    (s.put bs).bytes = s.bytes ++ bs := by
  have h := read_write_append s.pBuffer 0 s.nLen bs
  rw [Nat.zero_add] at h
  exact h

theorem reverse_mac (pMAC : Bytes 6) :
    pMAC.val.reverse =
      [pMAC.val.getD 5 0, pMAC.val.getD 4 0, pMAC.val.getD 3 0, pMAC.val.getD 2 0,
        pMAC.val.getD 1 0, pMAC.val.getD 0 0] := by
  obtain ⟨val, hlen⟩ := pMAC
  match val, hlen with
  | [_, _, _, _, _, _], _ => rfl

/-- The bytes handed to `lwip_write` are the frame of the message, whatever
`pBuffer` held before. -/
theorem bytes_buildFrame (pMAC : Bytes 6) (pMsg : Message) (pBuffer : Memory) :
    (buildFrame pMAC pMsg pBuffer).bytes = frame pMAC pMsg := by
  have hnil : (SendBuffer.mk pBuffer 0).bytes = [] := rfl
  simp only [buildFrame, SendBuffer.bytes_put, hnil, frame, reverse_mac pMAC]
  simp

theorem nLen_buildFrame (pMAC : Bytes 6) (pMsg : Message) (pBuffer : Memory) :
    (buildFrame pMAC pMsg pBuffer).nLen = pMsg.pData.length + 10 := by
  have h := congrArg List.length (bytes_buildFrame pMAC pMsg pBuffer)
  rw [SendBuffer.bytes, length_read, length_frame] at h
  exact h

/-! Building a frame writes below `nLen` only. -/

/-- Nothing from `nLen` on differs from `m`. -/
def SendBuffer.Above (s : SendBuffer) (m : Memory) : Prop :=
  ∀ x, s.nLen ≤ x → s.pBuffer x = m x

theorem SendBuffer.Above.put {s : SendBuffer} {m : Memory} (h : s.Above m)
    (bs : List Byte) : (s.put bs).Above m := by
  intro x hx
  have hle : s.nLen + bs.length ≤ x := hx
  have hsame : (s.put bs).pBuffer x = s.pBuffer x := write_of_disjoint (.inr hle)
  rw [hsame]
  exact h x (by omega)

theorem above_buildFrame (pMAC : Bytes 6) (pMsg : Message) (pBuffer : Memory) :
    (buildFrame pMAC pMsg pBuffer).Above pBuffer := by
  have hstart : (SendBuffer.mk pBuffer 0).Above pBuffer := fun _ _ => rfl
  unfold buildFrame
  repeat apply SendBuffer.Above.put
  exact hstart

/-- A message of up to 118 bytes fits: the frame is in `pBuffer`, and nothing behind
it is written. -/
theorem buildFrame_fits {pMsg : Message} (h : pMsg.pData.length ≤ 118) (pMAC : Bytes 6)
    (pBuffer : Memory) :
    (buildFrame pMAC pMsg pBuffer).nLen ≤ sizeofBuffer ∧
      ∀ x, sizeofBuffer ≤ x → (buildFrame pMAC pMsg pBuffer).pBuffer x = pBuffer x := by
  have hlen : (buildFrame pMAC pMsg pBuffer).nLen ≤ sizeofBuffer := by
    rw [nLen_buildFrame, sizeofBuffer]
    omega
  exact ⟨hlen, fun x hx => above_buildFrame pMAC pMsg pBuffer x (Nat.le_trans hlen hx)⟩

/-! ## Reading frames back -/

/-- The parser of the receiver: `0x58`, `0x00`, a length `l`, six bytes of the MAC
address backwards, `l - 6` bytes, `0x64`. -/
def parseFrame : Parser (List Byte × List Byte) Byte
  | stx :: zero :: l :: rest =>
      if stx = 0x58 ∧ zero = 0x00 ∧ 6 ≤ l.toNat ∧ (rest.drop l.toNat).head? = some 0x64 then
        some (((rest.take 6).reverse, (rest.drop 6).take (l.toNat - 6)),
          rest.drop (l.toNat + 1))
      else none
  | _ => none

/-- The length byte of a message of at most 249 bytes does not wrap. -/
theorem toNat_lengthByte {pMsg : Message} (h : pMsg.pData.length ≤ 249) :
    (6 + pMsg.nLength).toNat = pMsg.pData.length + 6 := by
  have hlen := pMsg.length_pData
  have hsix : (6 : BitVec 8).toNat = 6 := rfl
  rw [BitVec.toNat_add, hsix]
  omega

/-- A frame is read back, whatever bytes the message has. -/
theorem readsBack_frame {pMsg : Message} (h : pMsg.pData.length ≤ 249) (pMAC : Bytes 6) :
    ReadsBack parseFrame (frame pMAC pMsg) (pMAC.val, pMsg.pData) := by
  intro rest
  have hl := toNat_lengthByte h
  have hmac : pMAC.val.reverse.length = 6 := by
    rw [List.length_reverse, pMAC.property]
  have hall : (pMAC.val.reverse ++ pMsg.pData).length = pMsg.pData.length + 6 := by
    rw [List.length_append, hmac, Nat.add_comm]
  have hbody : frame pMAC pMsg ++ rest =
      0x58 :: 0x00 :: (6 + pMsg.nLength) ::
        (pMAC.val.reverse ++ (pMsg.pData ++ (0x64 :: rest))) := by
    simp [frame]
  have hend : (pMAC.val.reverse ++ (pMsg.pData ++ (0x64 :: rest))).drop
      (pMsg.pData.length + 6) = 0x64 :: rest := by
    rw [← List.append_assoc, List.drop_left' hall]
  rw [hbody, parseFrame, hl, if_pos ⟨rfl, rfl, by omega, by rw [hend]; rfl⟩,
    List.take_left' hmac, List.drop_left' hmac, List.reverse_reverse, Nat.add_sub_cancel,
    List.take_left' rfl, ← List.drop_drop, hend]
  rfl

theorem extends_parseFrame : Extends parseFrame := by
  intro bs a rest more h
  match bs, h with
  | stx :: zero :: l :: body, h =>
      rw [parseFrame] at h
      split at h
      · rename_i hframe
        obtain ⟨hstx, hzero, hl, hend⟩ := hframe
        have hlen : l.toNat < body.length := by
          rcases Nat.lt_or_ge l.toNat body.length with hlt | hge
          · exact hlt
          · rw [List.drop_eq_nil_of_le hge] at hend
            cases hend
        have hdrop : ∀ n, n ≤ body.length → (body ++ more).drop n = body.drop n ++ more :=
          fun n hn => List.drop_append_of_le_length hn
        have hlast : ((body ++ more).drop l.toNat).head? = some 0x64 := by
          rw [hdrop _ (Nat.le_of_lt hlen), List.head?_append, hend]
          rfl
        obtain ⟨rfl, rfl⟩ := Prod.mk.inj (Option.some.inj h)
        rw [List.cons_append, List.cons_append, List.cons_append, parseFrame,
          if_pos ⟨hstx, hzero, hl, hlast⟩, hdrop _ hlen, hdrop 6 (by omega),
          List.take_append_of_le_length (by omega),
          List.take_append_of_le_length (by rw [List.length_drop]; omega)]
      · cases h

/-- A frame cut short is not read as a frame. -/
theorem parseFrame_truncated {pMsg : Message} (h : pMsg.pData.length ≤ 249)
    {pMAC : Bytes 6} {tail : List Byte} (hbefore : tail <+: frame pMAC pMsg)
    (hne : tail ≠ frame pMAC pMsg) : parseFrame tail = none :=
  parse_eq_none_of_prefix extends_parseFrame (readsBack_frame h pMAC) hbefore hne

/-! ## Streams -/

/-- The frames `SVRIF_client` builds for a list of messages, one after the other in the
same buffer. -/
def buildFrames (pBuffer : Memory) : List (Bytes 6 × Message) → List SendBuffer
  | [] => []
  | p :: pairs =>
      buildFrame p.1 p.2 pBuffer ::
        buildFrames (buildFrame p.1 p.2 pBuffer).pBuffer pairs

theorem bytes_buildFrames (pBuffer : Memory) (pairs : List (Bytes 6 × Message)) :
    (buildFrames pBuffer pairs).flatMap SendBuffer.bytes =
      pairs.flatMap fun p => frame p.1 p.2 := by
  induction pairs generalizing pBuffer with
  | nil => rfl
  | cons p pairs ih =>
      rw [buildFrames, List.flatMap_cons, List.flatMap_cons, ih, bytes_buildFrame]

/-- Frames of short messages stay within `pBuffer`. -/
theorem buildFrames_fit {pairs : List (Bytes 6 × Message)}
    (h : ∀ p ∈ pairs, p.2.pData.length ≤ 118) (pBuffer : Memory) :
    ∀ s ∈ buildFrames pBuffer pairs,
      s.nLen ≤ sizeofBuffer ∧ ∀ x, sizeofBuffer ≤ x → s.pBuffer x = pBuffer x := by
  induction pairs generalizing pBuffer with
  | nil =>
      intro s hs
      cases hs
  | cons p pairs ih =>
      have hfirst := buildFrame_fits (h p List.mem_cons_self) p.1 pBuffer
      intro s hs
      rcases List.mem_cons.mp hs with heq | hmem
      · rw [heq]
        exact hfirst
      · have hrest := ih (fun q hq => h q (List.mem_cons_of_mem p hq)) _ s hmem
        exact ⟨hrest.1, fun x hx => (hrest.2 x hx).trans (hfirst.2 x hx)⟩

/-- Frames of messages whose length byte does not wrap are read back, up to a frame cut
short behind them. -/
theorem parseAll_frames {pairs : List (Bytes 6 × Message)}
    (h : ∀ p ∈ pairs, p.2.pData.length ≤ 249) {tail : List Byte}
    (htail : parseFrame tail = none) :
    parseAll parseFrame ((pairs.flatMap fun p => frame p.1 p.2) ++ tail) =
      (pairs.map fun p => (p.1.val, p.2.pData), tail) := by
  have hne : ∀ p : Bytes 6 × Message, frame p.1 p.2 ≠ [] := fun p => frame_ne_nil p.1 p.2
  have hread : ∀ p ∈ pairs, ReadsBack parseFrame (frame p.1 p.2) (p.1.val, p.2.pData) :=
    fun p hp => readsBack_frame (h p hp) p.1
  apply parseAll_flatMap
  · exact hne
  · exact hread
  · exact htail

/-- What a counter has to say: as many bytes as have room in a frame. -/
structure Payload where
  bytes : List Byte
  length_le : bytes.length ≤ 118

/-- `SVRIF_send(pData, nDataLength)` on it. -/
def Payload.message (p : Payload) : Message :=
  svrifMessage p.bytes (BitVec.ofNat 8 p.bytes.length) (by
    rw [BitVec.toNat_ofNat]
    exact Nat.mod_le _ _)

theorem Payload.pData_message (p : Payload) : p.message.pData = p.bytes := by
  have hle := p.length_le
  have hlen : (BitVec.ofNat 8 p.bytes.length).toNat = p.bytes.length := by
    rw [BitVec.toNat_ofNat]
    omega
  show p.bytes.take (BitVec.ofNat 8 p.bytes.length).toNat = p.bytes
  rw [hlen, List.take_length]

/-- The frames of any list of payloads fit `pBuffer`, and from the frames one behind
the other the parser recovers the MAC addresses and the payloads. -/
theorem frames_uniquely_decodable (pairs : List (Bytes 6 × Payload)) (pBuffer : Memory) :
    let built := buildFrames pBuffer (pairs.map fun p => (p.1, p.2.message))
    (∀ s ∈ built,
        s.nLen ≤ sizeofBuffer ∧ ∀ x, sizeofBuffer ≤ x → s.pBuffer x = pBuffer x) ∧
      parseAll parseFrame (built.flatMap SendBuffer.bytes) =
        (pairs.map fun p => (p.1.val, p.2.bytes), []) := by
  intro built
  have hshort : ∀ p ∈ pairs.map fun p => (p.1, p.2.message), p.2.pData.length ≤ 118 := by
    intro p hp
    obtain ⟨q, _, rfl⟩ := List.mem_map.mp hp
    rw [Payload.pData_message]
    exact q.2.length_le
  have hend : parseFrame [] = none := rfl
  have hparse := parseAll_frames (fun p hp => Nat.le_trans (hshort p hp) (by decide)) hend
  have hvalues : (pairs.map fun p => (p.1, p.2.message)).map
      (fun p => (p.1.val, p.2.pData)) = pairs.map fun p => (p.1.val, p.2.bytes) := by
    rw [List.map_map]
    apply List.map_congr_left
    intro p _
    show (p.1.val, p.2.message.pData) = (p.1.val, p.2.bytes)
    rw [Payload.pData_message]
  rw [List.append_nil, hvalues] at hparse
  rw [bytes_buildFrames]
  exact ⟨buildFrames_fit hshort pBuffer, hparse⟩

end BillCounter.Server
