import BillCounter.Ethernet.Model

/-!
# The transmit buffers hold the frame

The loops of `NETIF_lowLevelOutput` are followed by the position of the next byte in the
buffers behind each other.  Each `memcpy` lies inside one buffer and stores the next
bytes of the chain at that position; a descriptor is asked for its OWN bit before
anything is stored in its buffer.
-/

namespace BillCounter.Ethernet

open BillCounter.Lib.RawBytes
open BillCounter.Lib.Segments

variable {N : Nat} {r : DescTable N} {first : Fin N} {q : Pbuf} {s : TxCursor N} {k : Nat}

/-- The loops are in buffer `k`, at an offset inside or at its end. -/
structure AtBuffer (r : DescTable N) (first : Fin N) (s : TxCursor N) (k : Nat) : Prop where
  desc : s.DmaTxDesc = descAfter first k
  buffer : s.buffer = descAfter first k
  offset_le : s.bufferoffset ≤ r.bufSize
  lt : k < N

/-- The position of the next byte. -/
def TxCursor.position (s : TxCursor N) (r : DescTable N) (k : Nat) : Nat :=
  k * r.bufSize + s.bufferoffset

/-- From buffer `k` on, descriptor `j` is needed to get to position `stop`. -/
def NeededFrom (r : DescTable N) (k stop j : Nat) : Prop :=
  j = k ∨ k < j ∧ j * r.bufSize < stop

/-- The buffers with `bs` stored from position `pos` on. -/
abbrev StoredTx (r : DescTable N) (first : Fin N) (b b' : Buffers N) (pos : Nat)
    (bs : List Byte) : Prop :=
  Stored r.bufSize N (descAfter first) b b' pos bs

/-- What `copyFullTx` leaves for the last `memcpy`: less than fits the buffer it is in,
with everything before stored. -/
structure FullCopied (r : DescTable N) (first : Fin N) (q : Pbuf) (s : TxCursor N) (k : Nat)
    (s' : TxCursor N) (k' : Nat) : Prop where
  atBuffer : AtBuffer r first s' k'
  fits : s'.byteslefttocopy + s'.bufferoffset ≤ r.bufSize
  left_le : s'.byteslefttocopy ≤ s.byteslefttocopy
  position : s'.position r k' + s'.byteslefttocopy = s.position r k + s.byteslefttocopy
  payloadoffset :
    s'.payloadoffset + s'.byteslefttocopy = s.payloadoffset + s.byteslefttocopy
  framelength : s'.framelength + s'.byteslefttocopy = s.framelength + s.byteslefttocopy
  stored : StoredTx r first s.buffers s'.buffers (s.position r k)
    (read q.payload s.payloadoffset (s.byteslefttocopy - s'.byteslefttocopy))
  le : k ≤ k'
  reached : k < k' → k' * r.bufSize < s.position r k + s.byteslefttocopy
  free : ∀ j, k < j → j ≤ k' → (r.desc (descAfter first j)).own = false

/-- One pass through the loop fills the buffer up. -/
theorem stored_fill (h : AtBuffer r first s k) :
    StoredTx r first s.buffers
      (store s.buffers s.buffer s.bufferoffset
        (read q.payload s.payloadoffset (r.bufSize - s.bufferoffset)))
      (s.position r k) (read q.payload s.payloadoffset (r.bufSize - s.bufferoffset)) := by
  have hle := h.offset_le
  rw [h.buffer]
  exact stored_store (descAfter_injective first) h.lt (by rw [length_read]; omega)

theorem next_descAfter (h : AtBuffer r first s k) :
    (r.desc s.DmaTxDesc).Buffer2NextDescAddr = descAfter first (k + 1) := by
  rw [r.chained, h.desc, nextDesc_descAfter]

theorem FullCopied.refl (h : AtBuffer r first s k)
    (hfits : s.byteslefttocopy + s.bufferoffset ≤ r.bufSize) :
    FullCopied r first q s k s k where
  atBuffer := h
  fits := hfits
  left_le := Nat.le_refl _
  position := rfl
  payloadoffset := rfl
  framelength := rfl
  stored := by
    rw [Nat.sub_self]
    exact .nil
  le := Nat.le_refl k
  reached hlt := absurd hlt (Nat.lt_irrefl k)
  free j hlt hle := absurd hlt (Nat.not_lt.2 hle)

/-- The cursor behind one pass through the loop. -/
def filledUp (r : DescTable N) (q : Pbuf) (s : TxCursor N) : TxCursor N :=
  let DmaTxDesc := (r.desc s.DmaTxDesc).Buffer2NextDescAddr
  { DmaTxDesc := DmaTxDesc
    buffer := (r.desc DmaTxDesc).Buffer1Addr
    framelength := s.framelength + (r.bufSize - s.bufferoffset)
    bufferoffset := 0
    byteslefttocopy := s.byteslefttocopy - (r.bufSize - s.bufferoffset)
    payloadoffset := s.payloadoffset + (r.bufSize - s.bufferoffset)
    buffers := store s.buffers s.buffer s.bufferoffset
      (read q.payload s.payloadoffset (r.bufSize - s.bufferoffset)) }

theorem filledUp_position (h : AtBuffer r first s k)
    (hlt : r.bufSize < s.byteslefttocopy + s.bufferoffset) :
    (filledUp r q s).position r (k + 1) = s.position r k + (r.bufSize - s.bufferoffset) ∧
      (filledUp r q s).position r (k + 1) + (filledUp r q s).byteslefttocopy =
        s.position r k + s.byteslefttocopy := by
  have hle := h.offset_le
  simp only [TxCursor.position, filledUp, Nat.succ_mul]
  omega

theorem FullCopied.step (h : AtBuffer r first s k)
    (hlt : r.bufSize < s.byteslefttocopy + s.bufferoffset)
    (hown : (r.desc (descAfter first (k + 1))).own = false) {s' : TxCursor N} {k' : Nat}
    (hrest : FullCopied r first q (filledUp r q s) (k + 1) s' k') :
    FullCopied r first q s k s' k' := by
  have hle := h.offset_le
  have hleft := hrest.left_le
  obtain ⟨hposition, hstop⟩ := filledUp_position (q := q) h hlt
  simp only [filledUp] at hleft
  refine
    { atBuffer := hrest.atBuffer
      fits := hrest.fits
      left_le := by omega
      position := hrest.position.trans hstop
      payloadoffset := ?_
      framelength := ?_
      stored := ?_
      le := by have := hrest.le; omega
      reached := fun _ => ?_
      free := fun j hj hj' => ?_ }
  · have := hrest.payloadoffset
    simp only [filledUp] at this
    omega
  · have := hrest.framelength
    simp only [filledUp] at this
    omega
  · -- the bytes of this pass, and those of the rest
    have hfirst := stored_fill (q := q) h
    have hsecond := hrest.stored
    have hsplit : s.byteslefttocopy - s'.byteslefttocopy = (r.bufSize - s.bufferoffset) +
        ((filledUp r q s).byteslefttocopy - s'.byteslefttocopy) := by
      simp only [filledUp]
      omega
    rw [hposition] at hsecond
    rw [hsplit, read_add]
    exact hfirst.append (by rw [length_read]; exact hsecond)
  · rcases Nat.lt_or_ge (k + 1) k' with hlt' | hge
    · have := hrest.reached hlt'
      omega
    · have heq : k' = k + 1 := Nat.le_antisymm hge hrest.le
      rw [heq, TxCursor.position, Nat.succ_mul]
      omega
  · by_cases heq : j = k + 1
    · rw [heq]
      exact hown
    · exact hrest.free j (by omega) hj'

theorem copyFullTx_spec (r : DescTable N) (first : Fin N) (q : Pbuf) (s : TxCursor N) (k : Nat)
    (h : AtBuffer r first s k)
    (hcap : s.position r k + s.byteslefttocopy ≤ N * r.bufSize) :
    (∃ s' k', copyFullTx r q s = .ok s' ∧ FullCopied r first q s k s' k') ∨
      ∃ b bs j, copyFullTx r q s = .error b ∧
        StoredTx r first s.buffers b (s.position r k) bs ∧
        k < j ∧ j * r.bufSize < s.position r k + s.byteslefttocopy ∧
        (r.desc (descAfter first j)).own = true := by
  induction s using copyFullTx.induct r q generalizing k with
  | case1 s hlt d hown =>
      have hnext := next_descAfter h
      refine .inr ⟨_, _, k + 1, ?_, stored_fill (q := q) h, Nat.lt_succ_self k, ?_, ?_⟩
      · rw [copyFullTx, if_pos hlt, if_pos hown]
      · rw [TxCursor.position, Nat.succ_mul]
        have := h.offset_le
        omega
      · rw [← hnext]
        exact hown
  | case2 s hlt n buffers d hown ih =>
      have hnext := next_descAfter h
      have hstep : copyFullTx r q s = copyFullTx r q (filledUp r q s) := by
        rw [copyFullTx, if_pos hlt, if_neg hown]
        rfl
      obtain ⟨hposition, hstop⟩ := filledUp_position (q := q) h hlt
      have hown' : (r.desc (descAfter first (k + 1))).own = false := by
        rw [← hnext]
        exact Bool.eq_false_iff.2 hown
      have hpast : (k + 1) * r.bufSize < s.position r k + s.byteslefttocopy := by
        rw [TxCursor.position, Nat.succ_mul]
        have := h.offset_le
        omega
      have hat : AtBuffer r first (filledUp r q s) (k + 1) :=
        ⟨hnext, (r.buffer _).trans hnext, Nat.zero_le _,
          Nat.lt_of_mul_lt_mul_right (Nat.lt_of_lt_of_le hpast hcap)⟩
      rcases ih (k + 1) hat (hstop.trans_le hcap) with
        ⟨s', k', hok, hfull⟩ | ⟨b, bs, j, herr, hstored, hj, hneeded, howned⟩
      · exact .inl ⟨s', k', hstep.trans hok, .step h hlt hown' hfull⟩
      · have hboth : StoredTx r first s.buffers b (s.position r k)
            (read q.payload s.payloadoffset (r.bufSize - s.bufferoffset) ++ bs) := by
          refine (stored_fill h).append ?_
          rw [length_read, ← hposition]
          exact hstored
        exact .inr ⟨b, _, j, hstep.trans herr, hboth, Nat.lt_of_succ_lt hj,
          hneeded.trans_eq hstop, howned⟩
  | case3 s hge =>
      exact .inl ⟨s, k, by rw [copyFullTx, if_neg hge], .refl h (Nat.le_of_not_lt hge)⟩

/-! ## The chain -/

/-- The cursor in front of a pbuf. -/
def TxCursor.atPbuf (s : TxCursor N) (q : Pbuf) : TxCursor N :=
  { s with byteslefttocopy := q.len.toNat, payloadoffset := 0 }

/-- The cursor behind the last `memcpy` of a pbuf. -/
def TxCursor.pastPbuf (s : TxCursor N) (q : Pbuf) : TxCursor N :=
  { s with
    buffers := store s.buffers s.buffer s.bufferoffset
      (read q.payload s.payloadoffset s.byteslefttocopy)
    bufferoffset := s.bufferoffset + s.byteslefttocopy
    framelength := s.framelength + s.byteslefttocopy }

variable {p : List Pbuf} {s' s₁ : TxCursor N} {k' : Nat} {b : Buffers N}

theorem AtBuffer.atPbuf (h : AtBuffer r first s k) (q : Pbuf) :
    AtBuffer r first (s.atPbuf q) k :=
  ⟨h.desc, h.buffer, h.offset_le, h.lt⟩

theorem FullCopied.atBuffer_past (h : FullCopied r first q (s.atPbuf q) k s' k') :
    AtBuffer r first (s'.pastPbuf q) k' where
  desc := h.atBuffer.desc
  buffer := h.atBuffer.buffer
  offset_le := (Nat.add_comm ..).trans_le h.fits
  lt := h.atBuffer.lt

theorem FullCopied.position_past (h : FullCopied r first q (s.atPbuf q) k s' k') :
    (s'.pastPbuf q).position r k' = s.position r k + q.len.toNat :=
  (Nat.add_assoc ..).symm.trans h.position

/-- The position the whole chain ends at. -/
theorem FullCopied.stop_eq (h : FullCopied r first q (s.atPbuf q) k s' k') :
    (s'.pastPbuf q).position r k' + totalLength p =
      s.position r k + totalLength (q :: p) := by
  rw [h.position_past, Nat.add_assoc]
  rfl

/-- The last `memcpy` of a pbuf stores what is left of it. -/
theorem FullCopied.stored_past (h : FullCopied r first q (s.atPbuf q) k s' k') :
    StoredTx r first s.buffers (s'.pastPbuf q).buffers (s.position r k) q.bytes := by
  have hle : s'.byteslefttocopy ≤ q.len.toNat := h.left_le
  have hpayload : s'.payloadoffset + s'.byteslefttocopy = 0 + q.len.toNat := h.payloadoffset
  have hposition : s'.position r k' + s'.byteslefttocopy = s.position r k + q.len.toNat :=
    h.position
  have hfits := h.fits
  have hlast : StoredTx r first s'.buffers (s'.pastPbuf q).buffers (s'.position r k')
      (read q.payload s'.payloadoffset s'.byteslefttocopy) := by
    rw [TxCursor.pastPbuf, h.atBuffer.buffer]
    exact stored_store (descAfter_injective first) h.atBuffer.lt (by rw [length_read]; omega)
  have hsplit : q.bytes = read q.payload 0 (q.len.toNat - s'.byteslefttocopy) ++
      read q.payload s'.payloadoffset s'.byteslefttocopy := by
    have hnext : s'.payloadoffset = 0 + (q.len.toNat - s'.byteslefttocopy) := by omega
    rw [hnext, ← read_add, Nat.sub_add_cancel hle]
    rfl
  have hpos : s.position r k + (q.len.toNat - s'.byteslefttocopy) = s'.position r k' := by
    omega
  rw [hsplit]
  refine h.stored.append ?_
  rw [length_read]
  show StoredTx r first s'.buffers _ (s.position r k + (q.len.toNat - s'.byteslefttocopy)) _
  rw [hpos]
  exact hlast

/-- The chain `p` is in the buffers, which all belong to the CPU. -/
structure ChainCopied (r : DescTable N) (first : Fin N) (s : TxCursor N) (k : Nat)
    (p : List Pbuf) (s' : TxCursor N) : Prop where
  stored : StoredTx r first s.buffers s'.buffers (s.position r k) (chainBytes p)
  framelength : s'.framelength = s.framelength + totalLength p
  free : ∀ j, p ≠ [] → NeededFrom r k (s.position r k + totalLength p) j →
    (r.desc (descAfter first j)).own = false

/-- A buffer that `p` needs belongs to the DMA. -/
structure ChainRefused (r : DescTable N) (first : Fin N) (s : TxCursor N) (k : Nat)
    (p : List Pbuf) (b : Buffers N) : Prop where
  stored : ∃ bs, StoredTx r first s.buffers b (s.position r k) bs
  owned : ∃ j, NeededFrom r k (s.position r k + totalLength p) j ∧
    (r.desc (descAfter first j)).own = true

/-- One pbuf more in front of a chain copied. -/
theorem ChainCopied.cons (h : FullCopied r first q (s.atPbuf q) k s' k')
    (hown : (r.desc (descAfter first k)).own = false)
    (hrest : ChainCopied r first (s'.pastPbuf q) k' p s₁) :
    ChainCopied r first s k (q :: p) s₁ where
  stored := by
    refine h.stored_past.append ?_
    rw [length_bytes, ← h.position_past]
    exact hrest.stored
  framelength := by
    have hframe : (s'.pastPbuf q).framelength = s.framelength + q.len.toNat := h.framelength
    rw [hrest.framelength, hframe, Nat.add_assoc]
    rfl
  free j _ hj := by
    rcases hj with rfl | ⟨hkj, hj⟩
    · exact hown
    rcases Nat.lt_or_ge k' j with hlt | hle
    · refine hrest.free j ?_ (.inr ⟨hlt, h.stop_eq ▸ hj⟩)
      -- with nothing left, the position is not beyond buffer `k'`
      rintro rfl
      have hend : k' * r.bufSize + (s'.pastPbuf q).bufferoffset + 0 =
          s.position r k + totalLength [q] := h.stop_eq (p := [])
      have hoff := h.atBuffer_past.offset_le
      have hmul := Nat.mul_le_mul_right r.bufSize (Nat.succ_le_of_lt hlt)
      rw [Nat.succ_mul] at hmul
      omega
    · exact h.free j hkj hle

/-- One pbuf more in front of a chain refused. -/
theorem ChainRefused.cons (h : FullCopied r first q (s.atPbuf q) k s' k')
    (hrest : ChainRefused r first (s'.pastPbuf q) k' p b) :
    ChainRefused r first s k (q :: p) b where
  stored := by
    obtain ⟨bs, hstored⟩ := hrest.stored
    refine ⟨q.bytes ++ bs, h.stored_past.append ?_⟩
    rw [length_bytes, ← h.position_past]
    exact hstored
  owned := by
    obtain ⟨j, hneeded, howned⟩ := hrest.owned
    refine ⟨j, ?_, howned⟩
    rw [h.stop_eq] at hneeded
    rcases hneeded with rfl | ⟨hlt, hj⟩
    · rcases Nat.eq_or_lt_of_le h.le with heq | hlt
      · exact .inl heq.symm
      · have hreached : j * r.bufSize < s.position r k + q.len.toNat := h.reached hlt
        exact .inr ⟨hlt, Nat.lt_of_lt_of_le hreached
          (Nat.add_le_add_left (Nat.le_add_right _ (totalLength p)) _)⟩
    · exact .inr ⟨Nat.lt_of_le_of_lt h.le hlt, hj⟩

theorem copyChainTx_cons (r : DescTable N) (q : Pbuf) (p : List Pbuf) {s : TxCursor N}
    (hown : (r.desc s.DmaTxDesc).own = false) :
    copyChainTx r (q :: p) s = match copyFullTx r q (s.atPbuf q) with
      | .error b => .error b
      | .ok s => copyChainTx r p (s.pastPbuf q) := by
  rw [copyChainTx, if_neg (by rw [hown]; exact Bool.false_ne_true)]
  rfl

theorem copyChainTx_spec (r : DescTable N) (first : Fin N) (p : List Pbuf) (s : TxCursor N)
    (k : Nat) (h : AtBuffer r first s k)
    (hcap : s.position r k + totalLength p ≤ N * r.bufSize) :
    (∃ s', copyChainTx r p s = .ok s' ∧ ChainCopied r first s k p s') ∨
      ∃ b, copyChainTx r p s = .error b ∧ ChainRefused r first s k p b := by
  induction p generalizing s k with
  | nil => exact .inl ⟨s, rfl, .nil, rfl, fun j hne => absurd rfl hne⟩
  | cons q p ih =>
      have hq : s.position r k + q.len.toNat ≤ s.position r k + totalLength (q :: p) :=
        Nat.add_le_add_left (Nat.le_add_right _ _) _
      cases hown : (r.desc s.DmaTxDesc).own with
      | true =>
          refine .inr ⟨s.buffers, by rw [copyChainTx, if_pos hown], ⟨[], .nil⟩, k, .inl rfl, ?_⟩
          rw [← h.desc]
          exact hown
      | false =>
          have hchain := copyChainTx_cons r q p hown
          rcases copyFullTx_spec r first q (s.atPbuf q) k (h.atPbuf q) (hq.trans hcap) with
            ⟨s', k', hok, hfull⟩ | ⟨b, bs, j, herr, hstored, hj, hneeded, howned⟩
          · rw [hok] at hchain
            rcases ih (s'.pastPbuf q) k' hfull.atBuffer_past (hfull.stop_eq.trans_le hcap) with
              ⟨s₁, hok₁, hcopied⟩ | ⟨b, herr, hrefused⟩
            · exact .inl ⟨s₁, hchain.trans hok₁, .cons hfull (h.desc ▸ hown) hcopied⟩
            · exact .inr ⟨b, hchain.trans herr, .cons hfull hrefused⟩
          · rw [herr] at hchain
            exact .inr ⟨b, hchain, ⟨bs, hstored⟩, j,
              .inr ⟨hj, Nat.lt_of_lt_of_le hneeded hq⟩, howned⟩

/-! ## The main result -/

/-- How many descriptors a frame of `T` bytes needs: those its bytes go to, and the first
in any case. -/
def descsNeeded (size T : Nat) : Nat := max 1 ((T + size - 1) / size)

theorem lt_descsNeeded_iff {size T j : Nat} (hsize : 0 < size) :
    j < descsNeeded size T ↔ j = 0 ∨ 0 < j ∧ j * size < T := by
  have hdiv : j < (T + size - 1) / size ↔ j * size < T := by
    rw [← Nat.succ_le_iff, Nat.le_div_iff_mul_le hsize, Nat.succ_mul]
    omega
  rw [descsNeeded, lt_max_iff, hdiv]
  omega

theorem le_descsNeeded_mul {size T : Nat} (hsize : 0 < size) :
    T ≤ descsNeeded size T * size := by
  have hlast := mt (lt_descsNeeded_iff hsize (j := descsNeeded size T)).2 (Nat.lt_irrefl _)
  have hpos : 0 < descsNeeded size T := Nat.lt_of_lt_of_le Nat.one_pos (Nat.le_max_left ..)
  by_contra hlt
  exact hlast (.inr ⟨hpos, Nat.lt_of_not_le hlt⟩)

def EthCall.IsTransmit : EthCall → Bool
  | .ETH_TransmitFrame _ => true
  | _ => false

theorem resumeTx_filter (tus : Bool) : (resumeTx tus).filter EthCall.IsTransmit = [] := by
  cases tus <;> rfl

/-- What `NETIF_lowLevelOutput` does with a chain: where the descriptors its frame needs
all belong to the CPU, their buffers hold the frame and it is transmitted once; where one
belongs to the DMA it is refused, and nothing is transmitted.  Nothing is written beyond
a buffer. -/
theorem lowLevelOutput_scatters (r : DescTable N) (txDesc : Fin N) (q : Pbuf) (p : List Pbuf)
    (buffers : Buffers N) (tus : Bool) (hcap : totalLength (q :: p) ≤ N * r.bufSize) :
    let T := totalLength (q :: p)
    let n := descsNeeded r.bufSize T
    let x := netifLowLevelOutput r txDesc (q :: p) buffers tus
    (((∀ k, k < n → (r.desc (descAfter txDesc k)).own = false) ∧ x.errval = .ERR_OK ∧
        x.calls.filter EthCall.IsTransmit = [.ETH_TransmitFrame T] ∧
        (contents r.bufSize (descAfter txDesc) x.buffers n).take T = chainBytes (q :: p)) ∨
      ((∃ k, k < n ∧ (r.desc (descAfter txDesc k)).own = true) ∧ x.errval = .ERR_USE ∧
        x.calls.filter EthCall.IsTransmit = [])) ∧
    ∀ d o, r.bufSize ≤ o → x.buffers d o = buffers d o := by
  intro T n x
  let s : TxCursor N := ⟨txDesc, (r.desc txDesc).Buffer1Addr, 0, 0, 0, 0, buffers⟩
  have hat : AtBuffer r txDesc s 0 :=
    ⟨(descAfter_zero txDesc).symm, (r.buffer _).trans (descAfter_zero txDesc).symm,
      Nat.zero_le _, txDesc.pos⟩
  have hposition : s.position r 0 = 0 := by simp [TxCursor.position, s]
  have hneeded : ∀ j, j < n ↔ NeededFrom r 0 (s.position r 0 + T) j := by
    intro j
    rw [hposition, Nat.zero_add]
    exact lt_descsNeeded_iff r.bufSize_pos
  rcases copyChainTx_spec r txDesc (q :: p) s 0 hat (by rwa [hposition, Nat.zero_add]) with
    ⟨s', hok, hstored, hframe, hfree⟩ | ⟨b, herr, ⟨bs, hstored⟩, j, hj, howned⟩
  · have hT : s'.framelength = T := hframe.trans (Nat.zero_add T)
    have hx : x = ⟨.ERR_OK, s'.buffers, .ETH_TransmitFrame T :: resumeTx tus⟩ := by
      show netifLowLevelOutput r txDesc (q :: p) buffers tus = _
      rw [netifLowLevelOutput, hok, ← hT]
    have hlen : (chainBytes (q :: p)).length = T := length_chainBytes (q :: p)
    have hread : (contents r.bufSize (descAfter txDesc) s'.buffers n).take T =
        chainBytes (q :: p) := by
      rw [hposition] at hstored
      rw [take_contents (le_descsNeeded_mul r.bufSize_pos), ← hlen]
      exact hstored.read_eq (by rwa [hlen, Nat.zero_add])
    rw [hx]
    refine ⟨.inl ⟨fun k hk => hfree k (by simp) ((hneeded k).1 hk), rfl, ?_, hread⟩,
      hstored.beyond⟩
    rw [List.filter_cons_of_pos rfl, resumeTx_filter]
  · have hx : x = ⟨.ERR_USE, b, resumeTx tus⟩ := by
      show netifLowLevelOutput r txDesc (q :: p) buffers tus = _
      rw [netifLowLevelOutput, herr]
    rw [hx]
    exact ⟨.inr ⟨⟨j, (hneeded j).2 hj, howned⟩, rfl, resumeTx_filter tus⟩, hstored.beyond⟩

/-- Four descriptors of the CPU, with buffers of two bytes. -/
def fourDescs : DescTable 4 where
  bufSize := 2
  bufSize_pos := Nat.two_pos
  desc d := ⟨false, d, nextDesc d⟩
  buffer _ := rfl
  chained _ := rfl

/-- Five bytes and two. -/
def twoPbufs : List Pbuf := [⟨5, fun i => BitVec.ofNat 8 i⟩, ⟨2, fun _ => 0xAA⟩]

theorem lowLevelOutput_scatters_twoPbufs :
    (contents 2 (descAfter 1)
      (netifLowLevelOutput fourDescs 1 twoPbufs (fun _ _ => 0) false).buffers 4).take 7 =
      [0, 1, 2, 3, 4, 0xAA, 0xAA] := by
  rcases (lowLevelOutput_scatters fourDescs 1 ⟨5, fun i => BitVec.ofNat 8 i⟩
    [⟨2, fun _ => 0xAA⟩] (fun _ _ => 0) false (by decide)).1 with h | ⟨⟨k, _, hown⟩, _⟩
  · exact h.2.2.2
  · exact absurd hown Bool.false_ne_true

end BillCounter.Ethernet
