/-
  End-to-end transfer between two PDCP entities of one bearer (`Matched`).

  CHANNEL   keeps every PDU ever written: a PDU arrives never, once or many times, in any order.
  GUARD     SDUs are longer than the SDAP header, a PDU arrives only while its COUNT is within the
            window around `rx_deliv`, and `tx_next` does not wrap.

  What `process_sdu` writes `recv_pdu` reads back (`rxSdu_txPdu`).  `held`, the SDUs handed over followed by
  those in `rx_list`, grows only by the SDU that arrived (`recvPdu_held`).
-/
import NrStack.Pdcp.Window

namespace NrStack.Pdcp

open List Machine

/-! ## Frames of the receiving half -/

/-- `e'` differs from `e` at most in the variables of the receiving half, `rx_next` apart. -/
def RxFrame (e e' : Entity) : Prop := ∃ tCurrent rxList rxSize rxDeliv rxReord start delivered,
  e' = { e with
    tCurrent := tCurrent, rxList := rxList, rxSize := rxSize, rxDeliv := rxDeliv
    rxReord := rxReord, tReorderingStart := start, delivered := delivered }

lemma RxFrame.refl (e : Entity) : RxFrame e e := ⟨_, _, _, _, _, _, _, rfl⟩

variable {e : Entity} {l : List Sdu} {s : Transfer} {c : Crypto}

lemma RxFrame.trans {e' e'' : Entity} (h : RxFrame e e') (h' : RxFrame e' e'') :
    RxFrame e e'' := by
  obtain ⟨_, _, _, _, _, _, _, rfl⟩ := h
  obtain ⟨_, _, _, _, _, _, _, rfl⟩ := h'
  exact ⟨_, _, _, _, _, _, _, rfl⟩

lemma deliverConsecutive_frame :
    ∀ (e : Entity) (count : Nat), RxFrame e (e.deliverConsecutive count l).1 := by
  induction l with
  | nil => exact fun e _ => .refl e
  | cons a l ih =>
    intro e count
    unfold Entity.deliverConsecutive
    split
    · exact RxFrame.trans ⟨_, _, _, _, _, _, _, rfl⟩ (ih (e.deliverHead a l) _)
    · exact .refl e

lemma deliverBelow_frame : ∀ (e : Entity) (bound : Nat), RxFrame e (e.deliverBelow bound l) := by
  induction l with
  | nil => exact fun e _ => .refl e
  | cons a l ih =>
    intro e bound
    unfold Entity.deliverBelow
    split
    · exact RxFrame.trans ⟨_, _, _, _, _, _, _, rfl⟩ (ih (e.deliverHead a l) _)
    · exact .refl e

lemma startReordering_frame (e : Entity) : RxFrame e e.startReordering := by
  unfold Entity.startReordering
  split <;> exact ⟨_, _, _, _, _, _, _, rfl⟩

lemma updateReordering_frame (e : Entity) : RxFrame e e.updateReordering := by
  simp only [Entity.updateReordering]
  by_cases hstop : e.tReorderingStart ≠ 0 ∧ e.rxReord ≤ e.rxDeliv
  · rw [if_pos hstop, if_pos rfl]
    exact RxFrame.trans ⟨_, _, _, _, _, _, _, rfl⟩ (startReordering_frame _)
  · rw [if_neg hstop]
    split
    · exact startReordering_frame e
    · exact .refl e

lemma deliverStored_frame (e : Entity) (count : Nat) : RxFrame e (e.deliverStored count) := by
  simp only [Entity.deliverStored]
  split
  · exact (deliverConsecutive_frame e e.rxDeliv).trans ⟨_, _, _, _, _, _, _, rfl⟩
  · exact .refl e

lemma recvPdu_frame (c : Crypto) (e : Entity) (buffer : List UInt8) : ∃ next,
    (next = e.rxNext ∨ e.recvPdu c buffer = e.accept c buffer ∧ next = u32 (e.rxCount buffer + 1)) ∧
      RxFrame { e with rxNext := next } (e.recvPdu c buffer) := by
  rcases recvPdu_cases c e buffer with h | ⟨-, -, -, h⟩
  · rw [h]; exact ⟨_, .inl rfl, .refl e⟩
  · rw [h]
    refine ⟨(e.store (e.rxSdu c buffer) ((e.forceDcBit buffer).length - e.headerSize)).rxNext, ?_,
      RxFrame.trans ?_ (updateReordering_frame _)⟩
    · rcases Nat.lt_or_ge (e.rxCount buffer) e.rxNext with hlt | hge
      · exact .inl (if_neg (Nat.not_le.mpr hlt))
      · exact .inr ⟨rfl, if_pos hge⟩
    · exact RxFrame.trans ⟨_, _, _, _, _, _, _, rfl⟩ (deliverStored_frame _ _)

lemma setTime_frame (e : Entity) (now : Nat) : RxFrame e (e.setTime now) := by
  apply @RxFrame.trans e { e with tCurrent := now } _ ⟨_, _, _, _, _, _, _, rfl⟩
  unfold Entity.setTime Entity.checkTReordering
  split
  · exact .refl _
  split
  · exact .refl _
  refine RxFrame.trans ?_ (startReordering_frame _)
  exact RxFrame.trans ⟨_, _, _, _, _, _, _, rfl⟩ <| (deliverBelow_frame _ _).trans <|
    (deliverConsecutive_frame _ _).trans ⟨_, _, _, _, _, _, _, rfl⟩

/-! ## The SDUs a receiver holds -/

/-- The SDUs handed over, then those still waiting for delivery. -/
def Entity.held (e : Entity) : List Sdu := e.delivered ++ e.rxList

lemma deliverHead_held {a : Sdu} (h : e.rxList = a :: l) : (e.deliverHead a l).held = e.held := by
  simp [Entity.held, Entity.deliverHead, h]

lemma deliverConsecutive_held :
    ∀ (e : Entity) (count : Nat), e.rxList = l → (e.deliverConsecutive count l).1.held = e.held := by
  induction l with
  | nil => exact fun _ _ _ => rfl
  | cons a l ih =>
    intro e count h
    unfold Entity.deliverConsecutive
    split
    · rw [ih (e.deliverHead a l) _ rfl, deliverHead_held h]
    · rfl

lemma deliverBelow_held :
    ∀ (e : Entity) (bound : Nat), e.rxList = l →
      (e.deliverBelow bound l).held = e.held := by
  induction l with
  | nil => exact fun _ _ _ => rfl
  | cons a l ih =>
    intro e bound h
    unfold Entity.deliverBelow
    split
    · rw [ih (e.deliverHead a l) _ rfl, deliverHead_held h]
    · rfl

lemma startReordering_held (e : Entity) : e.startReordering.held = e.held := by
  unfold Entity.startReordering
  split <;> rfl

lemma updateReordering_held (e : Entity) : e.updateReordering.held = e.held := by
  simp only [Entity.updateReordering]
  by_cases hstop : e.tReorderingStart ≠ 0 ∧ e.rxReord ≤ e.rxDeliv
  · rw [if_pos hstop, if_pos rfl, startReordering_held]; rfl
  · rw [if_neg hstop]
    split
    · exact startReordering_held e
    · rfl

lemma deliverStored_held (e : Entity) (count : Nat) : (e.deliverStored count).held = e.held := by
  simp only [Entity.deliverStored]
  split
  · exact deliverConsecutive_held e e.rxDeliv rfl
  · rfl

theorem recvPdu_held (c : Crypto) {buffer : List UInt8} {s : Sdu}
    (h : s ∈ (e.recvPdu c buffer).held) : s ∈ e.held ∨ s = e.rxSdu c buffer := by
  rcases recvPdu_cases c e buffer with h0 | ⟨-, -, -, h0⟩
  · rw [h0] at h; exact .inl h
  · rw [h0, Entity.accept, updateReordering_held, deliverStored_held] at h
    rcases mem_append.mp h with h | h
    · exact .inl (mem_append_left _ h)
    · rcases mem_sduListAdd.mp h with h | h
      · exact .inr h
      · exact .inl (mem_append_right _ h)

lemma setTime_held (e : Entity) (now : Nat) : (e.setTime now).held = e.held := by
  unfold Entity.setTime Entity.checkTReordering
  split
  · rfl
  split
  · rfl
  simp only [Entity.expireReordering]
  rw [startReordering_held]
  exact (deliverConsecutive_held _ _ rfl).trans (deliverBelow_held _ _ rfl)

/-! ## One PDU, written and read -/

/-- Both ends of one bearer: same type, SN size, bearer and security, opposite sides. -/
structure Matched (tx rx : Entity) : Prop where
  type : rx.type = tx.type
  snSize : rx.snSize = tx.snSize
  snMax : rx.snMax = tx.snMax
  windowSize : rx.windowSize = tx.windowSize
  rbId : rx.rbId = tx.rbId
  sdap : rx.hasSdapRx = tx.hasSdapTx
  side : rx.isGnb = !tx.isGnb
  ciphering : rx.hasCiphering = tx.hasCiphering
  securityContext : rx.securityContext = tx.securityContext
  integrity : rx.hasIntegrity = tx.hasIntegrity
  integrityContext : rx.integrityContext = tx.integrityContext

/-- Ciphering twice with the same parameters gives the buffer back. -/
def Crypto.Involutive (c : Crypto) : Prop :=
  ∀ algorithm key buffer bearer count direction,
    c.cipher algorithm key (c.cipher algorithm key buffer bearer count direction) bearer count
      direction = buffer

lemma Crypto.stream_involutive : Crypto.stream.Involutive := by
  intro algorithm key buffer bearer count direction
  show (buffer.map _).map _ = buffer
  simp only [map_map, Function.comp_def, UInt8.xor_assoc, UInt8.xor_self, UInt8.xor_zero, map_id']

lemma header_length (e : Entity) (sn : Nat) : (e.header sn).length = e.headerSize := by
  simp only [Entity.header, Entity.headerSize]
  split <;> rfl

lemma encipher_header (c : Crypto) (e : Entity) (count sn : Nat) (buffer : List UInt8) :
    ∃ rest, e.encipher c count (e.header sn ++ buffer) = e.header sn ++ rest := by
  unfold Entity.encipher
  split
  · dsimp only
    rw [← header_length e sn, take_length_add_append, append_assoc]
    exact ⟨_, rfl⟩
  · exact ⟨_, rfl⟩

lemma txPdu_header (c : Crypto) (e : Entity) (sdu : List UInt8) :
    ∃ rest, e.txPdu c sdu = e.header (e.txNext &&& e.snMax) ++ rest := by
  simp only [Entity.txPdu, append_assoc]
  exact encipher_header c e e.txNext _ _

theorem rcvdSn_header {tx rx : Entity} (hs : rx.snSize = tx.snSize) (hcfg : SnConfig tx) {sn : Nat}
    (hsn : sn < 2 * tx.windowSize) (rest : List UInt8) : rx.rcvdSn (tx.header sn ++ rest) = sn := by
  have hlow : ∀ dc, dc = 0x80 ∨ dc = 0 → (∀ x ≤ 0xf, (UInt8.ofNat (dc ||| x)).toNat &&& 0xf = x) ∧
      (∀ x ≤ 0x3, (UInt8.ofNat (dc ||| x)).toNat &&& 0x3 = x) := by
    rintro dc (rfl | rfl) <;> decide
  obtain ⟨dc, hdc⟩ : ∃ dc, (if tx.type = .drbAm ∨ tx.type = .drbUm then 0x80 else 0) = dc := ⟨_, rfl⟩
  have hdc' : dc = 0x80 ∨ dc = 0 := by
    rw [← hdc]; split
    · exact .inl rfl
    · exact .inr rfl
  have hbyte : ∀ n, (UInt8.ofNat (n &&& 0xff)).toNat = n % 256 := by
    intro n
    rw [UInt8.toNat_ofNat', Nat.and_two_pow_sub_one_eq_mod n 8]
    omega
  rw [Entity.rcvdSn, Entity.header, hs, hdc]
  rcases hcfg.cases with ⟨hs, hw⟩ | ⟨hs, hw⟩
  · rw [hs, if_pos (by decide), if_pos (by decide)]
    show (((UInt8.ofNat (dc ||| ((sn >>> 8) &&& 0xf))).toNat &&& 0xf) <<< 8)
      ||| (UInt8.ofNat (sn &&& 0xff)).toNat = sn
    rw [(hlow dc hdc').1 _ Nat.and_le_right, hbyte, Nat.and_two_pow_sub_one_eq_mod _ 4,
      ← Nat.shiftLeft_add_eq_or_of_lt (Nat.mod_lt _ (by decide)), Nat.shiftLeft_eq,
      Nat.shiftRight_eq_div_pow]
    omega
  · rw [hs, if_neg (by decide), if_neg (by decide)]
    show ((((UInt8.ofNat (dc ||| ((sn >>> 16) &&& 0x3))).toNat &&& 0x3) <<< 16)
      ||| ((UInt8.ofNat ((sn >>> 8) &&& 0xff)).toNat <<< 8))
      ||| (UInt8.ofNat (sn &&& 0xff)).toNat = sn
    rw [(hlow dc hdc').2 _ Nat.and_le_right, hbyte, hbyte, Nat.and_two_pow_sub_one_eq_mod _ 2,
      Nat.or_assoc, ← Nat.shiftLeft_add_eq_or_of_lt (Nat.mod_lt _ (by decide)),
      ← Nat.shiftLeft_add_eq_or_of_lt (by rw [Nat.shiftLeft_eq]; omega)]
    omega

lemma rcvdSn_forceDcBit (e : Entity) (buffer : List UInt8) :
    e.rcvdSn (e.forceDcBit buffer) = e.rcvdSn buffer := by
  cases buffer with
  | nil => rfl
  | cons b bs =>
    have hlow : ∀ m : Nat, 128 &&& m = 0 → (b ||| 128).toNat &&& m = b.toNat &&& m := by
      intro m hm
      rw [UInt8.toNat_or, Nat.and_or_distrib_right]
      exact (congrArg (b.toNat &&& m ||| ·) hm).trans (Nat.or_zero _)
    rw [Entity.forceDcBit]
    split
    · simp only [Entity.rcvdSn, getD_cons_zero, getD_cons_succ, hlow 0xf (by decide),
        hlow 0x3 (by decide)]
    · rfl

/-- Inside the window the receiver finds the sender's COUNT. -/
theorem rxCount_txPdu (c : Crypto) {tx rx : Entity} (hcfg : SnConfig rx) (hcfg' : SnConfig tx)
    (hs : rx.snSize = tx.snSize) (sdu : List UInt8) (hd : rx.rxDeliv < 2 ^ 32) (hn : tx.txNext < 2 ^ 32)
    (hlo : rx.rxDeliv ≤ tx.txNext + rx.windowSize) (hhi : tx.txNext < rx.rxDeliv + rx.windowSize) :
    rx.rxCount (tx.txPdu c sdu) = tx.txNext := by
  have hw : 0 < 2 * tx.windowSize := by rcases hcfg'.cases with ⟨-, hw⟩ | ⟨-, hw⟩ <;> omega
  have hwindow : rx.windowSize = tx.windowSize := by rw [hcfg.window, hcfg'.window, hs]
  have hsn : tx.txNext &&& tx.snMax = tx.txNext % (2 * tx.windowSize) := by
    rw [hcfg'.max, Nat.and_two_pow_sub_one_eq_mod, hcfg'.two_window]
  obtain ⟨rest, hpdu⟩ := txPdu_header c tx sdu
  rw [Entity.rxCount, rcvdSn_forceDcBit, hpdu, hsn, rcvdSn_header hs hcfg' (Nat.mod_lt _ hw), ← hwindow]
  exact rcvdCount_near hcfg hd hn hlo hhi

/-- **COUNT reconstruction.**  From the SN that `process_sdu` writes for a COUNT less than a window
ahead of `rx_deliv` and at most a window behind, `recv_pdu` computes that COUNT, up to the end of
the COUNT space; the two entities share the SN size, nothing else. -/
theorem count_reconstruction (c : Crypto) {tx rx : Entity} (hrx : SnConfig rx) (htx : SnConfig tx)
    (hs : rx.snSize = tx.snSize) (sdu : List UInt8) (hlo : rx.rxDeliv - rx.windowSize ≤ tx.txNext)
    (hhi : tx.txNext < rx.rxDeliv + rx.windowSize) (hmax : rx.rxDeliv + rx.windowSize ≤ 2 ^ 32) :
    rx.rxCount (tx.txPdu c sdu) = tx.txNext := by
  exact rxCount_txPdu c hrx htx hs sdu (by omega) (by omega) (by omega) hhi

theorem count_reconstruction_wrap :
    ({ plainDrb with txNext := 4097 } : Entity).txPdu .null [0x2a] = [0x80, 1, 0x2a] ∧
      ({ plainDrb with rxDeliv := 4094 } : Entity).rxCount
        (({ plainDrb with txNext := 4097 } : Entity).txPdu .null [0x2a]) = 4097 := by
  refine ⟨by decide, ?_⟩
  have htx : SnConfig { plainDrb with txNext := 4097 } := ⟨by decide, by decide, by decide⟩
  have hrx : SnConfig { plainDrb with rxDeliv := 4094 } := ⟨by decide, by decide, by decide⟩
  exact count_reconstruction .null hrx htx rfl [0x2a] (by decide) (by decide) (by decide)

section Peers

variable {tx rx : Entity} (hm : Matched tx rx)
include hm

lemma Matched.headerSize_eq : rx.headerSize = tx.headerSize := by
  rw [Entity.headerSize, Entity.headerSize, hm.snSize]

lemma Matched.integritySize_eq : rx.integritySize = tx.integritySize := by
  rw [Entity.integritySize, Entity.integritySize, hm.integrity, hm.type]

lemma Matched.sdapHeaderSize_eq : rx.sdapHeaderSizeRx = tx.sdapHeaderSizeTx := by
  rw [Entity.sdapHeaderSizeRx, Entity.sdapHeaderSizeTx, hm.sdap]

lemma Matched.direction_eq : rx.directionRx = tx.directionTx := by
  rw [Entity.directionRx, Entity.directionTx, hm.side]
  cases tx.isGnb <;> rfl

lemma Matched.frame {rx' : Entity} (hf : RxFrame rx rx') : Matched tx rx' := by
  obtain ⟨_, _, _, _, _, _, _, rfl⟩ := hf
  exact { hm with }

lemma Matched.frame_tx {tx' : Entity} (hf : RxFrame tx tx') : Matched tx' rx := by
  obtain ⟨_, _, _, _, _, _, _, rfl⟩ := hf
  exact { hm with }

lemma Matched.rxNext (n : Nat) : Matched tx { rx with rxNext := n } :=
  { hm with }

lemma Matched.txNext (n : Nat) : Matched { tx with txNext := n } rx :=
  { hm with }

lemma forceDcBit_header (sn : Nat) (rest : List UInt8) :
    rx.forceDcBit (tx.header sn ++ rest) = tx.header sn ++ rest := by
  -- the low part of the first byte is four or two bits wide
  have hbit : ∀ x ≤ 0xf, UInt8.ofNat (0x80 ||| x) &&& 0x80 ≠ 0 := by decide
  have h4 : (sn >>> 8) &&& 0xf ≤ 0xf := Nat.and_le_right
  have h2 : (sn >>> 16) &&& 0x3 ≤ 0xf := Nat.le_trans Nat.and_le_right (by decide)
  have hdrb : tx.type ≠ .srb → (if tx.type = .drbAm ∨ tx.type = .drbUm then 0x80 else 0) = 0x80 := by
    cases tx.type <;> decide
  by_cases hsrb : tx.type = .srb
  · simp only [Entity.header]
    split <;> exact if_neg fun h => h.1 (hm.type.trans hsrb)
  · simp only [Entity.header, hdrb hsrb]
    split
    · exact if_neg fun h => hbit _ h4 h.2
    · exact if_neg fun h => hbit _ h2 h.2

/-- Deciphering undoes ciphering under one COUNT. -/
theorem decipher_encipher {c : Crypto} (hinv : c.Involutive) (count : Nat) {buffer : List UInt8}
    (hlen : tx.headerSize + tx.sdapHeaderSizeTx ≤ buffer.length) :
    rx.decipher c count (tx.encipher c count buffer) = buffer := by
  unfold Entity.decipher Entity.encipher
  rw [hm.ciphering]
  split
  · dsimp only
    rw [hm.headerSize_eq, hm.sdapHeaderSize_eq, hm.securityContext, hm.rbId, hm.direction_eq]
    have htake : (buffer.take (tx.headerSize + tx.sdapHeaderSizeTx)).length
        = tx.headerSize + tx.sdapHeaderSizeTx := length_take_of_le hlen
    rw [take_left' htake, drop_left' htake, hinv, take_append_drop]
  · rfl

lemma Matched.snConfig (hcfg : SnConfig rx) : SnConfig tx :=
  ⟨hm.snSize ▸ hcfg.size, hm.snMax ▸ hm.snSize ▸ hcfg.max, hm.windowSize ▸ hm.snSize ▸ hcfg.window⟩

end Peers

lemma macI_length (c : Crypto) (e : Entity) (count : Nat) (buf : List UInt8) :
    (e.macI c count buf).length = e.integritySize := by
  unfold Entity.macI
  split
  · rename_i h
    rw [c.integrity_length, Entity.integritySize, if_pos (.inl h)]
  split
  · rename_i h
    rw [length_replicate, h]
  · rename_i hi hsize
    rw [Entity.integritySize] at hsize ⊢
    split at hsize
    · exact absurd rfl hsize
    · rename_i h
      rw [if_neg h]; rfl

theorem rxSdu_txPdu (hinv : c.Involutive) {tx rx : Entity} (hm : Matched tx rx) (hcfg : SnConfig rx)
    {sdu : List UInt8} (hsdu : tx.sdapHeaderSizeTx ≤ sdu.length) (hd : rx.rxDeliv < 2 ^ 32)
    (hn : tx.txNext < 2 ^ 32) (hlo : rx.rxDeliv ≤ tx.txNext + rx.windowSize)
    (hhi : tx.txNext < rx.rxDeliv + rx.windowSize) :
    rx.rxCount (tx.txPdu c sdu) = tx.txNext ∧ (rx.rxSdu c (tx.txPdu c sdu)).buffer = sdu := by
  have hcfg' := hm.snConfig hcfg
  obtain ⟨rest, hpdu⟩ := txPdu_header c tx sdu
  have hforce : rx.forceDcBit (tx.txPdu c sdu) = tx.txPdu c sdu := by
    rw [hpdu]; exact forceDcBit_header hm _ _
  have hcount := rxCount_txPdu c hcfg hcfg' hm.snSize sdu hd hn hlo hhi
  refine ⟨hcount, ?_⟩
  have hclear : rx.rxClear c (tx.txPdu c sdu) = tx.header (tx.txNext &&& tx.snMax)
      ++ (sdu ++ tx.macI c tx.txNext (tx.header (tx.txNext &&& tx.snMax) ++ sdu)) := by
    rw [Entity.rxClear, hcount, hforce, ← append_assoc]
    apply decipher_encipher hm hinv _
    rw [length_append, length_append, header_length]
    omega
  -- header and MAC-I are cut off again
  show ((rx.rxClear c (tx.txPdu c sdu)).drop rx.headerSize).take _ = sdu
  rw [hclear, hm.headerSize_eq, drop_left' (header_length tx _)]
  apply take_left'
  rw [length_append, length_append, header_length, macI_length, hm.integritySize_eq]
  omega

/-! ## The system -/

/-- The two entities, the SDUs sent so far and the PDUs made of them. -/
structure Transfer where
  tx : Entity
  rx : Entity
  sent : List (List UInt8)
  pdus : List (List UInt8)

/-- An SDU is sent, any PDU made so far arrives, or time passes. -/
inductive TransferOp
  | processSdu (sdu : List UInt8) (pduMaxSize : Nat)
  | arrive (i : Nat)
  | setTimeTx (now : Nat)
  | setTimeRx (now : Nat)

namespace Transfer

/-- PDUs that never `arrive` are lost, those that do so twice are duplicated. -/
def step (c : Crypto) (s : Transfer) : TransferOp → Option Transfer
  | .processSdu sdu pduMaxSize =>
    (s.tx.processSdu c sdu pduMaxSize).map fun
      | (tx, some pdu) => { s with tx := tx, sent := s.sent ++ [sdu], pdus := s.pdus ++ [pdu] }
      | (tx, none) => { s with tx := tx }
  | .arrive i => (s.pdus[i]?).map fun pdu => { s with rx := s.rx.recvPdu c pdu }
  | .setTimeTx now => some { s with tx := s.tx.setTime now }
  | .setTimeRx now => some { s with rx := s.rx.setTime now }

/-- Two fresh entities of one bearer; nothing has been sent. -/
def Start (s : Transfer) : Prop :=
  ∃ type isGnb rbId sdap sdapRxTx sdapTxRx snSize tReorderingTx tReorderingRx security,
    (snSize = shortSnSize ∨ snSize = longSnSize) ∧
      newNrPdcpEntity type isGnb rbId sdapRxTx sdap snSize tReorderingTx security = some s.tx ∧
      newNrPdcpEntity type (!isGnb) rbId sdap sdapTxRx snSize tReorderingRx security = some s.rx ∧
      s.sent = [] ∧ s.pdus = []

/-- SDUs are larger than the SDAP header and `tx_next` stays below `2^32`; the PDU of COUNT `i`
arrives while `i` is in the window around `rx_deliv`. -/
def Guard (s : Transfer) : TransferOp → Prop
  | .processSdu sdu _ => s.tx.sdapHeaderSizeTx < sdu.length ∧ s.tx.txNext + 1 < 2 ^ 32
  | .arrive i => s.rx.rxDeliv ≤ i + s.rx.windowSize ∧ i < s.rx.rxDeliv + s.rx.windowSize
  | .setTimeTx _ => True
  | .setTimeRx _ => True

instance (s : Transfer) : ∀ op, Decidable (s.Guard op)
  | .processSdu _ _ => inferInstanceAs (Decidable (_ ∧ _))
  | .arrive _ => inferInstanceAs (Decidable (_ ∧ _))
  | .setTimeTx _ => isTrue trivial
  | .setTimeRx _ => isTrue trivial

end Transfer

/-- Two new entities with the same configuration, and any steps. -/
def transferMachine (c : Crypto) : Spec Transfer TransferOp where
  init := Transfer.Start
  guard := Transfer.Guard
  step := Transfer.step c

instance (c : Crypto) (s : Transfer) (op : TransferOp) :
    Decidable ((transferMachine c).guard s op) :=
  inferInstanceAs (Decidable (s.Guard op))

/-- **The transfer invariant**: PDU `i` is the one written for SDU `i` at COUNT `i`, and every
SDU the receiver holds is the submitted SDU of its COUNT. -/
structure TransferInv (c : Crypto) (s : Transfer) : Prop where
  window : WindowInv s.rx
  matched : Matched s.tx s.rx
  next : s.tx.txNext = s.sent.length
  bound : s.sent.length < 2 ^ 32
  rxNext : s.rx.rxNext ≤ s.sent.length
  sdap : ∀ sdu ∈ s.sent, s.tx.sdapHeaderSizeTx < sdu.length
  written : s.pdus.length = s.sent.length
  pdus : ∀ i pdu, s.pdus[i]? = some pdu → ∃ sdu, s.sent[i]? = some sdu ∧
    pdu = Entity.txPdu c { s.tx with txNext := i } sdu
  held : ∀ x ∈ s.rx.held, s.sent[x.count]? = some x.buffer

lemma start_matched (h : s.Start) : WindowInv s.rx ∧ Matched s.tx s.rx ∧
    s.tx.txNext = 0 ∧ s.rx.rxNext = 0 ∧ s.rx.held = [] := by
  obtain ⟨type, isGnb, rbId, sdap, sdapRxTx, sdapTxRx, snSize, tReorderingTx, tReorderingRx,
    security, hs, htx, hrx, -, -⟩ := h
  refine ⟨newNrPdcpEntity_inv hs hrx, ?_⟩
  obtain ⟨_, hc, sc, hi, ic, heq, hciph, hint⟩ := Entity.setSecurity_cases htx
  obtain ⟨_, hc', sc', hi', ic', heq', hciph', hint'⟩ := Entity.setSecurity_cases hrx
  obtain ⟨rfl, rfl⟩ := hciph.unique hciph'
  obtain ⟨rfl, rfl⟩ := hint.unique hint'
  rw [heq, heq']
  exact ⟨⟨rfl, rfl, rfl, rfl, rfl, rfl, rfl, rfl, rfl, rfl, rfl⟩, rfl, rfl, rfl⟩

lemma start_inv (c : Crypto) (h : s.Start) : TransferInv c s := by
  obtain ⟨hwin, hm, hnext, hrx, hheld⟩ := start_matched h
  obtain ⟨-, -, -, -, -, -, -, -, -, -, -, -, -, hsent, hpdus⟩ := h
  exact
    { window := hwin, matched := hm, next := by rw [hnext, hsent]; rfl
      bound := by rw [hsent]; decide
      rxNext := by rw [hrx]; exact Nat.zero_le _
      sdap := by rw [hsent]; intro sdu h; nomatch h
      written := by rw [hpdus, hsent]
      pdus := by rw [hpdus]; intro i pdu h; nomatch h
      held := by rw [hheld]; intro x h; nomatch h }

lemma processSdu_transfer (c : Crypto) {s' : Transfer} (h : TransferInv c s) {sdu : List UInt8}
    {pduMaxSize : Nat} (hsdu : s.tx.sdapHeaderSizeTx < sdu.length) (hb : s.tx.txNext + 1 < 2 ^ 32)
    (hstep : s.step c (.processSdu sdu pduMaxSize) = some s') : TransferInv c s' := by
  obtain ⟨r, hr, rfl⟩ := Option.map_eq_some_iff.mp hstep
  rcases Entity.processSdu_cases hr with ⟨-, rfl⟩ | ⟨-, rfl⟩
  · exact h
  · have hnext := h.next
    have hu : u32 (s.tx.txNext + 1) = s.sent.length + 1 := by
      rw [u32, Nat.mod_eq_of_lt hb, hnext]
    have hold : ∀ i x, s.sent[i]? = some x → (s.sent ++ [sdu])[i]? = some x := fun i x hx => by
      rw [getElem?_append_left (List.getElem?_eq_some_iff.mp hx).1]; exact hx
    exact
      { window := h.window
        matched := h.matched.txNext _
        next := by rw [length_append]; exact hu
        bound := by rw [length_append, ← hnext]; exact hb
        rxNext := by
          have := h.rxNext
          rw [length_append]; exact Nat.le_trans this (Nat.le_add_right _ _)
        sdap := by
          intro x hx
          rcases mem_append.mp hx with hx | hx
          · exact h.sdap x hx
          · rw [mem_singleton.mp hx]; exact hsdu
        written := by rw [length_append, length_append, h.written]; rfl
        pdus := by
          intro i pdu hp
          rcases Nat.lt_or_ge i s.pdus.length with hi | hi
          · rw [getElem?_append_left hi] at hp
            obtain ⟨x, hx, hpdu⟩ := h.pdus i pdu hp
            exact ⟨x, hold i x hx, hpdu⟩
          · -- the PDU just written sits at index `tx_next`
            obtain ⟨hlt, hget⟩ := List.getElem?_eq_some_iff.mp hp
            have hi' : i = s.sent.length := by
              rw [length_append, length_singleton, h.written] at hlt
              rw [h.written] at hi
              omega
            subst hi'
            refine ⟨sdu, getElem?_concat_length, ?_⟩
            rw [← h.written, getElem?_concat_length] at hp
            rw [← hnext]
            exact (Option.some.inj hp).symm
        held := fun x hx => hold _ _ (h.held x hx) }

lemma arrive_transfer (hinv : c.Involutive) {s' : Transfer} (h : TransferInv c s) {i : Nat}
    (hlo : s.rx.rxDeliv ≤ i + s.rx.windowSize) (hhi : i < s.rx.rxDeliv + s.rx.windowSize)
    (hstep : s.step c (.arrive i) = some s') : TransferInv c s' := by
  obtain ⟨pdu, hpdu, rfl⟩ := Option.map_eq_some_iff.mp hstep
  obtain ⟨sdu, hsdu, hwritten⟩ := h.pdus i pdu hpdu
  have hi : i < s.sent.length := (List.getElem?_eq_some_iff.mp hsdu).1
  have hbound := h.bound
  have hnext := h.rxNext
  have hdeliv := h.window.next
  obtain ⟨hcount, hbuf⟩ := rxSdu_txPdu hinv (h.matched.txNext i) h.window.config
    (Nat.le_of_lt (h.sdap sdu (mem_of_getElem? hsdu))) (by omega)
    (Nat.lt_trans hi h.bound) hlo hhi
  rw [← hwritten] at hcount hbuf
  change s.rx.rxCount pdu = i at hcount
  obtain ⟨next, hnx, hframe⟩ := recvPdu_frame c s.rx pdu
  exact
    { window := by
        rcases recvPdu_cases c s.rx pdu with h0 | ⟨-, hge, hnew, h0⟩
        · show WindowInv (s.rx.recvPdu c pdu)
          rw [h0]; exact h.window
        · show WindowInv (s.rx.recvPdu c pdu)
          rw [h0]
          exact (accept_inv c h.window (by omega) (by omega) hge (by omega) hnew).1
      matched := (h.matched.rxNext next).frame hframe
      next := h.next
      bound := h.bound
      rxNext := by
        show (s.rx.recvPdu c pdu).rxNext ≤ s.sent.length
        have hrx : (s.rx.recvPdu c pdu).rxNext = next := by
          obtain ⟨_, _, _, _, _, _, _, heq⟩ := hframe
          rw [heq]
        rw [hrx]
        rcases hnx with rfl | ⟨-, rfl⟩
        · exact hnext
        · rw [u32, hcount, Nat.mod_eq_of_lt (by omega)]; omega
      sdap := h.sdap
      written := h.written
      pdus := h.pdus
      held := by
        intro x hx
        rcases recvPdu_held c hx with hx | rfl
        · exact h.held x hx
        · show s.sent[s.rx.rxCount pdu]? = _
          rw [hcount, hbuf]; exact hsdu }

lemma setTimeRx_transfer (h : TransferInv c s) (now : Nat) :
    TransferInv c { s with rx := s.rx.setTime now } := by
  have hframe := setTime_frame s.rx now
  exact
    { window := (setTime_inv h.window now (Nat.lt_of_le_of_lt h.rxNext h.bound)).1
      matched := h.matched.frame hframe
      next := h.next, bound := h.bound
      rxNext := by
        obtain ⟨_, _, _, _, _, _, _, heq⟩ := hframe
        rw [heq]; exact h.rxNext
      sdap := h.sdap, written := h.written, pdus := h.pdus
      held := by
        intro x hx
        exact h.held x (setTime_held s.rx now ▸ hx) }

lemma setTimeTx_transfer (h : TransferInv c s) (now : Nat) :
    TransferInv c { s with tx := s.tx.setTime now } := by
  have hframe := setTime_frame s.tx now
  have hm := h.matched.frame_tx hframe
  obtain ⟨_, _, _, _, _, _, _, heq⟩ := hframe
  exact
    { window := h.window, matched := hm
      next := by
        rw [heq]; exact h.next
      bound := h.bound, rxNext := h.rxNext
      sdap := by
        rw [heq]; exact h.sdap
      written := h.written
      pdus := by
        intro i pdu hp
        obtain ⟨sdu, hsdu, hw⟩ := h.pdus i pdu hp
        refine ⟨sdu, hsdu, ?_⟩
        rw [hw, heq]; rfl
      held := h.held }

lemma reach_transfer (hinv : c.Involutive) (h : Reach (transferMachine c) s) :
    TransferInv c s := by
  apply h.invariant (fun s hs => start_inv c hs)
  intro s i s' _ hi hg hstep
  cases i with
  | processSdu sdu pduMaxSize => exact processSdu_transfer c hi hg.1 hg.2 hstep
  | arrive i => exact arrive_transfer hinv hi hg.1 hg.2 hstep
  | setTimeTx now => cases hstep; exact setTimeTx_transfer hi now
  | setTimeRx now => cases hstep; exact setTimeRx_transfer hi now

lemma countSorted_sublist {sent : List (List UInt8)} :
    ∀ k, CountSorted l → (∀ x ∈ l, k ≤ x.count ∧ sent[x.count]? = some x.buffer) →
      (l.map Sdu.buffer).Sublist (sent.drop k) := by
  induction l with
  | nil => exact fun _ _ _ => nil_sublist _
  | cons a l ih =>
    intro k hs hget
    obtain ⟨ha, hl⟩ := pairwise_cons.mp hs
    obtain ⟨hk, hbuf⟩ := hget a mem_cons_self
    have htail := ih (a.count + 1) hl fun x hx =>
      ⟨ha x hx, (hget x (mem_cons_of_mem _ hx)).2⟩
    have hdrop : sent.drop a.count = a.buffer :: sent.drop (a.count + 1) := by
      obtain ⟨hlt, heq⟩ := List.getElem?_eq_some_iff.mp hbuf
      rw [drop_eq_getElem_cons hlt, heq]
    refine List.Sublist.trans ?_ (drop_sublist_drop_left sent hk)
    rw [hdrop, map_cons]
    exact htail.cons_cons a.buffer

/-- **End-to-end transfer.**  Whatever is lost, duplicated or reordered, the receiver hands over
a subsequence of the submitted SDUs, byte for byte. -/
theorem transfer_subsequence (c : Crypto) (hinv : c.Involutive) {s : Transfer}
    (h : Reach (transferMachine c) s) : (s.rx.delivered.map Sdu.buffer).Sublist s.sent := by
  have hi := reach_transfer hinv h
  exact countSorted_sublist 0 hi.window.order fun x hx =>
    ⟨Nat.zero_le _, hi.held x (mem_append_left _ hx)⟩

/-- A UM bearer with integrity protection and ciphering. -/
def securedPeers : Transfer where
  tx := (newNrPdcpEntity .drbUm true 1 false true shortSnSize 10 ⟨2, 2, [7], [9]⟩).get (by decide)
  rx := (newNrPdcpEntity .drbUm false 1 true false shortSnSize 10 ⟨2, 2, [7], [9]⟩).get (by decide)
  sent := []
  pdus := []

theorem transfer_subsequence_lossy : ∃ s, Reach (transferMachine .stream) s ∧
    s.rx.delivered.map Sdu.buffer = [[0, 1], [0, 3]] ∧
      (s.rx.delivered.map Sdu.buffer).Sublist s.sent := by
  obtain ⟨s, hs, hdel⟩ := Reach.exists_of_run
    (P := fun s => s.rx.delivered.map Sdu.buffer = [[0, 1], [0, 3]])
    (m := transferMachine .stream) (s := securedPeers)
    (.start ⟨.drbUm, true, 1, true, false, false, shortSnSize, 10, 10, ⟨2, 2, [7], [9]⟩,
      .inl rfl, rfl, rfl, rfl, rfl⟩)
    [.setTimeRx 1, .processSdu [0, 1] 64, .processSdu [0, 2] 64, .processSdu [0, 3] 64,
      .arrive 2, .arrive 0, .arrive 2, .setTimeRx 12] (by decide)
  exact ⟨s, hs, hdel, transfer_subsequence .stream Crypto.stream_involutive hs⟩

end NrStack.Pdcp
