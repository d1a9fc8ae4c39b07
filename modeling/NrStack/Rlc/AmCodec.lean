/-
  The PDUs of AM, written and read.

  A data PDU `Encodes` a segment when it is the bits of a header followed by the segment's bytes; the P bit
  is set after the header is written.

  A status PDU is a header (ACK_SN) and a list of NACKs.  The E1 bit at the end of each says whether another
  NACK follows, and is not known when it is written.  `statusBits` has the last E1 bit as a parameter:

      `statusBits (ns ++ [n]) e = statusBits ns true ++ n.bits e`.

  `Writing` ties the variables of `generate_status` to it; `process_control_pdu` reads the NACKs back
  (`readStatus_statusBits`).
-/
import NrStack.Rlc.AmTransmit

namespace NrStack.Rlc.Am

open List Bits

/-! ## Data PDUs -/

/-- The fields of the header of a data PDU. -/
def dataFields (L : Nat) (p isFirst isLast : Bool) (sn so : Nat) : List BitField :=
  [⟨true, 1, 1⟩, ⟨true, p.toNat, 1⟩, ⟨true, 1 - isFirst.toNat, 1⟩, ⟨true, 1 - isLast.toNat, 1⟩,
    ⟨L == 18, 0, 2⟩, ⟨true, sn, L⟩, ⟨!isFirst, so, 16⟩]

/-- A header and the bytes of the segment behind it. -/
def Encodes (L : Nat) (p isFirst isLast : Bool) (sn so : Nat) (data pdu : List UInt8) : Prop :=
  ∃ header, pdu = header ++ data ∧ stream header = fieldBits (dataFields L p isFirst isLast sn so)

variable {L sn so : Nat} {isFirst isLast : Bool} {cfg : Config} {rest : List Bool} {d : PduDecoder}

variable {p : Bool} {data pdu : List UInt8}

lemma encodes_iff :
    Encodes L p isFirst isLast sn so data pdu ↔ data <:+ pdu ∧
      stream (pdu.take (pdu.length - data.length)) =
        fieldBits (dataFields L p isFirst isLast sn so) := by
  constructor
  · rintro ⟨header, rfl, hbits⟩
    refine ⟨suffix_append header data, ?_⟩
    rw [length_append, Nat.add_sub_cancel, take_left]
    exact hbits
  · rintro ⟨⟨header, rfl⟩, hbits⟩
    rw [length_append, Nat.add_sub_cancel, take_left] at hbits
    exact ⟨header, rfl, hbits⟩

instance {L : Nat} {p isFirst isLast : Bool} {sn so : Nat} {data pdu : List UInt8} :
    Decidable (Encodes L p isFirst isLast sn so data pdu) := decidable_of_iff _ encodes_iff.symm

lemma readDataHeader_fields (hcfg : cfg.Legal) (hsn : sn < cfg.snModulus) (hso : so < 2 ^ 16)
    (hfirst : isFirst = true ↔ so = 0)
    (h : d.At (ofNat 1 (1 - isFirst.toNat) ++ ofNat 1 (1 - isLast.toNat) ++
      ((BitField.mk (cfg.snFieldLength == 18) 0 2).bits ++ (ofNat cfg.snFieldLength sn ++
        ((BitField.mk (!isFirst) so 16).bits ++ rest))))) :
    ∃ si d', readDataHeader cfg d = .ok (si, sn, so, d') ∧ d'.At rest ∧ d'.buffer = d.buffer ∧
      (si &&& 2 == 0) = isFirst ∧ (si &&& 1 == 0) = isLast := by
  obtain ⟨si, d₁, hr₁, h₁, hb₁, hf, hl⟩ := PduDecoder.read_si h
  obtain ⟨d₂, hr₂, h₂, hb₂⟩ := PduDecoder.readWhen_field h₁ (by decide) (by decide)
  obtain ⟨d₃, hr₃, h₃, hb₃⟩ := PduDecoder.read_ofNat h₂ hcfg.snFieldLength_le (hcfg.modulus ▸ hsn)
  obtain ⟨d₄, hr₄, h₄, hb₄⟩ := PduDecoder.readWhen_field h₃ (by decide) hso
  have hso' : (if !isFirst then so else 0) = so := by
    cases hf' : isFirst with
    | true => exact (hfirst.mp hf').symm
    | false => rfl
  have hseg : (si &&& 2 != 0) = !isFirst := by rw [← hf, bne]
  rw [hso'] at hr₄
  refine ⟨si, d₄, ?_, h₄, ((hb₄.trans hb₃).trans hb₂).trans hb₁, hf, hl⟩
  simp only [readDataHeader, hr₁, hr₂, hr₃, hseg, hr₄, bind, Except.bind, pure, Except.pure]

theorem recvPdu_encodes (e : Entity) (hcfg : e.cfg.Legal)
    (hsn : sn < e.cfg.snModulus) (hso : so < 2 ^ 16) (hfirst : isFirst = true ↔ so = 0)
    (h : Encodes e.cfg.snFieldLength p isFirst isLast sn so data pdu) :
    recvPdu e pdu = (recvSegment e.cfg e.tCurrent e.rx sn so isFirst isLast data).map
      fun rx => { e with rx := triggerStatus rx p } := by
  obtain ⟨header, rfl, hbits⟩ := h
  have hat := PduDecoder.At.init (header ++ data)
  rw [stream_append, hbits] at hat
  simp only [dataFields, fieldBits_cons, fieldBits_nil, bits_present, append_nil,
    append_assoc] at hat
  obtain ⟨d₁, hr₁, h₁, hb₁⟩ := PduDecoder.read_ofNat hat (by decide) (by decide)
  obtain ⟨d₂, hr₂, h₂, hb₂⟩ := PduDecoder.read_ofNat h₁ (by decide)
    (Nat.lt_succ_of_le (Bool.toNat_le p))
  obtain ⟨si, d₃, hr₃, h₃, hb₃, hf, hl⟩ := readDataHeader_fields hcfg hsn hso hfirst h₂
  -- the decoder stands in front of the data
  have hdrop : (header ++ data).drop d₃.byte = data := by
    have hbyte := (h₃.byte_eq (length_stream data)).1
    have hsize : d₃.size = (header ++ data).length := by
      rw [h₃.sized, hb₃, hb₂, hb₁]
      rfl
    rw [hbyte, hsize, length_append, Nat.add_sub_cancel, drop_left]
  have hbad : (!isFirst && so == 0) = false := by
    cases hfst : isFirst with
    | true => rfl
    | false =>
      have : so ≠ 0 := fun hz => Bool.false_ne_true (hfst.symm.trans (hfirst.mpr hz))
      simp [this]
  have hp : (p.toNat != 0) = p := by cases p <;> rfl
  simp only [recvPdu, hr₁, recvDataPdu, hr₂, hr₃, hf, hl, hbad, hdrop, hp, Bool.false_eq_true,
    if_false, Option.map_map]
  rfl

/-! ## The layout of a status PDU -/

/-- A NACK as it is written. -/
structure WireNack where
  sn : Nat
  e2 : Bool
  e3 : Bool
  soStart : Nat
  soEnd : Nat
  count : Nat
  deriving DecidableEq, Repr

/-- The NACK `generate_missing` writes for `m`. -/
def WireNack.of (m : MissingData) (count : Nat) : WireNack :=
  ⟨m.snStart, !m.whole, m.snStart != m.snEnd, m.soStart, m.soEnd, count⟩

/-- The bits up to the start of the segment offset. -/
def WireNack.front (L : Nat) (n : WireNack) (e1 : Bool) : List Bool :=
  ofNat L n.sn ++ e1 :: (ofNat 1 n.e2.toNat ++ (ofNat 1 n.e3.toNat ++
    (ofNat (if L = 18 then 3 else 1) 0 ++ (BitField.mk n.e2 n.soStart 16).bits)))

/-- The bits behind it. -/
def WireNack.back (n : WireNack) : List Bool :=
  (BitField.mk n.e2 n.soEnd 16).bits ++ (BitField.mk n.e3 n.count 8).bits

/-- The bits of a NACK; `e1`: another follows. -/
def WireNack.bits (L : Nat) (n : WireNack) (e1 : Bool) : List Bool := n.front L e1 ++ n.back

/-- The E1 bit in front of the NACKs `ns`, the last E1 bit being `e`. -/
def moreBit (ns : List WireNack) (e : Bool) : Bool := !ns.isEmpty || e

/-- The NACKs of a status PDU, the last E1 bit being `e`. -/
def nackBits (L : Nat) (e : Bool) : List WireNack → List Bool
  | [] => []
  | n :: ns => n.bits L (moreBit ns e) ++ nackBits L e ns

/-- A status PDU, the last E1 bit being `e`. -/
def statusBits (L ackSn : Nat) (ns : List WireNack) (e : Bool) : List Bool :=
  ofNat 1 0 ++ (ofNat 3 0 ++ (ofNat L ackSn ++ (ofNat 1 (moreBit ns e).toNat ++
    (ofNat (if L = 18 then 1 else 7) 0 ++ nackBits L e ns))))

lemma nackBits_concat (L : Nat) (e : Bool) (ns : List WireNack) (n : WireNack) :
    nackBits L e (ns ++ [n]) = nackBits L true ns ++ n.bits L e := by
  induction ns with
  | nil =>
    show n.bits L (moreBit [] e) ++ [] = _
    rw [append_nil]
    rfl
  | cons x ns ih =>
    show x.bits L (moreBit (ns ++ [n]) e) ++ nackBits L e (ns ++ [n]) =
      x.bits L (moreBit ns true) ++ nackBits L true ns ++ n.bits L e
    have hmore : moreBit (ns ++ [n]) e = moreBit ns true := by
      cases ns <;> rfl
    rw [ih, hmore, append_assoc]

theorem statusBits_concat (L ackSn : Nat) (ns : List WireNack) (n : WireNack) (e : Bool) :
    statusBits L ackSn (ns ++ [n]) e = statusBits L ackSn ns true ++ n.bits L e := by
  have hmore : moreBit (ns ++ [n]) e = moreBit ns true := by
    cases ns <;> rfl
  rw [statusBits, nackBits_concat, hmore, statusBits]
  simp

/-- The bytes of a NACK. -/
def WireNack.length (L : Nat) (n : WireNack) : Nat :=
  2 + (if L = 18 then 1 else 0) + (if n.e2 then 4 else 0) + if n.e3 then 1 else 0

lemma length_front (hL : L = 12 ∨ L = 18) (n : WireNack) (e1 : Bool) :
    (n.front L e1).length = 8 * (2 + (if L = 18 then 1 else 0) + if n.e2 then 2 else 0) := by
  obtain ⟨sn, e2, e3, so, se, count⟩ := n
  rcases hL with rfl | rfl <;> cases e2 <;> simp [WireNack.front]

lemma length_wireBits (hL : L = 12 ∨ L = 18) (n : WireNack) (e1 : Bool) :
    (n.bits L e1).length = 8 * n.length L := by
  rw [WireNack.bits, length_append, length_front hL, WireNack.back, WireNack.length]
  obtain ⟨sn, e2, e3, so, se, count⟩ := n
  cases e2 <;> cases e3 <;> simp <;> omega

lemma length_nackBits (hL : L = 12 ∨ L = 18) (e : Bool) (ns : List WireNack) :
    (nackBits L e ns).length = 8 * (ns.map (WireNack.length L)).sum := by
  induction ns with
  | nil => rfl
  | cons n ns ih =>
    rw [nackBits, length_append, length_wireBits hL, ih, map_cons, sum_cons]
    omega

/-- The bytes of a status PDU. -/
def statusLength (L : Nat) (ns : List WireNack) : Nat := 3 + (ns.map (WireNack.length L)).sum

lemma length_statusBits (hL : L = 12 ∨ L = 18) (ackSn : Nat) (ns : List WireNack) (e : Bool) :
    (statusBits L ackSn ns e).length = 8 * statusLength L ns := by
  simp only [statusBits, length_append, length_ofNat, length_nackBits hL, statusLength]
  rcases hL with rfl | rfl
  · rw [if_neg (by decide)]
    omega
  · rw [if_pos rfl]
    omega

lemma nackSize_eq (cfg : Config) (m : MissingData) (count : Nat) :
    nackSize cfg m = (WireNack.of m count).length cfg.snFieldLength := by
  rw [nackSize, WireNack.length, WireNack.of]
  by_cases heq : m.snStart = m.snEnd
  · have he3 : (m.snStart != m.snEnd) = false := by rw [heq, bne_self_eq_false]
    rw [if_pos heq, he3]
    cases m.whole <;> rfl
  · have he3 : (m.snStart != m.snEnd) = true := bne_iff_ne.mpr heq
    rw [if_neg heq, he3]
    cases m.whole <;> rfl

/-! ## Writing -/

/-- What `generate_status` has written once the NACKs `ns` are out, ACK_SN still being 0. -/
structure Writing (cfg : Config) (w : StatusWriter) (ns : List WireNack) : Prop where
  wrote : w.encoder.Wrote (statusBits cfg.snFieldLength 0 ns false)
  e1 : ∃ A B, A.length = 8 * w.e1Byte + (7 - w.e1Bit) ∧
    ∀ e, statusBits cfg.snFieldLength 0 ns e = A ++ e :: B
  e1_lt : w.e1Bit < 8
  soEnd : match w.soEndAddress with
    | none => ∀ n ∈ ns.getLast?, n.e2 = false
    | some a => ∃ ns' n, ns = ns' ++ [n] ∧ n.e2 = true ∧
      (statusBits cfg.snFieldLength 0 ns' true ++ n.front cfg.snFieldLength false).length = 8 * a

variable {buffer : List UInt8}

lemma orByte_take {i k : Nat} (mask : UInt8) (h : i < k) :
    (orByte buffer i mask).take k = orByte (buffer.take k) i mask := by
  rw [orByte, orByte, take_set]
  congr 2
  rw [getD_eq_getElem?_getD, getD_eq_getElem?_getD, getElem?_take_of_lt h]

lemma length_orByte (buffer : List UInt8) (i : Nat) (mask : UInt8) :
    (orByte buffer i mask).length = buffer.length := length_set

lemma toNat_one_shiftLeft : ∀ k < 8, ((1 : UInt8) <<< k.toUInt8).toNat = 2 ^ k := by decide

section Write

variable {cfg : Config} {w : StatusWriter} {ns : List WireNack}

lemma Writing.byte_eq (hcfg : cfg.Legal) (h : Writing cfg w ns) :
    w.encoder.byte = statusLength cfg.snFieldLength ns :=
  (h.wrote.bytes (length_statusBits hcfg.length 0 ns false)).1

lemma Writing.start (hcfg : cfg.Legal) (rx : Rx) (buffer : List UInt8)
    (hsize : 3 ≤ buffer.length) :
    ∃ encoder, (PduEncoder.init buffer buffer.length).putBits 0 (8 * 3) = some encoder ∧
      Writing cfg (statusHeader cfg rx encoder) [] ∧ encoder.size = buffer.length := by
  obtain ⟨encoder, hput, hwrote, hlen⟩ := PduEncoder.putBits_wrote 0
    (PduEncoder.Wrote.init buffer) (show 8 * 3 ≤ 31 by decide) (by
      show 0 + 8 * 3 ≤ 8 * buffer.length
      omega)
  refine ⟨encoder, hput, ⟨?_, ?_, ?_, nofun⟩, hlen⟩
  · have hzero : statusBits cfg.snFieldLength 0 [] false = [] ++ ofNat (8 * 3) 0 := by
      rcases hcfg.length with hL | hL <;> rw [hL] <;> decide
    rw [hzero]
    exact hwrote
  · show ∃ A B : List Bool, A.length = 8 * 2 + (7 - if cfg.snFieldLength = 18 then 1 else 7) ∧ _
    rcases hcfg.length with hL | hL <;> rw [hL]
    · exact ⟨ofNat 16 0, ofNat 7 0, by decide, by decide⟩
    · exact ⟨ofNat 22 0, ofNat 1 0, by decide, by decide⟩
  · show (if cfg.snFieldLength = 18 then 1 else 7) < 8
    split <;> decide

lemma Writing.setE1 (hcfg : cfg.Legal) (h : Writing cfg w ns) :
    ({ w.encoder with buffer := orByte w.encoder.buffer w.e1Byte (1 <<< w.e1Bit.toUInt8) } :
      PduEncoder).Wrote (statusBits cfg.snFieldLength 0 ns true) := by
  obtain ⟨A, B, hA, hbits⟩ := h.e1
  have hlen := length_statusBits hcfg.length 0 ns false
  have hin : w.e1Byte < statusLength cfg.snFieldLength ns := by
    rw [hbits false, length_append, length_cons] at hlen
    omega
  apply h.wrote.patch hlen (length_orByte _ _ _)
  rw [orByte_take _ hin, orByte, hbits true]
  refine stream_set_bit (b := false) ?_ hA h.e1_lt (toNat_one_shiftLeft _ h.e1_lt)
  rw [← hbits false]
  exact (h.wrote.bytes hlen).2

lemma fieldBits_nackFields (m : MissingData) (count : Nat) :
    fieldBits (nackFields cfg m) = (WireNack.of m count).front cfg.snFieldLength false := by
  simp only [nackFields, fieldBits_cons, fieldBits_nil, bits_present, append_nil]
  rfl

lemma fieldBits_nackTailFields (m : MissingData) (count : Nat) :
    fieldBits (nackTailFields m count) = (WireNack.of m count).back := by
  simp only [nackTailFields, fieldBits_cons, fieldBits_nil, append_nil]
  rfl

theorem writeNack_writing (hcfg : cfg.Legal) (h : Writing cfg w ns) (m : MissingData) (count : Nat)
    (hroom : w.encoder.byte + nackSize cfg m ≤ w.encoder.size) :
    ∃ w', writeNack cfg w m count = some w' ∧ Writing cfg w' (ns ++ [WireNack.of m count]) ∧
      w'.encoder.size = w.encoder.size ∧
      w'.lastNack = m.snStart + (if m.snStart = m.snEnd then 0 else count - 1) := by
  have hL := hcfg.snFieldLength_le
  have hlen := length_statusBits hcfg.length 0 ns true
  have hbyte := h.byte_eq hcfg
  rw [nackSize_eq cfg m count] at hroom
  have htotal := length_wireBits hcfg.length (WireNack.of m count) false
  rw [WireNack.bits, length_append] at htotal
  obtain ⟨head, hputHead, hwroteHead, hsizeHead⟩ := PduEncoder.putFields_wrote (nackFields cfg m)
    (h.setE1 hcfg)
    (by
      have h3 : (if cfg.snFieldLength = 18 then 3 else 1) ≤ 31 := by split <;> decide
      simp [nackFields, hL, h3])
    (by
      rw [length_append, hlen, fieldBits_nackFields m count]
      show _ ≤ 8 * w.encoder.size
      omega)
  obtain ⟨tail, hputTail, hwroteTail, hsizeTail⟩ := PduEncoder.putFields_wrote
    (nackTailFields m count) hwroteHead (by simp [nackTailFields])
    (by
      rw [length_append, length_append, hlen, fieldBits_nackFields m count,
        fieldBits_nackTailFields, hsizeHead]
      show _ ≤ 8 * w.encoder.size
      omega)
  have hall : statusBits cfg.snFieldLength 0 (ns ++ [WireNack.of m count]) false =
      statusBits cfg.snFieldLength 0 ns true ++ fieldBits (nackFields cfg m) ++
        fieldBits (nackTailFields m count) := by
    rw [statusBits_concat, fieldBits_nackFields m count, fieldBits_nackTailFields, WireNack.bits,
      append_assoc]
  refine ⟨_, by rw [writeNack, hputHead, Option.bind_some, hputTail, Option.map_some],
    ⟨?_, ?_, ?_, ?_⟩, hsizeTail.trans hsizeHead, rfl⟩
  · rw [hall]
    exact hwroteTail
  · -- the E1 bit stands behind NACK_SN
    refine ⟨statusBits cfg.snFieldLength 0 ns true ++ ofNat cfg.snFieldLength m.snStart,
      ((WireNack.of m count).bits cfg.snFieldLength false).drop (cfg.snFieldLength + 1), ?_, ?_⟩
    · rw [length_append, hlen, length_ofNat]
      rw [hbyte]
      rcases hcfg.length with h12 | h18
      · rw [h12]
        simp only [show ¬ (12 = 18) by decide, if_false]
        omega
      · rw [h18]
        simp only [if_true]
        omega
    · intro e
      rw [statusBits_concat, append_assoc]
      congr 1
      rw [WireNack.bits, WireNack.bits, WireNack.front, WireNack.front, append_assoc,
        append_assoc, drop_append, length_ofNat, drop_of_length_le (by
          rw [length_ofNat]; omega), nil_append, Nat.add_sub_cancel_left]
      rfl
  · show (if cfg.snFieldLength = 18 then 5 else 3) < 8
    split <;> decide
  · show match (if m.whole then none else some head.byte) with
      | none => _
      | some a => _
    cases hwhole : m.whole with
    | true =>
      rw [getLast?_concat]
      intro n hn
      cases hn
      show (!m.whole) = false
      rw [hwhole]
      rfl
    | false =>
      refine ⟨ns, WireNack.of m count, rfl, ?_, ?_⟩
      · show (!m.whole) = true
        rw [hwhole]
        rfl
      · have hfront := length_front hcfg.length (WireNack.of m count) false
        have hpos := hwroteHead.length
        have hlt := hwroteHead.bit_lt
        rw [fieldBits_nackFields m count] at hpos
        rw [length_append, hlen, hfront] at hpos ⊢
        omega

/-- The NACKs with the SO_end of the last one forced to "end of SDU". -/
def patchLast : List WireNack → List WireNack
  | [] => []
  | [n] => [{ n with soEnd := 0xffff }]
  | n :: n' :: ns => n :: patchLast (n' :: ns)

lemma patchLast_concat (ns : List WireNack) (n : WireNack) :
    patchLast (ns ++ [n]) = ns ++ [{ n with soEnd := 0xffff }] := by
  induction ns with
  | nil => rfl
  | cons x ns ih =>
    cases ns with
    | nil => rfl
    | cons y ns => exact congrArg (x :: ·) ih

lemma stream_ffff {buffer : List UInt8} {a v : Nat} {A B : List Bool}
    (h : stream buffer = A ++ (ofNat 16 v ++ B)) (hA : A.length = 8 * a) :
    stream ((buffer.set a 0xff).set (a + 1) 0xff) = A ++ (ofNat 16 0xffff ++ B) := by
  exact stream_overwrite_two h hA (length_ofNat 8 _) (length_ofNat 8 _) 0xff 0xff

theorem patchSoEnd_wrote (hcfg : cfg.Legal) (h : Writing cfg w ns) :
    (patchSoEnd w).encoder.Wrote (statusBits cfg.snFieldLength 0 (patchLast ns) false) ∧
      (patchSoEnd w).lastNack = w.lastNack := by
  have hso := h.soEnd
  rw [patchSoEnd]
  cases haddr : w.soEndAddress with
  | none =>
    rw [haddr] at hso
    refine ⟨?_, rfl⟩
    -- no SO_end in the last NACK: its value is not written
    have hsame : statusBits cfg.snFieldLength 0 (patchLast ns) false =
        statusBits cfg.snFieldLength 0 ns false := by
      rcases eq_nil_or_concat ns with rfl | ⟨ns', n, hns⟩
      · rfl
      · rw [concat_eq_append] at hns
        subst hns
        have he2 : n.e2 = false := hso n getLast?_concat
        rw [patchLast_concat, statusBits_concat, statusBits_concat]
        simp [WireNack.bits, WireNack.front, WireNack.back, he2]
    rw [hsame]
    exact h.wrote
  | some a =>
    rw [haddr] at hso
    refine ⟨?_, rfl⟩
    obtain ⟨ns', n, rfl, he2, hlen⟩ := hso
    have hbits : ∀ se, (WireNack.bits cfg.snFieldLength { n with soEnd := se } false) =
        n.front cfg.snFieldLength false ++ (ofNat 16 se ++ (BitField.mk n.e3 n.count 8).bits) := by
      intro se
      simp [WireNack.bits, WireNack.front, WireNack.back, he2]
    have hwhole := length_statusBits hcfg.length 0 (ns' ++ [n]) false
    have hstream := (h.wrote.bytes hwhole).2
    apply h.wrote.patch hwhole (by rw [length_set, length_set])
    rw [take_set, take_set, patchLast_concat, statusBits_concat, hbits 0xffff,
      ← append_assoc]
    refine stream_ffff (v := n.soEnd) ?_ hlen
    rw [hstream, statusBits_concat, hbits n.soEnd, ← append_assoc]

lemma ofNat_one_toNat (b : Bool) : [b] = ofNat 1 b.toNat := by cases b <;> rfl

lemma ofNat_ackSn {L ackSn : Nat} (hack : ackSn < 2 ^ L) :
    ofNat 1 0 ++ (ofNat 3 0 ++ ofNat L ackSn) = ofNat (4 + L) ackSn := by
  rw [ofNat_add, Nat.shiftRight_eq_div_pow, Nat.div_eq_of_lt hack]
  rfl

lemma byte_or_low (b : Bool) : ∀ a < 64,
    byte (UInt8.ofNat (2 * b.toNat) ||| UInt8.ofNat (a <<< 2)) = ofNat 6 a ++ [b, false] := by
  cases b <;> decide

theorem stream_putAckSn (hcfg : cfg.Legal) {buffer : List UInt8} {ackSn : Nat} {e : Bool}
    (hack : ackSn < cfg.snModulus) (h : stream buffer = statusBits cfg.snFieldLength 0 ns e) :
    stream (putAckSn cfg buffer ackSn) = statusBits cfg.snFieldLength ackSn ns e := by
  rw [hcfg.modulus] at hack
  have hbits : ∀ a, a < 2 ^ cfg.snFieldLength → statusBits cfg.snFieldLength a ns e =
      ofNat (4 + cfg.snFieldLength) a ++ (ofNat 1 (moreBit ns e).toNat ++
        (ofNat (if cfg.snFieldLength = 18 then 1 else 7) 0 ++ nackBits cfg.snFieldLength e ns)) := by
    intro a ha
    rw [← ofNat_ackSn ha, statusBits]
    simp
  have hmask : ∀ w a, ofNat w (a &&& (2 ^ w - 1)) = ofNat w a := by
    intro w a
    rw [Nat.and_two_pow_sub_one_eq_mod, ofNat_mod_width w a w (le_refl w)]
  have h255 : ∀ a, ofNat 8 (a &&& 255) = ofNat 8 a := hmask 8
  have h63 : ∀ a, ofNat 6 (a &&& 0x3f) = ofNat 6 a := hmask 6
  rw [hbits 0 (Nat.two_pow_pos _)] at h
  rw [hbits ackSn hack, putAckSn]
  rcases hcfg.length with hL | hL
  · rw [if_pos hL]
    rw [hL] at h ⊢
    have hsplit : ∀ a, ofNat (4 + 12) a = ofNat 8 (a >>> 8) ++ ofNat 8 a := fun a => ofNat_add 8 8 a
    have htwo := stream_overwrite_two (A := []) (i := 0) h rfl (length_ofNat 8 _) (length_ofNat 8 _)
      (UInt8.ofNat (ackSn >>> 8)) (UInt8.ofNat (ackSn &&& 255))
    rw [htwo, byte_ofNat, byte_ofNat, h255, hsplit, append_assoc]
    rfl
  · rw [if_neg (by rw [hL]; decide)]
    rw [hL] at h ⊢
    have hsplit : ∀ a, ofNat (4 + 18) a = ofNat 8 (a >>> 14) ++ (ofNat 8 (a >>> 6) ++ ofNat 6 a) := by
      intro a
      rw [show 4 + 18 = 8 + (8 + 6) by rfl, ofNat_add 8 (8 + 6), ofNat_add 8 6]
    have hlast : ∀ a, ofNat 6 a ++ (ofNat 1 (moreBit ns e).toNat ++ (ofNat 1 0 ++
        nackBits 18 e ns)) = ofNat 6 a ++ [moreBit ns e, false] ++ nackBits 18 e ns := by
      intro a
      rw [← ofNat_one_toNat, append_assoc]
      rfl
    rw [if_pos rfl, hsplit, append_assoc, append_assoc, hlast] at h
    have htwo := stream_overwrite_two (A := []) (i := 0) h rfl (length_ofNat 8 _) (length_ofNat 8 _)
      (UInt8.ofNat (ackSn >>> 14)) (UInt8.ofNat (ackSn >>> 6 &&& 255))
    generalize hbuf : (buffer.set 0 (UInt8.ofNat (ackSn >>> 14))).set (0 + 1)
      (UInt8.ofNat (ackSn >>> 6 &&& 255)) = buf at htwo ⊢
    rw [nil_append, ← append_assoc, ← append_assoc] at htwo
    have hA : (byte (UInt8.ofNat (ackSn >>> 14)) ++
        byte (UInt8.ofNat (ackSn >>> 6 &&& 255))).length = 8 * 2 := by
      rw [length_append, length_byte, length_byte]
    -- the third byte holds E1 only
    obtain ⟨hi, -, hthird, -⟩ := stream_window htwo hA rfl
    have hget : buf.getD 2 0 = UInt8.ofNat (2 * (moreBit ns e).toNat) := by
      rw [getD_eq_getElem _ _ hi]
      apply byte_injective
      rw [hthird]
      cases moreBit ns e <;> rfl
    rw [orByte, hget, stream_overwrite htwo hA rfl, byte_or_low _ _ (by
        rw [show 0x3f = 2 ^ 6 - 1 by rfl, Nat.and_two_pow_sub_one_eq_mod]
        exact Nat.mod_lt _ (by decide)),
      byte_ofNat, byte_ofNat, h255, h63, if_pos rfl, hsplit]
    simp [hlast]

end Write

/-! ## Reading -/

/-- What `process_control_pdu` makes of a NACK. -/
def WireNack.toNack (n : WireNack) : Nack :=
  { nackSn := n.sn
    soStart := if n.e2 then n.soStart else 0
    soEnd := if n.e2 = false ∨ n.soEnd = 0xffff then -1 else n.soEnd
    range := if n.e3 then n.count else 1 }

/-- Every field fits its width. -/
structure WireNack.Fits (L : Nat) (n : WireNack) : Prop where
  sn : n.sn < 2 ^ L
  soStart : n.soStart < 2 ^ 16
  soEnd : n.soEnd < 2 ^ 16
  count : n.count < 2 ^ 8

theorem readNack_bits (hcfg : cfg.Legal) {n : WireNack} (hn : n.Fits cfg.snFieldLength) {e1 : Bool}
    (h : d.At (n.bits cfg.snFieldLength e1 ++ rest)) :
    ∃ d', readNack cfg d = .ok (n.toNack, e1, d') ∧ d'.At rest := by
  have hbit : ∀ b : Bool, b.toNat < 2 ^ 1 := fun b => Nat.lt_succ_of_le (Bool.toNat_le b)
  have hne : ∀ b : Bool, (b.toNat != 0) = b := by decide
  have hr : (if cfg.snFieldLength = 18 then 3 else 1) ≤ 31 := by split <;> decide
  rw [WireNack.bits, WireNack.front, WireNack.back, append_cons, ofNat_one_toNat e1] at h
  simp only [append_assoc] at h
  obtain ⟨d₁, hr₁, h₁, -⟩ := PduDecoder.read_ofNat h hcfg.snFieldLength_le hn.sn
  obtain ⟨d₂, hr₂, h₂, -⟩ := PduDecoder.read_ofNat h₁ (by decide) (hbit e1)
  obtain ⟨d₃, hr₃, h₃, -⟩ := PduDecoder.read_ofNat h₂ (by decide) (hbit n.e2)
  obtain ⟨d₄, hr₄, h₄, -⟩ := PduDecoder.read_ofNat h₃ (by decide) (hbit n.e3)
  obtain ⟨d₅, hr₅, h₅, -⟩ := PduDecoder.read_ofNat h₄ hr (Nat.two_pow_pos _)
  obtain ⟨d₆, hr₆, h₆, -⟩ := PduDecoder.readWhen_field h₅ (by decide) hn.soStart
  obtain ⟨d₇, hr₇, h₇, -⟩ := PduDecoder.readWhen_field h₆ (by decide) hn.soEnd
  obtain ⟨d₈, hr₈, h₈, -⟩ := PduDecoder.readWhen_field h₇ (by decide) hn.count
  refine ⟨d₈, ?_, h₈⟩
  simp only [readNack, hr₁, hr₂, hr₃, hr₄, hr₅, hne, hr₆, hr₇, hr₈, bind, Except.bind, pure,
    Except.pure]
  congr 2
  cases he2 : n.e2 <;> cases he3 : n.e3 <;> simp [WireNack.toNack, he2, he3]

lemma readNacks_bits (hcfg : cfg.Legal) {ns : List WireNack}
    (hns : ∀ n ∈ ns, n.Fits cfg.snFieldLength) {fuel : Nat} (hfuel : ns.length ≤ fuel)
    (h : d.At (nackBits cfg.snFieldLength false ns ++ rest)) :
    readNacks cfg fuel (moreBit ns false) d = .ok (ns.map WireNack.toNack) := by
  induction ns generalizing d fuel with
  | nil =>
    cases fuel <;> rfl
  | cons n ns ih =>
    obtain ⟨fuel, rfl⟩ : ∃ k, fuel = k + 1 := ⟨fuel - 1, by rw [length_cons] at hfuel; omega⟩
    rw [nackBits, append_assoc] at h
    obtain ⟨d', hread, hat⟩ := readNack_bits hcfg (hns n mem_cons_self) h
    have hrest := ih (fun x hx => hns x (mem_cons_of_mem _ hx)) (Nat.le_of_succ_le_succ hfuel) hat
    show readNacks cfg (fuel + 1) true d = _
    simp only [readNacks, hread, hrest, bind, Except.bind, pure, Except.pure]
    rfl

/-- The status that is read is the one written. -/
theorem readStatus_statusBits (hcfg : cfg.Legal) {ackSn : Nat}
    {ns : List WireNack} (hack : ackSn < cfg.snModulus) (hns : ∀ n ∈ ns, n.Fits cfg.snFieldLength)
    (h : stream buffer = statusBits cfg.snFieldLength ackSn ns false) :
    readStatus cfg buffer = .ok ⟨ackSn, ns.map WireNack.toNack⟩ := by
  have hbit : ∀ b : Bool, b.toNat < 2 ^ 1 := fun b => Nat.lt_succ_of_le (Bool.toNat_le b)
  have hne : ∀ b : Bool, (b.toNat != 0) = b := by decide
  have hr : (if cfg.snFieldLength = 18 then 1 else 7) ≤ 31 := by split <;> decide
  have hat := PduDecoder.At.init buffer
  have hlen := congrArg List.length h
  rw [length_stream, length_statusBits hcfg.length, statusLength] at hlen
  rw [h, statusBits] at hat
  obtain ⟨d₁, hr₁, h₁, -⟩ := PduDecoder.read_ofNat hat (by decide) (by decide)
  obtain ⟨d₂, hr₂, h₂, -⟩ := PduDecoder.read_ofNat h₁ (by decide) (by decide)
  obtain ⟨d₃, hr₃, h₃, -⟩ := PduDecoder.read_ofNat h₂ hcfg.snFieldLength_le (hcfg.modulus ▸ hack)
  obtain ⟨d₄, hr₄, h₄, -⟩ := PduDecoder.read_ofNat h₃ (by decide) (hbit _)
  obtain ⟨d₅, hr₅, h₅, -⟩ := PduDecoder.read_ofNat h₄ hr (Nat.two_pow_pos _)
  -- a NACK takes at least two bytes
  have hfuel : ns.length ≤ buffer.length := by
    have hsum : ns.length ≤ (ns.map (WireNack.length cfg.snFieldLength)).sum := by
      clear hlen h hat h₁ h₂ h₃ h₄ h₅ hr₄ hns
      induction ns with
      | nil => exact le_refl 0
      | cons n ns ih =>
        rw [length_cons, map_cons, sum_cons, WireNack.length]
        omega
    omega
  rw [← append_nil (nackBits _ _ _)] at h₅
  have hnacks := readNacks_bits hcfg hns hfuel h₅
  simp [readStatus, hr₁, hr₂, hr₃, hr₄, hr₅, hnacks, bind, Except.bind, pure, Except.pure]

end NrStack.Rlc.Am
