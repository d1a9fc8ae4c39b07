/-
  What the datagrams of a P7 message look like.

  The sender's loop with its running offset gives the pieces of the body (`Gather.slice`) one after
  the other, each behind a header that tells the sequence number, the number of the segment and
  whether more follow.  The receiver reads exactly this back (`datagram_facts`).
-/
import NrStack.Lib.Gather
import NrStack.Nfapi.P7Segments
import Mathlib

namespace NrStack.Nfapi

open List Gather

/-! ## Bytes -/

lemma toNat_byte (x : Nat) : (byte x).toNat = x % 256 := by
  unfold byte
  rw [UInt8.toNat_ofNat']

lemma length_push32 (x : Nat) : (push32 x).length = 4 := rfl

variable {a b : List UInt8} {i : Nat}

lemma byteAt_append_left (h : i < a.length) : byteAt (a ++ b) i = byteAt a i := by
  unfold byteAt
  rw [getD_append _ _ _ _ h]

lemma byteAt_append_right (h : a.length ≤ i) : byteAt (a ++ b) i = byteAt b (i - a.length) := by
  unfold byteAt
  rw [getD_append_right _ _ _ _ h]

lemma byteAt_take {l : List UInt8} {n : Nat} (h : i < n) : byteAt (l.take n) i = byteAt l i := by
  unfold byteAt
  rw [getD_eq_getElem?_getD, getD_eq_getElem?_getD, getElem?_take_of_lt h]

lemma pull32_push32 {x : Nat} (h : x < 2 ^ 32) : pull32 (push32 x) 0 = x := by
  change (byte (x / 2 ^ 24)).toNat * 2 ^ 24 + (byte (x / 2 ^ 16)).toNat * 2 ^ 16 +
    (byte (x / 2 ^ 8)).toNat * 2 ^ 8 + (byte x).toNat = x
  simp only [toNat_byte]
  omega

lemma pull32_append {x : Nat} (ha : a.length = 10) :
    pull32 (a ++ push32 x ++ b) 10 = pull32 (push32 x) 0 := by
  have hat : ∀ j < 4, byteAt (a ++ push32 x ++ b) (10 + j) = byteAt (push32 x) j := by
    intro j hj
    have hlt : 10 + j < (a ++ push32 x).length := by
      rw [length_append, ha, length_push32]
      omega
    rw [byteAt_append_left hlt, byteAt_append_right (by omega), ha, Nat.add_sub_cancel_left]
  have h0 := hat 0 (by decide)
  have h1 := hat 1 (by decide)
  have h2 := hat 2 (by decide)
  have h3 := hat 3 (by decide)
  unfold pull32
  rw [h0, h1, h2, h3]

/-! ## Checksum -/

section Checksum

variable (cfg : Config) {d : List UInt8}

lemma calculateChecksum_lt : calculateChecksum cfg d < 2 ^ 32 := BitVec.isLt _

section

variable (h : headerLength ≤ d.length)
include h

lemma length_updateChecksum :
    (updateChecksum cfg d).length = d.length := by
  have h18 : 18 ≤ d.length := h
  unfold updateChecksum
  split
  · simp only [length_append, length_take, length_drop, length_push32]
    omega
  · rfl

lemma take_updateChecksum :
    (updateChecksum cfg d).take 10 = d.take 10 := by
  have h18 : 18 ≤ d.length := h
  unfold updateChecksum
  split
  · have hlen : (d.take 10).length = 10 := by
      rw [length_take]
      omega
    rw [append_assoc]
    exact take_left' hlen
  · rfl

lemma drop_updateChecksum :
    (updateChecksum cfg d).drop 14 = d.drop 14 := by
  have h18 : 18 ≤ d.length := h
  unfold updateChecksum
  split
  · have hlen : (d.take 10 ++ push32 (calculateChecksum cfg d)).length = 14 := by
      rw [length_append, length_take, length_push32]
      omega
    exact drop_left' hlen
  · rfl

lemma dropHeader_updateChecksum :
    (updateChecksum cfg d).drop headerLength = d.drop headerLength := by
  have hdrop := congrArg (List.drop 4) (drop_updateChecksum cfg h)
  rw [drop_drop, drop_drop] at hdrop
  exact hdrop

lemma accepted_updateChecksum :
    accepted cfg (updateChecksum cfg d) = true := by
  have h18 : 18 ≤ d.length := h
  unfold accepted
  rw [length_updateChecksum cfg h, decide_eq_true h, Bool.true_and]
  cases hen : cfg.checksumEnabled with
  | false => rfl
  | true =>
    have hsame : calculateChecksum cfg (updateChecksum cfg d) = calculateChecksum cfg d := by
      unfold calculateChecksum
      rw [take_updateChecksum cfg h, dropHeader_updateChecksum cfg h]
    have hread : pull32 (updateChecksum cfg d) 10 = calculateChecksum cfg d := by
      unfold updateChecksum
      rw [if_pos hen, pull32_append (by rw [length_take]; omega),
        pull32_push32 (calculateChecksum_lt cfg)]
    rw [hsame, hread]
    exact beq_self_eq_true _

lemma byteAt_updateChecksum {i : Nat} (hi : i < 10) :
    byteAt (updateChecksum cfg d) i = byteAt d i := by
  rw [← byteAt_take hi, take_updateChecksum cfg h, byteAt_take hi]

end

end Checksum

/-! ## The packed message -/

/-- The 18 bytes of `nfapi_nr_p7_message_header_t`, before segmentation. -/
def Message.header (m : Message) : List UInt8 :=
  push16 m.phyId ++ push16 m.messageId ++ push32 (headerLength + m.body.length) ++
    push16 (setMss 0 0 m.sequenceNumber) ++ push32 0 ++ push32 m.transmitTimestamp

/-- The bits of the sequence number that are sent. -/
def Message.wireSequence (m : Message) : Nat := m.sequenceNumber % 16

lemma length_header (m : Message) : m.header.length = headerLength := rfl

lemma length_pack (m : Message) : m.pack.length = headerLength + m.body.length :=
  length_append

lemma drop_pack (m : Message) : m.pack.drop headerLength = m.body :=
  drop_left' (length_header m)

lemma take_pack (m : Message) : m.pack.take headerLength = m.header :=
  take_left' (length_header m)

lemma setMss_lt (m : Message) : setMss 0 0 m.sequenceNumber = m.wireSequence := by
  unfold setMss Message.wireSequence
  omega

lemma byteAt_pack_mss (m : Message) :
    byteAt m.pack 8 = 0 ∧ byteAt m.pack 9 = m.wireSequence := by
  have hlt : m.wireSequence < 16 := Nat.mod_lt _ (by decide)
  change (byte (setMss 0 0 m.sequenceNumber / 256)).toNat = 0 ∧
    (byte (setMss 0 0 m.sequenceNumber)).toNat = m.wireSequence
  rw [setMss_lt, toNat_byte, toNat_byte]
  omega

/-! ## The datagrams -/

/-- What the sender is asked for: a message that is cut has room for a body in a segment and needs at
most 128 of them. -/
def Sendable (cfg : Config) (m : Message) : Prop :=
  m.pack.length > cfg.segmentSize →
    headerLength < cfg.segmentSize ∧ segmentCount cfg m.pack ≤ 128

/-- The message does not fit one segment. -/
def IsCut (cfg : Config) (m : Message) : Prop := m.pack.length > cfg.segmentSize

/-- The bytes of a body that a segment takes. -/
def segBodyLen (cfg : Config) : Nat := cfg.segmentSize - headerLength

/-- The `i`-th segment of a message, as it is sent. -/
def datagram (cfg : Config) (m : Message) (i : Nat) : List UInt8 :=
  updateChecksum cfg
    (segmentHeader m.pack ((slice (segBodyLen cfg) m.body i).length + headerLength) i
      (decide (i + 1 = segmentCount cfg m.pack)) ++ slice (segBodyLen cfg) m.body i)

section Cut

variable {cfg : Config} {m : Message}

lemma segmentCount_eq (cfg : Config) (m : Message) :
    segmentCount cfg m.pack =
      m.body.length / segBodyLen cfg + if m.body.length % segBodyLen cfg ≠ 0 then 1 else 0 := by
  rfl

lemma segmentCount_spec (hroom : 0 < segBodyLen cfg) (hbody : 0 < m.body.length) :
    m.body.length ≤ segmentCount cfg m.pack * segBodyLen cfg ∧
      (segmentCount cfg m.pack - 1) * segBodyLen cfg < m.body.length ∧
      0 < segmentCount cfg m.pack := by
  rw [segmentCount_eq]
  have hdiv := Nat.div_add_mod m.body.length (segBodyLen cfg)
  have hmod := Nat.mod_lt m.body.length hroom
  generalize segBodyLen cfg = n at *
  generalize m.body.length / n = q at *
  by_cases hr : m.body.length % n = 0
  · rw [if_neg (not_not.mpr hr), Nat.add_zero]
    have hq : 0 < q := by
      by_contra hq0
      have hq0 : q = 0 := by omega
      rw [hq0, Nat.mul_zero] at hdiv
      omega
    obtain ⟨p, hp⟩ : ∃ p, q = p + 1 := ⟨q - 1, by omega⟩
    rw [hp, Nat.mul_succ] at hdiv
    rw [hp, Nat.add_sub_cancel, Nat.succ_mul, Nat.mul_comm p n]
    omega
  · rw [if_pos hr, Nat.add_sub_cancel, Nat.succ_mul, Nat.mul_comm q n]
    omega

lemma sendSegments_eq (hroom : 0 < segBodyLen cfg) (hbody : 0 < m.body.length) :
    ∀ fuel segment, segment + fuel = segmentCount cfg m.pack →
      sendSegments cfg m.pack (segmentCount cfg m.pack) fuel segment
          (headerLength + segment * segBodyLen cfg) =
        (List.range' segment fuel).map (datagram cfg m) := by
  obtain ⟨henough, hlast, hpos⟩ := segmentCount_spec hroom hbody
  intro fuel
  induction fuel with
  | zero =>
    intro segment _
    rfl
  | succ fuel ih =>
    intro segment hcount
    rw [sendSegments, range'_succ, map_cons]
    -- the piece, and its size
    have hpiece : (m.pack.drop (headerLength + segment * segBodyLen cfg)).take
        (slice (segBodyLen cfg) m.body segment).length = slice (segBodyLen cfg) m.body segment := by
      rw [← drop_drop, drop_pack]
      unfold slice
      apply take_eq_take_iff.mpr
      rw [length_take]
      omega
    have hsize : (if decide (segment + 1 = segmentCount cfg m.pack) = true then
        (m.pack.length - headerLength) - (cfg.segmentSize - headerLength) * segment
        else cfg.segmentSize - headerLength) = (slice (segBodyLen cfg) m.body segment).length := by
      unfold slice
      rw [length_take, length_drop]
      change (if decide (segment + 1 = segmentCount cfg m.pack) = true then
        m.body.length - segBodyLen cfg * segment else segBodyLen cfg) = _
      rw [Nat.mul_comm (segBodyLen cfg) segment]
      by_cases hl : segment + 1 = segmentCount cfg m.pack
      · rw [if_pos (decide_eq_true hl)]
        rw [← hl, Nat.succ_mul] at henough
        omega
      · have hle : segment + 1 ≤ segmentCount cfg m.pack - 1 := by omega
        have hmul := Nat.mul_le_mul_right (segBodyLen cfg) hle
        rw [Nat.succ_mul] at hmul
        rw [if_neg (by rw [decide_eq_true_eq]; exact hl)]
        omega
    rw [hsize, hpiece]
    apply congrArg₂ List.cons rfl
    by_cases hmore : fuel = 0
    · rw [hmore]
      rfl
    · -- a segment that is not the last is full
      have hle : segment + 1 ≤ segmentCount cfg m.pack - 1 := by omega
      have hmul := Nat.mul_le_mul_right (segBodyLen cfg) hle
      rw [Nat.succ_mul] at hmul
      have hfull : (slice (segBodyLen cfg) m.body segment).length = segBodyLen cfg := by
        unfold slice
        rw [length_take, length_drop]
        omega
      rw [hfull, Nat.add_assoc, ← Nat.succ_mul]
      exact ih (segment + 1) (by omega)

/-- A message that is cut is sent as its segments in order. -/
theorem packAndSend_cut (hcut : IsCut cfg m) (hroom : headerLength < cfg.segmentSize) :
    packAndSend cfg m.pack = (List.range (segmentCount cfg m.pack)).map (datagram cfg m) := by
  have hpos : 0 < segBodyLen cfg := Nat.sub_pos_of_lt hroom
  have hbody : 0 < m.body.length := by
    have hlong : m.pack.length > cfg.segmentSize := hcut
    rw [length_pack] at hlong
    omega
  unfold packAndSend
  rw [if_pos (show m.pack.length > cfg.segmentSize from hcut), range_eq_range']
  have h := sendSegments_eq hpos hbody (segmentCount cfg m.pack) 0 (Nat.zero_add _)
  rw [Nat.zero_mul, Nat.add_zero] at h
  exact h

lemma two_le_segmentCount (hcut : IsCut cfg m) (hroom : headerLength < cfg.segmentSize) :
    2 ≤ segmentCount cfg m.pack := by
  have hlong : m.pack.length > cfg.segmentSize := hcut
  rw [length_pack] at hlong
  have hpos : 0 < segBodyLen cfg := Nat.sub_pos_of_lt hroom
  have hmore : segBodyLen cfg < m.body.length := by
    unfold segBodyLen
    omega
  obtain ⟨henough, -, hcount⟩ := segmentCount_spec hpos (Nat.zero_lt_of_lt hmore)
  by_contra hone
  have hone : segmentCount cfg m.pack = 1 := by omega
  rw [hone, Nat.one_mul] at henough
  omega

lemma segmentHeader_facts (size i : Nat) (last : Bool) :
    (segmentHeader m.pack size i last).length = headerLength ∧
    (segmentHeader m.pack size i last).take 4 = m.pack.take 4 ∧
    byteAt (segmentHeader m.pack size i last) 8 = ((if last then 0 else 128) + i) % 256 ∧
    byteAt (segmentHeader m.pack size i last) 9 = m.wireSequence ∧
    (segmentHeader m.pack size i last).drop 14 = (m.pack.take headerLength).drop 14 := by
  have hlt : m.wireSequence < 16 := Nat.mod_lt _ (by decide)
  refine ⟨rfl, rfl, toNat_byte _, ?_, rfl⟩
  change (byte (setMss 0 0 m.sequenceNumber)).toNat = m.wireSequence
  rw [setMss_lt, toNat_byte]
  omega

/-- **What the receiver reads in a datagram of a message that is cut.** -/
structure DatagramFacts (cfg : Config) (m : Message) (i : Nat) (d : List UInt8) : Prop where
  accepted : accepted cfg d = true
  sequence : sequenceOf d = m.wireSequence
  segment : segmentOf d = i
  more : moreOf d = !decide (i + 1 = segmentCount cfg m.pack)
  length : d.length = headerLength + (slice (segBodyLen cfg) m.body i).length
  body : d.drop headerLength = slice (segBodyLen cfg) m.body i
  first : d.take 4 = m.pack.take 4
  stamp : (d.take headerLength).drop 14 = (m.pack.take headerLength).drop 14

lemma datagram_facts (hcount : segmentCount cfg m.pack ≤ 128) {i : Nat}
    (hi : i < segmentCount cfg m.pack) : DatagramFacts cfg m i (datagram cfg m i) := by
  unfold datagram
  set piece := slice (segBodyLen cfg) m.body i
  set last := decide (i + 1 = segmentCount cfg m.pack)
  obtain ⟨hlen, hfirst, hnum, hseq, hstamp⟩ :=
    segmentHeader_facts (piece.length + headerLength) i last
  set header := segmentHeader m.pack (piece.length + headerLength) i last
  have hle : headerLength ≤ (header ++ piece).length := by
    rw [length_append, hlen]
    exact Nat.le_add_right _ _
  have h8 : byteAt (updateChecksum cfg (header ++ piece)) 8 = (if last then 0 else 128) + i := by
    rw [byteAt_updateChecksum cfg hle (by decide), byteAt_append_left (by rw [hlen]; decide), hnum]
    apply Nat.mod_eq_of_lt
    split <;> omega
  refine ⟨accepted_updateChecksum cfg hle, ?_, ?_, ?_, ?_, ?_, ?_, ?_⟩
  · unfold sequenceOf
    rw [byteAt_updateChecksum cfg hle (by decide), byteAt_append_left (by rw [hlen]; decide), hseq]
  · unfold segmentOf
    rw [h8]
    split <;> omega
  · unfold moreOf
    rw [h8]
    change _ = !last
    by_cases hl : last = true
    · rw [if_pos hl, hl]
      exact decide_eq_false (by omega)
    · rw [if_neg hl, Bool.eq_false_of_not_eq_true hl]
      exact decide_eq_true (by omega)
  · rw [length_updateChecksum cfg hle, length_append, hlen]
  · rw [dropHeader_updateChecksum cfg hle]
    exact drop_left' hlen
  · have hten := congrArg (List.take 4) (take_updateChecksum cfg hle)
    rw [take_take, take_take] at hten
    apply hten.trans
    rw [← hfirst]
    exact take_append_of_le_length (by rw [hlen]; decide)
  · rw [drop_take, drop_updateChecksum cfg hle, ← drop_take]
    rw [take_left' hlen, hstamp]

end Cut

/-! ## The same message -/

/-- The bytes of the message, apart from the length, the segment number and the checksum. -/
structure SameMessage (m : Message) (bytes : List UInt8) : Prop where
  length : bytes.length = m.pack.length
  first : bytes.take 4 = m.pack.take 4
  sequence : byteAt bytes 9 = byteAt m.pack 9
  rest : bytes.drop 14 = m.pack.drop 14

lemma packAndSend_whole {cfg : Config} {m : Message} (h : ¬IsCut cfg m) :
    packAndSend cfg m.pack = [updateChecksum cfg m.pack] := if_neg h

lemma whole_facts (cfg : Config) (m : Message) :
    accepted cfg (updateChecksum cfg m.pack) = true ∧
    isWhole (updateChecksum cfg m.pack) = true ∧
    SameMessage m (updateChecksum cfg m.pack) := by
  have hle : headerLength ≤ m.pack.length := by
    rw [length_pack]
    exact Nat.le_add_right _ _
  have h8 : byteAt (updateChecksum cfg m.pack) 8 = 0 := by
    rw [byteAt_updateChecksum cfg hle (by decide), (byteAt_pack_mss m).1]
  refine ⟨accepted_updateChecksum cfg hle, ?_, length_updateChecksum cfg hle, ?_, ?_,
    drop_updateChecksum cfg hle⟩
  · unfold isWhole moreOf segmentOf
    rw [h8]
    rfl
  · have hten := congrArg (List.take 4) (take_updateChecksum cfg hle)
    rw [take_take, take_take] at hten
    exact hten
  · exact byteAt_updateChecksum cfg hle (by decide)

end NrStack.Nfapi
