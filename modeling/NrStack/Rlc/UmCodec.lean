/-
  The header of a UM PDU, written and read.

  The header is a list of fields (38.322 6.2.2.3): two SI bits, then reserved bits for a whole SDU, or the
  SN and, behind the first segment, the SO.  A PDU `Encodes` a segment when it is the bits of such a header
  followed by the segment's bytes: `serialize_sdu` writes such a PDU, whatever the buffer held before, and
  `recv_pdu` gets back the fields and the bytes.
-/
import NrStack.Rlc.UmEntity

namespace NrStack.Rlc.Um

open Bits List

/-! ## The header as a bit string -/

/-- A header and the bytes of the segment behind it. -/
def Encodes (snFieldLength : Nat) (isFirst isLast : Bool) (sn so : Nat) (data pdu : List UInt8) :
    Prop :=
  ∃ header, pdu = header ++ data ∧
    stream header = fieldBits (headerFields snFieldLength isFirst isLast sn so)

/-- The parameters that `new_nr_rlc_entity_um` sets. -/
structure Config.Legal (cfg : Config) : Prop where
  length : cfg.snFieldLength = 6 ∨ cfg.snFieldLength = 12
  modulus : cfg.snModulus = 2 ^ cfg.snFieldLength
  window : cfg.snModulus = 2 * cfg.windowSize

variable {cfg : Config} {sn so : Nat}

lemma Config.Legal.snFieldLength_le (h : cfg.Legal) : cfg.snFieldLength ≤ 31 := by
  rcases h.length with hl | hl <;> omega

lemma Config.Legal.cases (h : cfg.Legal) :
    (cfg.snModulus = 64 ∧ cfg.windowSize = 32) ∨ (cfg.snModulus = 4096 ∧ cfg.windowSize = 2048) := by
  have hm := h.modulus
  have hw := h.window
  rcases h.length with hl | hl
  · left
    rw [hl] at hm
    omega
  · right
    rw [hl] at hm
    omega

lemma length_headerFields (h : cfg.Legal) (seg : Seg) (sn so : Nat) :
    (fieldBits (headerFields cfg.snFieldLength seg.isFirst seg.isLast sn so)).length =
      8 * computePduHeaderSize cfg seg := by
  obtain ⟨sdu, size, so', isFirst, isLast⟩ := seg
  rcases h.length with hl | hl <;> cases isFirst <;> cases isLast <;>
    simp [headerFields, computePduHeaderSize, hl]

/-! ## Writing -/

/-- **`serialize_sdu`** writes the header and the bytes of the segment. -/
theorem serializeSdu_encodes (h : cfg.Legal) (heap : Heap) (seg : Seg) (buffer : List UInt8)
    (hroom : computePduHeaderSize cfg seg ≤ buffer.length) :
    ∃ pdu, serializeSdu cfg heap seg buffer = some pdu ∧
      Encodes cfg.snFieldLength seg.isFirst seg.isLast (heap.sdus seg.sdu).sn.toNat seg.so
        (((heap.sdus seg.sdu).data.drop seg.so).take seg.size) pdu := by
  have hlen := length_headerFields h seg (heap.sdus seg.sdu).sn.toNat seg.so
  have hwidth : ∀ f ∈ headerFields cfg.snFieldLength seg.isFirst seg.isLast
      (heap.sdus seg.sdu).sn.toNat seg.so, f.width ≤ 31 := by
    have hL := h.snFieldLength_le
    simp [headerFields, hL]
  obtain ⟨e, hput, hw, -⟩ := PduEncoder.putFields_wrote _ (PduEncoder.Wrote.init buffer) hwidth
    (by
      rw [nil_append, hlen]
      show 8 * _ ≤ 8 * buffer.length
      omega)
  obtain ⟨hbyte, hstream⟩ := hw.bytes hlen
  refine ⟨e.buffer.take e.byte ++ ((heap.sdus seg.sdu).data.drop seg.so).take seg.size, ?_,
    e.buffer.take e.byte, rfl, by rw [hbyte, hstream]; rfl⟩
  rw [serializeSdu, hput]
  rfl

/-! ## Reading -/

variable {data pdu : List UInt8}

/-- **A whole SDU** is delivered as it came. -/
theorem recvPdu_whole (e : Entity) (hdata : data ≠ [])
    (h : Encodes e.cfg.snFieldLength true true sn so data pdu) :
    recvPdu e pdu = some { e with
      rx := { e.rx with delivered := e.rx.delivered ++ [data.map some] } } := by
  obtain ⟨header, rfl, hbits⟩ := h
  have hat := PduDecoder.At.init (header ++ data)
  rw [stream_append, hbits, headerFields, fieldBits_cons, fieldBits_cons, ← append_assoc,
    append_assoc (_ ++ _)] at hat
  obtain ⟨si, d, hread, -, -, hf, hl⟩ := PduDecoder.read_si hat
  have hone : header.length = 1 := by
    have hl := congrArg List.length hbits
    rw [length_stream] at hl
    have : (fieldBits (headerFields e.cfg.snFieldLength true true sn so)).length = 8 := by
      simp [headerFields]
    omega
  have hpos : 0 < data.length := length_pos_iff.mpr hdata
  have hdrop : (header ++ data).drop 1 = data := by
    rw [← hone, drop_left]
  simp only [recvPdu, hread, hf, hl, Bool.and_self, if_true]
  rw [if_neg (by rw [length_append]; omega), hdrop]

variable {isFirst isLast : Bool}

lemma readSegmentHeader_ok (hcfg : cfg.Legal) {rest : List Bool}
    {d : PduDecoder} (hseg : (isFirst && isLast) = false) (hsn : sn < 2 ^ cfg.snFieldLength)
    (hso : so < 2 ^ 16) (hfirst : isFirst = true → so = 0)
    (h : d.At (fieldBits ((headerFields cfg.snFieldLength isFirst isLast sn so).drop 2) ++ rest)) :
    ∃ d', readSegmentHeader cfg isFirst d = .ok (sn, so, d') ∧ d'.At rest ∧
      d'.buffer = d.buffer := by
  simp only [headerFields, drop_succ_cons, drop_zero, hseg, Bool.not_false,
    Bool.true_and, fieldBits_cons, bits_absent, bits_present, fieldBits_nil, append_nil,
    nil_append, append_assoc] at h
  obtain ⟨d₁, hr₁, hat₁, hb₁⟩ := PduDecoder.readWhen_field h (by decide) (by decide)
  obtain ⟨d₂, hr₂, hat₂, hb₂⟩ := PduDecoder.read_ofNat hat₁ hcfg.snFieldLength_le hsn
  obtain ⟨d₃, hr₃, hat₃, hb₃⟩ := PduDecoder.readWhen_field hat₂ (by decide) hso
  have hso' : (if !isFirst then so else 0) = so := by
    cases hf : isFirst with
    | true => exact (hfirst hf).symm
    | false => rfl
  refine ⟨d₃, ?_, hat₃, (hb₃.trans hb₂).trans hb₁⟩
  rw [readSegmentHeader, hr₁]
  show (d₁.read cfg.snFieldLength).bind _ = _
  rw [hr₂]
  show (d₂.readWhen (!isFirst) 16).bind _ = _
  rw [hr₃, hso']
  rfl

/-- **A segment** reaches `recvSegment` with its fields and bytes. -/
theorem recvPdu_segment (e : Entity) (hcfg : e.cfg.Legal) (hseg : (isFirst && isLast) = false)
    (hsn : sn < 2 ^ e.cfg.snFieldLength) (hso : so < 2 ^ 16) (hfirst : isFirst = true ↔ so = 0)
    (h : Encodes e.cfg.snFieldLength isFirst isLast sn so data pdu) :
    recvPdu e pdu = recvSegment e sn so isFirst isLast data := by
  obtain ⟨header, rfl, hbits⟩ := h
  have hat := PduDecoder.At.init (header ++ data)
  rw [stream_append, hbits, headerFields, fieldBits_cons, fieldBits_cons, ← append_assoc,
    append_assoc (_ ++ _)] at hat
  obtain ⟨si, d, hread, hat', hbuf, hf, hl⟩ := PduDecoder.read_si hat
  obtain ⟨d', hread', hat'', hbuf'⟩ := readSegmentHeader_ok hcfg hseg hsn hso hfirst.mp hat'
  -- the decoder stands in front of the data
  have hdrop : (header ++ data).drop d'.byte = data := by
    have hbyte := (hat''.byte_eq (length_stream data)).1
    have hsize : d'.size = (header ++ data).length := by
      rw [hat''.sized, hbuf', hbuf]
      rfl
    rw [hbyte, hsize, length_append, Nat.add_sub_cancel, drop_left]
  have hbad : (!isFirst && so == 0) = false := by
    cases hfst : isFirst with
    | true => rfl
    | false =>
      have : so ≠ 0 := fun hz => Bool.false_ne_true (hfst.symm.trans (hfirst.mpr hz))
      simp [this]
  simp only [recvPdu, hread, hf, hl, hseg, hread', hbad, Bool.false_eq_true, if_false, hdrop]

end NrStack.Rlc.Um
