/-
  RLC PDUs (`nr_rlc_pdu.c`): the reception list and the bit codec of PDU headers.

  `PduEncoder` shifts bits into a caller's buffer of arbitrary contents; `PduDecoder` walks the bytes of a
  received buffer.  Both keep the cursor (byte, bit) of the source.  `exit(1)` is `none` in the encoder and
  `Stop.exit` in the decoder; `Stop.err` is the macro `R(decoder)`.  An encoder is denoted by the bits it
  `Wrote`, a decoder by the bits it stands `At`.
-/
import NrStack.Lib.Bits
import Mathlib

namespace NrStack.Rlc

open List Bits

/-! ## The reception list -/

/-- A received SDU or SDU segment; `data = none` once it has been delivered and freed. -/
structure RxPdu where
  sn : Nat
  data : Option (List UInt8)
  size : Nat
  so : Nat
  isFirst : Bool
  isLast : Bool
  deriving DecidableEq, Repr

/-- `nr_rlc_new_pdu` -/
def newPdu (sn so : Nat) (isFirst isLast : Bool) (data : List UInt8) : RxPdu :=
  ⟨sn, some data, data.length, so, isFirst, isLast⟩

/-- `nr_rlc_pdu_list_add`: order is by SN, then by SO; a new PDU goes after its equals. -/
def pduListAdd (snCompare : Nat → Nat → Int) : List RxPdu → RxPdu → List RxPdu
  | [], pdu => [pdu]
  | cur :: rest, pdu =>
    if snCompare cur.sn pdu.sn > 0 ∨ (cur.sn = pdu.sn ∧ cur.so > pdu.so) then pdu :: cur :: rest
    else cur :: pduListAdd snCompare rest pdu

/-! ## PDU decoder -/

/-- Why decoding stopped: the process exits, or the PDU is too short. -/
inductive Stop
  | exit
  | err
  deriving DecidableEq, Repr

/-- `nr_rlc_pdu_decoder_t` -/
structure PduDecoder where
  error : Bool
  byte : Nat
  bit : Nat
  buffer : List UInt8
  size : Nat
  deriving DecidableEq, Repr

namespace PduDecoder

/-- `nr_rlc_pdu_decoder_init` -/
def init (buffer : List UInt8) (size : Nat) : PduDecoder := ⟨false, 0, 0, buffer, size⟩

/-- `get_bit` -/
def getBit (d : PduDecoder) : Nat × PduDecoder :=
  if d.byte ≥ d.size then (0, { d with error := true })
  else
    let ret := ((d.buffer.getD d.byte 0).toNat >>> (7 - d.bit)) &&& 1
    if d.bit + 1 = 8 then (ret, { d with bit := 0, byte := d.byte + 1 })
    else (ret, { d with bit := d.bit + 1 })

/-- The loop of `nr_rlc_pdu_decoder_get_bits`. -/
def getBitsLoop : Nat → Nat → PduDecoder → Int × PduDecoder
  | 0, ret, d => (ret, d)
  | i + 1, ret, d =>
    let (b, d) := d.getBit
    if d.error then (-1, d) else getBitsLoop i (ret <<< 1 ||| b) d

/-- `nr_rlc_pdu_decoder_get_bits`; `none` is `exit(1)`. -/
def getBits (d : PduDecoder) (count : Nat) : Option (Int × PduDecoder) :=
  if count > 31 then none else some (getBitsLoop count 0 d)

/-- `nr_rlc_pdu_decoder_get_bits` followed by the macro `R(decoder)`. -/
def read (d : PduDecoder) (count : Nat) : Except Stop (Nat × PduDecoder) :=
  match d.getBits count with
  | none => .error .exit
  | some (v, d) => if d.error then .error .err else .ok (v.toNat, d)

/-- A field that is there only under a condition; its variable is 0 otherwise. -/
def readWhen (d : PduDecoder) (c : Bool) (count : Nat) : Except Stop (Nat × PduDecoder) :=
  if c then d.read count else .ok (0, d)

end PduDecoder

/-! ## PDU encoder -/

/-- `nr_rlc_pdu_encoder_t` -/
structure PduEncoder where
  byte : Nat
  bit : Nat
  buffer : List UInt8
  size : Nat
  deriving DecidableEq, Repr

namespace PduEncoder

/-- `nr_rlc_pdu_encoder_init` -/
def init (buffer : List UInt8) (size : Nat) : PduEncoder := ⟨0, 0, buffer, size⟩

/-- `put_bit`; `none` is `exit(1)` on a full buffer. -/
def putBit (e : PduEncoder) (bit : Bool) : Option PduEncoder :=
  if e.byte = e.size then none
  else
    let shifted := (e.buffer.getD e.byte 0) <<< 1
    let buffer := e.buffer.set e.byte (if bit then shifted ||| 1 else shifted)
    if e.bit + 1 = 8 then some { e with buffer := buffer, bit := 0, byte := e.byte + 1 }
    else some { e with buffer := buffer, bit := e.bit + 1 }

/-- The loop of `nr_rlc_pdu_encoder_put_bits`: the mask runs from bit `count - 1` down to 0. -/
def putBitsLoop (value : Nat) : Nat → PduEncoder → Option PduEncoder
  | 0, e => some e
  | i + 1, e => (e.putBit (value.testBit i)).bind (putBitsLoop value i)

/-- `nr_rlc_pdu_encoder_put_bits`; `none`: the process ends. -/
def putBits (e : PduEncoder) (value count : Nat) : Option PduEncoder :=
  if count > 31 then none else putBitsLoop value count e

/-- A sequence of `nr_rlc_pdu_encoder_put_bits`, each under its condition. -/
def putFields (e : PduEncoder) : List BitField → Option PduEncoder
  | [] => some e
  | f :: fs =>
    (if f.present then e.putBits f.value f.width else some e).bind fun e => e.putFields fs

end PduEncoder

/-! ## What a decoder reads -/

namespace PduDecoder

/-- The bits still in front of the cursor of a decoder that has not failed. -/
structure At (d : PduDecoder) (bs : List Bool) : Prop where
  noError : d.error = false
  sized : d.size = d.buffer.length
  bit_lt : d.bit < 8
  left : (stream d.buffer).drop (8 * d.byte + d.bit) = bs
  within : 8 * d.byte + d.bit ≤ 8 * d.size

lemma At.init (buffer : List UInt8) : (init buffer buffer.length).At (stream buffer) :=
  ⟨rfl, rfl, Nat.zero_lt_succ 7, rfl, Nat.zero_le _⟩

variable {d : PduDecoder} {bs rest : List Bool} {w v : Nat}

lemma At.length (h : d.At bs) : 8 * d.byte + d.bit + bs.length = 8 * d.size := by
  have hl := congrArg List.length h.left
  rw [length_drop, length_stream] at hl
  have := h.within
  have := h.sized
  omega

lemma At.byte_eq {k : Nat} (h : d.At bs) (hlen : bs.length = 8 * k) :
    d.byte = d.size - k ∧ d.bit = 0 := by
  have := h.length
  have := h.bit_lt
  omega

lemma getBit_cons {b : Bool} (h : d.At (b :: bs)) :
    d.getBit.1 = b.toNat ∧ d.getBit.2.At bs ∧ d.getBit.2.buffer = d.buffer := by
  have hlen := h.length
  rw [length_cons] at hlen
  have hbit := h.bit_lt
  have hin : d.byte < d.buffer.length := by
    rw [← h.sized]
    omega
  have hnext := stream_drop d.buffer hin hbit
  rw [h.left, List.cons.injEq] at hnext
  have hval : ((d.buffer.getD d.byte 0).toNat >>> (7 - d.bit)) &&& 1 = b.toNat := by
    rw [getD_eq_getElem _ _ hin, hnext.1, Nat.testBit, Nat.and_one_is_mod,
      Nat.and_comm, Nat.and_one_is_mod]
    rcases Nat.mod_two_eq_zero_or_one (d.buffer[d.byte].toNat >>> (7 - d.bit)) with h0 | h0 <;>
      rw [h0] <;> rfl
  have hge : ¬ d.byte ≥ d.size := by omega
  -- the cursor moves by one bit, over the end of a byte or inside it
  by_cases hover : d.bit + 1 = 8
  · rw [getBit, if_neg hge]
    simp only [if_pos hover]
    refine ⟨hval, ⟨h.noError, h.sized, Nat.zero_lt_succ 7, ?_, ?_⟩, trivial⟩
    · show (stream d.buffer).drop (8 * (d.byte + 1) + 0) = bs
      rw [hnext.2]
      congr 1
      omega
    · show 8 * (d.byte + 1) + 0 ≤ 8 * d.size
      omega
  · rw [getBit, if_neg hge]
    simp only [if_neg hover]
    refine ⟨hval, ⟨h.noError, h.sized, ?_, ?_, ?_⟩, trivial⟩
    · show d.bit + 1 < 8
      omega
    · show (stream d.buffer).drop (8 * d.byte + (d.bit + 1)) = bs
      rw [hnext.2]
      rfl
    · show 8 * d.byte + (d.bit + 1) ≤ 8 * d.size
      omega

lemma getBit_nil (h : d.At []) : d.getBit.2.error = true := by
  have hlen := h.length
  rw [length_nil] at hlen
  have := h.bit_lt
  rw [getBit, if_pos (by omega)]

lemma shiftLeft_or_bit (ret : Nat) (b : Bool) : ret <<< 1 ||| b.toNat = 2 * ret + b.toNat := by
  have hb : b.toNat < 2 ^ 1 := Nat.lt_succ_of_le (Bool.toNat_le b)
  rw [← Nat.shiftLeft_add_eq_or_of_lt hb, Nat.shiftLeft_eq]
  omega

lemma getBitsLoop_succ (i ret : Nat) (d : PduDecoder) :
    getBitsLoop (i + 1) ret d = if d.getBit.2.error then (-1, d.getBit.2)
      else getBitsLoop i (ret <<< 1 ||| d.getBit.1) d.getBit.2 := rfl

lemma getBitsLoop_append (bs : List Bool) (ret : Nat) (h : d.At (bs ++ rest)) :
    ∃ d', getBitsLoop bs.length ret d =
        (((bs.foldl (fun v b => 2 * v + b.toNat) ret : Nat) : Int), d') ∧
      d'.At rest ∧ d'.buffer = d.buffer := by
  induction bs generalizing ret d with
  | nil => exact ⟨d, rfl, h, rfl⟩
  | cons b bs ih =>
    obtain ⟨hval, hat, hbuf⟩ := getBit_cons (show d.At (b :: (bs ++ rest)) from h)
    obtain ⟨d', hloop, hat', hbuf'⟩ := ih (2 * ret + b.toNat) hat
    refine ⟨d', ?_, hat', hbuf'.trans hbuf⟩
    rw [length_cons, getBitsLoop_succ,
      if_neg (by rw [hat.noError]; exact Bool.false_ne_true), hval, shiftLeft_or_bit, hloop]
    rfl

lemma getBitsLoop_short (bs : List Bool) {n ret : Nat} (h : d.At bs) (hn : bs.length < n) :
    (getBitsLoop n ret d).2.error = true := by
  induction bs generalizing n ret d with
  | nil =>
    obtain ⟨n, rfl⟩ : ∃ m, n = m + 1 := ⟨n - 1, by rw [length_nil] at hn; omega⟩
    rw [getBitsLoop_succ, if_pos (getBit_nil h)]
    exact getBit_nil h
  | cons b bs ih =>
    rw [length_cons] at hn
    obtain ⟨n, rfl⟩ : ∃ m, n = m + 1 := ⟨n - 1, by omega⟩
    obtain ⟨-, hat, -⟩ := getBit_cons h
    rw [getBitsLoop_succ, if_neg (by rw [hat.noError]; exact Bool.false_ne_true)]
    exact ih hat (by omega)

theorem read_append (h : d.At (bs ++ rest)) (hw : bs.length ≤ 31) :
    ∃ d', d.read bs.length = .ok (value bs, d') ∧ d'.At rest ∧ d'.buffer = d.buffer := by
  obtain ⟨d', hloop, hat, hbuf⟩ := getBitsLoop_append bs 0 h
  refine ⟨d', ?_, hat, hbuf⟩
  rw [read, getBits, if_neg (by omega), hloop]
  show (if d'.error then _ else _) = _
  rw [hat.noError]
  rfl

theorem read_short (h : d.At bs) (hw : w ≤ 31) (hlen : bs.length < w) : d.read w = .error .err := by
  rw [read, getBits, if_neg (by omega)]
  show (if (getBitsLoop w 0 d).2.error then _ else _) = _
  rw [if_pos (getBitsLoop_short bs h hlen)]

lemma read_ofNat (h : d.At (ofNat w v ++ rest)) (hw : w ≤ 31) (hv : v < 2 ^ w) :
    ∃ d', d.read w = .ok (v, d') ∧ d'.At rest ∧ d'.buffer = d.buffer := by
  have hread := read_append h (by rw [length_ofNat]; exact hw)
  rwa [length_ofNat, value_ofNat hv] at hread

lemma readWhen_field {c : Bool} (h : d.At ((BitField.mk c v w).bits ++ rest)) (hw : w ≤ 31)
    (hv : v < 2 ^ w) :
    ∃ d', d.readWhen c w = .ok (if c then v else 0, d') ∧ d'.At rest ∧ d'.buffer = d.buffer := by
  cases c with
  | false => exact ⟨d, rfl, h, rfl⟩
  | true => exact read_ofNat h hw hv

lemma read_si {isFirst isLast : Bool}
    (h : d.At (ofNat 1 (1 - isFirst.toNat) ++ ofNat 1 (1 - isLast.toNat) ++ rest)) :
    ∃ si d', d.read 2 = .ok (si, d') ∧ d'.At rest ∧ d'.buffer = d.buffer ∧
      (si &&& 2 == 0) = isFirst ∧ (si &&& 1 == 0) = isLast := by
  obtain ⟨d', hr, hat, hbuf⟩ := read_append h (show 2 ≤ 31 by decide)
  refine ⟨_, d', hr, hat, hbuf, ?_, ?_⟩ <;> cases isFirst <;> cases isLast <;> rfl

lemma read_ok {d' : PduDecoder} (h : d.At bs) (hw : w ≤ 31) (hread : d.read w = .ok (v, d')) :
    v < 2 ^ w ∧ w ≤ bs.length ∧ d'.At (bs.drop w) ∧
      v = value (bs.take w) ∧ d'.buffer = d.buffer := by
  rcases lt_or_ge bs.length w with hlt | hge
  · rw [read_short h hw hlt] at hread
    cases hread
  · have hlen : (bs.take w).length = w := by rw [length_take]; omega
    have hsplit : d.At (bs.take w ++ bs.drop w) := by rw [take_append_drop]; exact h
    obtain ⟨d'', hread', hat, hbuf⟩ := read_append hsplit (by omega)
    rw [hlen, hread] at hread'
    obtain ⟨rfl, rfl⟩ : v = value (bs.take w) ∧ d' = d'' := by
      injection hread' with heq
      exact ⟨congrArg Prod.fst heq, congrArg Prod.snd heq⟩
    refine ⟨?_, hge, hat, rfl, hbuf⟩
    have hlt := value_lt (bs.take w)
    rwa [hlen] at hlt

lemma read_cases (h : d.At bs) (hw : w ≤ 31) :
    d.read w = .error .err ∨
      ∃ v d', d.read w = .ok (v, d') ∧ v < 2 ^ w ∧ d'.At (bs.drop w) ∧ d'.buffer = d.buffer := by
  cases hread : d.read w with
  | error stop =>
    left
    rcases lt_or_ge bs.length w with hlt | hge
    · exact hread.symm.trans (read_short h hw hlt)
    · have hsplit : d.At (bs.take w ++ bs.drop w) := by rw [take_append_drop]; exact h
      have hlen : (bs.take w).length = w := by rw [length_take]; omega
      obtain ⟨d', hread', -⟩ := read_append hsplit (by omega)
      rw [hlen, hread] at hread'
      cases hread'
  | ok p =>
    right
    obtain ⟨hlt, -, hat, -, hbuf⟩ := read_ok h hw hread
    exact ⟨p.1, p.2, rfl, hlt, hat, hbuf⟩

lemma readWhen_cases (h : d.At bs) (hw : w ≤ 31) (c : Bool) : d.readWhen c w = .error .err ∨
      ∃ v d' bs', d.readWhen c w = .ok (v, d') ∧ v < 2 ^ w ∧ d'.At bs' ∧ d'.buffer = d.buffer := by
  cases c with
  | false => exact .inr ⟨0, d, bs, rfl, Nat.two_pow_pos w, h, rfl⟩
  | true =>
    rcases read_cases h hw with herr | ⟨v, d', hread, hlt, hat, hbuf⟩
    · exact .inl herr
    · exact .inr ⟨v, d', _, hread, hlt, hat, hbuf⟩

end PduDecoder

/-! ## What an encoder wrote -/

namespace PduEncoder

/-- The bits put in front of the cursor: whole bytes, then the low bits of the byte being filled. -/
structure Wrote (e : PduEncoder) (bs : List Bool) : Prop where
  sized : e.size = e.buffer.length
  bit_lt : e.bit < 8
  bits : stream (e.buffer.take e.byte) ++ ofNat e.bit (e.buffer.getD e.byte 0).toNat = bs
  within : 8 * e.byte + e.bit ≤ 8 * e.size

lemma Wrote.init (buffer : List UInt8) : (init buffer buffer.length).Wrote [] :=
  ⟨rfl, Nat.zero_lt_succ 7, rfl, Nat.zero_le _⟩

variable {e : PduEncoder} {bs : List Bool}

lemma Wrote.length (h : e.Wrote bs) : 8 * e.byte + e.bit = bs.length := by
  have hl := congrArg List.length h.bits
  rw [length_append, length_stream, length_take, length_ofNat] at hl
  have := h.within
  have := h.sized
  omega

lemma Wrote.bytes {k : Nat} (h : e.Wrote bs) (hlen : bs.length = 8 * k) :
    e.byte = k ∧ stream (e.buffer.take k) = bs := by
  have hpos := h.length
  have hlt := h.bit_lt
  have hbyte : e.byte = k := by omega
  have hbit : e.bit = 0 := by omega
  have hbits := h.bits
  rw [hbyte, hbit, ofNat_zero, append_nil] at hbits
  exact ⟨hbyte, hbits⟩

lemma Wrote.patch {bs' : List Bool} {buffer : List UInt8} {k : Nat} (h : e.Wrote bs)
    (hlen : bs.length = 8 * k) (hsize : buffer.length = e.buffer.length)
    (hbits : stream (buffer.take k) = bs') :
    ({ e with buffer := buffer } : PduEncoder).Wrote bs' := by
  have hbyte := (h.bytes hlen).1
  have hbit : e.bit = 0 := by
    have := h.length
    omega
  refine ⟨h.sized.trans hsize.symm, h.bit_lt, ?_, h.within⟩
  rw [hbyte, hbit, ofNat_zero, append_nil, hbits]

lemma ofNat_shifted (w : Nat) (x : UInt8) (b : Bool) (h : w < 8) :
    ofNat (w + 1) (if b then x <<< 1 ||| 1 else x <<< 1).toNat = ofNat w x.toNat ++ [b] := by
  have hnat : (if b then x <<< 1 ||| 1 else x <<< 1).toNat = (2 * x.toNat + b.toNat) % 2 ^ 8 := by
    have hshift : (x <<< 1).toNat = (2 * x.toNat) % 2 ^ 8 := by
      show x.toNat <<< 1 % 2 ^ 8 = _
      rw [Nat.shiftLeft_eq, Nat.mul_comm]
    cases b
    · exact hshift
    · show (x <<< 1 ||| 1).toNat = (2 * x.toNat + 1) % 2 ^ 8
      have heven : (x <<< 1).toNat = (x.toNat % 2 ^ 7) <<< 1 := by
        omega
      rw [UInt8.toNat_or, heven]
      show (x.toNat % 2 ^ 7) <<< 1 ||| 1 = _
      rw [← Nat.shiftLeft_add_eq_or_of_lt (by decide : 1 < 2 ^ 1), Nat.shiftLeft_eq]
      omega
  rw [hnat, ofNat_mod_width _ _ _ (by omega), ofNat_shift]

lemma putBit_wrote (b : Bool) (h : e.Wrote bs) (hroom : bs.length < 8 * e.size) :
    ∃ e', e.putBit b = some e' ∧ e'.Wrote (bs ++ [b]) ∧ e'.size = e.size := by
  have hpos := h.length
  have hlt := h.bit_lt
  have hin : e.byte < e.buffer.length := by
    have := h.sized
    omega
  have hne : ¬ e.byte = e.size := by omega
  generalize hx : (if b then (e.buffer.getD e.byte 0) <<< 1 ||| 1
    else (e.buffer.getD e.byte 0) <<< 1) = x
  have hlow : ofNat (e.bit + 1) x.toNat = ofNat e.bit (e.buffer.getD e.byte 0).toNat ++ [b] := by
    rw [← hx]
    exact ofNat_shifted e.bit _ b hlt
  have htake : (e.buffer.set e.byte x).take e.byte = e.buffer.take e.byte := by
    rw [take_set_of_le (le_refl _)]
  have hget : (e.buffer.set e.byte x).getD e.byte 0 = x := by
    rw [getD_eq_getElem _ _ (by rw [length_set]; exact hin), getElem_set_self]
  have hlen : (e.buffer.set e.byte x).length = e.buffer.length := length_set
  by_cases hover : e.bit + 1 = 8
  · refine ⟨{ e with buffer := e.buffer.set e.byte x, bit := 0, byte := e.byte + 1 }, ?_, ?_, rfl⟩
    · rw [putBit, if_neg hne]
      simp only [hx, if_pos hover]
    · refine ⟨h.sized.trans hlen.symm, Nat.zero_lt_succ 7, ?_, ?_⟩
      · -- the byte is complete: its eight bits join the whole bytes
        rw [ofNat_zero, append_nil, take_succ_eq_append_getElem (by rw [hlen]; exact hin),
          htake, getElem_set_self, stream_append, ← h.bits, append_assoc, ← hlow, hover]
        rfl
      · show 8 * (e.byte + 1) + 0 ≤ 8 * e.size
        omega
  · refine ⟨{ e with buffer := e.buffer.set e.byte x, bit := e.bit + 1 }, ?_, ?_, rfl⟩
    · rw [putBit, if_neg hne]
      simp only [hx, if_neg hover]
    · refine ⟨h.sized.trans hlen.symm, ?_, ?_, ?_⟩
      · show e.bit + 1 < 8
        omega
      · show stream ((e.buffer.set e.byte x).take e.byte) ++
          ofNat (e.bit + 1) ((e.buffer.set e.byte x).getD e.byte 0).toNat = bs ++ [b]
        rw [htake, hget, hlow, ← append_assoc, h.bits]
      · show 8 * e.byte + (e.bit + 1) ≤ 8 * e.size
        omega

lemma putBitsLoop_wrote (value count : Nat) (h : e.Wrote bs)
    (hroom : bs.length + count ≤ 8 * e.size) :
    ∃ e', putBitsLoop value count e = some e' ∧ e'.Wrote (bs ++ ofNat count value) ∧
      e'.size = e.size := by
  induction count generalizing e bs with
  | zero => exact ⟨e, rfl, by rw [ofNat_zero, append_nil]; exact h, rfl⟩
  | succ i ih =>
    obtain ⟨e₁, hput, hw, hsize⟩ := putBit_wrote (value.testBit i) h (by omega)
    obtain ⟨e₂, hloop, hw', hsize'⟩ := ih hw (by
      rw [length_append, length_singleton, hsize]
      omega)
    refine ⟨e₂, ?_, ?_, hsize'.trans hsize⟩
    · rw [putBitsLoop, hput]
      exact hloop
    · rw [append_assoc] at hw'
      exact hw'

theorem putBits_wrote (value : Nat) {count : Nat} (h : e.Wrote bs) (hc : count ≤ 31)
    (hroom : bs.length + count ≤ 8 * e.size) :
    ∃ e', e.putBits value count = some e' ∧ e'.Wrote (bs ++ ofNat count value) ∧
      e'.size = e.size := by
  rw [putBits, if_neg (by omega)]
  exact putBitsLoop_wrote value count h hroom

theorem putFields_wrote (fs : List BitField) (h : e.Wrote bs) (hc : ∀ f ∈ fs, f.width ≤ 31)
    (hroom : (bs ++ fieldBits fs).length ≤ 8 * e.size) :
    ∃ e', e.putFields fs = some e' ∧ e'.Wrote (bs ++ fieldBits fs) ∧ e'.size = e.size := by
  induction fs generalizing e bs with
  | nil => exact ⟨e, rfl, by rw [fieldBits_nil, append_nil]; exact h, rfl⟩
  | cons f fs ih =>
    rw [fieldBits_cons, ← append_assoc] at hroom ⊢
    obtain ⟨e₁, hput, hw, hsize⟩ : ∃ e₁, (if f.present then e.putBits f.value f.width else some e) =
        some e₁ ∧ e₁.Wrote (bs ++ f.bits) ∧ e₁.size = e.size := by
      by_cases hp : f.present = true
      · have hbits : f.bits = ofNat f.width f.value := if_pos hp
        rw [hbits, length_append, length_append, length_ofNat] at hroom
        rw [if_pos hp, hbits]
        exact putBits_wrote f.value h (hc f mem_cons_self) (by omega)
      · have hbits : f.bits = [] := if_neg hp
        rw [if_neg hp, hbits, append_nil]
        exact ⟨e, rfl, h, rfl⟩
    obtain ⟨e₂, hput', hw', hsize'⟩ := ih hw (fun f' hf => hc f' (mem_cons_of_mem _ hf))
      (by rw [hsize]; exact hroom)
    refine ⟨e₂, ?_, hw', hsize'.trans hsize⟩
    rw [putFields, hput]
    exact hput'

end PduEncoder

end NrStack.Rlc
