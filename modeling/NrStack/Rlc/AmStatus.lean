/-
  Status reports of an AM entity (`next_missing` to `generate_status`).

  `nextMissing` finds the next stretch of `rx_list` that was not received, `generateMissing` writes it, cut
  into ranges of at most 255 SNs.  Three things are patched later: the E1 bit in front of a NACK, the SO_end
  of the last NACK of a truncated report, and ACK_SN.

  The suffix of `rx_list` from `cur` on stands for the pointer `cur`.  An entry that is not the first of
  its SDU has `so ≥ 1` (`recv_pdu` discards others), so `cur->so - 1` is not negative.
-/
import NrStack.Rlc.AmEntity

namespace NrStack.Rlc.Am

/-- `missing_data_t`; where the source has `sn_start = -1` there is no value. -/
structure MissingData where
  snStart : Nat
  soStart : Nat
  snEnd : Nat
  soEnd : Nat
  next : List RxPdu
  deriving DecidableEq, Repr

/-- The test "don't report if out of reporting window". -/
def outOfReport (cfg : Config) (rx : Rx) (sn : Nat) : Bool :=
  decide (snCompareRx cfg rx rx.rxHighestStatus sn ≤ 0)

/-- `(sn - 1 + sn_modulus) % sn_modulus` -/
def snBefore (cfg : Config) (sn : Nat) : Nat := (sn + cfg.snModulus - 1) % cfg.snModulus

/-- The label `set_end_different_sdu` of `next_missing`. -/
def setEndDifferentSdu (cfg : Config) (rx : Rx) (snStart soStart : Nat) (cur : RxPdu)
    (rest : List RxPdu) : MissingData :=
  -- if cur is the head of a SDU, then use cur-1
  let snEnd := if cur.isFirst then snBefore cfg cur.sn else cur.sn
  let soEnd := if cur.isFirst then 0xffff else cur.so - 1
  -- don't go more than rx_highest_status - 1
  if outOfReport cfg rx snEnd then
    ⟨snStart, soStart, snBefore cfg rx.rxHighestStatus, 0xffff, []⟩
  else ⟨snStart, soStart, snEnd, soEnd, cur :: rest⟩

/-- The label `next_pdu` of `next_missing`. -/
def nextPdu (cfg : Config) (rx : Rx) : RxPdu → List RxPdu → Nat → Bool → Option MissingData
  | cur, [], maxSo, lastReached =>
    let maxSo := max maxSo (cur.so + cur.size - 1)
    let ended := cur.data = none ∨ (lastReached || cur.isLast) = true
    let snStart := if ended then (cur.sn + 1) % cfg.snModulus else cur.sn
    let soStart := if ended then 0 else maxSo + 1
    if outOfReport cfg rx snStart then none
    else some ⟨snStart, soStart, snBefore cfg rx.rxHighestStatus, 0xffff, []⟩
  | prev, cur :: rest, maxSo, lastReached =>
    let maxSo := max maxSo (prev.so + prev.size - 1)
    let lastReached := lastReached || prev.isLast
    -- no discontinuity in data
    if cur.sn = prev.sn ∧ maxSo ≥ cur.so - 1 then nextPdu cfg rx cur rest maxSo lastReached
    else if cur.sn = (prev.sn + 1) % cfg.snModulus ∧ lastReached ∧ cur.isFirst then
      nextPdu cfg rx cur rest 0 false
    -- discontinuity in same SDU
    else if cur.sn = prev.sn then
      if outOfReport cfg rx prev.sn then none
      else some ⟨prev.sn, maxSo + 1, prev.sn, cur.so - 1, cur :: rest⟩
    -- discontinuity between different SDUs
    else
      let snStart := if lastReached then (prev.sn + 1) % cfg.snModulus else prev.sn
      let soStart := if lastReached then 0 else maxSo + 1
      if outOfReport cfg rx snStart then none
      else some (setEndDifferentSdu cfg rx snStart soStart cur rest)

/-- `next_missing` -/
def nextMissing (cfg : Config) (rx : Rx) (cur : RxPdu) (rest : List RxPdu) (checkHead : Bool) :
    Option MissingData :=
  if checkHead ∧ (cur.sn ≠ rx.rxNext ∨ !cur.isFirst) then
    if outOfReport cfg rx rx.rxNext then none
    else some (setEndDifferentSdu cfg rx rx.rxNext 0 cur rest)
  else nextPdu cfg rx cur rest 0 false

/-- The test `so_start == 0 && so_end == 0xffff`: whole SDUs are missing. -/
def MissingData.whole (m : MissingData) : Bool := m.soStart == 0 && m.soEnd == 0xffff

/-- The bytes of a NACK. -/
def nackSize (cfg : Config) (m : MissingData) : Nat :=
  let nackLength := 2 + (if cfg.snFieldLength = 18 then 1 else 0)
  if m.snStart = m.snEnd then
    if m.whole then nackLength else nackLength + 4
  else if m.whole then nackLength + 1
  else nackLength + 5

/-- What `generate_status` carries from NACK to NACK; `soEndAddress` is an index into the buffer,
`lastNack` the variable `last_nack`. -/
structure StatusWriter where
  encoder : PduEncoder
  e1Byte : Nat
  e1Bit : Nat
  soEndAddress : Option Nat
  lastNack : Nat
  deriving DecidableEq, Repr

/-- `buffer[i] |= mask` -/
def orByte (buffer : List UInt8) (i : Nat) (mask : UInt8) : List UInt8 :=
  buffer.set i (buffer.getD i 0 ||| mask)

/-- The fields of a NACK up to SO_start; E1 is set later if needed. -/
def nackFields (cfg : Config) (m : MissingData) : List Bits.BitField :=
  [⟨true, m.snStart, cfg.snFieldLength⟩, ⟨true, 0, 1⟩, ⟨true, (!m.whole).toNat, 1⟩,
    ⟨true, (m.snStart != m.snEnd).toNat, 1⟩,
    ⟨true, 0, if cfg.snFieldLength = 18 then 3 else 1⟩, ⟨!m.whole, m.soStart, 16⟩]

/-- The fields behind the start of the segment offset. -/
def nackTailFields (m : MissingData) (curSnCount : Nat) : List Bits.BitField :=
  [⟨!m.whole, m.soEnd, 16⟩, ⟨m.snStart != m.snEnd, curSnCount, 8⟩]

/-- The loop body of `generate_missing`, once there is room for the NACK. -/
def writeNack (cfg : Config) (w : StatusWriter) (m : MissingData) (curSnCount : Nat) :
    Option StatusWriter :=
  -- set the previous e1 bit to 1
  let encoder := { w.encoder with buffer := orByte w.encoder.buffer w.e1Byte (1 <<< w.e1Bit.toUInt8) }
  (encoder.putFields (nackFields cfg m)).bind fun head =>
    (head.putFields (nackTailFields m curSnCount)).map fun tail =>
      { encoder := tail
        e1Byte := encoder.byte + (if cfg.snFieldLength = 18 then 2 else 1)
        e1Bit := if cfg.snFieldLength = 18 then 5 else 3
        soEndAddress := if m.whole then none else some head.byte
        lastNack := m.snStart + (if m.snStart = m.snEnd then 0 else curSnCount - 1) }

/-- The part of `m` that one turn of `generate_missing` reports: at most 255 SNs from `snStart`. -/
def cutRange (cfg : Config) (m : MissingData) (snCount snStart : Nat) : MissingData :=
  { snStart := snStart
    soStart := if snStart = m.snStart then m.soStart else 0
    snEnd := if snCount ≤ 255 then m.snEnd else (snStart + 254) % cfg.snModulus
    soEnd := if snCount ≤ 255 then m.soEnd else 0xffff
    next := [] }

/-- The loop of `generate_missing`; true when the generation was truncated. -/
def generateMissingLoop (cfg : Config) (m : MissingData) :
    Nat → Nat → Nat → StatusWriter → Option (StatusWriter × Bool)
  | 0, _, _, w => some (w, false)
  | fuel + 1, snCount, snStart, w =>
    if snCount = 0 then some (w, false)
    else if w.encoder.byte + nackSize cfg (cutRange cfg m snCount snStart) > w.encoder.size then
      some (w, true)
    else
      (writeNack cfg w (cutRange cfg m snCount snStart) (min snCount 255)).bind
        (generateMissingLoop cfg m fuel (snCount - min snCount 255)
          ((snStart + min snCount 255) % cfg.snModulus))

/-- `sn_count` of `generate_missing`. -/
def MissingData.snCount (cfg : Config) (m : MissingData) : Nat :=
  (m.snEnd + cfg.snModulus - m.snStart) % cfg.snModulus + 1

/-- `generate_missing`: a turn reports at least one SN, so `sn_count` turns are enough. -/
def generateMissing (cfg : Config) (m : MissingData) (w : StatusWriter) :
    Option (StatusWriter × Bool) :=
  generateMissingLoop cfg m (m.snCount cfg) (m.snCount cfg) m.snStart w

/-- `generate_status` forces SO_end of the last NACK to "end of SDU" when it was truncated. -/
def patchSoEnd (w : StatusWriter) : StatusWriter :=
  match w.soEndAddress with
  | none => w
  | some a =>
    { w with encoder :=
      { w.encoder with buffer := (w.encoder.buffer.set a 0xff).set (a + 1) 0xff } }

/-- The loop of `generate_status`.  The pointer moves on with every turn but the first, so one turn more
than the list has entries is enough. -/
def statusLoop (cfg : Config) (rx : Rx) :
    Nat → List RxPdu → Bool → StatusWriter → Option (StatusWriter × Bool)
  | 0, _, _, w => some (w, false)
  | _ + 1, [], _, w => some (w, false)
  | fuel + 1, cur :: rest, checkHead, w =>
    match nextMissing cfg rx cur rest checkHead with
    | none => some (w, false)
    | some m =>
      (generateMissing cfg m w).bind fun p =>
        -- truncated: m.next is null
        if p.2 then some (patchSoEnd p.1, true) else statusLoop cfg rx fuel m.next false p.1

/-- `generate_status` writes ACK_SN into the first bytes. -/
def putAckSn (cfg : Config) (buffer : List UInt8) (ackSn : Nat) : List UInt8 :=
  if cfg.snFieldLength = 12 then
    (buffer.set 0 (UInt8.ofNat (ackSn >>> 8))).set 1 (UInt8.ofNat (ackSn &&& 255))
  else
    orByte ((buffer.set 0 (UInt8.ofNat (ackSn >>> 14))).set 1 (UInt8.ofNat ((ackSn >>> 6) &&& 255)))
      2 (UInt8.ofNat ((ackSn &&& 0x3f) <<< 2))

/-- The writer once the first three bytes are reserved. -/
def statusHeader (cfg : Config) (rx : Rx) (encoder : PduEncoder) : StatusWriter :=
  { encoder := encoder
    e1Byte := 2
    e1Bit := if cfg.snFieldLength = 18 then 1 else 7
    soEndAddress := none
    lastNack := snBefore cfg rx.rxNext }

/-- `generate_status` up to ACK_SN. -/
def statusWritten (cfg : Config) (rx : Rx) (buffer : List UInt8) : Option (StatusWriter × Bool) :=
  ((PduEncoder.init buffer buffer.length).putBits 0 (8 * 3)).bind fun encoder =>
    statusLoop cfg rx (rx.rxList.length + 1) rx.rxList true (statusHeader cfg rx encoder)

/-- The status PDU; `none`: the encoder ends the process. -/
def statusBytes (cfg : Config) (rx : Rx) (buffer : List UInt8) : Option (List UInt8) :=
  (statusWritten cfg rx buffer).map fun p =>
    (putAckSn cfg p.1.encoder.buffer ((p.1.lastNack + 1) % cfg.snModulus)).take p.1.encoder.byte

/-- `generate_status`; `none`: the process ends. -/
def generateStatus (cfg : Config) (tCurrent : UInt64) (rx : Rx) (buffer : List UInt8) :
    Option (Rx × Option (List UInt8)) :=
  if buffer.length < 3 then some (rx, none)
  else
    (statusBytes cfg rx buffer).map fun pdu =>
      ({ rx with statusTriggered := false, tStatusProhibitStart := tCurrent }, some pdu)

/-- `status_to_report` -/
def statusToReport (cfg : Config) (tCurrent : UInt64) (rx : Rx) : Bool :=
  rx.statusTriggered &&
    (rx.tStatusProhibitStart == 0 ||
      decide (tCurrent - rx.tStatusProhibitStart > UInt64.ofInt cfg.tStatusProhibit))

end NrStack.Rlc.Am
