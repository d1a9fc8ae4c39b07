/-
  The RLC entity in unacknowledged mode (`nr_rlc_entity_um.c`).

  `delivered` is what `deliver_sdu` was called with, in order.  `none` is the end of the process
  (`exit(1)`, a null pointer, a loop that never ends).  A function that may also decline to produce a PDU
  returns an `Option` inside.

  LEFT OUT  statistics, log messages, the averaging of waiting times.
-/
import NrStack.Rlc.Reassembly

namespace NrStack.Rlc.Um

/-! ## The entity -/

/-- The parameters of `nr_rlc_entity_um_t`. -/
structure Config where
  tReassembly : Int
  snFieldLength : Nat
  snModulus : Nat
  windowSize : Nat
  rxMaxsize : Int
  txMaxsize : Int

/-- Its receiving side. -/
structure Rx where
  rxNextHighest : Nat
  rxNextReassembly : Nat
  rxTimerTrigger : Nat
  tReassemblyStart : UInt64
  rxList : List RxPdu
  rxSize : Int
  delivered : List (List (Option UInt8))

/-- Its transmitting side. -/
structure Tx where
  txNext : Nat
  heap : Heap
  txList : List Seg
  txEnd : Option Seg
  txSize : Int
  bstatusTxSize : Int

/-- `nr_rlc_entity_um_t` -/
structure Entity where
  cfg : Config
  tCurrent : UInt64
  rx : Rx
  tx : Tx

/-- `new_nr_rlc_entity_um`; `none` when the field length is refused. -/
def newNrRlcEntityUm (rxMaxsize txMaxsize tReassembly : Int) (snFieldLength : Nat) :
    Option Entity :=
  if snFieldLength = 6 ∨ snFieldLength = 12 then
    some {
      cfg := ⟨tReassembly, snFieldLength, 1 <<< snFieldLength, (1 <<< snFieldLength) / 2,
        rxMaxsize, txMaxsize⟩
      tCurrent := 0
      rx := ⟨0, 0, 0, 0, [], 0, []⟩
      tx := ⟨0, Heap.empty, [], none, 0, 0⟩ }
  else none

/-- `compute_pdu_header_size` -/
def computePduHeaderSize (cfg : Config) (sdu : Seg) : Nat :=
  1 + (if !(sdu.isFirst && sdu.isLast) && cfg.snFieldLength == 12 then 1 else 0)
    + (if !sdu.isFirst then 2 else 0)

/-! ## PDU RX functions -/

/-- `modulus_rx` -/
def modulusRx (cfg : Config) (rx : Rx) (a : Nat) : Int :=
  let r : Int := a - ((rx.rxNextHighest : Int) - cfg.windowSize)
  let r := if r < 0 then r + cfg.snModulus else r
  r.tmod cfg.snModulus

/-- `sn_compare_rx` -/
def snCompareRx (cfg : Config) (rx : Rx) (a b : Nat) : Int :=
  modulusRx cfg rx a - modulusRx cfg rx b

/-- What `reassemble_and_deliver` does to an entry. -/
def freed (pdu : RxPdu) : RxPdu := { pdu with data := none, size := 0 }

/-- `reassemble_and_deliver` -/
def reassembleAndDeliver (rx : Rx) (sn : Nat) : Rx :=
  { rx with
    rxList := freeSegments freed rx.rxList sn
    rxSize := rx.rxSize - segmentsSize rx.rxList sn
    delivered := rx.delivered ++ (reassemble rx.rxList sn).toList }

/-- What is done when SDU `x` is complete. -/
def receptionFull (cfg : Config) (rx : Rx) (x : Nat) : Option Rx :=
  let rx := reassembleAndDeliver rx x
  if x = rx.rxNextReassembly then
    (skipDelivered rx.rxList cfg.snModulus (rx.rxList.length + 1) rx.rxNextReassembly).map
      fun n => { rx with rxNextReassembly := n }
  else some rx

/-- Whether an entry lies outside the reassembly window, at or above `rx_next_highest`. -/
def outside (cfg : Config) (rx : Rx) (l : RxPdu) : Bool :=
  decide (snCompareRx cfg rx l.sn rx.rxNextHighest ≥ 0)

/-- `reception_actions` discards the PDUs at the head that are not in the reassembly window. -/
def discardOutside (cfg : Config) (rx : Rx) : Rx :=
  { rx with
    rxList := rx.rxList.dropWhile (outside cfg rx)
    rxSize := rx.rxSize - ((rx.rxList.takeWhile (outside cfg rx)).map (·.size)).sum }

/-- `reception_actions` moves `rx_next_reassembly` into the window if it fell out of it. -/
def pullReassembly (cfg : Config) (rx : Rx) : Option Rx :=
  if snCompareRx cfg rx rx.rxNextReassembly rx.rxNextHighest ≥ 0 then
    let first := (rx.rxNextHighest + cfg.snModulus - cfg.windowSize) % cfg.snModulus
    (skipDelivered rx.rxList cfg.snModulus (rx.rxList.length + 1) first).map
      fun n => { rx with rxNextReassembly := n }
  else some rx

/-- What is done when it is not. -/
def receptionPartial (cfg : Config) (rx : Rx) (x : Nat) : Option Rx :=
  if snCompareRx cfg rx x rx.rxNextHighest ≥ 0 then
    pullReassembly cfg (discardOutside cfg { rx with rxNextHighest := (x + 1) % cfg.snModulus })
  else some rx

/-- `reception_actions` stops a running t_reassembly that waits for nothing any more. -/
def stopTReassembly (cfg : Config) (rx : Rx) : Rx :=
  if rx.tReassemblyStart ≠ 0 ∧
      (snCompareRx cfg rx rx.rxTimerTrigger rx.rxNextReassembly ≤ 0 ∨
        snCompareRx cfg rx rx.rxTimerTrigger rx.rxNextHighest > 0 ∨
        (rx.rxNextHighest = (rx.rxNextReassembly + 1) % cfg.snModulus ∧
          ¬ sduHasMissingBytes rx.rxList rx.rxNextReassembly)) then
    { rx with tReassemblyStart := 0 }
  else rx

/-- `reception_actions` starts t_reassembly, if it is not running, when something is missing. -/
def startTReassembly (cfg : Config) (tCurrent : UInt64) (rx : Rx) : Rx :=
  let after := (rx.rxNextReassembly + 1) % cfg.snModulus
  if rx.tReassemblyStart = 0 ∧
      (snCompareRx cfg rx rx.rxNextHighest after > 0 ∨
        (rx.rxNextHighest = after ∧ sduHasMissingBytes rx.rxList rx.rxNextReassembly)) then
    { rx with tReassemblyStart := tCurrent, rxTimerTrigger := rx.rxNextHighest }
  else rx

/-- `reception_actions`; `none`: a loop does not end. -/
def receptionActions (cfg : Config) (tCurrent : UInt64) (rx : Rx) (x : Nat) : Option Rx :=
  (if sduFull rx.rxList x then receptionFull cfg rx x else receptionPartial cfg rx x).map
    fun rx => startTReassembly cfg tCurrent (stopTReassembly cfg rx)

/-- The header behind the SI field: SN and, for a segment that is not the first, SO. -/
def readSegmentHeader (cfg : Config) (isFirst : Bool) (d : PduDecoder) :
    Except Stop (Nat × Nat × PduDecoder) := do
  let (_, d) ← d.readWhen (cfg.snFieldLength == 12) 2
  let (sn, d) ← d.read cfg.snFieldLength
  let (so, d) ← d.readWhen (!isFirst) 16
  pure (sn, so, d)

/-- The end of `nr_rlc_entity_um_recv_pdu`, for a decoded segment: the last three discards, then
the insertion and `reception_actions`. -/
def recvSegment (e : Entity) (sn so : Nat) (isFirst isLast : Bool) (data : List UInt8) :
    Option Entity :=
  if data.length ≤ 0 then some e
  else if e.rx.rxSize + data.length > e.cfg.rxMaxsize then some e
  else if snCompareRx e.cfg e.rx sn e.rx.rxNextReassembly < 0 then some e
  else
    let rx := { e.rx with
      rxSize := e.rx.rxSize + data.length
      rxList := pduListAdd (snCompareRx e.cfg e.rx) e.rx.rxList
        (newPdu sn so isFirst isLast data) }
    (receptionActions e.cfg e.tCurrent rx sn).map fun rx => { e with rx := rx }

/-- `nr_rlc_entity_um_recv_pdu`; `none`: the process ends. -/
def recvPdu (e : Entity) (buffer : List UInt8) : Option Entity :=
  match (PduDecoder.init buffer buffer.length).read 2 with
  | .error .exit => none
  | .error .err => some e
  | .ok (si, d) =>
    let isFirst := si &&& 2 == 0
    let isLast := si &&& 1 == 0
    if isFirst && isLast then
      if buffer.length < 2 then some e
      else some { e with
        rx := { e.rx with delivered := e.rx.delivered ++ [(buffer.drop 1).map some] } }
    else
      match readSegmentHeader e.cfg isFirst d with
      | .error .exit => none
      | .error .err => some e
      | .ok (sn, so, d) =>
        if !isFirst && so == 0 then some e
        else recvSegment e sn so isFirst isLast (buffer.drop d.byte)

/-! ## TX functions -/

/-- The fields `serialize_sdu` writes. -/
def headerFields (snFieldLength : Nat) (isFirst isLast : Bool) (sn so : Nat) : List Bits.BitField :=
  let whole := isFirst && isLast
  [⟨true, 1 - isFirst.toNat, 1⟩, ⟨true, 1 - isLast.toNat, 1⟩, ⟨whole, 0, 6⟩,
    ⟨!whole && snFieldLength == 12, 0, 2⟩, ⟨!whole, sn, snFieldLength⟩, ⟨!isFirst, so, 16⟩]

/-- `serialize_sdu`: the bytes of the PDU, the first `ret` of the buffer. -/
def serializeSdu (cfg : Config) (heap : Heap) (sdu : Seg) (buffer : List UInt8) :
    Option (List UInt8) :=
  ((PduEncoder.init buffer buffer.length).putFields (headerFields cfg.snFieldLength sdu.isFirst
    sdu.isLast (heap.sdus sdu.sdu).sn.toNat sdu.so)).map fun e =>
      e.buffer.take e.byte ++ ((heap.sdus sdu.sdu).data.drop sdu.so).take sdu.size

/-- `resegment`: the reference is counted even when the segment is then refused. -/
def resegment (cfg : Config) (heap : Heap) (sdu : Seg) (pduSize : Nat) :
    Heap × Option (Seg × Seg) :=
  let pduHeaderSize := computePduHeaderSize cfg sdu.clearLast
  if pduHeaderSize + 1 > pduSize then (heap.addRef sdu.sdu, none)
  else
    let overSize := pduHeaderSize + sdu.size - pduSize
    let size := sdu.size - overSize
    (heap.addRef sdu.sdu, some ({ sdu.clearLast with size := size },
      { sdu with size := overSize, so := sdu.so + size, isFirst := false }))

/-- The end of `generate_tx_pdu`, once the segment to send is cut to size. -/
def sendSegment (cfg : Config) (tx : Tx) (sdu : Seg) (buffer : List UInt8) :
    Option (Tx × Option (List UInt8)) :=
  let tx := if !sdu.isFirst && sdu.isLast then
      { tx with txNext := (tx.txNext + 1) % cfg.snModulus } else tx
  (serializeSdu cfg tx.heap sdu buffer).map fun pdu =>
    ({ tx with
      txSize := tx.txSize - sdu.size
      heap := (tx.heap.freeSduSegment sdu).1 }, some pdu)

/-- `generate_tx_pdu` takes the head off `tx_list` and assigns its SN. -/
def takeHead (cfg : Config) (tx : Tx) (sdu : Seg) (rest : List Seg) : Tx :=
  { tx with
    txList := rest
    txEnd := if rest = [] then none else tx.txEnd
    heap := tx.heap.setSn sdu.sdu tx.txNext
    bstatusTxSize := tx.bstatusTxSize - (computePduHeaderSize cfg sdu + sdu.size : Nat) }

/-- `generate_tx_pdu` puts the second half of a segment back at the head of `tx_list`. -/
def putBack (cfg : Config) (tx : Tx) (heap : Heap) (next : Seg) : Tx :=
  { tx with
    heap := heap
    txList := next :: tx.txList
    txEnd := if tx.txEnd = none then some next else tx.txEnd
    bstatusTxSize := tx.bstatusTxSize + (computePduHeaderSize cfg next + next.size : Nat) }

/-- `generate_tx_pdu` -/
def generateTxPdu (cfg : Config) (tx : Tx) (buffer : List UInt8) :
    Option (Tx × Option (List UInt8)) :=
  match tx.txList with
  | [] => some (tx, none)
  | sdu :: rest =>
    let pduHeaderSize := computePduHeaderSize cfg sdu
    if pduHeaderSize + 1 > buffer.length then some (tx, none)
    else
      let tx := takeHead cfg tx sdu rest
      if pduHeaderSize + sdu.size > buffer.length then
        match resegment cfg tx.heap sdu buffer.length with
        | (heap, none) => some ({ tx with heap := heap }, none)
        | (heap, some (sdu, next)) => sendSegment cfg (putBack cfg tx heap next) sdu buffer
      else sendSegment cfg tx sdu buffer

/-- `nr_rlc_entity_um_generate_pdu` -/
def generatePdu (e : Entity) (buffer : List UInt8) : Option (Entity × Option (List UInt8)) :=
  (generateTxPdu e.cfg e.tx buffer).map fun p => ({ e with tx := p.1 }, p.2)

/-! ## SDU RX functions -/

/-- `nr_rlc_entity_um_recv_sdu`: an SDU that does not fit `tx_maxsize` is rejected. -/
def recvSdu (e : Entity) (buffer : List UInt8) (sduId : Int) : Option Entity :=
  if buffer.length > nrSduMax then none
  else if e.tx.txSize + buffer.length > e.cfg.txMaxsize then some e
  else
    let (heap, sdu) := e.tx.heap.newSdu buffer sduId
    (sduSegmentListAppend e.tx.txList e.tx.txEnd sdu).map fun p =>
      { e with tx := { e.tx with
        heap := heap
        txList := p.1
        txEnd := p.2
        txSize := e.tx.txSize + buffer.length
        bstatusTxSize := e.tx.bstatusTxSize + (computePduHeaderSize e.cfg sdu + sdu.size : Nat) } }

/-! ## Time -/

/-- `check_t_reassembly`; the restart test compares `rx_next_highest` with `rx_next_reassembly + 1`
without the modulus, and the discarded bytes stay in `rx_size`. -/
def checkTReassembly (e : Entity) : Option Rx :=
  let rx := e.rx
  if rx.tReassemblyStart = 0 ∨
      e.tCurrent ≤ rx.tReassemblyStart + UInt64.ofInt e.cfg.tReassembly then some rx
  else
    let rx := { rx with tReassemblyStart := 0 }
    (skipDelivered rx.rxList e.cfg.snModulus (rx.rxList.length + 1) rx.rxTimerTrigger).map
      fun next =>
        let rx := { rx with rxNextReassembly := next }
        -- discard all segments < rx_next_reassembly
        let below := fun l : RxPdu => decide (snCompareRx e.cfg rx l.sn rx.rxNextReassembly < 0)
        let rx := { rx with rxList := rx.rxList.dropWhile below }
        if snCompareRx e.cfg rx rx.rxNextHighest ((rx.rxNextReassembly + 1) % e.cfg.snModulus) > 0 ∨
            (rx.rxNextHighest = rx.rxNextReassembly + 1 ∧
              sduHasMissingBytes rx.rxList rx.rxNextReassembly) then
          { rx with tReassemblyStart := e.tCurrent, rxTimerTrigger := rx.rxNextHighest }
        else rx

/-- `nr_rlc_entity_um_set_time` -/
def setTime (e : Entity) (now : UInt64) : Option Entity :=
  let e := { e with tCurrent := now }
  (checkTReassembly e).map fun rx => { e with rx := rx }

/-! ## Reconfiguration, discard and reestablishment -/

/-- `nr_rlc_entity_um_reconfigure`; modulus and window stay as they were set up. -/
def reconfigure (e : Entity) (tReassembly : Int) (snFieldLength : Option Nat) : Entity :=
  { e with cfg := { e.cfg with
    tReassembly := tReassembly
    snFieldLength := snFieldLength.getD e.cfg.snFieldLength } }

/-- `nr_rlc_entity_um_discard_sdu`: only an SDU none of whose bytes was sent; `tx_size` is left as it
is. -/
def discardSdu (e : Entity) (sduId : Int) : Entity :=
  match e.tx.txList.dropWhile (lacksId e.tx.heap sduId) with
  | [] => e
  | cur :: rest =>
    if !cur.isFirst || !cur.isLast then e
    else
      let before := e.tx.txList.takeWhile (lacksId e.tx.heap sduId)
      { e with tx := { e.tx with
        txList := before ++ rest
        txEnd := if e.tx.txEnd = some cur then before.getLast? else e.tx.txEnd
        bstatusTxSize := e.tx.bstatusTxSize - (computePduHeaderSize e.cfg cur + cur.size : Nat)
        heap := (e.tx.heap.freeSduSegment cur).1 } }

/-- `clear_entity` -/
def clearEntity (e : Entity) : Entity :=
  { e with
    tCurrent := 0
    rx := { e.rx with
      rxNextHighest := 0
      rxNextReassembly := 0
      rxTimerTrigger := 0
      tReassemblyStart := 0
      rxList := []
      rxSize := 0 }
    tx := {
      txNext := 0
      heap := freeSduSegmentList e.tx.heap e.tx.txList
      txList := []
      txEnd := none
      txSize := 0
      bstatusTxSize := 0 } }

/-- `nr_rlc_entity_um_reestablishment` -/
def reestablishment (e : Entity) : Entity := clearEntity e

end NrStack.Rlc.Um
