/-
  The sending side of an AM entity, and its entry points.

  A PDU is a status report if one is due, else a segment of `retransmit_list`, else one of `tx_list`.  A
  segment that does not fit is cut in two: the first part is sent and goes to `wait_list`, the second stays.
  `generatePdu` returns the bytes of the PDU; `none` inside stands for the return value 0.
-/
import NrStack.Rlc.AmStatus
import NrStack.Rlc.AmControl

namespace NrStack.Rlc.Am

/-! ## TX functions -/

/-- `nr_rlc_tx_sdu_segment_list_add`: order is by SN, then by SO. -/
def txSduSegmentListAdd (cfg : Config) (tx : Tx) : List Seg → Seg → List Seg
  | [], sdu => [sdu]
  | cur :: rest, sdu =>
    if snCompareTx cfg tx (snOf tx cur) (snOf tx sdu) > 0 ∨
        (snOf tx cur = snOf tx sdu ∧ cur.so > sdu.so) then sdu :: cur :: rest
    else cur :: txSduSegmentListAdd cfg tx rest sdu

/-- `is_window_stalling` -/
def isWindowStalling (cfg : Config) (tx : Tx) : Bool :=
  !(decide (snCompareTx cfg tx tx.txNextAck tx.txNext ≤ 0) &&
    decide (snCompareTx cfg tx tx.txNext
      (((tx.txNextAck + cfg.windowSize) % cfg.snModulus : Nat)) < 0))

/-- `check_poll_after_pdu_assembly` -/
def checkPollAfterPduAssembly (cfg : Config) (tx : Tx) : Bool :=
  (tx.txList.isEmpty && tx.retransmitList.isEmpty) || isWindowStalling cfg tx

/-- `include_poll`, on the entity. -/
def includePoll (cfg : Config) (tCurrent : UInt64) (tx : Tx) : Tx :=
  { tx with
    pduWithoutPoll := 0
    byteWithoutPoll := 0
    pollSn := (tx.txNext + cfg.snModulus - 1) % cfg.snModulus
    tPollRetransmitStart := tCurrent }

/-- The fields `serialize_sdu` writes; P is reserved, and set later. -/
def headerFields (snFieldLength : Nat) (isFirst isLast : Bool) (sn so : Nat) : List Bits.BitField :=
  [⟨true, 1, 1⟩, ⟨true, 0, 1⟩, ⟨true, 1 - isFirst.toNat, 1⟩, ⟨true, 1 - isLast.toNat, 1⟩,
    ⟨snFieldLength == 18, 0, 2⟩, ⟨true, sn, snFieldLength⟩, ⟨!isFirst, so, 16⟩]

/-- The bytes of a PDU; `none`: the encoder ends the process. -/
def pduBytes (cfg : Config) (heap : Heap) (sdu : Seg) (buffer : List UInt8) (p : Bool) :
    Option (List UInt8) :=
  ((PduEncoder.init buffer buffer.length).putFields (headerFields cfg.snFieldLength sdu.isFirst
    sdu.isLast (heap.sdus sdu.sdu).sn.toNat sdu.so)).map fun e =>
      let pdu := e.buffer.take e.byte ++ ((heap.sdus sdu.sdu).data.drop sdu.so).take sdu.size
      if p then orByte pdu 0 0x40 else pdu

/-- `serialize_sdu` -/
def serializeSdu (cfg : Config) (tCurrent : UInt64) (tx : Tx) (sdu : Seg) (buffer : List UInt8)
    (p : Bool) : Option (Tx × List UInt8) :=
  (pduBytes cfg tx.heap sdu buffer p).map fun pdu =>
    (if p then includePoll cfg tCurrent tx else tx, pdu)

/-- `resegment`: the segment cut to fit `pduSize` bytes, and the rest. -/
def resegment (cfg : Config) (sdu : Seg) (pduSize : Nat) : Seg × Seg :=
  let overSize := computePduHeaderSize cfg sdu + sdu.size - pduSize
  let size := sdu.size - overSize
  ({ sdu.clearLast with size := size },
    { sdu with size := overSize, so := sdu.so + size, isFirst := false })

/-- Whether a segment comes behind the end of the wait list. -/
def behindWaitEnd (cfg : Config) (tx : Tx) (sdu : Seg) : Bool :=
  match tx.waitEnd with
  | none => true
  | some e =>
    let cmp := snCompareTx cfg tx (snOf tx sdu) (snOf tx e)
    decide (cmp > 0 ∨ (cmp = 0 ∧ sdu.so > e.so))

/-- "Put SDU/SDU segment in the wait list". -/
def putInWaitList (cfg : Config) (tx : Tx) (sdu : Seg) : Option Tx :=
  if behindWaitEnd cfg tx sdu then
    (sduSegmentListAppend tx.waitList tx.waitEnd sdu).map fun p =>
      { tx with waitList := p.1, waitEnd := p.2 }
  else
    let list := txSduSegmentListAdd cfg tx tx.waitList sdu
    some { tx with
      waitList := list
      waitEnd := if list.length = 1 then list.head? else tx.waitEnd }

/-- `force_poll = 0` -/
def clearForcePoll (tx : Tx) : Tx := { tx with forcePoll := false }

/-- `sdu->ref_count++` -/
def addRef (tx : Tx) (sdu : Seg) : Tx := { tx with heap := tx.heap.addRef sdu.sdu }

/-- The end of `generate_retx_pdu`, once the segment to send is cut to size. -/
def sendRetx (cfg : Config) (tCurrent : UInt64) (tx : Tx) (sdu : Seg) (buffer : List UInt8) :
    Option (Tx × List UInt8) :=
  (putInWaitList cfg tx sdu).bind fun tx =>
    serializeSdu cfg tCurrent (clearForcePoll tx) sdu buffer
      (checkPollAfterPduAssembly cfg tx || tx.forcePoll)

/-- `generate_retx_pdu`, for a retransmit list that is not empty. -/
def generateRetxPdu (cfg : Config) (tCurrent : UInt64) (tx : Tx) (buffer : List UInt8) :
    Option (Tx × Option (List UInt8)) :=
  match tx.retransmitList with
  | [] => none
  | sdu :: rest =>
    if computePduHeaderSize cfg sdu + 1 > buffer.length then some (tx, none)
    else
      let tx := subRetx cfg { tx with retransmitList := rest } sdu
      (if computePduHeaderSize cfg sdu + sdu.size > buffer.length then
          let p := resegment cfg sdu buffer.length
          -- put the second SDU back at the head of the retransmit list
          let tx := addRetx cfg { addRef tx sdu with retransmitList := p.2 :: rest } p.2
          sendRetx cfg tCurrent tx p.1 buffer
        else sendRetx cfg tCurrent tx sdu buffer).map fun r => (r.1, some r.2)

/-- The polling actions for a new PDU count it and its bytes. -/
def countPoll (tx : Tx) (sdu : Seg) : Tx :=
  { tx with
    pduWithoutPoll := tx.pduWithoutPoll + 1
    byteWithoutPoll := tx.byteWithoutPoll + sdu.size }

/-- The polling decision for a new PDU. -/
def pollNewPdu (cfg : Config) (tx : Tx) : Bool :=
  decide ((cfg.pollPdu ≠ -1 ∧ tx.pduWithoutPoll ≥ cfg.pollPdu) ∨
    (cfg.pollByte ≠ -1 ∧ tx.byteWithoutPoll ≥ cfg.pollByte)) || checkPollAfterPduAssembly cfg tx

/-- The end of `generate_tx_pdu`, once the segment to send is cut to size. -/
def sendTx (cfg : Config) (tCurrent : UInt64) (tx : Tx) (sdu : Seg) (buffer : List UInt8) :
    Option (Tx × List UInt8) :=
  (putInWaitList cfg tx sdu).bind fun tx =>
    let tx := countPoll tx sdu
    serializeSdu cfg tCurrent (clearForcePoll tx) sdu buffer (pollNewPdu cfg tx || tx.forcePoll)

/-- The segment is counted in for transmission. -/
def addTx (cfg : Config) (tx : Tx) (seg : Seg) : Tx :=
  { tx with bstatusTxSize := tx.bstatusTxSize + (computePduHeaderSize cfg seg + seg.size : Nat) }

/-- The segment is counted out. -/
def subTx (cfg : Config) (tx : Tx) (seg : Seg) : Tx :=
  { tx with bstatusTxSize := tx.bstatusTxSize - (computePduHeaderSize cfg seg + seg.size : Nat) }

/-- "Assign SN to SDU". -/
def assignSn (cfg : Config) (tx : Tx) (sdu : Seg) : Tx :=
  if snOf tx sdu = -1 then
    { tx with
      heap := tx.heap.setSn sdu.sdu tx.txNext
      txNext := (tx.txNext + 1) % cfg.snModulus }
  else tx

/-- `generate_tx_pdu` takes the head off `tx_list` and assigns its SN. -/
def takeHead (cfg : Config) (tx : Tx) (sdu : Seg) (rest : List Seg) : Tx :=
  assignSn cfg (subTx cfg { tx with
    txList := rest
    txEnd := if rest = [] then none else tx.txEnd } sdu) sdu

/-- `generate_tx_pdu` puts the second part of a segment back at the head of `tx_list`. -/
def putBack (cfg : Config) (tx : Tx) (next : Seg) : Tx :=
  addTx cfg { addRef tx next with
    txList := next :: tx.txList
    txEnd := if tx.txEnd = none then some next else tx.txEnd } next

/-- `generate_tx_pdu` -/
def generateTxPdu (cfg : Config) (tCurrent : UInt64) (tx : Tx) (buffer : List UInt8) :
    Option (Tx × Option (List UInt8)) :=
  if isWindowStalling cfg tx then some (tx, none)
  else
    match tx.txList with
    | [] => some (tx, none)
    | sdu :: rest =>
      if computePduHeaderSize cfg sdu + 1 > buffer.length then some (tx, none)
      else
        let tx := takeHead cfg tx sdu rest
        (if computePduHeaderSize cfg sdu + sdu.size > buffer.length then
            let p := resegment cfg sdu buffer.length
            sendTx cfg tCurrent (putBack cfg tx p.2) p.1 buffer
          else sendTx cfg tCurrent tx sdu buffer).map fun r => (r.1, some r.2)

/-- The part of `nr_rlc_entity_am_generate_pdu` behind the status report. -/
def generateDataPdu (cfg : Config) (tCurrent : UInt64) (tx : Tx) (buffer : List UInt8) :
    Option (Tx × Option (List UInt8)) :=
  if tx.retransmitList = [] then generateTxPdu cfg tCurrent tx buffer
  else
    (generateRetxPdu cfg tCurrent tx buffer).bind fun p =>
      if p.2.isSome then some p else generateTxPdu cfg tCurrent p.1 buffer

/-- `nr_rlc_entity_am_generate_pdu` -/
def generatePdu (e : Entity) (buffer : List UInt8) : Option (Entity × Option (List UInt8)) :=
  (if statusToReport e.cfg e.tCurrent e.rx then generateStatus e.cfg e.tCurrent e.rx buffer
    else some (e.rx, none)).bind fun r =>
      let e := { e with rx := r.1 }
      if r.2.isSome then some (e, r.2)
      else (generateDataPdu e.cfg e.tCurrent e.tx buffer).map fun p => ({ e with tx := p.1 }, p.2)

/-! ## SDU RX functions -/

/-- `nr_rlc_entity_am_recv_sdu`: an SDU that does not fit `tx_maxsize` is rejected. -/
def recvSdu (e : Entity) (buffer : List UInt8) (sduId : Int) : Option Entity :=
  if buffer.length > nrSduMax then none
  else if e.tx.txSize + buffer.length > e.cfg.txMaxsize then some e
  else
    let (heap, sdu) := e.tx.heap.newSdu buffer sduId
    (sduSegmentListAppend e.tx.txList e.tx.txEnd sdu).map fun p =>
      { e with tx := addTx e.cfg { e.tx with
        heap := heap
        txList := p.1
        txEnd := p.2
        txSize := e.tx.txSize + buffer.length } sdu }

/-! ## Time -/

/-- The loop of `check_t_poll_retransmit`: the segments of one SN at the head of the wait list go
to the retransmit list. -/
def moveToRetransmit (cfg : Config) (retransmitSn : Int) : Tx → List Seg → Tx
  | tx, [] => { tx with waitList := [], waitEnd := none }
  | tx, cur :: rest =>
    if snOf tx cur = retransmitSn then
      moveToRetransmit cfg retransmitSn
        (addRetx cfg { tx with
          retransmitList := txSduSegmentListAdd cfg tx tx.retransmitList cur } cur) rest
    else { tx with waitList := cur :: rest }

/-- `check_t_poll_retransmit`; an empty wait list is dereferenced. -/
def checkTPollRetransmit (cfg : Config) (tCurrent : UInt64) (tx : Tx) : Option Tx :=
  if tx.tPollRetransmitStart = 0 ∨
      tCurrent ≤ tx.tPollRetransmitStart + UInt64.ofInt cfg.tPollRetransmit then some tx
  else
    let tx := { tx with tPollRetransmitStart := 0, forcePoll := true }
    if !checkPollAfterPduAssembly cfg tx then some tx
    else
      match tx.waitList with
      | [] => none
      | cur :: rest =>
        let heap := tx.heap.modify cur.sdu fun s => { s with retxCount := s.retxCount + 1 }
        let tx := moveToRetransmit cfg (snOf tx cur) { tx with heap := heap } (cur :: rest)
        some { tx with
          maxRetxReached := if (heap.sdus cur.sdu).retxCount ≥ cfg.maxRetxThreshold then
            tx.maxRetxReached + 1 else tx.maxRetxReached }

/-- `nr_rlc_entity_am_set_time` -/
def setTime (e : Entity) (now : UInt64) : Option Entity :=
  (checkTPollRetransmit e.cfg now e.tx).bind fun tx =>
    (checkTReassembly e.cfg now e.rx).map fun rx =>
      { e with tCurrent := now, rx := rx, tx := tx }

/-! ## Reconfiguration -/

/-- `nr_rlc_entity_am_reconfigure`; modulus and window stay as they were set up. -/
def reconfigure (e : Entity) (tPollRetransmit tReassembly tStatusProhibit pollPdu pollByte
    maxRetxThreshold : Int) (snFieldLength : Option Nat) : Entity :=
  { e with cfg := { e.cfg with
    tPollRetransmit := tPollRetransmit
    tReassembly := tReassembly
    tStatusProhibit := tStatusProhibit
    pollPdu := pollPdu
    pollByte := pollByte
    maxRetxThreshold := maxRetxThreshold
    snFieldLength := snFieldLength.getD e.cfg.snFieldLength } }

/-! ## Discard -/

/-- `nr_rlc_entity_am_discard_sdu`: only an SDU none of whose bytes was sent. -/
def discardSdu (e : Entity) (sduId : Int) : Entity :=
  match e.tx.txList.dropWhile (lacksId e.tx.heap sduId) with
  | [] => e
  | cur :: rest =>
    if !cur.isFirst || !cur.isLast then e
    else
      let before := e.tx.txList.takeWhile (lacksId e.tx.heap sduId)
      { e with tx := subTx e.cfg { e.tx with
        txList := before ++ rest
        txEnd := if e.tx.txEnd = some cur then before.getLast? else e.tx.txEnd
        txSize := e.tx.txSize - (e.tx.heap.sdus cur.sdu).size
        heap := (e.tx.heap.freeSduSegment cur).1 } cur }

/-! ## Reestablishment -/

/-- `clear_entity` -/
def clearEntity (e : Entity) : Entity :=
  { e with
    tCurrent := 0
    rx := { e.rx with
      rxNext := 0
      rxNextStatusTrigger := 0
      rxHighestStatus := 0
      rxNextHighest := 0
      statusTriggered := false
      tReassemblyStart := 0
      tStatusProhibitStart := 0
      rxList := []
      rxSize := 0 }
    tx := { e.tx with
      txNext := 0
      txNextAck := 0
      pollSn := 0
      pduWithoutPoll := 0
      byteWithoutPoll := 0
      forcePoll := false
      tPollRetransmitStart := 0
      heap := freeSduSegmentList (freeSduSegmentList
        (freeSduSegmentList e.tx.heap e.tx.txList) e.tx.waitList) e.tx.retransmitList
      txList := []
      txEnd := none
      txSize := 0
      waitList := []
      waitEnd := none
      retransmitList := []
      bstatusTxSize := 0
      bstatusRetxSize := 0 } }

/-- `nr_rlc_entity_am_reestablishment` -/
def reestablishment (e : Entity) : Entity := clearEntity e

/-! ## Received PDUs -/

/-- `nr_rlc_entity_am_recv_pdu`; `none`: the process ends. -/
def recvPdu (e : Entity) (buffer : List UInt8) : Option Entity :=
  match (PduDecoder.init buffer buffer.length).read 1 with
  | .error .exit => none
  | .error .err => some e
  | .ok (dc, d) =>
    if dc = 0 then (processControlPdu e.cfg e.tx buffer).map fun tx => { e with tx := tx }
    else (recvDataPdu e.cfg e.tCurrent e.rx buffer d).map fun rx => { e with rx := rx }

end NrStack.Rlc.Am
