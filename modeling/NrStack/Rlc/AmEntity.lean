/-
  The RLC entity in acknowledged mode (`nr_rlc_entity_am.c`): its state and its receiving side.

  Callbacks are kept as logs, in call order: `delivered` is what `deliver_sdu` was called with,
  `succeeded` the SDUs reported by `sdu_successful_delivery`, `maxRetxReached` the number of
  `max_retx_reached` calls.  `freed` is a history of the segments freed on acknowledgement.

  `none` is the end of the process (`exit(1)`, a failed assertion, a null pointer, a loop that never ends).
-/
import NrStack.Lib.Circular
import NrStack.Rlc.Reassembly

namespace NrStack.Rlc.Am

/-! ## The entity -/

/-- The parameters of `nr_rlc_entity_am_t`. -/
structure Config where
  tPollRetransmit : Int
  tReassembly : Int
  tStatusProhibit : Int
  pollPdu : Int
  pollByte : Int
  maxRetxThreshold : Int
  snFieldLength : Nat
  snModulus : Nat
  windowSize : Nat
  rxMaxsize : Int
  txMaxsize : Int

/-- Its receiving side. -/
structure Rx where
  rxNext : Nat
  rxNextStatusTrigger : Nat
  rxHighestStatus : Nat
  rxNextHighest : Nat
  statusTriggered : Bool
  tReassemblyStart : UInt64
  tStatusProhibitStart : UInt64
  rxList : List RxPdu
  rxSize : Int
  delivered : List (List (Option UInt8))

/-- Its transmitting side. -/
structure Tx where
  txNext : Nat
  txNextAck : Nat
  pollSn : Nat
  pduWithoutPoll : Int
  byteWithoutPoll : Int
  forcePoll : Bool
  tPollRetransmitStart : UInt64
  heap : Heap
  txList : List Seg
  txEnd : Option Seg
  txSize : Int
  waitList : List Seg
  waitEnd : Option Seg
  retransmitList : List Seg
  bstatusTxSize : Int
  bstatusRetxSize : Int
  freed : List Seg
  succeeded : List Nat
  maxRetxReached : Nat

/-- `nr_rlc_entity_am_t` -/
structure Entity where
  cfg : Config
  tCurrent : UInt64
  rx : Rx
  tx : Tx

/-- `new_nr_rlc_entity_am`; `none` when the field length is refused. -/
def newNrRlcEntityAm (rxMaxsize txMaxsize tPollRetransmit tReassembly tStatusProhibit pollPdu
    pollByte maxRetxThreshold : Int) (snFieldLength : Nat) : Option Entity :=
  if snFieldLength = 12 ∨ snFieldLength = 18 then
    some {
      cfg := ⟨tPollRetransmit, tReassembly, tStatusProhibit, pollPdu, pollByte, maxRetxThreshold,
        snFieldLength, 1 <<< snFieldLength, (1 <<< snFieldLength) / 2, rxMaxsize, txMaxsize⟩
      tCurrent := 0
      rx := ⟨0, 0, 0, 0, false, 0, 0, [], 0, []⟩
      tx := ⟨0, 0, 0, 0, 0, false, 0, Heap.empty, [], none, 0, [], none, [], 0, 0, [], [], 0⟩ }
  else none

/-- The parameters that `new_nr_rlc_entity_am` sets. -/
structure Config.Legal (cfg : Config) : Prop where
  length : cfg.snFieldLength = 12 ∨ cfg.snFieldLength = 18
  modulus : cfg.snModulus = 2 ^ cfg.snFieldLength
  window : cfg.snModulus = 2 * cfg.windowSize

lemma Config.Legal.windowSize_ge {cfg : Config} (h : cfg.Legal) : 2048 ≤ cfg.windowSize := by
  have hm := h.modulus
  have hw := h.window
  rcases h.length with hl | hl <;> rw [hl] at hm <;> omega

lemma Config.Legal.snFieldLength_le {cfg : Config} (h : cfg.Legal) : cfg.snFieldLength ≤ 31 := by
  rcases h.length with hl | hl <;> omega

/-- `compute_pdu_header_size` -/
def computePduHeaderSize (cfg : Config) (sdu : Seg) : Nat :=
  2 + (if cfg.snFieldLength = 18 then 1 else 0) + (if sdu.isFirst then 0 else 2)

/-! ## PDU RX functions -/

/-- `modulus_rx`: `r = a - rx_next; if (r < 0) r += sn_modulus`. -/
def modulusRx (cfg : Config) (rx : Rx) (a : Nat) : Nat := Circular.dist cfg.snModulus rx.rxNext a

/-- `sn_in_recv_window` -/
def snInRecvWindow (cfg : Config) (rx : Rx) (sn : Nat) : Bool :=
  decide (modulusRx cfg rx sn < cfg.windowSize)

/-- `sn_compare_rx` -/
def snCompareRx (cfg : Config) (rx : Rx) (a b : Nat) : Int :=
  (modulusRx cfg rx a : Int) - modulusRx cfg rx b

/-- The loop of `segment_already_received`: each entry of `sn` trims the segment from the front or
from the end. -/
def alreadyReceivedLoop (sn : Nat) : List RxPdu → Int → Int → Bool
  | [], _, size => decide (size ≤ 0)
  | l :: rest, so, size =>
    if size ≤ 0 then true
    else if l.sn = sn ∧ (l.so : Int) ≤ so ∧ so < l.so + l.size then
      let covered := l.size - (so - l.so)
      alreadyReceivedLoop sn rest (so + covered) (size - covered)
    else if l.sn = sn ∧ (l.so : Int) ≤ so + size - 1 ∧ so + size - 1 < l.so + l.size then
      let covered := size - (l.so - so)
      alreadyReceivedLoop sn rest so (size - covered)
    else alreadyReceivedLoop sn rest so size

/-- `segment_already_received` -/
def segmentAlreadyReceived (list : List RxPdu) (sn so size : Nat) : Bool :=
  alreadyReceivedLoop sn list so size

/-- What `reassemble_and_deliver` does to an entry: its size stays. -/
def freed (pdu : RxPdu) : RxPdu := { pdu with data := none }

/-- `reassemble_and_deliver` -/
def reassembleAndDeliver (rx : Rx) (sn : Nat) : Rx :=
  { rx with
    rxList := freeSegments freed rx.rxList sn
    rxSize := rx.rxSize - segmentsSize rx.rxList sn
    delivered := rx.delivered ++ (reassemble rx.rxList sn).toList }

/-- `reception_actions` moves `rx_next_highest` behind the SN received. -/
def updateNextHighest (cfg : Config) (rx : Rx) (x : Nat) : Rx :=
  if snCompareRx cfg rx x rx.rxNextHighest ≥ 0 then
    { rx with rxNextHighest := (x + 1) % cfg.snModulus }
  else rx

/-- `reception_actions` moves `rx_highest_status` to the next SDU that is not delivered. -/
def updateHighestStatus (cfg : Config) (rx : Rx) (x : Nat) : Option Rx :=
  if x = rx.rxHighestStatus then
    (skipDelivered rx.rxList cfg.snModulus (rx.rxList.length + 1) rx.rxHighestStatus).map
      fun sn => { rx with rxHighestStatus := sn }
  else some rx

/-- `reception_actions` frees the delivered SDUs at the head of `rx_list` and counts `rx_next` over
them; the list's length is fuel enough. -/
def freeDelivered (snModulus : Nat) : Nat → Nat → List RxPdu → Nat × List RxPdu
  | 0, rxNext, list => (rxNext, list)
  | _ + 1, rxNext, [] => (rxNext, [])
  | fuel + 1, rxNext, l :: rest =>
    if l.data = none ∧ l.sn = rxNext then
      freeDelivered snModulus fuel ((rxNext + 1) % snModulus) (rest.dropWhile (hasSn rxNext))
    else (rxNext, l :: rest)

/-- `reception_actions` updates `rx_next`. -/
def updateNext (cfg : Config) (rx : Rx) (x : Nat) : Rx :=
  if x = rx.rxNext then
    let p := freeDelivered cfg.snModulus rx.rxList.length rx.rxNext rx.rxList
    { rx with rxNext := p.1, rxList := p.2 }
  else rx

/-- What is done when SDU `x` is complete. -/
def receptionFull (cfg : Config) (rx : Rx) (x : Nat) : Option Rx :=
  (updateHighestStatus cfg (reassembleAndDeliver rx x) x).map fun rx => updateNext cfg rx x

/-- `reception_actions` stops a running t_reassembly. -/
def stopTReassembly (cfg : Config) (rx : Rx) : Rx :=
  let trigger := rx.rxNextStatusTrigger
  if rx.tReassemblyStart ≠ 0 ∧
      (trigger = rx.rxNext ∨
        (trigger = (rx.rxNext + 1) % cfg.snModulus ∧ ¬ sduHasMissingBytes rx.rxList rx.rxNext) ∨
        (¬ snInRecvWindow cfg rx trigger ∧
          trigger ≠ (rx.rxNext + cfg.windowSize) % cfg.snModulus)) then
    { rx with tReassemblyStart := 0 }
  else rx

/-- The start of t_reassembly when something is missing behind `sn`: `reception_actions` asks from
`rx_next`, `check_t_reassembly` from `rx_highest_status`. -/
def startTReassembly (cfg : Config) (tCurrent : UInt64) (rx : Rx) (sn : Nat) : Rx :=
  let after := (sn + 1) % cfg.snModulus
  if snCompareRx cfg rx rx.rxNextHighest after > 0 ∨
      (rx.rxNextHighest = after ∧ sduHasMissingBytes rx.rxList sn) then
    { rx with tReassemblyStart := tCurrent, rxNextStatusTrigger := rx.rxNextHighest }
  else rx

/-- The end of `reception_actions`: the timer. -/
def updateTReassembly (cfg : Config) (tCurrent : UInt64) (rx : Rx) : Rx :=
  let rx := stopTReassembly cfg rx
  if rx.tReassemblyStart = 0 then startTReassembly cfg tCurrent rx rx.rxNext else rx

/-- `reception_actions`; `none`: a loop does not end. -/
def receptionActions (cfg : Config) (tCurrent : UInt64) (rx : Rx) (x : Nat) : Option Rx :=
  let rx := updateNextHighest cfg rx x
  (if sduFull rx.rxList x then receptionFull cfg rx x else some rx).map
    (updateTReassembly cfg tCurrent)

/-- `if (p) entity->status_triggered = 1` -/
def triggerStatus (rx : Rx) (p : Bool) : Rx :=
  { rx with statusTriggered := rx.statusTriggered || p }

/-- The header of a data PDU behind the P field: SI, SN and, for a segment that is not the first,
SO. -/
def readDataHeader (cfg : Config) (d : PduDecoder) :
    Except Stop (Nat × Nat × Nat × PduDecoder) := do
  let (si, d) ← d.read 2
  let (_, d) ← d.readWhen (cfg.snFieldLength == 18) 2
  let (sn, d) ← d.read cfg.snFieldLength
  let (so, d) ← d.readWhen (si &&& 2 != 0) 16
  pure (si, sn, so, d)

/-- The end of `nr_rlc_entity_am_recv_pdu`, for a decoded data PDU without its P field: the last
four discards, then the insertion and `reception_actions`. -/
def recvSegment (cfg : Config) (tCurrent : UInt64) (rx : Rx) (sn so : Nat) (isFirst isLast : Bool)
    (data : List UInt8) : Option Rx :=
  if data.length ≤ 0 then some rx
  else if rx.rxSize + data.length > cfg.rxMaxsize then some rx
  else if !snInRecvWindow cfg rx sn then some rx
  else if segmentAlreadyReceived rx.rxList sn so data.length then some rx
  else
    receptionActions cfg tCurrent
      { rx with
        rxSize := rx.rxSize + data.length
        rxList := pduListAdd (snCompareRx cfg rx) rx.rxList (newPdu sn so isFirst isLast data) }
      sn

/-- `nr_rlc_entity_am_recv_pdu` for a data PDU, from the P field on.  The P field is obeyed also
when the PDU is discarded. -/
def recvDataPdu (cfg : Config) (tCurrent : UInt64) (rx : Rx) (buffer : List UInt8)
    (d : PduDecoder) : Option Rx :=
  match d.read 1 with
  | .error .exit => none
  -- the failed read left -1 in p
  | .error .err => some (triggerStatus rx true)
  | .ok (p, d) =>
    match readDataHeader cfg d with
    | .error .exit => none
    | .error .err => some (triggerStatus rx (p != 0))
    | .ok (si, sn, so, d) =>
      let isFirst := si &&& 2 == 0
      let isLast := si &&& 1 == 0
      (if !isFirst && so == 0 then some rx
        else recvSegment cfg tCurrent rx sn so isFirst isLast (buffer.drop d.byte)).map
          fun rx => triggerStatus rx (p != 0)

/-- `check_t_reassembly`; `none`: a loop does not end. -/
def checkTReassembly (cfg : Config) (tCurrent : UInt64) (rx : Rx) : Option Rx :=
  if rx.tReassemblyStart = 0 ∨
      tCurrent ≤ rx.tReassemblyStart + UInt64.ofInt cfg.tReassembly then some rx
  else
    (skipDelivered rx.rxList cfg.snModulus (rx.rxList.length + 1) rx.rxNextStatusTrigger).map
      fun sn => startTReassembly cfg tCurrent
        { rx with tReassemblyStart := 0, rxHighestStatus := sn, statusTriggered := true } sn

end NrStack.Rlc.Am
