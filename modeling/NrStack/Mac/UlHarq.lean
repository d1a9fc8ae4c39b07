/-
  Uplink HARQ processes of one UE at the gNB (`finish_nr_ul_harq`, `abort_nr_ul_harq`, `handle_nr_ul_harq`,
  the HARQ management of `nr_schedule_ulsch`, `create_ul_harq_list`, `reset_ul_harq_list`).

  What the preprocessor left in `sched_pusch` is part of the state.  A failed assertion ends the process;
  `Assertion` tells which one.  Whether a CRC belongs to an awaited Msg3 is an input.
-/
import NrStack.Mac.DlHarq

namespace NrStack.Mac

/-- The fields of `NR_tda_info_t` that scheduling reads. -/
structure TdaInfo where
  startSymbolIndex : Nat
  nrOfSymbols : Nat
  k2 : Nat
  validTda : Bool
  deriving DecidableEq, Repr

/-- The fields of `NR_pusch_dmrs_t` that scheduling reads. -/
structure PuschDmrs where
  nPrbDmrs : Nat
  numDmrsSymb : Nat
  deriving DecidableEq, Repr

/-- `NR_sched_pusch_t`, without `mu`, `tpmi` and `phr_txpower_calc`. -/
structure SchedPusch where
  frame : Nat
  slot : Nat
  rbSize : Nat
  rbStart : Nat
  mcs : Nat
  R : Nat
  Qm : Nat
  tbSize : Nat
  ulHarqPid : Int
  nrOfLayers : Nat
  timeDomainAllocation : Int
  tdaInfo : TdaInfo
  dmrsInfo : PuschDmrs
  deriving DecidableEq, Repr

/-- `memset(sched_pusch, 0, sizeof(*sched_pusch))` -/
def SchedPusch.zero : SchedPusch := ⟨0, 0, 0, 0, 0, 0, 0, 0, 0, 0, 0, ⟨0, 0, 0, false⟩, ⟨0, 0⟩⟩

/-- `NR_UE_ul_harq_t`. -/
structure UlHarq where
  isWaiting : Bool
  ndi : UInt8
  round : Nat
  feedbackSlot : Nat
  schedPusch : SchedPusch
  deriving DecidableEq, Repr

/-- The process is ready for a new block. -/
def UlHarq.restart (h : UlHarq) : UlHarq := { h with ndi := h.ndi ^^^ 1, round := 0 }

/-- `round` is a `uint8_t`. -/
def UlHarq.nextRound (h : UlHarq) : UlHarq := { h with round := (h.round + 1) % 2 ^ 8 }

/-- The process does not wait for its CRC any more. -/
def UlHarq.stopWaiting (h : UlHarq) : UlHarq := { h with isWaiting := false }

/-- The expected CRC arrived; `feedback_slot = -1` is stored into a `uint16_t`. -/
def UlHarq.received (h : UlHarq) : UlHarq :=
  { h with feedbackSlot := 2 ^ 16 - 1, isWaiting := false }

/-- The configuration read here: `ul_bler.harq_round_max` and `radio_config.disable_harq`. -/
structure UlHarqConfig where
  harqRoundMax : Nat
  disableHarq : Bool
  /-- `harq_round_max` is a `uint8_t` -/
  harqRoundMax_lt : harqRoundMax < 2 ^ 8

/-- The assertions that can end the process. -/
inductive Assertion
  /-- `remove_front_nr_list`: "Nothing to remove" -/
  | nothingToRemove
  /-- `remove_nr_list`: "ID not found" -/
  | idNotFound
  /-- `nr_schedule_ulsch`: "no free HARQ process available" -/
  | noFreeProcess
  /-- `DevAssert` on `is_waiting` -/
  | isWaiting
  /-- `round < harq_round_max` -/
  | round
  /-- `create_ul_harq_list`: "cannot resize HARQ list to be smaller" -/
  | resize
  /-- a loop that does not end -/
  | diverges
  deriving DecidableEq, Repr

/-- The uplink HARQ part of `NR_UE_sched_ctrl_t`. -/
structure UlSchedCtrl where
  ulHarqProcesses : Nat → UlHarq
  availableUlHarq : NrList
  feedbackUlHarq : NrList
  retransUlHarq : NrList
  schedPusch : SchedPusch
  schedUlBytes : Int

namespace UlSchedCtrl

/-- One process is changed. -/
def setHarq (s : UlSchedCtrl) (pid : Nat) (f : UlHarq → UlHarq) : UlSchedCtrl :=
  { s with ulHarqProcesses := Function.update s.ulHarqProcesses pid (f (s.ulHarqProcesses pid)) }

/-- `remove_front_nr_list` on one of the lists. -/
def removeFront (l : NrList) : Except Assertion NrList :=
  match l.removeFrontNrList with
  | some l => .ok l
  | none => .error .nothingToRemove

/-- `remove_nr_list` on one of the lists. -/
def removeId (l : NrList) (id : Nat) : Except Assertion NrList :=
  match l.removeNrList id with
  | some l => .ok l
  | none => .error .idNotFound

/-! ## Moves between the lists -/

/-- `finish_nr_ul_harq` -/
def finishNrUlHarq (s : UlSchedCtrl) (pid : Nat) : UlSchedCtrl :=
  let s := s.setHarq pid UlHarq.restart
  { s with availableUlHarq := s.availableUlHarq.addTailNrList pid }

/-- `abort_nr_ul_harq`: the bytes that were expected are not scheduled any more. -/
def abortNrUlHarq (s : UlSchedCtrl) (pid : Nat) : UlSchedCtrl :=
  let s := s.finishNrUlHarq pid
  { s with schedUlBytes := max 0 (s.schedUlBytes - (s.ulHarqProcesses pid).schedPusch.tbSize) }

/-- A process that was not received is aborted in the last round, else queued for
retransmission. -/
def retryOrAbort (cfg : UlHarqConfig) (s : UlSchedCtrl) (pid : Nat) : UlSchedCtrl :=
  if cfg.harqRoundMax - 1 ≤ (s.ulHarqProcesses pid).round then s.abortNrUlHarq pid
  else
    let s := s.setHarq pid UlHarq.nextRound
    { s with retransUlHarq := s.retransUlHarq.addTailNrList pid }

/-! ## CRC indications -/

/-- `handle_nr_ul_harq` over the unexpected processes at the head of the feedback list: the expected
one, if any. -/
def skipUnexpected (cfg : UlHarqConfig) (harqId : Nat) : Nat → UlSchedCtrl →
    Except Assertion (UlSchedCtrl × Option Nat)
  | 0, _ => .error .diverges
  | fuel + 1, s =>
    if s.feedbackUlHarq.head < 0 then .ok (s, none)
    else
      let pid := s.feedbackUlHarq.head.toNat
      if harqId = pid then .ok (s, some pid)
      else do
        let l ← removeFront s.feedbackUlHarq
        let s := { s with feedbackUlHarq := l }
        let s := s.setHarq pid UlHarq.stopWaiting
        skipUnexpected cfg harqId fuel (s.retryOrAbort cfg pid)

/-- `handle_nr_ul_harq`; `crcStatus` is `tb_crc_status`, true for a failed CRC. -/
def handleNrUlHarq (cfg : UlHarqConfig) (s : UlSchedCtrl) (msg3 : Bool) (harqId : Nat)
    (crcStatus : Bool) : Except Assertion UlSchedCtrl :=
  if cfg.disableHarq then .ok s
  else if msg3 then .ok s
  else do
    let (s, found) ← skipUnexpected cfg harqId (s.feedbackUlHarq.len + 1) s
    match found with
    | none => .ok s
    | some pid =>
      let l ← removeFront s.feedbackUlHarq
      let s := { s with feedbackUlHarq := l }
      if !(s.ulHarqProcesses pid).isWaiting then .error .isWaiting
      else
        let s := s.setHarq pid UlHarq.received
        .ok (if crcStatus then s.retryOrAbort cfg pid else s.finishNrUlHarq pid)

/-! ## Scheduled transmissions -/

/-- The process `nr_schedule_ulsch` takes off its list. -/
def takeProcess (s : UlSchedCtrl) (pid : Int) : Except Assertion (UlSchedCtrl × Nat) :=
  if pid < 0 then
    if s.availableUlHarq.head < 0 then .error .noFreeProcess
    else do
      let l ← removeFront s.availableUlHarq
      .ok ({ s with availableUlHarq := l }, s.availableUlHarq.head.toNat)
  else if (s.ulHarqProcesses pid.toNat).round = 0 then do
    let l ← removeId s.availableUlHarq pid.toNat
    .ok ({ s with availableUlHarq := l }, pid.toNat)
  else do
    let l ← removeId s.retransUlHarq pid.toNat
    .ok ({ s with retransUlHarq := l }, pid.toNat)

/-- The process is free at once without HARQ, else it starts waiting for its CRC. -/
def transmit (cfg : UlHarqConfig) (s : UlSchedCtrl) (pid : Nat) : UlSchedCtrl :=
  if cfg.disableHarq then s.finishNrUlHarq pid
  else
    let s := { s with feedbackUlHarq := s.feedbackUlHarq.addTailNrList pid }
    s.setHarq pid fun h => { h with feedbackSlot := s.schedPusch.slot, isWaiting := true }

/-- The grant of an initial transmission is saved, for the retransmissions. -/
def saveGrant (s : UlSchedCtrl) (pid : Nat) : UlSchedCtrl :=
  if (s.ulHarqProcesses pid).round = 0 then
    let s := s.setHarq pid fun h => { h with schedPusch := { s.schedPusch with ulHarqPid := pid } }
    { s with schedUlBytes := s.schedUlBytes + s.schedPusch.tbSize }
  else s

/-- `nr_schedule_ulsch` for a UE without uplink failure. -/
def nrScheduleUlsch (cfg : UlHarqConfig) (s : UlSchedCtrl) : Except Assertion UlSchedCtrl :=
  if s.schedPusch.rbSize = 0 then .ok s
  else do
    let (s, pid) ← s.takeProcess s.schedPusch.ulHarqPid
    if (s.ulHarqProcesses pid).isWaiting then .error .isWaiting
    else
      let s := s.transmit cfg pid
      if (s.ulHarqProcesses pid).round < cfg.harqRoundMax then
        .ok { s.saveGrant pid with schedPusch := .zero }
      else .error .round

/-! ## Creation and reset -/

/-- `reset_ul_harq_list` -/
def resetUlHarqList (s : UlSchedCtrl) : Except Assertion UlSchedCtrl :=
  match SchedCtrl.drain (s.feedbackUlHarq.len + 1) s.feedbackUlHarq s.availableUlHarq with
  | none => .error .diverges
  | some (feedback, available) =>
    match SchedCtrl.drain (s.retransUlHarq.len + 1) s.retransUlHarq available with
    | none => .error .diverges
    | some (retrans, available) =>
      .ok { s with
        feedbackUlHarq := feedback, retransUlHarq := retrans, availableUlHarq := available
        ulHarqProcesses := fun i =>
          if i < nrMaxHarqProcesses then
            { s.ulHarqProcesses i with feedbackSlot := 2 ^ 16 - 1, round := 0, isWaiting := false }
          else s.ulHarqProcesses i }

/-- `create_ul_harq_list` with `nrofHARQ` processes configured. -/
def createUlHarqList (s : UlSchedCtrl) (nrofHarq : Nat) : Except Assertion UlSchedCtrl :=
  if s.availableUlHarq.len = 0 then
    .ok { s with
      availableUlHarq := SchedCtrl.addIds (.createNrList nrofHarq) 0 nrofHarq
      feedbackUlHarq := .createNrList nrofHarq
      retransUlHarq := .createNrList nrofHarq }
  else if s.availableUlHarq.len = nrofHarq then .ok s
  else if s.availableUlHarq.len < nrofHarq then
    .ok { s with
      availableUlHarq :=
        SchedCtrl.addIds (s.availableUlHarq.resizeNrList nrofHarq) s.availableUlHarq.len nrofHarq
      feedbackUlHarq := s.feedbackUlHarq.resizeNrList nrofHarq
      retransUlHarq := s.retransUlHarq.resizeNrList nrofHarq }
  else .error .resize

end UlSchedCtrl

end NrStack.Mac
