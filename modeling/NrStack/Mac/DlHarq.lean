/-
  Downlink HARQ processes of one UE at the gNB, moved between three `NR_list_t` in four files:
  `gNB_scheduler_dlsch.c`, `gNB_scheduler_RA.c`, `gNB_scheduler_uci.c`, `gNB_scheduler_primitives.c`.

  What the preprocessor left in `sched_pdsch`, and the outcome of each resource search for Msg4
  (`Msg4Env`), are inputs.  Failed assertions and null dereferences are `none`; `finished` records the
  calls of `finish_nr_dl_harq`.
-/
import NrStack.Mac.NrList

namespace NrStack.Mac

/-- `NR_MAX_HARQ_PROCESSES` -/
def nrMaxHarqProcesses : Nat := 32

/-- `NR_UE_harq_t`. -/
structure Harq where
  isWaiting : Bool
  ndi : UInt8
  round : Nat
  feedbackFrame : Nat
  feedbackSlot : Nat
  deriving DecidableEq, Repr

/-- The fields of `NR_sched_pucch_t` that HARQ reads. -/
structure SchedPucch where
  frame : Nat
  ulSlot : Nat
  deriving DecidableEq, Repr

/-- The fields of `NR_sched_pdsch_t` that HARQ reads; a negative `pucch_allocation` is `none`. -/
structure SchedPdsch where
  dlHarqPid : Int
  rbSize : Nat
  pucchAllocation : Option SchedPucch
  deriving DecidableEq, Repr

/-- `dl_bler.harq_round_max`, and the processes whose feedback `downlinkHARQ_FeedbackDisabled_r17` turns
off. -/
structure HarqConfig where
  harqRoundMax : Nat
  feedbackDisabled : Nat → Bool
  /-- `harq_round_max` is a `uint8_t` -/
  harqRoundMax_lt : harqRoundMax < 2 ^ 8

/-- The HARQ part of `NR_UE_sched_ctrl_t`. -/
structure SchedCtrl where
  harqProcesses : Nat → Harq
  availableDlHarq : NrList
  feedbackDlHarq : NrList
  retransDlHarq : NrList
  finished : List Nat

namespace SchedCtrl

/-- One process is changed. -/
def setHarq (s : SchedCtrl) (pid : Nat) (f : Harq → Harq) : SchedCtrl :=
  { s with harqProcesses := Function.update s.harqProcesses pid (f (s.harqProcesses pid)) }

/-! ## Moves between the lists -/

/-- `finish_nr_dl_harq` -/
def finishNrDlHarq (s : SchedCtrl) (pid : Nat) : SchedCtrl :=
  let s := s.setHarq pid fun h => { h with ndi := h.ndi ^^^ 1, round := 0 }
  { s with
    availableDlHarq := s.availableDlHarq.addTailNrList pid
    finished := s.finished ++ [pid] }

/-- `abort_nr_dl_harq` -/
def abortNrDlHarq (s : SchedCtrl) (pid : Nat) : SchedCtrl := s.finishNrDlHarq pid

/-- The process waits for the feedback in its PUCCH. -/
def awaitFeedback (s : SchedCtrl) (pid : Nat) (pucch : SchedPucch) : SchedCtrl :=
  let s := { s with feedbackDlHarq := s.feedbackDlHarq.addTailNrList pid }
  s.setHarq pid fun h =>
    { h with feedbackFrame := pucch.frame, feedbackSlot := pucch.ulSlot, isWaiting := true }

/-- The common end of both schedulers' HARQ management: without feedback the process is free at
once. -/
def transmit (s : SchedCtrl) (pid : Nat) : Option SchedPucch → SchedCtrl
  | none => s.finishNrDlHarq pid
  | some pucch => s.awaitFeedback pid pucch

/-- `handle_dl_harq`; `feedback_slot = -1` is stored into a `uint16_t`. -/
def handleDlHarq (cfg : HarqConfig) (s : SchedCtrl) (pid : Nat) (success : Bool) : SchedCtrl :=
  let s := s.setHarq pid fun h => { h with feedbackSlot := 2 ^ 16 - 1, isWaiting := false }
  if success then s.finishNrDlHarq pid
  else if cfg.harqRoundMax - 1 ≤ (s.harqProcesses pid).round then s.abortNrDlHarq pid
  else
    let s := { s with retransDlHarq := s.retransDlHarq.addTailNrList pid }
    s.setHarq pid fun h => { h with round := (h.round + 1) % 2 ^ 8 }

/-! ## Scheduled transmissions -/

/-- The process `nr_schedule_ue_spec` takes off its list. -/
def takeProcess (s : SchedCtrl) (pid : Int) : Option (SchedCtrl × Nat) :=
  if pid < 0 then
    s.availableDlHarq.removeFrontNrList.map fun l =>
      ({ s with availableDlHarq := l }, s.availableDlHarq.head.toNat)
  else if (s.harqProcesses pid.toNat).round = 0 then
    (s.availableDlHarq.removeNrList pid.toNat).map fun l =>
      ({ s with availableDlHarq := l }, pid.toNat)
  else
    (s.retransDlHarq.removeNrList pid.toNat).map fun l => ({ s with retransDlHarq := l }, pid.toNat)

/-- `nr_schedule_ue_spec` for a UE whose preprocessor left `sched`. -/
def nrScheduleUeSpec (cfg : HarqConfig) (s : SchedCtrl) (sched : SchedPdsch) : Option SchedCtrl :=
  if sched.rbSize = 0 then some s
  else
    match s.takeProcess sched.dlHarqPid with
    | none => none
    | some (s, pid) =>
      if (s.harqProcesses pid).isWaiting then none
      else
        let s := s.transmit pid sched.pucchAllocation
        if (s.harqProcesses pid).round < cfg.harqRoundMax then some s else none

/-! ## Feedback -/

/-- `(a - b + 1024) % 1024` on `uint32_t`. -/
def frameDistance (a b : Nat) : Nat := (a + (2 ^ 32 - b % 2 ^ 32) + 1024) % 2 ^ 32 % 1024

/-- "old feedbacks we missed". -/
def inPast (h : Harq) (frame slot : Nat) : Prop :=
  frameDistance h.feedbackFrame frame > 512 ∨ (h.feedbackFrame = frame ∧ h.feedbackSlot < slot)
deriving Decidable

/-- "feedbacks that we wait for in the future". -/
def inFuture (h : Harq) (frame slot : Nat) : Prop :=
  frameDistance frame h.feedbackFrame > 512 ∨ (h.feedbackFrame = frame ∧ h.feedbackSlot > slot)
deriving Decidable

/-- `find_harq`: every process whose feedback was missed is marked for retransmission. -/
def findHarqLoop (cfg : HarqConfig) (frame slot : Nat) : Nat → SchedCtrl →
    Option (SchedCtrl × Option Nat)
  | 0, _ => none
  | fuel + 1, s =>
    if s.feedbackDlHarq.head < 0 then some (s, none)
    else
      let pid := s.feedbackDlHarq.head.toNat
      if inPast (s.harqProcesses pid) frame slot then
        s.feedbackDlHarq.removeFrontNrList.bind fun l =>
          findHarqLoop cfg frame slot fuel
            (({ s with feedbackDlHarq := l } : SchedCtrl).handleDlHarq cfg pid false)
      else if inFuture (s.harqProcesses pid) frame slot then some (s, none)
      else some (s, some pid)

/-- `find_harq`; `none`: the loop does not end. -/
def findHarq (cfg : HarqConfig) (s : SchedCtrl) (frame slot : Nat) :
    Option (SchedCtrl × Option Nat) :=
  findHarqLoop cfg frame slot (s.feedbackDlHarq.len + 1) s

/-- "iterate over received harq bits", shared by the two handlers: a bit is whether its process
was acknowledged. -/
def harqBits (cfg : HarqConfig) (frame slot : Nat) : List Bool → SchedCtrl → Option SchedCtrl
  | [], s => some s
  | success :: bits, s =>
    match s.findHarq cfg frame slot with
    | none => none
    | some (s, none) => some s
    | some (s, some pid) =>
      if (s.harqProcesses pid).isWaiting then
        s.feedbackDlHarq.removeFrontNrList.bind fun l =>
          harqBits cfg frame slot bits
            (({ s with feedbackDlHarq := l } : SchedCtrl).handleDlHarq cfg pid success)
      else none

/-- `handle_nr_uci_pucch_0_1`; `hasHarq` is the bitmap bit of the HARQ field. -/
def handleNrUciPucch01 (cfg : HarqConfig) (s : SchedCtrl) (frame slot : Nat) (hasHarq : Bool)
    (harqValues : List Nat) (harqConfidence : Nat) : Option SchedCtrl :=
  if hasHarq then
    s.harqBits cfg frame slot
      (harqValues.map fun v => v == 0 && harqConfidence == 0)
  else some s

/-- `handle_nr_uci_pucch_2_3_4`; the payload byte is shifted by the whole bit number. -/
def handleNrUciPucch234 (cfg : HarqConfig) (s : SchedCtrl) (frame slot : Nat)
    (hasCsiMeasConfig hasHarq : Bool) (harqBitLen : Nat) (harqPayload : List UInt8)
    (harqCrc : Nat) : Option SchedCtrl :=
  if hasCsiMeasConfig && hasHarq then
    s.harqBits cfg frame slot
      ((List.range harqBitLen).map fun bit =>
        harqCrc != 1 && (((harqPayload.getD (bit >>> 3) 0).toNat >>> bit) &&& 1) == 1)
  else some s

/-! ## Creation and reset -/

/-- Moving every id of one list to the tail of another. -/
def drain : Nat → NrList → NrList → Option (NrList × NrList)
  | 0, _, _ => none
  | fuel + 1, src, dst =>
    if src.head < 0 then some (src, dst)
    else src.removeFrontNrList.bind fun l => drain fuel l (dst.addTailNrList src.head.toNat)

/-- `reset_dl_harq_list`; `none`: the loop does not end. -/
def resetDlHarqList (s : SchedCtrl) : Option SchedCtrl :=
  match drain (s.feedbackDlHarq.len + 1) s.feedbackDlHarq s.availableDlHarq with
  | none => none
  | some (feedback, available) =>
    (drain (s.retransDlHarq.len + 1) s.retransDlHarq available).map fun r =>
      { s with
        feedbackDlHarq := feedback, retransDlHarq := r.1, availableDlHarq := r.2
        harqProcesses := fun i =>
          if i < nrMaxHarqProcesses then
            { s.harqProcesses i with feedbackSlot := 2 ^ 16 - 1, round := 0, isWaiting := false }
          else s.harqProcesses i }

/-- The processes `start` to `stop - 1` are added at the end. -/
def addIds (l : NrList) (start stop : Nat) : NrList :=
  (List.range' start (stop - start)).foldl NrList.addTailNrList l

/-- `create_dl_harq_list` with `nrofHARQ` processes configured. -/
def createDlHarqList (s : SchedCtrl) (nrofHarq : Nat) : Option SchedCtrl :=
  if s.availableDlHarq.len = s.feedbackDlHarq.len ∧
      s.availableDlHarq.len = s.retransDlHarq.len then
    if s.availableDlHarq.len = 0 then
      some { s with
        availableDlHarq := addIds (.createNrList nrofHarq) 0 nrofHarq
        feedbackDlHarq := .createNrList nrofHarq
        retransDlHarq := .createNrList nrofHarq }
    else if s.availableDlHarq.len = nrofHarq then some s
    else if s.availableDlHarq.len < nrofHarq then
      some { s with
        availableDlHarq :=
          addIds (s.availableDlHarq.resizeNrList nrofHarq) s.availableDlHarq.len nrofHarq
        feedbackDlHarq := s.feedbackDlHarq.resizeNrList nrofHarq
        retransDlHarq := s.retransDlHarq.resizeNrList nrofHarq }
    else none
  else none

end SchedCtrl

/-! ## Random access -/

/-- The states of a random access that matter to HARQ. -/
inductive RaState
  | msg4MsgB | waitMsg4MsgBAck | other
  deriving DecidableEq, Repr

/-- Four-step or two-step random access. -/
inductive RaType
  | fourStep | twoStep
  deriving DecidableEq, Repr

/-- The fields of `NR_RA_t` that HARQ reads. -/
structure Ra where
  raState : RaState
  raType : RaType
  harqPid : Nat
  deriving DecidableEq, Repr

/-- `nr_clear_ra_proc`: everything zero, idle. -/
def Ra.clear : Ra := { raState := .other, raType := .fourStep, harqPid := 0 }

/-- What `nr_generate_Msg4_MsgB` finds: a downlink slot, data on an SRB, a beam, a CCE, room in the FAPI
message, a valid TDA, free RBs, and the PUCCH occasion. -/
structure Msg4Env where
  dlSlot : Bool
  srbData : Bool
  beam : Bool
  cce : Bool
  fapiRoom : Bool
  tda : Bool
  vrb : Bool
  pucch : Option SchedPucch
  deriving DecidableEq, Repr

/-- A UE: its scheduling control and its random access. -/
structure UeInfo where
  ctrl : SchedCtrl
  ra : Ra

namespace UeInfo

/-- The tests up to the choice of the transport block size pass. -/
def Msg4Ready (ue : UeInfo) (env : Msg4Env) : Prop :=
  env.dlSlot = true ∧ (0 ≤ ue.ctrl.retransDlHarq.head ∨ env.srbData = true) ∧ env.beam = true ∧
    env.cce = true ∧ env.fapiRoom = true ∧ env.tda = true
deriving Decidable

/-- The head of the retransmission list is waiting for feedback: a failed `DevAssert`. -/
def Msg4Asserts (ue : UeInfo) : Prop :=
  0 ≤ ue.ctrl.retransDlHarq.head ∧
    (ue.ctrl.harqProcesses ue.ctrl.retransDlHarq.head.toNat).isWaiting = true

instance (ue : UeInfo) : Decidable ue.Msg4Asserts := inferInstanceAs (Decidable (_ ∧ _))

/-- The head of the retransmission list, which stays there, or else a free process, which is taken off
its list. -/
def msg4Process (ue : UeInfo) : Option (SchedCtrl × Nat) :=
  if ue.ctrl.retransDlHarq.head < 0 then
    ue.ctrl.availableDlHarq.removeFrontNrList.map fun l =>
      ({ ue.ctrl with availableDlHarq := l }, ue.ctrl.availableDlHarq.head.toNat)
  else some (ue.ctrl, ue.ctrl.retransDlHarq.head.toNat)

/-- The two-step procedure writes the PUCCH indicators into the successRAR, a null dereference when
feedback is disabled. -/
def nrGenerateMsg4MsgB (cfg : HarqConfig) (ue : UeInfo) (env : Msg4Env) : Option UeInfo :=
  if ¬ ue.Msg4Ready env then some ue
  else if ue.Msg4Asserts then none
  else if env.vrb = false then some ue
  else
    match ue.msg4Process with
    | none => none
    | some (ctrl, pid) =>
      if cfg.feedbackDisabled pid = false ∧ env.pucch = none then
        -- "Couldn't find a pucch allocation": the process taken is not put back
        some { ue with ctrl := ctrl }
      else if (ctrl.harqProcesses pid).isWaiting then none
      else if cfg.feedbackDisabled pid then
        if ue.ra.raType = .twoStep then none
        else some { ctrl := ctrl.transmit pid none, ra := Ra.clear }
      else
        some
          { ctrl := ctrl.transmit pid env.pucch
            ra := { ue.ra with harqPid := pid, raState := .waitMsg4MsgBAck } }

/-- `nr_check_Msg4_MsgB_Ack`; `none` is a failed assertion. -/
def nrCheckMsg4MsgBAck (ue : UeInfo) : Option UeInfo :=
  let harq := ue.ctrl.harqProcesses ue.ra.harqPid
  if harq.isWaiting then some ue
  else if harq.round = 0 then
    if 0 ≤ ue.ctrl.retransDlHarq.head then
      (ue.ctrl.retransDlHarq.removeNrList ue.ra.harqPid).map fun l =>
        { ctrl := { ue.ctrl with retransDlHarq := l }, ra := Ra.clear }
    else some { ue with ra := Ra.clear }
  else some { ue with ra := { ue.ra with raState := .msg4MsgB } }

/-- `nr_schedule_RA` for this UE's procedure. -/
def nrScheduleRa (cfg : HarqConfig) (ue : UeInfo) (env : Msg4Env) : Option UeInfo :=
  match ue.ra.raState with
  | .msg4MsgB => ue.nrGenerateMsg4MsgB cfg env
  | .waitMsg4MsgBAck => ue.nrCheckMsg4MsgBAck
  | .other => some ue

end UeInfo

end NrStack.Mac
