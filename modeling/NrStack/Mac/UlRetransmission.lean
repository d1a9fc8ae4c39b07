/-
  HARQ retransmissions keep the transport block size: the uplink, and both directions together.

  A slot is `pf_ul` as one UE sees it (`pfUlUe`: the slot at its turns is arbitrary) followed by
  `nr_schedule_ulsch`; CRCs are handled by `handle_nr_ul_harq`.  History and invariant are those of
  `Mac.Retransmission`.
-/
import NrStack.Mac.Retransmission
import NrStack.Mac.UlAlloc
import NrStack.Mac.UlHarqPartition

namespace NrStack.Mac

open Machine NrList Function Option

/-! ## What `pf_ul` leaves in a UE -/

/-- The size is that of the parameters. -/
def SchedPusch.Sized (g : SchedPusch) : Prop :=
  g.tbSize = nrComputeTbs g.Qm g.R g.rbSize g.tdaInfo.nrOfSymbols
    (g.dmrsInfo.nPrbDmrs * g.dmrsInfo.numDmrsSymb) 0 0 g.nrOfLayers >>> 3

/-- Parameters for the same block of the same process. -/
structure SameUlBlock (g g' : SchedPusch) : Prop where
  tbSize : g'.tbSize = g.tbSize
  pid : g'.ulHarqPid = g.ulHarqPid
  sized : g.Sized → g'.Sized

lemma SameUlBlock.refl (g : SchedPusch) : SameUlBlock g g := ⟨rfl, rfl, id⟩

variable {map : VrbMap} {ue ue' : UlUe} {env : UlEnv} {info : UlSlotInfo} {r : Option VrbMap}
  {cfg : UlHarqConfig} {st : UlSched}

lemma planUlRetransmission_sameBlock {pid rbStart : Nat} {ret : SchedPusch}
    (h : planUlRetransmission map ue env pid = some (some (rbStart, ret))) :
    SameUlBlock (ue.harqSched pid) ret := by
  rw [planUlRetransmission] at h
  simp only at h
  split at h
  · have h := Option.some.inj h
    split at h
    · cases h
    · cases h
      exact SameUlBlock.refl _
  · obtain ⟨ok, n, hfind, heq⟩ := kept_of_found h fun _ => rfl
    cases heq
    exact ⟨rfl, rfl, fun _ => (nrFindNbRb_spec hfind).1⟩

/-- What the turns of a UE in a slot leave in it. -/
inductive UlOutcome (ue ue' : UlUe) : Prop
  /-- nothing scheduled -/
  | nothing (blocks : ∀ q, SameUlBlock (ue.harqSched q) (ue'.harqSched q))
      (size : ue'.schedPusch.rbSize = ue.schedPusch.rbSize)
  /-- a retransmission of the first process that awaits one -/
  | again (head : 0 ≤ ue.retransHead)
      (blocks : ∀ q, SameUlBlock (ue.harqSched q) (ue'.harqSched q))
      (block : SameUlBlock (ue.harqSched ue.retransHead.toNat) ue'.schedPusch)
  /-- a grant for a process yet to be chosen -/
  | fresh (blocks : ue'.harqSched = ue.harqSched) (sized : ue'.schedPusch.Sized)
      (pid : ue'.schedPusch.ulHarqPid < 0)

lemma UlOutcome.refl (ue : UlUe) : UlOutcome ue ue := .nothing (fun _ => SameUlBlock.refl _) rfl

lemma UlOutcome.of_prepared {sched : SchedPusch} (hsize : sched.rbSize = ue.schedPusch.rbSize)
    (h : UlOutcome { ue with schedPusch := sched } ue') : UlOutcome ue ue' := by
  cases h with
  | nothing blocks size => exact .nothing blocks (size.trans hsize)
  | again head blocks block => exact .again head blocks block
  | fresh blocks sized pid => exact .fresh blocks sized pid

lemma allocateUlRetransmission_outcome (head : 0 ≤ ue.retransHead)
    (h : allocateUlRetransmission info map ue env ue.retransHead.toNat = some (ue', r)) :
    UlOutcome ue ue' := by
  rw [allocateUlRetransmission] at h
  split at h
  · cases h
    exact .refl ue
  obtain ⟨plan, hplan, h⟩ := map_eq_some_iff.mp h
  cases plan with
  | none =>
    cases h
    exact .refl ue
  | some plan =>
    obtain ⟨rbStart, ret⟩ := plan
    have hblock := planUlRetransmission_sameBlock hplan
    have hblocks : ∀ {ret' : SchedPusch}, SameUlBlock (ue.harqSched ue.retransHead.toNat) ret' →
        ∀ q, SameUlBlock (ue.harqSched q)
          (Function.update ue.harqSched ue.retransHead.toNat ret' q) := by
      intro ret' hsame q
      by_cases hq : q = ue.retransHead.toNat
      · rw [hq, update_self]
        exact hsame
      · rw [update_of_ne hq]
        exact SameUlBlock.refl _
    simp only at h
    split at h
    · cases h
      exact .nothing (hblocks hblock) rfl
    · cases h
      have hlater : ∀ {frame slot rbStart : Nat}, SameUlBlock (ue.harqSched ue.retransHead.toNat)
          { ret with frame := frame, slot := slot, rbStart := rbStart } :=
        { hblock with }
      exact .again head (hblocks hlater) hlater

lemma allocateUlNoData_outcome (hpid : ue.schedPusch.ulHarqPid < 0)
    (h : allocateUlNoData info map ue env = some (ue', r)) : UlOutcome ue ue' := by
  rw [allocateUlNoData] at h
  split at h
  · cases h
    exact .refl ue
  split at h
  · cases h
  simp only at h
  split at h
  · cases h
    exact .nothing (fun _ => SameUlBlock.refl _) rfl
  · cases h
    exact .fresh rfl rfl hpid

lemma allocateUlData_outcome (hpid : ue.schedPusch.ulHarqPid < 0)
    (h : allocateUlData info map ue env = some (ue', r)) : UlOutcome ue ue' := by
  rw [allocateUlData] at h
  split at h
  · cases h
  simp only at h
  split at h
  · cases h
    exact .nothing (fun _ => SameUlBlock.refl _) rfl
  · obtain ⟨⟨maxRb, mcs⟩, -, h⟩ := bind_eq_some_iff.mp h
    obtain ⟨⟨ok, tbs, n⟩, hfind, heq⟩ := map_eq_some_iff.mp h
    cases heq
    exact .fresh rfl (nrFindNbRb_spec hfind).1 hpid

/-- `pf_ul` as one UE sees it: the slot is `s` at its turn in the first loop, `t` in the second. -/
def pfUlUe (info : UlSlotInfo) (numBeams : Nat) (s : Slot UlUe) (t : Option (Slot UlUe))
    (ue : UlUe) : Option UlUe :=
  (ulFirstTurn info numBeams s ue).bind (Turn.finish (ulSecondTurn info) t)

lemma ulSecondTurn_outcome {s : Slot UlUe} {turn : Turn UlUe} (hpid : ue.schedPusch.ulHarqPid < 0)
    (h : ulSecondTurn info s ue = some turn) : UlOutcome ue turn.ue := by
  rw [ulSecondTurn] at h
  split at h
  · cases h; exact .refl ue
  split at h
  · cases h; exact .refl ue
  split at h
  · obtain ⟨r, hr, rfl⟩ := map_eq_some_iff.mp h
    rw [Turn.of_ue]
    exact allocateUlData_outcome hpid hr
  · cases h; exact .refl ue

theorem pfUlUe_outcome {numBeams : Nat} {s : Slot UlUe} {t : Option (Slot UlUe)}
    (h : pfUlUe info numBeams s t ue = some ue') : UlOutcome ue ue' := by
  obtain ⟨turn, hturn, h⟩ := bind_eq_some_iff.mp h
  -- a UE that is skipped has a grant with another HARQ process or MCS
  have hskip : ∀ {sched : SchedPusch}, sched.rbSize = ue.schedPusch.rbSize →
      UlOutcome ue { ue with schedPusch := sched } := fun hsize =>
    .nothing (fun _ => SameUlBlock.refl _) hsize
  rw [ulFirstTurn] at hturn
  split at hturn
  · cases hturn; cases h; exact .refl ue
  split at hturn
  · cases hturn; cases h; exact .refl ue
  split at hturn
  · simp only at hturn
    split at hturn
    next hhead =>
      obtain ⟨r, hr, rfl⟩ := map_eq_some_iff.mp hturn
      cases (Turn.finish_of (ulSecondTurn info) t _ r).symm.trans h
      have hout := allocateUlRetransmission_outcome (by exact hhead) hr
      exact .of_prepared (by rfl) hout
    next hhead =>
      have hpid : ue.retransHead < 0 := Int.not_le.mp hhead
      split at hturn
      · cases hturn; cases h; exact hskip rfl
      split at hturn
      · cases hturn; cases h; exact hskip rfl
      split at hturn
      · obtain ⟨r, hr, rfl⟩ := map_eq_some_iff.mp hturn
        cases (Turn.finish_of (ulSecondTurn info) t _ r).symm.trans h
        have hout := allocateUlNoData_outcome (by exact hpid) hr
        exact .of_prepared (by rfl) hout
      · cases hturn
        cases t with
        | none => cases h; exact hskip rfl
        | some t =>
          obtain ⟨turn, hsecond, rfl⟩ := map_eq_some_iff.mp h
          have hout := ulSecondTurn_outcome (by exact hpid) hsecond
          exact .of_prepared (by rfl) hout
  · cases hturn; cases h; exact .refl ue

/-! ## The uplink scheduler of one UE over time -/

/-- HARQ state with the parameters saved for each process and the current grant, and what was
sent. -/
structure UlSched where
  ctrl : UlSchedCtrl
  sent : Nat → List Sent

namespace UlSched

/-- The UE as `pf_ul` finds it: the HARQ state is this one, everything else is arbitrary. -/
def ueOf (st : UlSched) (ue : UlUe) : UlUe :=
  { ue with
    retransHead := st.ctrl.retransUlHarq.head
    availableHead := st.ctrl.availableUlHarq.head
    harqSched := fun pid => (st.ctrl.ulHarqProcesses pid).schedPusch
    schedPusch := st.ctrl.schedPusch
    schedUlBytes := st.ctrl.schedUlBytes }

/-- The state after `pf_ul`. -/
def planned (st : UlSched) (ue : UlUe) : UlSchedCtrl :=
  { st.ctrl with
    ulHarqProcesses := fun pid =>
      { st.ctrl.ulHarqProcesses pid with schedPusch := ue.harqSched pid }
    schedPusch := ue.schedPusch }

/-- The transmission that is on record. -/
def record (g : SchedPusch) (ndi : UInt8) : Sent where
  ndi := ndi
  Qm := g.Qm
  R := g.R
  rbSize := g.rbSize
  nrOfSymbols := g.tdaInfo.nrOfSymbols
  dmrs := g.dmrsInfo.nPrbDmrs * g.dmrsInfo.numDmrsSymb
  nrOfLayers := g.nrOfLayers
  tbSize := g.tbSize

/-- The process of the grant: the first free one, if it is yet to be chosen. -/
def pidOf (s : UlSchedCtrl) : Nat :=
  if s.schedPusch.ulHarqPid < 0 then s.availableUlHarq.head.toNat else s.schedPusch.ulHarqPid.toNat

/-- `nr_schedule_ulsch` on what `pf_ul` left, with a record of what is sent. -/
def schedule (cfg : UlHarqConfig) (s : UlSchedCtrl) (sent : Nat → List Sent) : Option UlSched :=
  (s.nrScheduleUlsch cfg).toOption.map fun s' =>
    if s.schedPusch.rbSize = 0 then ⟨s', sent⟩
    else
      ⟨s', Function.update sent (pidOf s)
        (sent (pidOf s) ++ [record s.schedPusch (s'.ulHarqProcesses (pidOf s)).ndi])⟩

end UlSched

/-- A slot, or a CRC. -/
inductive UlSchedOp
  /-- a slot: `pf_ul`, with any slots at the UE's turns and any conditions, then
      `nr_schedule_ulsch` -/
  | slot (info : UlSlotInfo) (numBeams : Nat) (s : Slot UlUe) (t : Option (Slot UlUe)) (ue : UlUe)
  /-- a CRC indication: `handle_nr_ul_harq` -/
  | crc (msg3 : Bool) (harqId : Nat) (crcStatus : Bool)

/-- One step; `none` is a failed assertion. -/
def UlSched.step (cfg : UlHarqConfig) (st : UlSched) : UlSchedOp → Option UlSched
  | .slot info numBeams s t ue =>
    (pfUlUe info numBeams s t (st.ueOf ue)).bind fun ue =>
      UlSched.schedule cfg (st.planned ue) st.sent
  | .crc msg3 harqId crcStatus =>
    (st.ctrl.handleNrUlHarq cfg msg3 harqId crcStatus).toOption.map fun ctrl =>
      { st with ctrl := ctrl }

/-- Any steps, from lists just made and nothing sent. -/
def ulSchedMachine (cfg : UlHarqConfig) : Spec UlSched UlSchedOp where
  init st := (∃ n, n ≤ nrMaxHarqProcesses ∧
      UlSchedCtrl.zero.createUlHarqList n = .ok st.ctrl) ∧ ∀ pid, st.sent pid = []
  guard _ _ := True
  step := UlSched.step cfg

/-! ## The invariant -/

/-- A block of the process is on its way: it waits for its CRC, or for a later round. -/
def UlHarq.Active (h : UlHarq) : Prop := h.isWaiting = true ∨ h.round ≠ 0

/-- One process with what is saved for it, and what was sent of it. -/
structure UlProcessOk (cfg : UlHarqConfig) (pid : Nat) (h : UlHarq) (sent : List Sent) :
    Prop where
  tracks : Tracks sent h.Active cfg.disableHarq h.ndi h.schedPusch.tbSize
  sized : h.Active → h.schedPusch.Sized
  pid : h.Active → h.schedPusch.ulHarqPid = pid

/-- The invariant of the uplink. -/
structure UlSchedOk (cfg : UlHarqConfig) (st : UlSched) : Prop where
  holds : ∃ n a f r, UlHolds cfg st.ctrl n [] a f r
  unscheduled : st.ctrl.schedPusch.rbSize = 0
  processes : ∀ p, UlProcessOk cfg p (st.ctrl.ulHarqProcesses p) (st.sent p)

/-! ## CRC indications -/

section Crc

open UlSchedCtrl

variable {cfg : UlHarqConfig} {s : UlSchedCtrl} {sent : Nat → List Sent} {pid : Nat}

section

variable {h h' : UlHarq} {sent : List Sent} (hok : UlProcessOk cfg pid h sent) (hactive : h.Active)
include hok hactive

lemma UlProcessOk.finish (hidle : ¬ h'.Active) (hndi : h'.ndi = h.ndi ^^^ 1)
    (hsame : h'.schedPusch = h.schedPusch) : UlProcessOk cfg pid h' sent := by
  refine ⟨?_, fun ha => absurd ha hidle, fun ha => absurd ha hidle⟩
  rw [hndi, hsame]
  exact hok.tracks.finish hactive hidle

lemma UlProcessOk.retry (hactive' : h'.Active) (hndi : h'.ndi = h.ndi)
    (hsame : h'.schedPusch = h.schedPusch) : UlProcessOk cfg pid h' sent := by
  refine ⟨?_, fun _ => ?_, fun _ => ?_⟩
  · rw [hndi, hsame]
    exact hok.tracks.retry hactive hactive'
  · rw [hsame]
    exact hok.sized hactive
  · rw [hsame]
    exact hok.pid hactive

end

lemma release_ok {g : UlHarq → UlHarq} (l : NrList)
    (hg : ∀ h, (g h).isWaiting = false ∧ (g h).round = h.round ∧ (g h).ndi = h.ndi ∧
      (g h).schedPusch = h.schedPusch)
    (hw : (s.ulHarqProcesses pid).isWaiting = true)
    (hok : ∀ p, UlProcessOk cfg p (s.ulHarqProcesses p) (sent p)) :
    (∀ p, UlProcessOk cfg p (((({ s with feedbackUlHarq := l } : UlSchedCtrl).setHarq pid
        g).finishNrUlHarq pid).ulHarqProcesses p) (sent p)) ∧
      ∀ p, UlProcessOk cfg p (((({ s with feedbackUlHarq := l } : UlSchedCtrl).setHarq pid
        g).retryOrAbort cfg pid).ulHarqProcesses p) (sent p) := by
  have hmax := cfg.harqRoundMax_lt
  obtain ⟨hg₁, hg₂, hg₃, hg₄⟩ := hg (s.ulHarqProcesses pid)
  have hactive : (s.ulHarqProcesses pid).Active := .inl hw
  have hfinish : ∀ p, UlProcessOk cfg p (((({ s with feedbackUlHarq := l } : UlSchedCtrl).setHarq
      pid g).finishNrUlHarq pid).ulHarqProcesses p) (sent p) := by
    intro p
    by_cases hp : p = pid
    · subst hp
      refine (hok p).finish hactive ?_ ?_ ?_
      · simp [finishNrUlHarq, UlSchedCtrl.setHarq, UlHarq.restart, UlHarq.Active, hg₁]
      · simp [finishNrUlHarq, UlSchedCtrl.setHarq, UlHarq.restart, hg₃]
      · simp [finishNrUlHarq, UlSchedCtrl.setHarq, UlHarq.restart, hg₄]
    · simp only [finishNrUlHarq, UlSchedCtrl.setHarq, update_of_ne hp]
      exact hok p
  refine ⟨hfinish, ?_⟩
  rw [retryOrAbort]
  split
  · exact hfinish
  next hround =>
    simp only [UlSchedCtrl.setHarq, update_self, hg₂] at hround
    intro p
    by_cases hp : p = pid
    · subst hp
      refine (hok p).retry hactive ?_ ?_ ?_
      · refine .inr ?_
        simp only [UlSchedCtrl.setHarq, update_self, UlHarq.nextRound, hg₂]
        omega
      · simp [UlSchedCtrl.setHarq, UlHarq.nextRound, hg₃]
      · simp [UlSchedCtrl.setHarq, UlHarq.nextRound, hg₄]
    · simp only [UlSchedCtrl.setHarq, update_of_ne hp]
      exact hok p

lemma stopWaiting_keeps (h : UlHarq) : h.stopWaiting.isWaiting = false ∧
    h.stopWaiting.round = h.round ∧ h.stopWaiting.ndi = h.ndi ∧
    h.stopWaiting.schedPusch = h.schedPusch := ⟨rfl, rfl, rfl, rfl⟩

lemma received_keeps (h : UlHarq) : h.received.isWaiting = false ∧
    h.received.round = h.round ∧ h.received.ndi = h.ndi ∧
    h.received.schedPusch = h.schedPusch := ⟨rfl, rfl, rfl, rfl⟩

lemma skipUnexpected_ok {n : Nat} (harqId : Nat) :
    ∀ {fuel : Nat} {s s' : UlSchedCtrl} {a f r : List Nat} {found : Option Nat},
      UlHolds cfg s n [] a f r → (∀ p, UlProcessOk cfg p (s.ulHarqProcesses p) (sent p)) →
      skipUnexpected cfg harqId fuel s = .ok (s', found) →
      ∀ p, UlProcessOk cfg p (s'.ulHarqProcesses p) (sent p) := by
  intro fuel
  induction fuel with
  | zero =>
    intro s s' a f r found _ _ hrun
    cases hrun
  | succ fuel ih =>
    intro s s' a f r found h hok hrun
    rw [skipUnexpected] at hrun
    split at hrun
    · cases hrun
      exact hok
    next hhead =>
      obtain ⟨rest, rfl⟩ := h.lists.second.of_head (Int.not_lt.mp hhead)
      generalize s.feedbackUlHarq.head.toNat = pid at hrun h
      simp only at hrun
      split at hrun
      · cases hrun
        exact hok
      · obtain ⟨l, hl, htake⟩ := h.takeFeedback UlHarq.stopWaiting
        obtain ⟨a', r', hnext⟩ := htake.retryOrAbort (by rw [setUlHarq_self]; rfl)
        rw [hl] at hrun
        have hw : (s.ulHarqProcesses pid).isWaiting = true :=
          (h.waiting pid List.not_mem_nil).mpr List.mem_cons_self
        exact ih hnext (release_ok l stopWaiting_keeps hw hok).2 hrun

theorem handleNrUlHarq_ok {n : Nat} {s' : UlSchedCtrl} {a f r : List Nat} {msg3 : Bool}
    {harqId : Nat} {crcStatus : Bool} (h : UlHolds cfg s n [] a f r)
    (hok : ∀ p, UlProcessOk cfg p (s.ulHarqProcesses p) (sent p))
    (hrun : s.handleNrUlHarq cfg msg3 harqId crcStatus = .ok s') :
    ∀ p, UlProcessOk cfg p (s'.ulHarqProcesses p) (sent p) := by
  rw [handleNrUlHarq] at hrun
  split at hrun
  · cases hrun
    exact hok
  split at hrun
  · cases hrun
    exact hok
  obtain ⟨s₁, found, skipped, rest, a', r', hskip, -, -, hholds, -, -⟩ :=
    skipUnexpected_spec harqId h (Nat.lt_succ_of_le h.lists.second.length_le)
  have hok₁ := skipUnexpected_ok harqId h hok hskip
  simp only [hskip, bind, Except.bind] at hrun
  cases found with
  | none =>
    cases hrun
    exact hok₁
  | some pid =>
    simp only at hrun
    split at hrun
    · cases hrun
    next l hl =>
      split at hrun
      · cases hrun
      next hw =>
        have hwait : (s₁.ulHarqProcesses pid).isWaiting = true := by
          simpa using hw
        cases hrun
        split
        · exact (release_ok l received_keeps hwait hok₁).2
        · exact (release_ok l received_keeps hwait hok₁).1

end Crc

/-! ## A slot -/

section Slot

open UlSchedCtrl

variable {cfg : UlHarqConfig} {s s' : UlSchedCtrl} {n : Nat} {a f r : List Nat}

/-- The process sent was not waiting; without HARQ it is finished at once, else it starts waiting; an
initial transmission is saved. -/
structure SentOn (cfg : UlHarqConfig) (s s' : UlSchedCtrl) (pid : Nat) : Prop where
  others : ∀ q, q ≠ pid → s'.ulHarqProcesses q = s.ulHarqProcesses q
  cleared : s'.schedPusch.rbSize = 0
  free : s.schedPusch.ulHarqPid < 0 → (s.ulHarqProcesses pid).round = 0
  notWaiting : (s.ulHarqProcesses pid).isWaiting = false
  blind : cfg.disableHarq = true → ¬ (s'.ulHarqProcesses pid).Active ∧
    (s'.ulHarqProcesses pid).ndi = (s.ulHarqProcesses pid).ndi ^^^ 1
  waits : cfg.disableHarq = false → (s'.ulHarqProcesses pid).Active ∧
    (s'.ulHarqProcesses pid).ndi = (s.ulHarqProcesses pid).ndi ∧
    ((s.ulHarqProcesses pid).round = 0 →
      (s'.ulHarqProcesses pid).schedPusch = { s.schedPusch with ulHarqPid := pid }) ∧
    ((s.ulHarqProcesses pid).round ≠ 0 →
      (s'.ulHarqProcesses pid).schedPusch = (s.ulHarqProcesses pid).schedPusch)

lemma nrScheduleUlsch_sentOn (h : UlHolds cfg s n [] a f r) (hsize : s.schedPusch.rbSize ≠ 0)
    (hrun : s.nrScheduleUlsch cfg = .ok s') : SentOn cfg s s' (UlSched.pidOf s) := by
  rw [nrScheduleUlsch, if_neg hsize] at hrun
  rcases takeProcess_spec h s.schedPusch.ulHarqPid with
    ⟨s₁, pid, htake, ht, hsel⟩ | ⟨herr, -⟩ | ⟨herr, -⟩
  · have hfirst : s.schedPusch.ulHarqPid < 0 →
        s.availableUlHarq.head.toNat = pid ∧ 0 ≤ s.availableUlHarq.head := by
      intro hneg
      rw [takeProcess, if_pos hneg] at htake
      split at htake
      · cases htake
      next hhead =>
        simp only [bind, Except.bind] at htake
        split at htake
        · cases htake
        · cases htake
          exact ⟨rfl, Int.not_lt.mp hhead⟩
    have hpid : UlSched.pidOf s = pid := by
      rw [UlSched.pidOf]
      split
      next hneg => exact (hfirst hneg).1
      next hpos => exact (hsel (Int.not_lt.mp hpos)).symm
    rw [hpid]
    have hw := ht.notWaiting h
    simp only [htake, bind, Except.bind] at hrun
    rw [if_neg (by rw [hw]; exact Bool.false_ne_true)] at hrun
    split at hrun
    · cases hrun
      have hsame := ht.processes
      have hsched := ht.schedPusch
      rw [hsame] at hw
      refine ⟨fun q hq => ?_, rfl, fun hneg => ?_, hw, fun hdis => ?_, fun hen => ?_⟩
      · have hsent : (s₁.transmit cfg pid).ulHarqProcesses q = s₁.ulHarqProcesses q := by
          rw [transmit]
          split
          · simp [finishNrUlHarq, UlSchedCtrl.setHarq, hq]
          · simp [UlSchedCtrl.setHarq, hq]
        rw [← hsame, ← hsent]
        rw [saveGrant]
        split
        · simp [UlSchedCtrl.setHarq, hq]
        · rfl
      · obtain ⟨hhead, hpos⟩ := hfirst hneg
        obtain ⟨rest, rfl⟩ := h.lists.first.of_head hpos
        rw [← hhead]
        exact h.fresh _ List.mem_cons_self
      · simp [transmit, hdis, finishNrUlHarq, saveGrant, UlSchedCtrl.setHarq, UlHarq.restart,
          UlHarq.Active, hsame, hw]
      · by_cases hround : (s.ulHarqProcesses pid).round = 0
        · simp [transmit, hen, saveGrant, UlSchedCtrl.setHarq, UlHarq.Active, hsame, hsched, hround]
        · simp [transmit, hen, saveGrant, UlSchedCtrl.setHarq, UlHarq.Active, hsame, hround]
    · cases hrun
  · simp only [herr, bind, Except.bind] at hrun
    cases hrun
  · simp only [herr, bind, Except.bind] at hrun
    cases hrun

end Slot

/-- A grant of `pf_ul`, seen from its process. -/
inductive UlGrant (s : UlSchedCtrl) : Prop
  | again (pos : 0 ≤ s.schedPusch.ulHarqPid)
      (active : (s.ulHarqProcesses s.schedPusch.ulHarqPid.toNat).round ≠ 0)
      (tbSize : s.schedPusch.tbSize =
        (s.ulHarqProcesses s.schedPusch.ulHarqPid.toNat).schedPusch.tbSize)
  | fresh (pid : s.schedPusch.ulHarqPid < 0)

theorem schedule_ok {s : UlSchedCtrl} {sent : Nat → List Sent}
    (h : UlSched.schedule cfg s sent = some st) (hholds : ∃ n a f r, UlHolds cfg s n [] a f r)
    (hok : ∀ p, UlProcessOk cfg p (s.ulHarqProcesses p) (sent p))
    (hgrant : s.schedPusch.rbSize ≠ 0 → s.schedPusch.Sized ∧ UlGrant s) : UlSchedOk cfg st := by
  obtain ⟨s', hrun, heq⟩ := map_eq_some_iff.mp h
  have hrun := toOption_eq_some hrun
  obtain ⟨n, a, f, r, hh⟩ := hholds
  have hholds' : ∃ n a f r, UlHolds cfg s' n [] a f r := by
    rcases nrScheduleUlsch_spec hh with ⟨s₁, a', f', r', hs₁, hh'⟩ | ⟨e, herr, -⟩
    · cases hs₁.symm.trans hrun
      exact ⟨n, a', f', r', hh'⟩
    · rw [herr] at hrun
      cases hrun
  split at heq
  next hzero =>
    cases heq
    rw [UlSchedCtrl.nrScheduleUlsch, if_pos hzero] at hrun
    cases hrun
    exact ⟨hholds', hzero, hok⟩
  next hsize =>
    cases heq
    obtain ⟨hsized, hgrant⟩ := hgrant hsize
    have hon := nrScheduleUlsch_sentOn hh hsize hrun
    refine ⟨hholds', hon.cleared, fun p => ?_⟩
    by_cases hp : p = UlSched.pidOf s
    · subst hp
      simp only [update_self]
      generalize hpidOf : UlSched.pidOf s = pid at *
      cases hgrant with
      | again pos active tbSize =>
        rw [UlSched.pidOf, if_neg (Int.not_lt.mpr pos)] at hpidOf
        rw [hpidOf] at active tbSize
        have hact : (s.ulHarqProcesses pid).Active := .inr active
        have henabled := ((hok pid).tracks.started hact).1
        obtain ⟨hact', hndi, -, hsaved⟩ := hon.waits henabled
        refine ⟨?_, fun _ => ?_, fun _ => ?_⟩
        · rw [hndi, hsaved active]
          exact (hok pid).tracks.again hact hsized rfl tbSize hact'
        · rw [hsaved active]
          exact (hok pid).sized hact
        · rw [hsaved active]
          exact (hok pid).pid hact
      | fresh hneg =>
        have hround := hon.free hneg
        have hidle : ¬ (s.ulHarqProcesses pid).Active := by
          rintro (hwait | hne)
          · rw [hon.notWaiting] at hwait; cases hwait
          · exact hne hround
        cases hblind : cfg.disableHarq with
        | true =>
          obtain ⟨hidle', hndi⟩ := hon.blind hblind
          refine ⟨?_, fun ha => absurd ha hidle', fun ha => absurd ha hidle'⟩
          rw [hndi]
          exact (hok pid).tracks.freshBlind (y := UlSched.record s.schedPusch _) hidle hblind hsized
            rfl hidle' _
        | false =>
          obtain ⟨hact', hndi, hsaved, -⟩ := hon.waits hblind
          refine ⟨?_, fun _ => ?_, fun _ => ?_⟩
          · rw [hndi, hsaved hround]
            exact (hok pid).tracks.fresh hidle hblind hsized rfl hact'
          · rw [hsaved hround]
            exact hsized
          · rw [hsaved hround]
    · simp only [update_of_ne hp, hon.others p hp]
      exact hok p

lemma UlHolds.planned {n : Nat} {a f r : List Nat} (h : UlHolds cfg st.ctrl n [] a f r)
    (ue : UlUe) : UlHolds cfg (st.planned ue) n [] a f r :=
  ⟨h.lists, h.cap, h.waiting, h.rounds, h.fresh, h.idle⟩

/-- Every step of the uplink scheduler keeps its invariant. -/
theorem ulSched_step {st' : UlSched} {op : UlSchedOp} (hok : UlSchedOk cfg st)
    (h : st.step cfg op = some st') : UlSchedOk cfg st' := by
  obtain ⟨n, a, f, r, hh⟩ := hok.holds
  cases op with
  | slot info numBeams s t ue =>
    obtain ⟨ue', hue, h⟩ := bind_eq_some_iff.mp h
    have hplanned : (∀ q, SameUlBlock (st.ctrl.ulHarqProcesses q).schedPusch (ue'.harqSched q)) →
        ∀ p, UlProcessOk cfg p ((st.planned ue').ulHarqProcesses p) (st.sent p) := by
      intro blocks p
      have hp := hok.processes p
      refine ⟨?_, fun ha => (blocks p).sized (hp.sized ha), fun ha => (blocks p).pid.trans (hp.pid ha)⟩
      change Tracks _ _ _ _ (ue'.harqSched p).tbSize
      rw [(blocks p).tbSize]
      exact hp.tracks
    cases pfUlUe_outcome hue with
    | nothing blocks size =>
      exact schedule_ok h ⟨n, a, f, r, hh.planned ue'⟩ (hplanned blocks)
        fun hne => absurd (size.trans hok.unscheduled) hne
    | again head blocks block =>
      obtain ⟨rest, rfl⟩ := hh.lists.third.of_head head
      have hround := (hh.rounds _ List.mem_cons_self).1
      have hactive : (st.ctrl.ulHarqProcesses st.ctrl.retransUlHarq.head.toNat).Active :=
        .inr (Nat.ne_of_gt hround)
      have hpid : ue'.schedPusch.ulHarqPid = st.ctrl.retransUlHarq.head.toNat :=
        block.pid.trans ((hok.processes _).pid hactive)
      have htoNat : ue'.schedPusch.ulHarqPid.toNat = st.ctrl.retransUlHarq.head.toNat := by
        rw [hpid, Int.toNat_natCast]
      refine schedule_ok h ⟨n, a, f, _, hh.planned ue'⟩ (hplanned blocks) fun _ =>
        ⟨block.sized ((hok.processes _).sized hactive), .again ?_ ?_ ?_⟩
      · change 0 ≤ ue'.schedPusch.ulHarqPid
        rw [hpid]
        exact Int.natCast_nonneg _
      · change (st.ctrl.ulHarqProcesses ue'.schedPusch.ulHarqPid.toNat).round ≠ 0
        rw [htoNat]
        exact Nat.ne_of_gt hround
      · change ue'.schedPusch.tbSize = (ue'.harqSched ue'.schedPusch.ulHarqPid.toNat).tbSize
        rw [htoNat]
        exact block.tbSize.trans (blocks _).tbSize.symm
    | fresh blocks sized pid =>
      refine schedule_ok h ⟨n, a, f, r, hh.planned ue'⟩ (hplanned fun q => ?_)
        fun _ => ⟨sized, .fresh pid⟩
      rw [blocks]
      exact SameUlBlock.refl _
  | crc msg3 harqId crcStatus =>
    obtain ⟨ctrl, hctrl, rfl⟩ := map_eq_some_iff.mp h
    have hctrl := toOption_eq_some hctrl
    obtain ⟨s', a', f', r', hs', hh', hsame, -, -⟩ := handleNrUlHarq_spec hh msg3 harqId crcStatus
    cases hs'.symm.trans hctrl
    refine ⟨⟨n, a', f', r', hh'⟩, ?_, handleNrUlHarq_ok hh hok.processes hctrl⟩
    rw [hsame.1]
    exact hok.unscheduled

theorem ulSched_reach (h : Reach (ulSchedMachine cfg) st) : UlSchedOk cfg st := by
  refine h.invariant ?_ fun s op s' _ hok _ hstep => ulSched_step hok hstep
  rintro st ⟨⟨n, hcap, hcreate⟩, hsent⟩
  refine ⟨⟨n, _, _, _, createUlHarqList_zero hcap hcreate⟩, ?_, fun p => ?_⟩
  · rw [← Except.ok.inj hcreate]
    rfl
  have hidle : ¬ (st.ctrl.ulHarqProcesses p).Active := by
    rw [← Except.ok.inj hcreate]
    rintro (hw | hround)
    · cases hw
    · exact hround rfl
  rw [hsent p]
  exact ⟨Tracks.nil hidle, fun ha => absurd ha hidle, fun ha => absurd ha hidle⟩

/-! ## Both directions -/

/-- **HARQ retransmissions keep the transport block size.** In every run of the downlink and of the
uplink scheduler of a UE, every transmission of a HARQ process has the size `nr_compute_tbs` gives for
what was scheduled, and while the NDI does not change that of the initial transmission. -/
theorem harq_keeps_tbs {dlCfg : HarqConfig} {ulCfg : UlHarqConfig} {dl : DlSched} {ul : UlSched}
    (hdl : Reach (dlSchedMachine dlCfg) dl) (hul : Reach (ulSchedMachine ulCfg) ul) (pid : Nat) :
    TbsKept (dl.sent pid) ∧ TbsKept (ul.sent pid) :=
  ⟨((dlSched_reach hdl).processes pid).tracks.kept, ((ulSched_reach hul).processes pid).tracks.kept⟩

instance (cfg : HarqConfig) (st : DlSched) (op : DlSchedOp) :
    Decidable ((dlSchedMachine cfg).guard st op) := isTrue trivial

instance (cfg : UlHarqConfig) (st : UlSched) (op : UlSchedOp) :
    Decidable ((ulSchedMachine cfg).guard st op) := isTrue trivial

/-- A downlink slot in which the UE has its turns. -/
def dlSlot : DlSchedOp := .slot 1 tenTaken (some tenTaken) (ueWith 0 0) ⟨0, 5⟩

/-- Every RB is free. -/
def allFree : Slot UlUe := Slot.start 4 (fun _ _ => 0) fun _ => 24

/-- An uplink slot for a UE with 50 bytes. -/
def ulSlot : UlSchedOp := .slot fiveRbGrants 1 allFree (some allFree) (ulUeWith 50)

/-- A UE with two processes. -/
def ulTwoProcesses : UlSchedCtrl :=
  ((UlSchedCtrl.zero.createUlHarqList 2).toOption).get (by decide)

theorem harq_keeps_tbs_nack : ∃ dl ul, Reach (dlSchedMachine fourRounds) dl ∧
    Reach (ulSchedMachine ulFourRounds) ul ∧ (dl.sent 0).length = 2 ∧ (ul.sent 0).length = 2 ∧
    TbsKept (dl.sent 0) ∧ TbsKept (ul.sent 0) := by
  obtain ⟨dl, hdl, hdlLen⟩ := Reach.exists_of_run (P := fun st : DlSched => (st.sent 0).length = 2)
    (m := dlSchedMachine fourRounds)
    (s := ⟨twoProcesses.ctrl, fun _ => fiveRbs, { fiveRbs with rbSize := 0 }, fun _ => []⟩)
    (.start ⟨⟨2, by decide, by decide, by rfl⟩, rfl, fun _ => rfl⟩)
    [dlSlot, .uciPucch01 0 5 true [1] 0, dlSlot] (by decide +kernel)
  obtain ⟨ul, hul, hulLen⟩ := Reach.exists_of_run (P := fun st : UlSched => (st.sent 0).length = 2)
    (m := ulSchedMachine ulFourRounds) (s := ⟨ulTwoProcesses, fun _ => []⟩)
    (.start ⟨⟨2, by decide, by rfl⟩, fun _ => rfl⟩)
    [ulSlot, .crc false 0 true, ulSlot] (by decide +kernel)
  obtain ⟨hdlKept, hulKept⟩ := harq_keeps_tbs hdl hul 0
  exact ⟨dl, ul, hdl, hul, hdlLen, hulLen, hdlKept, hulKept⟩

end NrStack.Mac
