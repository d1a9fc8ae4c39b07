/-
  The downlink scheduler of one slot (`get_bwp_start_size`, `allocate_dl_retransmission`, `pf_dl`).

  What the functions that `pf_dl` calls find for a UE is an input, `DlEnv`; so is the order in which
  `qsort` leaves the UEs of the second loop.  `none` is a failed assertion.  RB indices are relative to the
  carrier in `allocate_dl_retransmission`, to the BWP in `pf_dl`; `stop` is `rbStop + 1`.
-/
import NrStack.Mac.Tbs
import NrStack.Mac.VrbMap

namespace NrStack.Mac

open Booking Option

/-- The fields of `NR_pdsch_dmrs_t` that scheduling reads. -/
structure PdschDmrs where
  nPrbDmrs : Nat
  nDmrsSlot : Nat
  deriving DecidableEq, Repr

/-- `NR_sched_pdsch_t`, without what only the DCI reads. -/
structure NrSchedPdsch where
  rbSize : Nat
  rbStart : Nat
  mcs : Nat
  R : Nat
  Qm : Nat
  tbSize : Nat
  dlHarqPid : Int
  pucchAllocation : Int
  pmIndex : Nat
  nrOfLayers : Nat
  dmrsParms : PdschDmrs
  timeDomainAllocation : Int
  tdaInfo : TdaInfo
  deriving DecidableEq, Repr

/-- What the functions that `pf_dl` calls find for a UE. -/
structure DlEnv where
  /-- `beam_allocation_procedure` -/
  beam : Option Nat
  /-- `get_dl_tda` -/
  tda : Int
  /-- `get_dl_tda_info` -/
  tdaInfo : TdaInfo
  /-- `get_dl_dmrs_params`, for a number of layers -/
  dmrs : Nat → PdschDmrs
  /-- `get_cce_index`, which also leaves the aggregation level -/
  cceIndex : Option Nat
  aggregationLevel : Nat
  schedPdcch : SchedPdcch
  /-- `nr_acknack_scheduling` -/
  pucch : Option Nat

/-- The part of `NR_UE_info_t` that the downlink scheduler reads and writes. -/
structure DlUe where
  msg4MsgBAcked : Bool
  ulFailure : Bool
  currentDlBwp : BwpInfo
  /-- the search space is a common one -/
  commonSearchSpace : Bool
  /-- the DCI format is 1_0 -/
  dciFormat10 : Bool
  cset0Bwp : BwpInfo
  initialDlBwp : BwpInfo
  retransHead : Int
  availableHead : Int
  /-- `harq_processes[pid].sched_pdsch` -/
  harqSched : Nat → NrSchedPdsch
  schedPdsch : NrSchedPdsch
  numTotalBytes : Nat
  /-- `frame == (ta_frame + 100) % 1024` -/
  taDue : Bool
  feedbackDisabled : Nat → Bool
  /-- MCS, layers and precoding chosen for a new transmission -/
  newMcs : Nat
  newNrOfLayers : Nat
  newPmIndex : Nat
  /-- `nr_get_Qm_dl`, `nr_get_code_rate_dl` of the MCS table in use -/
  qmOfMcs : Nat → Nat
  rOfMcs : Nat → Nat
  first : DlEnv
  second : DlEnv

/-- `get_bwp_start_size` -/
def getBwpStartSize (ue : DlUe) : BwpInfo :=
  if ue.commonSearchSpace && ue.dciFormat10 then
    if ue.cset0Bwp.bwpSize ≠ 0 then ue.cset0Bwp else ue.initialDlBwp
  else ue.currentDlBwp

/-- The PUCCH allocation of a HARQ process; `none` if there is no occasion for its feedback. -/
def pucchAllocation (ue : DlUe) (env : DlEnv) (pid : Nat) : Option Int :=
  if ue.feedbackDisabled pid then some (-1) else env.pucch.map Int.ofNat

/-! ## `allocate_dl_retransmission` -/

/-- `size` free RBs in a row: every turn skips the run that was too short.  `none`: no resources. -/
def searchRun (map : VrbMap) (bits stop size : Nat) : Nat → Nat → Nat → Option Nat
  | 0, _, _ => none
  | fuel + 1, rbStart, rbSize =>
    if rbSize < size then
      let start := firstFree map bits (stop - 1) (rbStart + rbSize)
      if stop ≤ start + 1 then none
      else
        searchRun map bits stop size fuel start
          (advance (fun n => (decide (start + n < stop) && !map.busy bits (start + n)) &&
            decide (n < size)) size 0)
    else some rbStart

section SearchRun

variable {map : VrbMap} {bits stop size : Nat}

lemma turn_run {start j : Nat}
    (hj : j < advance (fun n => (decide (start + n < stop) && !map.busy bits (start + n)) &&
      decide (n < size)) size 0) :
    start + j < stop ∧ map.busy bits (start + j) = false ∧ j < size := by
  have h := advance_passed (Nat.zero_le j) hj
  simpa only [Bool.and_eq_true, decide_eq_true_eq, Bool.not_eq_true', and_assoc] using h

lemma searchRun_spec : ∀ {fuel rbStart rbSize r : Nat},
    (∀ j < rbSize, rbStart + j < stop ∧ map.busy bits (rbStart + j) = false ∧ j < size) →
    rbStart ≤ stop → searchRun map bits stop size fuel rbStart rbSize = some r →
    rbStart ≤ r ∧ r + size ≤ stop ∧ ∀ j < size, map.busy bits (r + j) = false := by
  intro fuel
  induction fuel with
  | zero =>
    intro rbStart rbSize r _ _ h
    cases h
  | succ fuel ih =>
    intro rbStart rbSize r hrun hle h
    rw [searchRun] at h
    split at h
    · simp only at h
      split at h
      · cases h
      next hstart =>
        have hge : rbStart + rbSize ≤ firstFree map bits (stop - 1) (rbStart + rbSize) := le_firstFree
        have := ih (fun j hj => turn_run hj) (by omega) h
        exact ⟨by omega, this.2⟩
    next hsize =>
      cases h
      have hend : rbStart + size ≤ stop := by
        rcases Nat.eq_zero_or_pos size with h0 | hpos
        · omega
        · have := (hrun (size - 1) (by omega)).1
          omega
      exact ⟨le_refl _, hend, fun j hj => (hrun j (by omega)).2.1⟩

lemma searchRun_front {fuel r : Nat} (hfree : ∀ j < size, map.busy bits j = false)
    (h : searchRun map bits stop size fuel 0 0 = some r) : r = 0 := by
  cases fuel with
  | zero => cases h
  | succ fuel =>
    rw [searchRun] at h
    split at h
    next hsize =>
      simp only [Nat.add_zero, firstFree_self (hfree 0 hsize), Nat.zero_add] at h
      split at h
      · cases h
      next hstop =>
        generalize hn : advance (fun n => (decide (n < stop) && !map.busy bits n) &&
          decide (n < size)) size 0 = n at h
        have hend := @advance_stopped (fun n => (decide (n < stop) && !map.busy bits n) &&
          decide (n < size)) size 0 (fun j hj => by
            have hge : ¬ j < size := by omega
            simp only [hge, decide_false, Bool.and_false])
        rw [hn] at hend
        cases fuel with
        | zero => cases h
        | succ fuel =>
          rw [searchRun] at h
          split at h
          next hlt =>
            -- the run was cut off by the end of the BWP: nothing is left to search
            have hgt : stop ≤ n := by
              simp only [hfree n hlt, hlt, Bool.not_false, Bool.and_true, decide_true,
                decide_eq_false_iff_not] at hend
              omega
            have hge : 0 + n ≤ firstFree map bits (stop - 1) (0 + n) := le_firstFree
            rw [if_pos (by omega)] at h
            cases h
          · exact (Option.some.inj h).symm
    · exact (Option.some.inj h).symm

lemma searchRun_turns : ∀ {fuel rbStart rbSize : Nat}, rbStart + rbSize ≤ stop →
    stop < fuel + (rbStart + rbSize) →
    searchRun map bits stop size (fuel + 1) rbStart rbSize =
      searchRun map bits stop size fuel rbStart rbSize := by
  intro fuel
  induction fuel with
  | zero =>
    intro rbStart rbSize hle hfuel
    omega
  | succ fuel ih =>
    intro rbStart rbSize hle hfuel
    rw [searchRun, searchRun]
    split
    next hsize =>
      simp only
      split
      · rfl
      next hstart =>
        have hge : rbStart + rbSize ≤ firstFree map bits (stop - 1) (rbStart + rbSize) := le_firstFree
        have hfree : map.busy bits (firstFree map bits (stop - 1) (rbStart + rbSize)) = false :=
          firstFree_free (by omega)
        generalize firstFree map bits (stop - 1) (rbStart + rbSize) = start at *
        -- the RB the turn starts at is free, so the turn gets ahead
        have hpos : 0 < advance (fun n => (decide (start + n < stop) &&
            !map.busy bits (start + n)) && decide (n < size)) size 0 := by
          obtain ⟨k, rfl⟩ : ∃ k, size = k + 1 := ⟨size - 1, by omega⟩
          have hlt : start < stop := by omega
          rw [advance]
          simp only [Nat.add_zero, hlt, hfree, Nat.zero_lt_succ, decide_true, Bool.not_false,
            Bool.and_self, if_true]
          exact lt_of_lt_of_le Nat.zero_lt_one (le_advance _ _ _)
        have hend : start + advance (fun n => (decide (start + n < stop) &&
            !map.busy bits (start + n)) && decide (n < size)) size 0 ≤ stop := by
          have := (turn_run (Nat.sub_lt hpos Nat.zero_lt_one)).1
          omega
        exact ih hend (by omega)
    · rfl

end SearchRun

/-- The old time domain allocation can be used again. -/
def reuseOldTda (ret : NrSchedPdsch) (env : DlEnv) : Bool :=
  ret.tdaInfo.startSymbolIndex == env.tdaInfo.startSymbolIndex &&
    decide (ret.tdaInfo.nrOfSymbols ≤ env.tdaInfo.nrOfSymbols)

/-- `layers = (curInfo->nrOfLayers < retInfo->nrOfLayers) ? ...` -/
def retransmissionLayers (cur ret : NrSchedPdsch) : Nat :=
  if cur.nrOfLayers < ret.nrOfLayers then cur.nrOfLayers else ret.nrOfLayers

/-- The retransmission is sent as the last transmission was. -/
def sameShape (ue : DlUe) (env : DlEnv) (pid : Nat) : Bool :=
  reuseOldTda (ue.harqSched pid) env &&
    retransmissionLayers ue.schedPdsch (ue.harqSched pid) == (ue.harqSched pid).nrOfLayers

/-- The first RB, and `retInfo` as it is left.  The outer `none`: the search for a number of RBs does
not end. -/
def planRetransmission (map : VrbMap) (ue : DlUe) (env : DlEnv) (pid : Nat) :
    Option (Option (Nat × NrSchedPdsch)) :=
  let ret := ue.harqSched pid
  let bwp := getBwpStartSize ue
  let stop := bwp.bwpStart + bwp.bwpSize
  if sameShape ue env pid then
    some ((searchRun map ret.tdaInfo.slbitmap stop ret.rbSize (stop + 2) bwp.bwpStart 0).map
      fun rbStart => (rbStart, ret))
  else
    let layers := retransmissionLayers ue.schedPdsch ret
    let dmrs := env.dmrs layers
    let rbStart := firstFree map env.tdaInfo.slbitmap (stop - 1) bwp.bwpStart
    let rbSize := freeRun map env.tdaInfo.slbitmap stop rbStart 0
    (nrFindNbRb ret.Qm ret.R false layers env.tdaInfo.nrOfSymbols
        (dmrs.nPrbDmrs * dmrs.nDmrsSlot) ret.tbSize 1 rbSize).map fun (success, newTbs, newRbSize) =>
      if !success || newTbs != ret.tbSize then none
      else
        some (rbStart, { ret with
          tbSize := newTbs
          rbSize := newRbSize
          timeDomainAllocation := env.tda
          nrOfLayers := layers
          pmIndex :=
            if ue.schedPdsch.nrOfLayers < ret.nrOfLayers then ue.schedPdsch.pmIndex
            else ret.pmIndex
          dmrsParms := dmrs
          tdaInfo := env.tdaInfo })

/-- The BWP starts at RB 0 of the carrier, and so does the first run of free RBs that is looked at. -/
def RetransmissionAtFront (map : VrbMap) (ue : DlUe) (env : DlEnv) (pid : Nat) : Prop :=
  (getBwpStartSize ue).bwpStart = 0 ∧
    if sameShape ue env pid then
      ∀ rb < (ue.harqSched pid).rbSize,
        map.busy (ue.harqSched pid).tdaInfo.slbitmap rb = false
    else map.busy env.tdaInfo.slbitmap 0 = false

instance (map : VrbMap) (ue : DlUe) (env : DlEnv) (pid : Nat) :
    Decidable (RetransmissionAtFront map ue env pid) := by
  unfold RetransmissionAtFront
  infer_instance

variable {map : VrbMap} {ue : DlUe} {env : DlEnv} {s s' : Slot DlUe}

lemma planRetransmission_spec {pid rbStart : Nat} {ret : NrSchedPdsch}
    (h : planRetransmission map ue env pid = some (some (rbStart, ret))) :
    (getBwpStartSize ue).bwpStart ≤ rbStart ∧
      rbStart + ret.rbSize ≤ (getBwpStartSize ue).bwpStart + (getBwpStartSize ue).bwpSize ∧
      (∀ j < ret.rbSize, map.busy ret.tdaInfo.slbitmap (rbStart + j) = false) ∧
      (RetransmissionAtFront map ue env pid → rbStart = 0) := by
  rw [planRetransmission] at h
  simp only at h
  split at h
  next hshape =>
    obtain ⟨r, hr, heq⟩ := map_eq_some_iff.mp (Option.some.inj h)
    cases heq
    obtain ⟨hlo, hhi, hfree⟩ :=
      searchRun_spec (fun j hj => absurd hj (Nat.not_lt_zero j)) (by omega) hr
    refine ⟨hlo, hhi, hfree, fun hfront => ?_⟩
    rw [RetransmissionAtFront, if_pos hshape] at hfront
    rw [hfront.1] at hr
    exact searchRun_front hfront.2 hr
  next hshape =>
    obtain ⟨ok, n, hfind, heq⟩ := kept_of_found h fun _ => rfl
    cases heq
    have hle := nrFindNbRb_exact hfind rfl
    refine ⟨le_firstFree, ?_, ?_, fun hfront => ?_⟩
    · have hin := @firstFree_le map env.tdaInfo.slbitmap
        ((getBwpStartSize ue).bwpStart + (getBwpStartSize ue).bwpSize - 1)
        (getBwpStartSize ue).bwpStart _ (Nat.le_add_right _ (getBwpStartSize ue).bwpSize)
        (Nat.sub_le _ _)
      rcases Nat.eq_zero_or_pos n with rfl | hpos
      · exact hin
      · have := freeRun_le (lt_of_lt_of_le hpos hle)
        simp only
        omega
    · intro j hj
      exact (freeRun_free (Nat.zero_le j) (lt_of_lt_of_le hj hle)).2
    · rw [RetransmissionAtFront, if_neg hshape] at hfront
      rw [hfront.1]
      exact firstFree_self hfront.2

/-- The UE, and the new map if allocated.  `retInfo` is overwritten before CCE and PUCCH are looked for.
-/
def allocateDlRetransmission (map : VrbMap) (ue : DlUe) (env : DlEnv) (pid : Nat) :
    Option (DlUe × Option VrbMap) :=
  if env.tda < 0 then none
  else if !env.tdaInfo.validTda then some (ue, none)
  else (planRetransmission map ue env pid).map fun
    | none => (ue, none)
    | some (rbStart, ret) =>
      let ue := { ue with harqSched := Function.update ue.harqSched pid ret }
      match env.cceIndex, pucchAllocation ue env pid with
      | some cce, some alloc =>
        ({ ue with schedPdsch :=
            { ret with
              rbStart := rbStart - (getBwpStartSize ue).bwpStart, pucchAllocation := alloc } },
          some ((fillPdcchVrbMap map env.schedPdcch cce env.aggregationLevel).markLoop
            ret.tdaInfo.slbitmap 0 rbStart ret.rbSize))
      | _, _ => (ue, none)

/-- What the UE has been given, with the map before. -/
def DlUe.alloc (ue : DlUe) (beam : Nat) (before : VrbMap) : Alloc where
  beam := beam
  bwp := getBwpStartSize ue
  rbStart := ue.schedPdsch.rbStart
  rbSize := ue.schedPdsch.rbSize
  tdaInfo := ue.schedPdsch.tdaInfo
  before := before

variable {map' : VrbMap} {ue' : DlUe}

/-- What a retransmission gets. -/
theorem allocateDlRetransmission_spec {pid : Nat} (beam : Nat)
    (h : allocateDlRetransmission map ue env pid = some (ue', some map')) :
    Given map (ue'.alloc beam map) map' True (RetransmissionAtFront map ue env pid) := by
  rw [allocateDlRetransmission] at h
  split at h
  · cases h
  split at h
  · exact (nomatch Option.some.inj h)
  obtain ⟨plan, hplan, h⟩ := map_eq_some_iff.mp h
  cases plan with
  | none => cases h
  | some plan =>
    obtain ⟨rbStart, ret⟩ := plan
    obtain ⟨hlo, hhi, hfree, hfront⟩ := planRetransmission_spec hplan
    simp only at h
    split at h
    next cce alloc _ _ =>
      cases h
      refine ⟨rfl, ?_, ?_, fun _ => ?_, fun hat => ?_⟩
      · change rbStart - (getBwpStartSize ue).bwpStart + ret.rbSize ≤ (getBwpStartSize ue).bwpSize
        omega
      · exact (fillPdcchVrbMap_grows _ _ _ _).trans (VrbMap.markLoop_grows _ _ _ _ _)
      · apply Alloc.wasFree_of_busy
        intro j hj
        change map.busy ret.tdaInfo.slbitmap ((getBwpStartSize ue).bwpStart +
          (rbStart - (getBwpStartSize ue).bwpStart) + j) = false
        rw [Nat.add_sub_cancel' hlo]
        exact hfree j hj
      · have hzero := hfront hat
        apply Alloc.markedIn_markLoop
        · omega
        · change (getBwpStartSize ue).bwpStart + (rbStart - (getBwpStartSize ue).bwpStart) +
            ret.rbSize ≤ ret.rbSize + 0
          omega
    · cases h

/-! ## `pf_dl` -/

/-- `min_rbSize` -/
def minRbSize : Nat := 5

/-- The first free RB of the BWP and the RBs that are free from there on, counted from the start
of the BWP. -/
def newRun (map : VrbMap) (bwp : BwpInfo) (bits : Nat) : Nat × Nat :=
  let relative : VrbMap := fun rb => map (rb + bwp.bwpStart)
  let rbStart := firstFree relative bits (bwp.bwpSize - 1) 0
  (rbStart, freeRun relative bits bwp.bwpSize rbStart 1)

lemma newRun_spec {bwp : BwpInfo} {bits : Nat} (h : ¬ (newRun map bwp bits).2 < minRbSize) :
    (newRun map bwp bits).1 + (newRun map bwp bits).2 ≤ bwp.bwpSize ∧
      ∀ j < (newRun map bwp bits).2,
        map.busy bits (bwp.bwpStart + (newRun map bwp bits).1 + j) = false := by
  have htwo : 1 < (newRun map bwp bits).2 :=
    lt_of_lt_of_le (by decide) (Nat.le_of_not_gt h)
  have hin : (newRun map bwp bits).1 < bwp.bwpSize - 1 := by
    have : (newRun map bwp bits).1 + (newRun map bwp bits).2 ≤ bwp.bwpSize := freeRun_le htwo
    omega
  obtain ⟨hend, hfree⟩ := freeRun_firstFree (Nat.sub_le _ 1) hin
  refine ⟨hend, fun j hj => ?_⟩
  have hrel : map.busy bits ((newRun map bwp bits).1 + j + bwp.bwpStart) = false := hfree j hj
  rw [Nat.add_assoc, Nat.add_comm]
  exact hrel

/-- The body of the second loop for a UE with a beam: a new transmission. -/
def allocateDlTransmission (map : VrbMap) (ue : DlUe) (env : DlEnv) :
    Option (DlUe × Option VrbMap) :=
  let pid := ue.availableHead.toNat
  if env.tda < 0 then none
  else if !env.tdaInfo.validTda then none
  else
    let bwp := getBwpStartSize ue
    let (rbStart, maxRbSize) := newRun map bwp env.tdaInfo.slbitmap
    let sched := { ue.schedPdsch with
      dlHarqPid := ue.availableHead, timeDomainAllocation := env.tda, tdaInfo := env.tdaInfo }
    let ue := { ue with schedPdsch := sched }
    if maxRbSize < minRbSize then some (ue, none)
    else
      match env.cceIndex, pucchAllocation ue env pid with
      | some cce, some alloc =>
        let dmrs := env.dmrs sched.nrOfLayers
        let Qm := ue.qmOfMcs sched.mcs
        let R := ue.rOfMcs sched.mcs
        (nrFindNbRb Qm R false sched.nrOfLayers env.tdaInfo.nrOfSymbols
            (dmrs.nPrbDmrs * dmrs.nDmrsSlot)
            (ue.numTotalBytes + (3 * 4 + if ue.taDue then 2 else 0)) minRbSize maxRbSize).map
          fun (_, tbs, rbSize) =>
            ({ ue with schedPdsch :=
                { sched with
                  dmrsParms := dmrs, Qm := Qm, R := R, pucchAllocation := alloc, rbSize := rbSize,
                  rbStart := rbStart, tbSize := tbs } },
              some ((fillPdcchVrbMap map env.schedPdcch cce env.aggregationLevel).markLoop
                env.tdaInfo.slbitmap rbStart bwp.bwpStart rbSize))
      | _, _ => some (ue, none)

/-- What a new transmission gets. -/
theorem allocateDlTransmission_spec (beam : Nat)
    (h : allocateDlTransmission map ue env = some (ue', some map')) :
    Given map (ue'.alloc beam map) map' True ((getBwpStartSize ue).bwpStart = 0) := by
  rw [allocateDlTransmission] at h
  split at h
  · cases h
  split at h
  · cases h
  simp only at h
  split at h
  · exact (nomatch Option.some.inj h)
  next hmax =>
  split at h
  next cce alloc _ _ =>
    obtain ⟨⟨ok, tbs, n⟩, hfind, heq⟩ := map_eq_some_iff.mp h
    cases heq
    have hn := (nrFindNbRb_spec hfind).2.1
    obtain ⟨hend, hfree⟩ := newRun_spec hmax
    have hle : n ≤ (newRun map (getBwpStartSize ue) env.tdaInfo.slbitmap).2 := by omega
    refine ⟨rfl, ?_, ?_, fun _ => ?_, fun hzero => ?_⟩
    · exact le_trans (Nat.add_le_add_left hle _) hend
    · exact (fillPdcchVrbMap_grows _ _ _ _).trans (VrbMap.markLoop_grows _ _ _ _ _)
    · exact Alloc.wasFree_of_busy fun j hj => hfree j (lt_of_lt_of_le hj hle)
    · -- the loop starts `bwpStart` RBs too far
      apply Alloc.markedIn_markLoop
      · exact le_refl _
      · change (getBwpStartSize ue).bwpStart +
          (newRun map (getBwpStartSize ue) env.tdaInfo.slbitmap).1 + n ≤
          n + (newRun map (getBwpStartSize ue) env.tdaInfo.slbitmap).1
        omega
  · exact (nomatch Option.some.inj h)

/-- The turn of a UE in the first loop: retransmissions only. -/
def dlFirstTurn (numBeams : Nat) (s : Slot DlUe) (ue : DlUe) : Option (Turn DlUe) :=
  if !ue.msg4MsgBAcked then some (.skip ue)
  else if ue.ulFailure then some (.skip ue)
  else
    let ue := { ue with schedPdsch := { ue.schedPdsch with dlHarqPid := ue.retransHead } }
    if s.totalRemUes numBeams = 0 then some (.skip ue)
    else if 0 ≤ ue.retransHead then
      match ue.first.beam with
      | none => some (.skip ue)
      | some beam =>
        (allocateDlRetransmission (s.vrbMap beam) ue ue.first ue.retransHead.toNat).map
          (Turn.of beam)
    else if ue.availableHead < 0 then some (.skip ue)
    else if ue.numTotalBytes = 0 ∧ !ue.taDue then some (.skip ue)
    else
      some (.later { ue with schedPdsch :=
        { ue.schedPdsch with
          mcs := ue.newMcs, nrOfLayers := ue.newNrOfLayers, pmIndex := ue.newPmIndex } })

/-- The turn of a UE in the second loop: new data. -/
def dlSecondTurn (s : Slot DlUe) (ue : DlUe) : Option (Turn DlUe) :=
  if ue.availableHead < 0 then some (.skip ue)
  else
    match ue.second.beam with
    | none => some (.skip ue)
    | some beam =>
      if s.remainUEs beam = 0 ∨ s.nRbSched beam < minRbSize then some (.skip ue)
      else (allocateDlTransmission (s.vrbMap beam) ue ue.second).map (Turn.of beam)

/-- The slot after a UE's turn. -/
def afterDlTurn (s : Slot DlUe) : Turn DlUe → Slot DlUe
  | .skip _ => s
  | .given ue beam map => s.give (ue.alloc beam (s.vrbMap beam)) map ue.schedPdsch.rbSize
  | .later ue => { s with ueSched := s.ueSched ++ [ue] }

/-- One pass of the first loop. -/
def pfDlFirst (numBeams : Nat) (s : Slot DlUe) (ue : DlUe) : Option (Slot DlUe) :=
  (dlFirstTurn numBeams s ue).map (afterDlTurn s)

/-- One pass of the second loop. -/
def pfDlSecond (s : Slot DlUe) (ue : DlUe) : Option (Slot DlUe) :=
  (dlSecondTurn s ue).map (afterDlTurn s)

/-- `pf_dl`: the UEs in the order of the list, then those left in the order `sort` gives them. -/
def pfDl (numBeams : Nat) (sort : List DlUe → List DlUe) (ues : List DlUe) (s : Slot DlUe) :
    Option (Slot DlUe) :=
  (ues.foldlM (pfDlFirst numBeams) s).bind fun s => (sort s.ueSched).foldlM pfDlSecond s

/-! ## One slot -/

/-- A retransmission that the first loop allocates is at the front. -/
def FirstMarks (numBeams : Nat) (s : Slot DlUe) (ue : DlUe) : Prop :=
  Turn.gives (dlFirstTurn numBeams s ue) → ∀ beam ∈ ue.first.beam,
    RetransmissionAtFront (s.vrbMap beam) ue ue.first ue.retransHead.toNat
deriving Decidable

/-- A UE that the second loop gives an allocation has a BWP that starts at RB 0. -/
def SecondMarks (s : Slot DlUe) (ue : DlUe) : Prop :=
  Turn.gives (dlSecondTurn s ue) → (getBwpStartSize ue).bwpStart = 0
deriving Decidable

variable {numBeams beam : Nat}

lemma dlFirstTurn_given (h : dlFirstTurn numBeams s ue = some (.given ue' beam map)) :
    Given (s.vrbMap beam) (ue'.alloc beam (s.vrbMap beam)) map True (FirstMarks numBeams s ue) := by
  have hgives : Turn.gives (dlFirstTurn numBeams s ue) = true := congrArg Turn.gives h
  simp only [dlFirstTurn] at h
  split_ifs at h <;> try cases h
  split at h
  · cases h
  next beam' hbeam =>
    obtain ⟨rfl, hfound⟩ := Turn.of_map_eq_given h
    have hg := allocateDlRetransmission_spec beam hfound
    -- the condition does not read the field that was set
    exact { hg with marked := fun hmarks => hg.marked (hmarks hgives beam hbeam) }

theorem pfDlFirst_keeps (h : pfDlFirst numBeams s ue = some s') :
    s.Keeps s' True (FirstMarks numBeams s ue) := by
  refine Slot.Keeps.of_turn h (fun _ => ⟨rfl, rfl⟩) fun _ _ _ hturn => ?_
  exact (dlFirstTurn_given hturn).keeps _ id fun hmarks => ⟨trivial, hmarks⟩

lemma dlSecondTurn_given (h : dlSecondTurn s ue = some (.given ue' beam map)) :
    allocateDlTransmission (s.vrbMap beam) ue ue.second = some (ue', some map) := by
  rw [dlSecondTurn] at h
  split at h
  · cases h
  split at h
  · cases h
  split at h
  · cases h
  · obtain ⟨rfl, hfound⟩ := Turn.of_map_eq_given h
    exact hfound

theorem pfDlSecond_keeps (h : pfDlSecond s ue = some s') : s.Keeps s' True (SecondMarks s ue) := by
  refine Slot.Keeps.of_turn h (fun _ => ⟨rfl, rfl⟩) fun _ beam _ hturn => ?_
  exact (allocateDlTransmission_spec beam (dlSecondTurn_given hturn)).keeps _ id fun hmarks =>
    ⟨trivial, hmarks (congrArg Turn.gives hturn)⟩

/-- In every turn that allocates, the marking loop starts where the allocation does. -/
def DlMarks (numBeams : Nat) (sort : List DlUe → List DlUe) (ues : List DlUe) (s : Slot DlUe) :
    Prop :=
  Along (pfDlFirst numBeams) (FirstMarks numBeams) s ues ∧
    ∀ t, ues.foldlM (pfDlFirst numBeams) s = some t → Along pfDlSecond SecondMarks t (sort t.ueSched)

/-- **Downlink allocations of a slot.**  Every allocation lies inside its UE's BWP and takes only
cells that were free when it was made.  If the marking loops start where the allocations do,
the allocations are pairwise disjoint. -/
theorem pf_dl_allocations {numBeams : Nat} {sort : List DlUe → List DlUe} {ues : List DlUe}
    {maxNumUe : Int} {vrbMap : Nat → VrbMap} {nRbSched : Nat → Int} {s : Slot DlUe}
    (h : pfDl numBeams sort ues (Slot.start maxNumUe vrbMap nRbSched) = some s) :
    (∀ a ∈ s.allocs, a.InBwp ∧ a.WasFree) ∧
      (DlMarks numBeams sort ues (Slot.start maxNumUe vrbMap nRbSched) →
        (s.allocs.map Alloc.cells).Pairwise Disjoint) := by
  obtain ⟨t, ht, hin, hfree, hdisjoint⟩ := Slot.Keeps.loops pfDlFirst_keeps pfDlSecond_keeps h
  constructor
  · have hwas := hfree (Along.of_forall fun _ _ => trivial) (Along.of_forall fun _ _ => trivial)
    exact fun a ha => ⟨hin a ha, hwas a ha⟩
  · exact fun hmarks => hdisjoint hmarks.1 (hmarks.2 t ht)

/-! ## Concrete slots -/

/-- Symbols 1 to 13, and nothing in the way. -/
def wholeSlotEnv : DlEnv where
  beam := some 0
  tda := 0
  tdaInfo := ⟨1, 13, 0, true⟩
  dmrs := fun _ => ⟨12, 1⟩
  cceIndex := some 0
  aggregationLevel := 1
  schedPdcch := ⟨0, 24, 6, 0, 0, 0, 1⟩
  pucch := some 0

/-- A grant of five RBs. -/
def fiveRbs : NrSchedPdsch :=
  ⟨5, 0, 9, 6790, 2, nrComputeTbs 2 6790 5 13 12 0 0 1 >>> 3, 0, 0, 0, 1, ⟨12, 1⟩, 0,
    ⟨1, 13, 0, true⟩⟩

/-- A BWP of 24 RBs from `bwpStart` on, one layer and MCS 9; `retransHead` awaits a retransmission. -/
def ueWith (bwpStart : Nat) (retransHead : Int) : DlUe where
  msg4MsgBAcked := true
  ulFailure := false
  currentDlBwp := ⟨bwpStart, 24⟩
  commonSearchSpace := false
  dciFormat10 := false
  cset0Bwp := ⟨0, 0⟩
  initialDlBwp := ⟨0, 0⟩
  retransHead := retransHead
  availableHead := 1
  harqSched := fun _ => fiveRbs
  schedPdsch := fiveRbs
  numTotalBytes := 50
  taDue := false
  feedbackDisabled := fun _ => false
  newMcs := 9
  newNrOfLayers := 1
  newPmIndex := 0
  qmOfMcs := fun _ => 2
  rOfMcs := fun _ => 6790
  first := wholeSlotEnv
  second := wholeSlotEnv

/-- RBs 0 to 9 are taken. -/
def tenTaken : Slot DlUe := Slot.start 4 (fun _ rb => if rb < 10 then 0x3fff else 0) fun _ => 14

theorem pf_dl_allocations_side_by_side :
    ∃ s, pfDl 1 id [ueWith 0 (-1), ueWith 0 (-1)] tenTaken = some s ∧ s.allocs.length = 2 ∧
      (s.allocs.map Alloc.cells).Pairwise Disjoint := by
  have hrun : (pfDl 1 id [ueWith 0 (-1), ueWith 0 (-1)] tenTaken).map (fun s => s.allocs.length) =
      some 2 := by decide +kernel
  obtain ⟨s, hs, hlen⟩ := map_eq_some_iff.mp hrun
  refine ⟨s, hs, hlen, (pf_dl_allocations hs).2 ⟨by decide +kernel, ?_⟩⟩
  intro t ht
  have hstarts : ([ueWith 0 (-1), ueWith 0 (-1)].foldlM (pfDlFirst 1) tenTaken).map
      (fun t => decide (Along pfDlSecond SecondMarks t t.ueSched)) = some true := by decide +kernel
  obtain ⟨t', ht', hall⟩ := map_eq_some_iff.mp hstarts
  rw [show t = t' from Option.some.inj (ht.symm.trans ht')]
  exact of_decide_eq_true hall

/-- **Two UEs on the same RBs.** RBs 0 to 9 are taken; the retransmission of 5 RBs gets RBs 10 to 14 and
marks none (`for (rb = rbStart; rb < rbSize; rb++)` with `rbStart = 10`), so the next UE's new
transmission starts at RB 10 as well. -/
theorem pf_dl_allocations_overlap :
    ∃ s a b, pfDl 1 id [ueWith 0 0, ueWith 0 (-1)] tenTaken = some s ∧ s.allocs = [a, b] ∧
      ¬ Disjoint a.cells b.cells := by
  have hrun : (pfDl 1 id [ueWith 0 0, ueWith 0 (-1)] tenTaken).map
      (fun s => s.allocs.map fun a => (a.beam, a.bwp, a.rbStart, a.rbSize, a.tdaInfo)) =
      some [(0, ⟨0, 24⟩, 10, 5, ⟨1, 13, 0, true⟩), (0, ⟨0, 24⟩, 10, 5, ⟨1, 13, 0, true⟩)] := by
    decide +kernel
  obtain ⟨s, hs, hallocs⟩ := map_eq_some_iff.mp hrun
  obtain ⟨a, l, hl, ha, hb⟩ := List.map_eq_cons_iff.mp hallocs
  obtain ⟨b, l', rfl, hb, hnil⟩ := List.map_eq_cons_iff.mp hb
  rw [List.map_eq_nil_iff.mp hnil] at hl
  refine ⟨s, a, b, hs, hl, fun hdisj => ?_⟩
  obtain ⟨abeam, abwp, astart, asize, atda, abefore⟩ := a
  obtain ⟨bbeam, bbwp, bstart, bsize, btda, bbefore⟩ := b
  cases ha
  cases hb
  -- RB 10, symbol 1 belongs to both
  have hcell : (⟨0, 10, 1⟩ : Cell) ∈ Alloc.cells ⟨0, ⟨0, 24⟩, 10, 5, ⟨1, 13, 0, true⟩, abefore⟩ := by
    simp [Alloc.cells]
  exact Set.disjoint_left.mp hdisj hcell hcell

end NrStack.Mac
