/-
  The uplink scheduler of one slot (`nr_ue_max_mcs_min_rb`, `allocate_ul_retransmission`, `pf_ul`).

  What the functions that `pf_ul` calls find for a UE is an input, `UlEnv`; so is the order in which
  `qsort` leaves the UEs of the second loop.  `none` is a failed assertion or a search for a number of RBs
  that does not end.  RB indices count from the start of the BWP.
-/
import NrStack.Mac.Tbs
import NrStack.Mac.VrbMap

namespace NrStack.Mac

open Booking Option

/-- What the functions that `pf_ul` calls find for a UE. -/
structure UlEnv where
  /-- `beam_allocation_procedure`, for the slot of the DCI and for that of the PUSCH -/
  dciBeam : Option Nat
  beam : Option Nat
  /-- `get_ul_tda` -/
  tda : Int
  /-- `get_ul_tda_info` -/
  tdaInfo : TdaInfo
  /-- `get_ul_dmrs_params`, for a number of layers -/
  dmrs : Nat → PuschDmrs
  /-- `get_cce_index` -/
  cceIndex : Option Nat

/-- The part of `NR_UE_info_t` that the uplink scheduler reads and writes. -/
structure UlUe where
  msg4MsgBAcked : Bool
  ulFailure : Bool
  currentUlBwp : BwpInfo
  slotsPerFrame : Nat
  /-- `transform_precoding == NR_PUSCH_Config__transformPrecoder_enabled` -/
  transformPrecoding : Bool
  retransHead : Int
  availableHead : Int
  /-- `ul_harq_processes[pid].sched_pusch` -/
  harqSched : Nat → SchedPusch
  schedPusch : SchedPusch
  estimatedUlBuffer : Int
  schedUlBytes : Int
  /-- `nr_UE_is_to_be_scheduled` -/
  doSched : Bool
  /-- the timer `transm_interrupt` is active -/
  transmInterrupt : Bool
  /-- the MCS chosen for a new transmission -/
  newMcs : Nat
  /-- `srs_feedback.ul_ri` -/
  ulRi : Nat
  /-- `update_ul_ue_R_Qm` -/
  rOfMcs : Nat → Nat
  qmOfMcs : Nat → Nat
  /-- `pcmax != 0 || ph != 0` -/
  phrKnown : Bool
  ph : Int
  /-- `compute_ph_factor` for an MCS and a number of RBs -/
  txPower : Nat → Nat → Int
  first : UlEnv
  second : UlEnv

/-- The slot of the DCI, that of the PUSCH, and the least grant. -/
structure UlSlotInfo where
  frame : Nat
  slot : Nat
  schedFrame : Nat
  schedSlot : Nat
  /-- `min_grant_prb` -/
  minRb : Nat
  minGrantMcs : Nat

/-- `B`: what the UE is believed to have beyond what it was granted. -/
def UlUe.bytesLeft (ue : UlUe) : Nat := (ue.estimatedUlBuffer - ue.schedUlBytes).toNat

/-- The map from the start of a BWP on: `rballoc_mask[rb + bwpStart]`. -/
def VrbMap.relativeTo (map : VrbMap) (bwpStart : Nat) : VrbMap := fun rb => map (rb + bwpStart)

/-- The first free RB of the BWP. -/
def firstFreeUl (map : VrbMap) (bwp : BwpInfo) (tda : TdaInfo) : Nat :=
  firstFree (map.relativeTo bwp.bwpStart) tda.slbitmap bwp.bwpSize 0

/-- `for (rb = bwpStart; rb < rbSize; rb++) rballoc_mask[rb + rbStart] |= slbitmap` -/
def markUl (map : VrbMap) (bwp : BwpInfo) (sched : SchedPusch) : VrbMap :=
  map.markLoop sched.tdaInfo.slbitmap sched.rbStart bwp.bwpStart sched.rbSize

/-! ## `nr_ue_max_mcs_min_rb` -/

/-- `while (ph_limit < tx_power && *Rb > minRb) (*Rb)--` -/
def lowerRb (phLimit : Int) (txPower : Nat → Int) (minRb : Nat) : Nat → Nat
  | 0 => 0
  | rb + 1 =>
    if phLimit < txPower (rb + 1) ∧ minRb < rb + 1 then lowerRb phLimit txPower minRb rb else rb + 1

/-- `while (ph_limit < tx_power && *mcs > 0) (*mcs)--` -/
def lowerMcs (phLimit : Int) (txPower : Nat → Int) : Nat → Nat
  | 0 => 0
  | mcs + 1 => if phLimit < txPower (mcs + 1) then lowerMcs phLimit txPower mcs else mcs + 1

/-- `nr_ue_max_mcs_min_rb`: the RBs and the MCS that the reported power allows. -/
def nrUeMaxMcsMinRb (ue : UlUe) (minRb rb mcs : Nat) : Option (Nat × Nat) :=
  if rb < minRb then none
  else if 28 < mcs then none
  else
    let rb := lowerRb ue.ph (ue.txPower mcs) minRb rb
    some (rb, lowerMcs ue.ph (fun mcs => ue.txPower mcs rb) mcs)

lemma lowerRb_le (phLimit : Int) (txPower : Nat → Int) (minRb : Nat) :
    ∀ rb, lowerRb phLimit txPower minRb rb ≤ rb := by
  intro rb
  induction rb with
  | zero => exact le_refl 0
  | succ rb ih =>
    rw [lowerRb]
    split
    · exact Nat.le_succ_of_le ih
    · exact le_refl _

/-! ## `allocate_ul_retransmission` -/

/-- The old time domain allocation can be used again. -/
def reuseOldUlTda (ret : SchedPusch) (env : UlEnv) : Bool :=
  ret.tdaInfo.startSymbolIndex == env.tdaInfo.startSymbolIndex &&
    decide (ret.tdaInfo.nrOfSymbols ≤ env.tdaInfo.nrOfSymbols)

/-- The first RB, and `retInfo` as it is left.  With the old time domain allocation only the FIRST RB is
checked. -/
def planUlRetransmission (map : VrbMap) (ue : UlUe) (env : UlEnv) (pid : Nat) :
    Option (Option (Nat × SchedPusch)) :=
  let ret := ue.harqSched pid
  let bwp := ue.currentUlBwp
  if reuseOldUlTda ret env then
    let rbStart := firstFreeUl map bwp ret.tdaInfo
    some (if bwp.bwpSize < rbStart + ret.rbSize then none else some (rbStart, ret))
  else
    let dmrs := env.dmrs ret.nrOfLayers
    let rbStart := firstFreeUl map bwp env.tdaInfo
    let rbSize := freeRun (map.relativeTo bwp.bwpStart) env.tdaInfo.slbitmap bwp.bwpSize rbStart 0
    (nrFindNbRb ret.Qm ret.R ue.transformPrecoding ret.nrOfLayers env.tdaInfo.nrOfSymbols
        (dmrs.nPrbDmrs * dmrs.numDmrsSymb) ret.tbSize 1 rbSize).map fun (success, newTbs, newRbSize) =>
      if !success || newTbs != ret.tbSize then none
      else
        some (rbStart, { ret with
          tbSize := newTbs
          rbSize := newRbSize
          timeDomainAllocation := env.tda
          dmrsInfo := dmrs
          tdaInfo := env.tdaInfo })

/-- The UE, and the new map if allocated.  `retInfo` is overwritten before a CCE is looked for. -/
def allocateUlRetransmission (info : UlSlotInfo) (map : VrbMap) (ue : UlUe) (env : UlEnv)
    (pid : Nat) : Option (UlUe × Option VrbMap) :=
  if !env.tdaInfo.validTda then some (ue, none)
  else (planUlRetransmission map ue env pid).map fun
    | none => (ue, none)
    | some (rbStart, ret) =>
      match env.cceIndex with
      | none => ({ ue with harqSched := Function.update ue.harqSched pid ret }, none)
      | some _ =>
        let ret := { ret with
          frame := (info.frame + (info.slot + env.tdaInfo.k2) / ue.slotsPerFrame) % 1024
          slot := (info.slot + env.tdaInfo.k2) % ue.slotsPerFrame }
        let sched := { ret with rbStart := rbStart }
        ({ ue with
            harqSched := Function.update ue.harqSched pid ret
            schedPusch := sched },
          some (markUl map ue.currentUlBwp sched))

/-! ## `pf_ul` -/

/-- A grant without data: `min_rb` RBs from the first free one on, of which only the FIRST is
checked to be free. -/
def allocateUlNoData (info : UlSlotInfo) (map : VrbMap) (ue : UlUe) (env : UlEnv) :
    Option (UlUe × Option VrbMap) :=
  match env.cceIndex with
  | none => some (ue, none)
  | some _ =>
    if !env.tdaInfo.validTda then none
    else
      let bwp := ue.currentUlBwp
      let layers := ue.ulRi + 1
      let dmrs := env.dmrs layers
      let sched := { ue.schedPusch with
        nrOfLayers := layers, timeDomainAllocation := env.tda, tdaInfo := env.tdaInfo,
        dmrsInfo := dmrs }
      let rbStart := firstFreeUl map bwp env.tdaInfo
      if bwp.bwpSize ≤ rbStart + info.minRb then some ({ ue with schedPusch := sched }, none)
      else
        let mcs := min info.minGrantMcs sched.mcs
        let sched := { sched with
          mcs := mcs, R := ue.rOfMcs mcs, Qm := ue.qmOfMcs mcs, rbStart := rbStart,
          rbSize := info.minRb, frame := info.schedFrame, slot := info.schedSlot,
          tbSize := nrComputeTbs (ue.qmOfMcs mcs) (ue.rOfMcs mcs) info.minRb
            env.tdaInfo.nrOfSymbols (dmrs.nPrbDmrs * dmrs.numDmrsSymb) 0 0 layers >>> 3 }
        some ({ ue with schedPusch := sched }, some (markUl map bwp sched))

/-- A grant for the data of the UE: the body of the second loop for a UE with beams and a CCE. -/
def allocateUlData (info : UlSlotInfo) (map : VrbMap) (ue : UlUe) (env : UlEnv) :
    Option (UlUe × Option VrbMap) :=
  if !env.tdaInfo.validTda then none
  else
    let bwp := ue.currentUlBwp
    let layers := ue.ulRi + 1
    let dmrs := env.dmrs layers
    let rbStart := firstFreeUl map bwp env.tdaInfo
    let maxRbSize := freeRun (map.relativeTo bwp.bwpStart) env.tdaInfo.slbitmap bwp.bwpSize rbStart 1
    let sched := { ue.schedPusch with
      nrOfLayers := layers, timeDomainAllocation := env.tda, tdaInfo := env.tdaInfo,
      dmrsInfo := dmrs, rbStart := rbStart }
    if bwp.bwpSize ≤ rbStart + info.minRb ∨ maxRbSize < info.minRb then
      some ({ ue with schedPusch := sched }, none)
    else
      (if ue.phrKnown then nrUeMaxMcsMinRb ue info.minRb maxRbSize sched.mcs
        else some (maxRbSize, sched.mcs)).bind fun (maxRbSize, mcs) =>
      (nrFindNbRb (ue.qmOfMcs mcs) (ue.rOfMcs mcs) ue.transformPrecoding layers
          env.tdaInfo.nrOfSymbols (dmrs.nPrbDmrs * dmrs.numDmrsSymb) ue.bytesLeft info.minRb
          maxRbSize).map fun (_, tbs, rbSize) =>
        let sched := { sched with
          mcs := mcs, R := ue.rOfMcs mcs, Qm := ue.qmOfMcs mcs, rbSize := rbSize, tbSize := tbs,
          frame := info.schedFrame, slot := info.schedSlot }
        ({ ue with schedPusch := sched }, some (markUl map bwp sched))

/-- What the UE has been given, with the map before. -/
def UlUe.alloc (ue : UlUe) (beam : Nat) (before : VrbMap) : Alloc where
  beam := beam
  bwp := ue.currentUlBwp
  rbStart := ue.schedPusch.rbStart
  rbSize := ue.schedPusch.rbSize
  tdaInfo := ue.schedPusch.tdaInfo
  before := before

/-- The turn of a UE in the first loop: retransmissions, and grants without data. -/
def ulFirstTurn (info : UlSlotInfo) (numBeams : Nat) (s : Slot UlUe) (ue : UlUe) :
    Option (Turn UlUe) :=
  if !ue.msg4MsgBAcked || ue.ulFailure then some (.skip ue)
  else if s.totalRemUes numBeams = 0 then some (.skip ue)
  else
    match ue.first.dciBeam, ue.first.beam with
    | some _, some beam =>
      let ue := { ue with schedPusch := { ue.schedPusch with ulHarqPid := ue.retransHead } }
      if 0 ≤ ue.retransHead then
        (allocateUlRetransmission info (s.vrbMap beam) ue ue.first ue.retransHead.toNat).map
          (Turn.of beam)
      else if ue.availableHead < 0 then some (.skip ue)
      else if (ue.bytesLeft = 0 ∧ !ue.doSched) ∨ ue.transmInterrupt then some (.skip ue)
      else
        let ue := { ue with schedPusch := { ue.schedPusch with mcs := ue.newMcs } }
        if ue.bytesLeft = 0 ∧ ue.doSched then
          (allocateUlNoData info (s.vrbMap beam) ue ue.first).map (Turn.of beam)
        else some (.later ue)
    | _, _ => some (.skip ue)

/-- The turn of a UE in the second loop: grants for data. -/
def ulSecondTurn (info : UlSlotInfo) (s : Slot UlUe) (ue : UlUe) : Option (Turn UlUe) :=
  match ue.second.beam with
  | none => some (.skip ue)
  | some beam =>
    if s.remainUEs beam = 0 ∨ s.nRbSched beam < info.minRb then some (.skip ue)
    else
      match ue.second.dciBeam, ue.second.cceIndex with
      | some _, some _ =>
        (allocateUlData info (s.vrbMap beam) ue ue.second).map (Turn.of beam)
      | _, _ => some (.skip ue)

/-- The RBs of a retransmission are not taken from the RBs left: `allocate_ul_retransmission` lowers its
POINTER to that number. -/
def afterUlTurn (s : Slot UlUe) : Turn UlUe → Slot UlUe
  | .skip _ => s
  | .given ue beam map =>
    s.give (ue.alloc beam (s.vrbMap beam)) map
      (if 0 ≤ ue.retransHead then 0 else ue.schedPusch.rbSize)
  | .later ue => { s with ueSched := s.ueSched ++ [ue] }

/-- One pass of the first loop. -/
def pfUlFirst (info : UlSlotInfo) (numBeams : Nat) (s : Slot UlUe) (ue : UlUe) :
    Option (Slot UlUe) :=
  (ulFirstTurn info numBeams s ue).map (afterUlTurn s)

/-- One pass of the second loop. -/
def pfUlSecond (info : UlSlotInfo) (s : Slot UlUe) (ue : UlUe) : Option (Slot UlUe) :=
  (ulSecondTurn info s ue).map (afterUlTurn s)

/-- `pf_ul`: the UEs in the order of the list, then those left in the order `sort` gives them. -/
def pfUl (info : UlSlotInfo) (numBeams : Nat) (sort : List UlUe → List UlUe) (ues : List UlUe)
    (s : Slot UlUe) : Option (Slot UlUe) :=
  (ues.foldlM (pfUlFirst info numBeams) s).bind fun s =>
    (sort s.ueSched).foldlM (pfUlSecond info) s

/-! ## Runs from the first free RB on -/

/-- The first free RB of the BWP, if there is one, starts a run of `size` free RBs. -/
def RunFree (map : VrbMap) (bwp : BwpInfo) (tda : TdaInfo) (size : Nat) : Prop :=
  ∀ r < bwp.bwpSize, (∀ rb < r, (map.relativeTo bwp.bwpStart).busy tda.slbitmap rb = true) →
    (map.relativeTo bwp.bwpStart).busy tda.slbitmap r = false →
    ∀ j < size, (map.relativeTo bwp.bwpStart).busy tda.slbitmap (r + j) = false

instance (map : VrbMap) (bwp : BwpInfo) (tda : TdaInfo) (size : Nat) :
    Decidable (RunFree map bwp tda size) := by
  unfold RunFree
  infer_instance

lemma firstFreeUl_le (map : VrbMap) (bwp : BwpInfo) (tda : TdaInfo) :
    firstFreeUl map bwp tda ≤ bwp.bwpSize := firstFree_le (Nat.zero_le _) (le_refl _)

variable {map map' : VrbMap} {ue ue' : UlUe} {info : UlSlotInfo} {env : UlEnv} {s s' : Slot UlUe}

lemma RunFree.at_first {bwp : BwpInfo} {tda : TdaInfo} {size : Nat} (h : RunFree map bwp tda size)
    (hin : firstFreeUl map bwp tda < bwp.bwpSize) :
    ∀ j < size, (map.relativeTo bwp.bwpStart).busy tda.slbitmap (firstFreeUl map bwp tda + j) =
      false := by
  refine h _ hin (fun rb hrb => ?_) (firstFree_free hin)
  have := advance_passed (Nat.zero_le rb) hrb
  exact (Bool.and_eq_true_iff.mp this).2

lemma Given.of_schedPusch {runFree : Prop} (beam : Nat)
    (hin : ue.schedPusch.rbStart + ue.schedPusch.rbSize ≤ ue.currentUlBwp.bwpSize)
    (hfree : runFree → ∀ j < ue.schedPusch.rbSize,
      (map.relativeTo ue.currentUlBwp.bwpStart).busy ue.schedPusch.tdaInfo.slbitmap
        (ue.schedPusch.rbStart + j) = false) :
    Given map (ue.alloc beam map) (markUl map ue.currentUlBwp ue.schedPusch) runFree
      (ue.currentUlBwp.bwpStart = 0) where
  before := rfl
  inBwp := hin
  grows := VrbMap.markLoop_grows _ _ _ _ _
  wasFree := by
    intro hrun
    apply Alloc.wasFree_of_busy
    intro j hj
    have hrel : map.busy ue.schedPusch.tdaInfo.slbitmap
      (ue.schedPusch.rbStart + j + ue.currentUlBwp.bwpStart) = false := hfree hrun j hj
    rw [Nat.add_assoc, Nat.add_comm]
    exact hrel
  marked := by
    intro hzero
    -- the loop starts `bwpStart` RBs too far
    apply Alloc.markedIn_markLoop
    · exact le_refl _
    · change ue.currentUlBwp.bwpStart + ue.schedPusch.rbStart + ue.schedPusch.rbSize ≤
        ue.schedPusch.rbSize + ue.schedPusch.rbStart
      omega

/-- What a retransmission gets. -/
theorem allocateUlRetransmission_spec {pid : Nat} (beam : Nat)
    (h : allocateUlRetransmission info map ue env pid = some (ue', some map')) :
    Given map (ue'.alloc beam map) map' (reuseOldUlTda (ue.harqSched pid) env = true →
        RunFree map ue.currentUlBwp (ue.harqSched pid).tdaInfo (ue.harqSched pid).rbSize)
      (ue.currentUlBwp.bwpStart = 0) := by
  rw [allocateUlRetransmission] at h
  split at h
  · exact (nomatch Option.some.inj h)
  obtain ⟨plan, hplan, h⟩ := map_eq_some_iff.mp h
  cases plan with
  | none => cases h
  | some plan =>
    simp only at h
    split at h
    · cases h
    cases h
    rw [planUlRetransmission] at hplan
    simp only at hplan
    split at hplan
    next hreuse =>
      split at hplan
      · cases hplan
      next hfits =>
        cases hplan
        refine Given.of_schedPusch beam (Nat.le_of_not_gt hfits) (fun hrun j hj => ?_)
        refine (hrun hreuse).at_first ?_ j hj
        change j < (ue.harqSched pid).rbSize at hj
        omega
    next hreuse =>
      obtain ⟨ok, n, hfind, heq⟩ := kept_of_found hplan fun _ => rfl
      cases heq
      have hle := nrFindNbRb_exact hfind rfl
      refine Given.of_schedPusch beam ?_ (fun _ j hj =>
        (freeRun_free (Nat.zero_le j) (lt_of_lt_of_le hj hle)).2)
      rcases Nat.eq_zero_or_pos n with rfl | hpos
      · exact firstFreeUl_le _ _ _
      · have := freeRun_le (lt_of_lt_of_le hpos hle)
        exact le_trans (Nat.add_le_add_left hle _) this

/-- What a grant without data gets. -/
theorem allocateUlNoData_spec (beam : Nat)
    (h : allocateUlNoData info map ue env = some (ue', some map')) :
    Given map (ue'.alloc beam map) map' (RunFree map ue.currentUlBwp env.tdaInfo info.minRb)
      (ue.currentUlBwp.bwpStart = 0) := by
  rw [allocateUlNoData] at h
  split at h
  · exact (nomatch Option.some.inj h)
  split at h
  · cases h
  simp only at h
  split at h
  · exact (nomatch Option.some.inj h)
  next hfits =>
    cases h
    have hlt := lt_of_not_ge hfits
    exact Given.of_schedPusch beam (le_of_lt hlt) (fun hrun j hj => hrun.at_first (by omega) j hj)

/-- What a grant for data gets. -/
theorem allocateUlData_spec (beam : Nat)
    (h : allocateUlData info map ue env = some (ue', some map')) :
    Given map (ue'.alloc beam map) map' True (ue.currentUlBwp.bwpStart = 0) := by
  rw [allocateUlData] at h
  split at h
  · cases h
  simp only at h
  split at h
  · exact (nomatch Option.some.inj h)
  next hfits =>
    obtain ⟨⟨maxRb, mcs⟩, hlimit, h⟩ := bind_eq_some_iff.mp h
    obtain ⟨⟨ok, tbs, n⟩, hfind, heq⟩ := map_eq_some_iff.mp h
    cases heq
    have hin : firstFreeUl map ue.currentUlBwp env.tdaInfo < ue.currentUlBwp.bwpSize := by omega
    obtain ⟨hend, hfree⟩ := freeRun_firstFree (le_refl _) hin
    -- the reported power only lowers the number of RBs
    have hmax : maxRb ≤ freeRun (map.relativeTo ue.currentUlBwp.bwpStart) env.tdaInfo.slbitmap
        ue.currentUlBwp.bwpSize (firstFreeUl map ue.currentUlBwp env.tdaInfo) 1 := by
      split at hlimit
      · rw [nrUeMaxMcsMinRb] at hlimit
        split at hlimit
        · cases hlimit
        split at hlimit
        · cases hlimit
        cases hlimit
        exact lowerRb_le _ _ _ _
      · cases hlimit
        exact le_refl _
    have hn := (nrFindNbRb_spec hfind).2.1
    have hle : n ≤ freeRun (map.relativeTo ue.currentUlBwp.bwpStart) env.tdaInfo.slbitmap
        ue.currentUlBwp.bwpSize (firstFreeUl map ue.currentUlBwp env.tdaInfo) 1 := by omega
    exact Given.of_schedPusch beam (le_trans (Nat.add_le_add_left hle _) hend)
      (fun _ j hj => hfree j (lt_of_lt_of_le hj hle))

/-! ## One slot -/

/-- The RBs given unchecked in the first loop are free: those of a retransmission with the old time
domain allocation, and those of a grant without data. -/
def FirstRunFree (info : UlSlotInfo) (numBeams : Nat) (s : Slot UlUe) (ue : UlUe) : Prop :=
  Turn.gives (ulFirstTurn info numBeams s ue) → ∀ beam ∈ ue.first.beam,
    if 0 ≤ ue.retransHead then
      reuseOldUlTda (ue.harqSched ue.retransHead.toNat) ue.first = true →
        RunFree (s.vrbMap beam) ue.currentUlBwp (ue.harqSched ue.retransHead.toNat).tdaInfo
          (ue.harqSched ue.retransHead.toNat).rbSize
    else ue.bytesLeft = 0 →
      RunFree (s.vrbMap beam) ue.currentUlBwp ue.first.tdaInfo info.minRb
deriving Decidable

/-- A UE whose turn makes an allocation has a BWP that starts at RB 0. -/
def StartsAtZero (turn : Option (Turn UlUe)) (ue : UlUe) : Prop :=
  Turn.gives turn → ue.currentUlBwp.bwpStart = 0
deriving Decidable

/-- The allocation that a turn of the first loop gives, by the branch it comes from. -/
lemma ulFirstTurn_given {numBeams beam : Nat}
    (h : ulFirstTurn info numBeams s ue = some (.given ue' beam map)) :
    Given (s.vrbMap beam) (ue'.alloc beam (s.vrbMap beam)) map (FirstRunFree info numBeams s ue)
      (ue.currentUlBwp.bwpStart = 0) := by
  have hgives : Turn.gives (ulFirstTurn info numBeams s ue) = true := congrArg Turn.gives h
  rw [ulFirstTurn] at h
  split at h
  · cases h
  split at h
  · cases h
  split at h
  next beam' _ hbeam =>
    simp only at h
    split_ifs at h with hretrans _ _ hempty <;> try cases h
    · obtain ⟨rfl, hfound⟩ := Turn.of_map_eq_given h
      have hg := allocateUlRetransmission_spec beam hfound
      refine { hg with wasFree := fun hrun => hg.wasFree ?_ }
      have := hrun hgives beam hbeam
      rw [if_pos hretrans] at this
      exact this
    · obtain ⟨rfl, hfound⟩ := Turn.of_map_eq_given h
      have hg := allocateUlNoData_spec beam hfound
      refine { hg with wasFree := fun hrun => hg.wasFree ?_ }
      have := hrun hgives beam hbeam
      rw [if_neg hretrans] at this
      exact this hempty.1
  · cases h

theorem pfUlFirst_keeps {numBeams : Nat} (h : pfUlFirst info numBeams s ue = some s') :
    s.Keeps s' (FirstRunFree info numBeams s ue) (FirstRunFree info numBeams s ue ∧
      StartsAtZero (ulFirstTurn info numBeams s ue) ue) := by
  refine Slot.Keeps.of_turn h (fun _ => ⟨rfl, rfl⟩) fun _ _ _ hturn => ?_
  exact (ulFirstTurn_given hturn).keeps _ id fun hmarks =>
    ⟨hmarks.1, hmarks.2 (congrArg Turn.gives hturn)⟩

lemma ulSecondTurn_given {beam : Nat} (h : ulSecondTurn info s ue = some (.given ue' beam map)) :
    allocateUlData info (s.vrbMap beam) ue ue.second = some (ue', some map) := by
  rw [ulSecondTurn] at h
  split at h
  · cases h
  split at h
  · cases h
  split at h
  · obtain ⟨rfl, hfound⟩ := Turn.of_map_eq_given h
    exact hfound
  · cases h

theorem pfUlSecond_keeps (h : pfUlSecond info s ue = some s') :
    s.Keeps s' True (StartsAtZero (ulSecondTurn info s ue) ue) := by
  refine Slot.Keeps.of_turn h (fun _ => ⟨rfl, rfl⟩) fun _ beam _ hturn => ?_
  exact (allocateUlData_spec beam (ulSecondTurn_given hturn)).keeps _ id fun hzero =>
    ⟨trivial, hzero (congrArg Turn.gives hturn)⟩

/-- Every UE that gets an allocation has a BWP that starts at RB 0, and the RBs given unchecked in the
first loop are free. -/
def UlMarks (info : UlSlotInfo) (numBeams : Nat) (sort : List UlUe → List UlUe) (ues : List UlUe)
    (s : Slot UlUe) : Prop :=
  Along (pfUlFirst info numBeams) (fun s ue => FirstRunFree info numBeams s ue ∧
      StartsAtZero (ulFirstTurn info numBeams s ue) ue) s ues ∧
    ∀ t, ues.foldlM (pfUlFirst info numBeams) s = some t → Along (pfUlSecond info)
      (fun s ue => StartsAtZero (ulSecondTurn info s ue) ue) t (sort t.ueSched)

/-- **Uplink allocations of a slot.**  Every allocation lies inside its UE's BWP.  If the RBs that
are given without a check are free, all allocations take only free cells; if moreover the BWPs
start at RB 0, the allocations are pairwise disjoint. -/
theorem pf_ul_allocations {info : UlSlotInfo} {numBeams : Nat} {sort : List UlUe → List UlUe}
    {ues : List UlUe} {maxNumUe : Int} {vrbMap : Nat → VrbMap} {nRbSched : Nat → Int}
    {s : Slot UlUe}
    (h : pfUl info numBeams sort ues (Slot.start maxNumUe vrbMap nRbSched) = some s) :
    (∀ a ∈ s.allocs, a.InBwp) ∧
      (Along (pfUlFirst info numBeams) (FirstRunFree info numBeams)
          (Slot.start maxNumUe vrbMap nRbSched) ues → ∀ a ∈ s.allocs, a.WasFree) ∧
      (UlMarks info numBeams sort ues (Slot.start maxNumUe vrbMap nRbSched) →
        (s.allocs.map Alloc.cells).Pairwise Disjoint) := by
  obtain ⟨t, ht, hin, hfree, hdisjoint⟩ := Slot.Keeps.loops pfUlFirst_keeps pfUlSecond_keeps h
  refine ⟨hin, fun hrun => ?_, fun hmarks => ?_⟩
  · exact hfree hrun (Along.of_forall fun _ _ => trivial)
  · exact hdisjoint hmarks.1 (hmarks.2 t ht)

/-! ## Concrete slots -/

/-- All 14 symbols, and nothing in the way. -/
def allSymbolsEnv : UlEnv where
  dciBeam := some 0
  beam := some 0
  tda := 0
  tdaInfo := ⟨0, 14, 4, true⟩
  dmrs := fun _ => ⟨6, 1⟩
  cceIndex := some 0

/-- A UE believed to have `bytes` bytes. -/
def ulUeWith (bytes : Int) : UlUe where
  msg4MsgBAcked := true
  ulFailure := false
  currentUlBwp := ⟨0, 24⟩
  slotsPerFrame := 20
  transformPrecoding := false
  retransHead := -1
  availableHead := 0
  harqSched := fun _ => SchedPusch.zero
  schedPusch := SchedPusch.zero
  estimatedUlBuffer := bytes
  schedUlBytes := 0
  doSched := true
  transmInterrupt := false
  newMcs := 9
  ulRi := 0
  rOfMcs := fun _ => 6790
  qmOfMcs := fun _ => 2
  phrKnown := false
  ph := 0
  txPower := fun _ _ => 0
  first := allSymbolsEnv
  second := allSymbolsEnv

/-- Grants of at least five RBs. -/
def fiveRbGrants : UlSlotInfo := ⟨0, 0, 0, 4, 5, 9⟩

/-- RB 2 is taken. -/
def rbTwoTaken : Slot UlUe := Slot.start 4 (fun _ rb => if rb = 2 then 0x3fff else 0) fun _ => 24

theorem pf_ul_allocations_side_by_side :
    ∃ s, pfUl fiveRbGrants 1 id [ulUeWith 50, ulUeWith 50]
        (Slot.start 4 (fun _ rb => if rb = 0 then 0x3fff else 0) fun _ => 24) = some s ∧
      s.allocs.length = 2 ∧ (s.allocs.map Alloc.cells).Pairwise Disjoint := by
  have hrun : (pfUl fiveRbGrants 1 id [ulUeWith 50, ulUeWith 50]
      (Slot.start 4 (fun _ rb => if rb = 0 then 0x3fff else 0) fun _ => 24)).map
        (fun s => s.allocs.length) = some 2 := by decide +kernel
  obtain ⟨s, hs, hlen⟩ := map_eq_some_iff.mp hrun
  refine ⟨s, hs, hlen, (pf_ul_allocations hs).2.2 ⟨by decide +kernel, ?_⟩⟩
  intro t ht
  have hstarts : ([ulUeWith 50, ulUeWith 50].foldlM (pfUlFirst fiveRbGrants 1)
      (Slot.start 4 (fun _ rb => if rb = 0 then 0x3fff else 0) fun _ => 24)).map
        (fun t => decide (Along (pfUlSecond fiveRbGrants)
          (fun s ue => StartsAtZero (ulSecondTurn fiveRbGrants s ue) ue) t t.ueSched)) = some true := by
    decide +kernel
  obtain ⟨t', ht', hall⟩ := map_eq_some_iff.mp hstarts
  rw [show t = t' from Option.some.inj (ht.symm.trans ht')]
  exact of_decide_eq_true hall

/-- **A grant over a taken RB.**  RB 0 is free and RB 2 is not; the grant without data checks RB 0
only and gets RBs 0 to 4. -/
theorem pf_ul_allocations_over_taken :
    ∃ s a, pfUl fiveRbGrants 1 id [ulUeWith 0] rbTwoTaken = some s ∧ s.allocs = [a] ∧
      ¬ a.WasFree := by
  have hrun : (pfUl fiveRbGrants 1 id [ulUeWith 0] rbTwoTaken).map
      (fun s => s.allocs.map fun a =>
        ((a.beam, a.bwp, a.rbStart), a.rbSize, a.tdaInfo, (a.before 2).testBit 0)) =
      some [((0, ⟨0, 24⟩, 0), 5, ⟨0, 14, 4, true⟩, true)] := by decide +kernel
  obtain ⟨s, hs, hallocs⟩ := map_eq_some_iff.mp hrun
  obtain ⟨a, l, hl, ha, hnil⟩ := List.map_eq_cons_iff.mp hallocs
  rw [List.map_eq_nil_iff.mp hnil] at hl
  refine ⟨s, a, hs, hl, fun hfree => ?_⟩
  obtain ⟨beam, bwp, rbStart, rbSize, tda, before⟩ := a
  simp only [Prod.mk.injEq] at ha
  obtain ⟨⟨rfl, rfl, rfl⟩, rfl, rfl, htaken⟩ := ha
  have hcell : (⟨0, 2, 0⟩ : Cell) ∈ Alloc.cells ⟨0, ⟨0, 24⟩, 0, 5, ⟨0, 14, 4, true⟩, before⟩ := by
    simp [Alloc.cells]
  have hzero : (before 2).testBit 0 = false := hfree ⟨0, 2, 0⟩ hcell
  rw [htaken] at hzero
  exact Bool.noConfusion hzero

end NrStack.Mac
