/-
  HARQ retransmissions keep the transport block size: what both directions share, and the downlink.

  1. **History** — `TbsKept`: each transmission has the size `nr_compute_tbs` gives for its parameters, and
     while the NDI stays the size stays.
  2. **Process** — `Tracks`: an ACTIVE process was last sent with its current NDI and its saved size; the
     next transmission of another has another NDI.  A BLIND process is finished when it is sent.
  3. **Downlink** — `pf_dl` as one UE sees it (`pfDlUe`: the slot at its turns is arbitrary),
     `nr_schedule_ue_spec` with the parameters it saves, and the UCI handlers of `Mac.DlHarq`.
-/
import NrStack.Mac.DlAlloc
import NrStack.Mac.DlHarqPartition

namespace NrStack.Mac

open List Machine NrList Function Option

/-! ## The history of a process -/

/-- One transmission: its NDI, parameters and size. -/
structure Sent where
  ndi : UInt8
  Qm : Nat
  R : Nat
  rbSize : Nat
  nrOfSymbols : Nat
  dmrs : Nat
  nrOfLayers : Nat
  tbSize : Nat

/-- The size is that of the parameters. -/
def Sent.Sized (x : Sent) : Prop :=
  x.tbSize = nrComputeTbs x.Qm x.R x.rbSize x.nrOfSymbols x.dmrs 0 0 x.nrOfLayers >>> 3

/-- Every transmission has the size of its parameters, and the size of every earlier one since
which the NDI has not changed. -/
structure TbsKept (sent : List Sent) : Prop where
  sized : ∀ x ∈ sent, x.Sized
  same : ∀ pre x mid y post, sent = pre ++ x :: (mid ++ y :: post) →
    (∀ z ∈ mid ++ [y], z.ndi = x.ndi) → y.tbSize = x.tbSize

lemma TbsKept.concat {sent : List Sent} {y : Sent} (h : TbsKept sent) (hy : y.Sized)
    (hlast : ∀ x, sent.getLast? = some x → x.ndi = y.ndi → y.tbSize = x.tbSize) :
    TbsKept (sent ++ [y]) := by
  constructor
  · intro x hx
    rcases mem_append.mp hx with hx | hx
    · exact h.sized x hx
    · rw [mem_singleton.mp hx]
      exact hy
  · intro pre x mid z post hsplit hndi
    rcases eq_nil_or_concat post with rfl | ⟨post, w, rfl⟩
    · -- the new transmission is the later one of the two
      have hcons : pre ++ x :: (mid ++ [z]) = (pre ++ x :: mid) ++ [z] := by
        rw [append_assoc, cons_append]
      obtain ⟨hsent, rfl⟩ := append_singleton_inj.mp (hsplit.trans hcons)
      have hyx : y.ndi = x.ndi := hndi y (mem_append_right _ (mem_singleton_self y))
      rcases eq_nil_or_concat mid with rfl | ⟨mid, w, rfl⟩
      · exact hlast x (by rw [hsent, getLast?_concat]) hyx.symm
      · rw [concat_eq_append] at hsent hndi
        have hwx : w.ndi = x.ndi := hndi w (by simp)
        have hw : w.tbSize = x.tbSize :=
          h.same pre x mid w [] hsent fun v hv => hndi v (mem_append_left _ hv)
        have hyw := hlast w (by rw [hsent, ← cons_append, ← append_assoc,
          getLast?_concat]) (hwx.trans hyx.symm)
        exact hyw.trans hw
    · rw [concat_eq_append] at hsplit
      have hcons : pre ++ x :: (mid ++ z :: (post ++ [w])) =
          (pre ++ x :: (mid ++ z :: post)) ++ [w] := by simp
      obtain ⟨hsent, -⟩ := append_singleton_inj.mp (hsplit.trans hcons)
      exact h.same pre x mid z post hsent hndi

/-! ## One process -/

lemma xor_one_ne (x : UInt8) : x ^^^ 1 ≠ x := by
  intro h
  have hxor := congrArg (x ^^^ ·) h
  rw [← UInt8.xor_assoc, UInt8.xor_self, UInt8.zero_xor] at hxor
  exact absurd hxor (by decide)

/-- The process, its history and the size `tbs` that is saved for it agree. -/
structure Tracks (sent : List Sent) (active : Prop) (blind : Bool) (ndi : UInt8) (tbs : Nat) :
    Prop where
  kept : TbsKept sent
  started : active → blind = false ∧
    ∃ x, sent.getLast? = some x ∧ x.ndi = ndi ∧ x.tbSize = tbs
  ended : ¬ active → ∀ x, sent.getLast? = some x → x.ndi ≠ if blind then ndi ^^^ 1 else ndi

namespace Tracks

variable {sent : List Sent} {active active' : Prop} {blind : Bool} {ndi : UInt8} {tbs : Nat}
  {y : Sent}

lemma nil (h : ¬ active) : Tracks [] active blind ndi tbs :=
  ⟨⟨fun _ hx => (not_mem_nil hx).elim, fun pre _ _ _ _ hsplit => by
    have := congrArg List.length hsplit
    simp at this⟩, fun ha => absurd ha h, nofun⟩

section

variable (h : Tracks sent active blind ndi tbs)
include h

lemma retry (ha : active) (ha' : active') :
    Tracks sent active' blind ndi tbs :=
  ⟨h.kept, fun _ => h.started ha, fun hn => absurd ha' hn⟩

lemma finish (ha : active) (ha' : ¬ active') :
    Tracks sent active' blind (ndi ^^^ 1) tbs := by
  obtain ⟨hblind, x, hx, hndi, -⟩ := h.started ha
  refine ⟨h.kept, fun hact => absurd hact ha', fun _ z hz => ?_⟩
  cases hx.symm.trans hz
  rw [hblind, hndi]
  exact (xor_one_ne ndi).symm

lemma fresh (ha : ¬ active) (hblind : blind = false)
    (hy : y.Sized) (hndi : y.ndi = ndi) (ha' : active') :
    Tracks (sent ++ [y]) active' blind ndi y.tbSize := by
  refine ⟨h.kept.concat hy fun x hx heq => ?_, fun _ => ⟨hblind, y, getLast?_concat, hndi, rfl⟩,
    fun hn => absurd ha' hn⟩
  have hne := h.ended ha x hx
  rw [hblind] at hne
  exact absurd (heq.trans hndi) hne

lemma freshBlind (ha : ¬ active) (hblind : blind = true)
    (hy : y.Sized) (hndi : y.ndi = ndi ^^^ 1) (ha' : ¬ active') (tbs' : Nat) :
    Tracks (sent ++ [y]) active' blind (ndi ^^^ 1) tbs' := by
  refine ⟨h.kept.concat hy fun x hx heq => ?_, fun hact => absurd hact ha', fun _ z hz => ?_⟩
  · have hne := h.ended ha x hx
    rw [hblind] at hne
    exact absurd (heq.trans hndi) hne
  · rw [getLast?_concat] at hz
    cases hz
    rw [hblind, if_pos rfl, hndi]
    exact (xor_one_ne _).symm

lemma again (ha : active) (hy : y.Sized)
    (hndi : y.ndi = ndi) (htbs : y.tbSize = tbs) (ha' : active') :
    Tracks (sent ++ [y]) active' blind ndi tbs := by
  obtain ⟨hblind, x, hx, -, hsize⟩ := h.started ha
  refine ⟨h.kept.concat hy fun z hz _ => ?_, fun _ => ⟨hblind, y, getLast?_concat, hndi, htbs⟩,
    fun hn => absurd ha' hn⟩
  cases hx.symm.trans hz
  exact htbs.trans hsize.symm

end

end Tracks

/-! ## What `pf_dl` leaves in a UE -/

/-- The size is that of the parameters. -/
def NrSchedPdsch.Sized (g : NrSchedPdsch) : Prop :=
  g.tbSize = nrComputeTbs g.Qm g.R g.rbSize g.tdaInfo.nrOfSymbols
    (g.dmrsParms.nPrbDmrs * g.dmrsParms.nDmrsSlot) 0 0 g.nrOfLayers >>> 3

/-- Parameters for the same block of the same process. -/
structure SameBlock (g g' : NrSchedPdsch) : Prop where
  tbSize : g'.tbSize = g.tbSize
  pid : g'.dlHarqPid = g.dlHarqPid
  sized : g.Sized → g'.Sized

lemma SameBlock.refl (g : NrSchedPdsch) : SameBlock g g := ⟨rfl, rfl, id⟩

variable {map : VrbMap} {ue ue' : DlUe} {env : DlEnv} {pid : Nat} {s : SchedCtrl} {cfg : HarqConfig}
  {st : DlSched}

lemma planRetransmission_sameBlock {rbStart : Nat} {ret : NrSchedPdsch}
    (h : planRetransmission map ue env pid = some (some (rbStart, ret))) :
    SameBlock (ue.harqSched pid) ret := by
  rw [planRetransmission] at h
  simp only at h
  split at h
  · obtain ⟨r, -, heq⟩ := map_eq_some_iff.mp (Option.some.inj h)
    cases heq
    exact SameBlock.refl _
  · obtain ⟨ok, n, hfind, heq⟩ := kept_of_found h fun _ => rfl
    cases heq
    exact ⟨rfl, rfl, fun _ => (nrFindNbRb_spec hfind).1⟩

/-- The PUCCH allocation of a grant fits the process. -/
def FeedbackOk (ue : DlUe) (pid : Nat) (alloc : Int) : Prop :=
  alloc < 0 ↔ ue.feedbackDisabled pid = true

lemma pucchAllocation_ok {alloc : Int} (h : pucchAllocation ue env pid = some alloc) :
    FeedbackOk ue pid alloc := by
  rw [pucchAllocation] at h
  split at h
  next hdis =>
    cases h
    exact ⟨fun _ => hdis, fun _ => by decide⟩
  next hdis =>
    obtain ⟨i, -, rfl⟩ := map_eq_some_iff.mp h
    exact ⟨fun hneg => absurd hneg (by simp), fun htrue => absurd htrue hdis⟩

/-- What the turns of a UE in a slot leave in it. -/
inductive DlOutcome (ue ue' : DlUe) : Prop
  /-- nothing scheduled -/
  | nothing (blocks : ∀ q, SameBlock (ue.harqSched q) (ue'.harqSched q))
      (size : ue'.schedPdsch.rbSize = ue.schedPdsch.rbSize)
  /-- a retransmission of the first process that awaits one -/
  | again (head : 0 ≤ ue.retransHead)
      (blocks : ∀ q, SameBlock (ue.harqSched q) (ue'.harqSched q))
      (block : SameBlock (ue.harqSched ue.retransHead.toNat) ue'.schedPdsch)
      (feedback : FeedbackOk ue ue.retransHead.toNat ue'.schedPdsch.pucchAllocation)
  /-- a new transmission of the first free process -/
  | fresh (head : 0 ≤ ue.availableHead) (blocks : ue'.harqSched = ue.harqSched)
      (sized : ue'.schedPdsch.Sized) (pid : ue'.schedPdsch.dlHarqPid = ue.availableHead)
      (feedback : FeedbackOk ue ue.availableHead.toNat ue'.schedPdsch.pucchAllocation)

lemma allocateDlRetransmission_outcome {r : Option VrbMap} (head : 0 ≤ ue.retransHead)
    (h : allocateDlRetransmission map ue env ue.retransHead.toNat = some (ue', r)) :
    DlOutcome ue ue' := by
  rw [allocateDlRetransmission] at h
  split at h
  · cases h
  split at h
  · cases h
    exact .nothing (fun q => SameBlock.refl _) rfl
  obtain ⟨plan, hplan, h⟩ := map_eq_some_iff.mp h
  cases plan with
  | none =>
    cases h
    exact .nothing (fun q => SameBlock.refl _) rfl
  | some plan =>
    obtain ⟨rbStart, ret⟩ := plan
    have hblock := planRetransmission_sameBlock hplan
    have hblocks : ∀ q, SameBlock (ue.harqSched q)
        (Function.update ue.harqSched ue.retransHead.toNat ret q) := by
      intro q
      by_cases hq : q = ue.retransHead.toNat
      · rw [hq, update_self]
        exact hblock
      · rw [update_of_ne hq]
        exact SameBlock.refl _
    simp only at h
    split at h
    next cce alloc _ halloc =>
      cases h
      refine .again head hblocks { hblock with } ?_
      have hok : FeedbackOk ue ue.retransHead.toNat alloc := pucchAllocation_ok halloc
      exact hok
    · cases h
      exact .nothing hblocks rfl

lemma allocateDlTransmission_outcome {r : Option VrbMap} (head : 0 ≤ ue.availableHead)
    (h : allocateDlTransmission map ue env = some (ue', r)) : DlOutcome ue ue' := by
  rw [allocateDlTransmission] at h
  split at h
  · cases h
  split at h
  · cases h
  simp only at h
  split at h
  · cases h
    exact .nothing (fun q => SameBlock.refl _) rfl
  split at h
  next cce alloc _ halloc =>
    obtain ⟨⟨ok, tbs, n⟩, hfind, heq⟩ := map_eq_some_iff.mp h
    cases heq
    refine .fresh head rfl (nrFindNbRb_spec hfind).1 rfl ?_
    have hok : FeedbackOk ue ue.availableHead.toNat alloc := pucchAllocation_ok halloc
    exact hok
  · cases h
    exact .nothing (fun q => SameBlock.refl _) rfl

/-- The UE after both its turns: one that is put off has a turn in the second loop, when the slot is `t`
(`none`: not reached). -/
def Turn.finish {υ : Type} (second : Slot υ → υ → Option (Turn υ)) (t : Option (Slot υ)) :
    Turn υ → Option υ
  | .skip ue => some ue
  | .given ue _ _ => some ue
  | .later ue =>
    match t with
    | none => some ue
    | some t => (second t ue).map Turn.ue

lemma Turn.of_ue {υ : Type} (beam : Nat) (r : υ × Option VrbMap) : (Turn.of beam r).ue = r.1 := by
  obtain ⟨ue, map⟩ := r
  cases map with
  | none => rfl
  | some map => rfl

lemma Turn.finish_of {υ : Type} (second : Slot υ → υ → Option (Turn υ)) (t : Option (Slot υ))
    (beam : Nat) (r : υ × Option VrbMap) : (Turn.of beam r).finish second t = some r.1 := by
  obtain ⟨ue, map⟩ := r
  cases map with
  | none => rfl
  | some map => rfl

/-- `pf_dl` as one UE sees it: the slot is `s` at its turn in the first loop, `t` in the second. -/
def pfDlUe (numBeams : Nat) (s : Slot DlUe) (t : Option (Slot DlUe)) (ue : DlUe) : Option DlUe :=
  (dlFirstTurn numBeams s ue).bind (Turn.finish dlSecondTurn t)

lemma DlOutcome.of_prepared {sched : NrSchedPdsch} (hsize : sched.rbSize = ue.schedPdsch.rbSize)
    (h : DlOutcome { ue with schedPdsch := sched } ue') : DlOutcome ue ue' := by
  cases h with
  | nothing blocks size => exact .nothing blocks (size.trans hsize)
  | again head blocks block feedback => exact .again head blocks block feedback
  | fresh head blocks sized pid feedback => exact .fresh head blocks sized pid feedback

lemma DlOutcome.refl (ue : DlUe) : DlOutcome ue ue := .nothing (fun _ => SameBlock.refl _) rfl

lemma dlSecondTurn_outcome {s : Slot DlUe} {turn : Turn DlUe} (h : dlSecondTurn s ue = some turn) :
    DlOutcome ue turn.ue := by
  rw [dlSecondTurn] at h
  split at h
  · cases h; exact .refl ue
  next hhead =>
  split at h
  · cases h; exact .refl ue
  split at h
  · cases h; exact .refl ue
  · obtain ⟨r, hr, rfl⟩ := map_eq_some_iff.mp h
    rw [Turn.of_ue]
    exact allocateDlTransmission_outcome (Int.not_lt.mp hhead) hr

theorem pfDlUe_outcome {numBeams : Nat} {s : Slot DlUe} {t : Option (Slot DlUe)}
    (h : pfDlUe numBeams s t ue = some ue') : DlOutcome ue ue' := by
  obtain ⟨turn, hturn, h⟩ := bind_eq_some_iff.mp h
  rw [dlFirstTurn] at hturn
  split at hturn
  · cases hturn; cases h; exact .refl ue
  split at hturn
  · cases hturn; cases h; exact .refl ue
  simp only at hturn
  -- a UE that is skipped has a grant with another HARQ process, MCS or number of layers
  have hskip : ∀ {sched : NrSchedPdsch}, sched.rbSize = ue.schedPdsch.rbSize →
      DlOutcome ue { ue with schedPdsch := sched } := fun hsize =>
    .nothing (fun _ => SameBlock.refl _) hsize
  split at hturn
  · cases hturn; cases h; exact hskip rfl
  split at hturn
  next hhead =>
    split at hturn
    · cases hturn; cases h; exact hskip rfl
    next beam _ =>
      obtain ⟨r, hr, rfl⟩ := map_eq_some_iff.mp hturn
      cases (Turn.finish_of dlSecondTurn t beam r).symm.trans h
      have hout := allocateDlRetransmission_outcome (by exact hhead) hr
      exact .of_prepared (by rfl) hout
  · split at hturn
    · cases hturn; cases h; exact hskip rfl
    split at hturn
    · cases hturn; cases h; exact hskip rfl
    · cases hturn
      cases t with
      | none => cases h; exact hskip rfl
      | some t =>
        obtain ⟨turn, hsecond, rfl⟩ := map_eq_some_iff.mp h
        exact .of_prepared (by rfl) (dlSecondTurn_outcome hsecond)

/-! ## The downlink scheduler of one UE over time -/

/-- HARQ lists, the parameters saved for each process, the current grant, and what was sent. -/
structure DlSched where
  ctrl : SchedCtrl
  harqSched : Nat → NrSchedPdsch
  schedPdsch : NrSchedPdsch
  sent : Nat → List Sent

namespace DlSched

/-- The UE as `pf_dl` finds it: the HARQ state is this one, everything else is arbitrary. -/
def ueOf (cfg : HarqConfig) (st : DlSched) (ue : DlUe) : DlUe :=
  { ue with
    retransHead := st.ctrl.retransDlHarq.head
    availableHead := st.ctrl.availableDlHarq.head
    harqSched := st.harqSched
    schedPdsch := st.schedPdsch
    feedbackDisabled := cfg.feedbackDisabled }

/-- The transmission that is on record. -/
def record (st : DlSched) (ctrl : SchedCtrl) (pid : Nat) : Sent where
  ndi := (ctrl.harqProcesses pid).ndi
  Qm := st.schedPdsch.Qm
  R := st.schedPdsch.R
  rbSize := st.schedPdsch.rbSize
  nrOfSymbols := st.schedPdsch.tdaInfo.nrOfSymbols
  dmrs := st.schedPdsch.dmrsParms.nPrbDmrs * st.schedPdsch.dmrsParms.nDmrsSlot
  nrOfLayers := st.schedPdsch.nrOfLayers
  tbSize := st.schedPdsch.tbSize

/-- `nr_schedule_ue_spec` with the parameters it saves; `pucch` is what `sched_pucch` holds at the
index of the grant. -/
def nrScheduleUeSpec (cfg : HarqConfig) (st : DlSched) (pucch : SchedPucch) : Option DlSched :=
  let sched := st.schedPdsch
  if sched.rbSize = 0 then some st
  else
    match st.ctrl.takeProcess sched.dlHarqPid with
    | none => none
    | some (_, pid) =>
      (st.ctrl.nrScheduleUeSpec cfg
        ⟨sched.dlHarqPid, sched.rbSize, if sched.pucchAllocation < 0 then none else some pucch⟩).bind
      fun ctrl =>
        let sent := Function.update st.sent pid (st.sent pid ++ [st.record ctrl pid])
        if (ctrl.harqProcesses pid).round ≠ 0 then
          -- "mismatch between scheduled TBS and buffered TB"
          if (st.harqSched pid).tbSize ≠ sched.tbSize then none
          else some ⟨ctrl, st.harqSched, { sched with rbSize := 0 }, sent⟩
        else
          some ⟨ctrl, Function.update st.harqSched pid { sched with dlHarqPid := pid },
            { sched with dlHarqPid := pid, rbSize := 0 }, sent⟩

end DlSched

/-- A slot, or feedback. -/
inductive DlSchedOp
  /-- a slot: `pf_dl`, with any slots at the UE's turns and any conditions, then
      `nr_schedule_ue_spec` -/
  | slot (numBeams : Nat) (s : Slot DlUe) (t : Option (Slot DlUe)) (ue : DlUe) (pucch : SchedPucch)
  | uciPucch01 (frame slot : Nat) (hasHarq : Bool) (harqValues : List Nat) (harqConfidence : Nat)
  | uciPucch234 (frame slot : Nat) (hasCsiMeasConfig hasHarq : Bool) (harqBitLen : Nat)
      (harqPayload : List UInt8) (harqCrc : Nat)

/-- One step; `none` is a failed assertion. -/
def DlSched.step (cfg : HarqConfig) (st : DlSched) : DlSchedOp → Option DlSched
  | .slot numBeams s t ue pucch =>
    (pfDlUe numBeams s t (st.ueOf cfg ue)).bind fun ue =>
      ({ st with harqSched := ue.harqSched, schedPdsch := ue.schedPdsch } :
        DlSched).nrScheduleUeSpec cfg pucch
  | .uciPucch01 frame slot hasHarq values confidence =>
    (st.ctrl.handleNrUciPucch01 cfg frame slot hasHarq values confidence).map fun ctrl =>
      { st with ctrl := ctrl }
  | .uciPucch234 frame slot hasCsi hasHarq bitLen payload crc =>
    (st.ctrl.handleNrUciPucch234 cfg frame slot hasCsi hasHarq bitLen payload crc).map fun ctrl =>
      { st with ctrl := ctrl }

/-- Any steps, from lists just made and nothing sent. -/
def dlSchedMachine (cfg : HarqConfig) : Spec DlSched DlSchedOp where
  init st := (∃ n, 0 < n ∧ n ≤ nrMaxHarqProcesses ∧
      SchedCtrl.zero.createDlHarqList n = some st.ctrl) ∧
    st.schedPdsch.rbSize = 0 ∧ ∀ pid, st.sent pid = []
  guard _ _ := True
  step := DlSched.step cfg

/-! ## The invariant -/

/-- A block of the process is on its way: it waits for feedback, or for a later round. -/
def Harq.Active (h : Harq) : Prop := h.isWaiting = true ∨ h.round ≠ 0

/-- One process with what is saved for it, and what was sent of it. -/
structure ProcessOk (cfg : HarqConfig) (pid : Nat) (h : Harq) (saved : NrSchedPdsch)
    (sent : List Sent) : Prop where
  tracks : Tracks sent h.Active (cfg.feedbackDisabled pid) h.ndi saved.tbSize
  sized : h.Active → saved.Sized
  pid : h.Active → saved.dlHarqPid = pid

lemma ProcessOk.sameBlock {h : Harq} {g g' : NrSchedPdsch} {sent : List Sent}
    (hok : ProcessOk cfg pid h g sent) (hblock : SameBlock g g') : ProcessOk cfg pid h g' sent :=
  ⟨by rw [hblock.tbSize]; exact hok.tracks, fun ha => hblock.sized (hok.sized ha),
    fun ha => hblock.pid.trans (hok.pid ha)⟩

/-- The invariant of the downlink. -/
structure DlSchedOk (cfg : HarqConfig) (st : DlSched) : Prop where
  holds : ∃ n a f r, 0 < n ∧ Holds cfg st.ctrl n [] a f r
  unscheduled : st.schedPdsch.rbSize = 0
  processes : ∀ p, ProcessOk cfg p (st.ctrl.harqProcesses p) (st.harqSched p) (st.sent p)

/-! ## Feedback -/

lemma handleDlHarq_processes (cfg : HarqConfig) (s : SchedCtrl) (pid : Nat) (success : Bool) :
    (∀ q, q ≠ pid → (s.handleDlHarq cfg pid success).harqProcesses q = s.harqProcesses q) ∧
      (¬ ((s.handleDlHarq cfg pid success).harqProcesses pid).Active ∧
          ((s.handleDlHarq cfg pid success).harqProcesses pid).ndi =
            (s.harqProcesses pid).ndi ^^^ 1 ∨
        ((s.handleDlHarq cfg pid success).harqProcesses pid).Active ∧
          ((s.handleDlHarq cfg pid success).harqProcesses pid).ndi = (s.harqProcesses pid).ndi) := by
  have hmax := cfg.harqRoundMax_lt
  rw [SchedCtrl.handleDlHarq]
  split
  · refine ⟨fun q hq => ?_, .inl ?_⟩
    · simp [SchedCtrl.finishNrDlHarq, SchedCtrl.setHarq, hq]
    · simp [SchedCtrl.finishNrDlHarq, SchedCtrl.setHarq, Harq.Active]
  split
  · refine ⟨fun q hq => ?_, .inl ?_⟩
    · simp [SchedCtrl.abortNrDlHarq, SchedCtrl.finishNrDlHarq, SchedCtrl.setHarq, hq]
    · simp [SchedCtrl.abortNrDlHarq, SchedCtrl.finishNrDlHarq, SchedCtrl.setHarq, Harq.Active]
  next hround =>
    simp only [SchedCtrl.setHarq, update_self] at hround
    refine ⟨fun q hq => ?_, .inr ⟨.inr ?_, ?_⟩⟩
    · simp [SchedCtrl.setHarq, hq]
    · simp only [SchedCtrl.setHarq, update_self]
      omega
    · simp [SchedCtrl.setHarq]

lemma handleDlHarq_ok {saved : Nat → NrSchedPdsch} {sent : Nat → List Sent} (success : Bool)
    (hw : (s.harqProcesses pid).isWaiting = true)
    (hok : ∀ p, ProcessOk cfg p (s.harqProcesses p) (saved p) (sent p)) :
    ∀ p, ProcessOk cfg p ((s.handleDlHarq cfg pid success).harqProcesses p) (saved p) (sent p) := by
  obtain ⟨hother, hself⟩ := handleDlHarq_processes cfg s pid success
  intro p
  by_cases hp : p = pid
  · subst hp
    have hactive : (s.harqProcesses p).Active := .inl hw
    rcases hself with ⟨hidle, hndi⟩ | ⟨hact, hndi⟩
    · refine ⟨?_, fun ha => absurd ha hidle, fun ha => absurd ha hidle⟩
      rw [hndi]
      exact (hok p).tracks.finish hactive hidle
    · refine ⟨?_, fun _ => (hok p).sized hactive, fun _ => (hok p).pid hactive⟩
      rw [hndi]
      exact (hok p).tracks.retry hactive hact
  · rw [hother p hp]
    exact hok p

section Feedback

variable {cfg : HarqConfig} {n : Nat} {P : SchedCtrl → Prop}

section

variable (frame slot : Nat)
  (hP : ∀ s l pid success, (s.harqProcesses pid).isWaiting = true → P s →
    P (({ s with feedbackDlHarq := l } : SchedCtrl).handleDlHarq cfg pid success))
include frame slot hP

lemma findHarqLoop_keeps :
    ∀ {fuel : Nat} {s s' : SchedCtrl} {a f r : List Nat} {res : Option Nat},
      Holds cfg s n [] a f r → P s →
      SchedCtrl.findHarqLoop cfg frame slot fuel s = some (s', res) →
      P s' ∧ ∃ a' f' r', Holds cfg s' n [] a' f' r' ∧
        ∀ pid, res = some pid → ∃ rest, f' = pid :: rest := by
  intro fuel
  induction fuel with
  | zero =>
    intro s s' a f r res _ _ hrun
    cases hrun
  | succ fuel ih =>
    intro s s' a f r res h hp hrun
    rw [SchedCtrl.findHarqLoop] at hrun
    split at hrun
    · cases hrun
      exact ⟨hp, a, f, r, h, by simp⟩
    next hhead =>
      obtain ⟨rest, rfl⟩ := h.feedback.of_head (Int.not_lt.mp hhead)
      generalize s.feedbackDlHarq.head.toNat = pid at hrun h
      have hw : (s.harqProcesses pid).isWaiting = true :=
        (h.waiting pid not_mem_nil).mpr mem_cons_self
      simp only at hrun
      split at hrun
      · obtain ⟨l, hl, ⟨a', r', hh⟩, -⟩ := handled_head h false
        rw [hl] at hrun
        exact ih hh (hP s l pid false hw hp) hrun
      · split at hrun
        · cases hrun
          exact ⟨hp, a, _, r, h, by simp⟩
        · cases hrun
          refine ⟨hp, a, _, r, h, fun q hq => ?_⟩
          cases hq
          exact ⟨rest, rfl⟩

lemma harqBits_keeps :
    ∀ {bits : List Bool} {s s' : SchedCtrl} {a f r : List Nat}, Holds cfg s n [] a f r → P s →
      s.harqBits cfg frame slot bits = some s' →
      P s' ∧ ∃ a' f' r', Holds cfg s' n [] a' f' r' := by
  intro bits
  induction bits with
  | nil =>
    intro s s' a f r h hp hrun
    cases hrun
    exact ⟨hp, a, f, r, h⟩
  | cons success bits ih =>
    intro s s' a f r h hp hrun
    rw [SchedCtrl.harqBits] at hrun
    split at hrun
    · cases hrun
    next s₁ hfind =>
      cases hrun
      obtain ⟨hp₁, a', f', r', hh, -⟩ := findHarqLoop_keeps frame slot hP h hp hfind
      exact ⟨hp₁, a', f', r', hh⟩
    next s₁ pid hfind =>
      obtain ⟨hp₁, a', f', r', hh, hres⟩ := findHarqLoop_keeps frame slot hP h hp hfind
      obtain ⟨rest, rfl⟩ := hres pid rfl
      split at hrun
      next hw =>
        obtain ⟨l, hl, ⟨a₂, r₂, hh₂⟩, -⟩ := handled_head hh success
        rw [hl] at hrun
        exact ih hh₂ (hP s₁ l pid success hw hp₁) hrun
      · cases hrun

end

end Feedback

/-! ## A slot -/

lemma takeProcess_selected {s' : SchedCtrl} {wanted : Int} (hpos : 0 ≤ wanted)
    (h : s.takeProcess wanted = some (s', pid)) :
    pid = wanted.toNat ∧ s'.harqProcesses = s.harqProcesses := by
  rw [SchedCtrl.takeProcess, if_neg (Int.not_lt.mpr hpos)] at h
  split at h
  · obtain ⟨l, -, heq⟩ := map_eq_some_iff.mp h
    cases heq
    exact ⟨rfl, rfl⟩
  · obtain ⟨l, -, heq⟩ := map_eq_some_iff.mp h
    cases heq
    exact ⟨rfl, rfl⟩

lemma nrScheduleUeSpec_processes {s' : SchedCtrl} {sched : SchedPdsch}
    (hpos : 0 ≤ sched.dlHarqPid) (hsize : sched.rbSize ≠ 0)
    (h : s.nrScheduleUeSpec cfg sched = some s') :
    (∀ q, q ≠ sched.dlHarqPid.toNat → s'.harqProcesses q = s.harqProcesses q) ∧
      (s.harqProcesses sched.dlHarqPid.toNat).isWaiting = false ∧
      (sched.pucchAllocation = none ∧
          ¬ (s'.harqProcesses sched.dlHarqPid.toNat).Active ∧
          (s'.harqProcesses sched.dlHarqPid.toNat).ndi =
            (s.harqProcesses sched.dlHarqPid.toNat).ndi ^^^ 1 ∨
        sched.pucchAllocation ≠ none ∧
          (s'.harqProcesses sched.dlHarqPid.toNat).isWaiting = true ∧
          (s'.harqProcesses sched.dlHarqPid.toNat).round =
            (s.harqProcesses sched.dlHarqPid.toNat).round ∧
          (s'.harqProcesses sched.dlHarqPid.toNat).ndi =
            (s.harqProcesses sched.dlHarqPid.toNat).ndi) := by
  rw [SchedCtrl.nrScheduleUeSpec, if_neg hsize] at h
  split at h
  · cases h
  next s₁ pid htake =>
    obtain ⟨hpid, hsame⟩ := takeProcess_selected hpos htake
    rw [← hpid]
    split at h
    · cases h
    next hw =>
      simp only at h
      split at h
      · cases h
        rw [Bool.not_eq_true, hsame] at hw
        refine ⟨fun q hq => ?_, hw, ?_⟩
        · cases sched.pucchAllocation with
          | none =>
            simp [SchedCtrl.transmit, SchedCtrl.finishNrDlHarq, SchedCtrl.setHarq, hq, hsame]
          | some pucch =>
            simp [SchedCtrl.transmit, SchedCtrl.awaitFeedback, SchedCtrl.setHarq, hq, hsame]
        · cases sched.pucchAllocation with
          | none =>
            refine .inl ⟨rfl, ?_⟩
            simp [SchedCtrl.transmit, SchedCtrl.finishNrDlHarq, SchedCtrl.setHarq, hsame,
              Harq.Active, hw]
          | some pucch =>
            refine .inr ⟨by simp, ?_⟩
            simp [SchedCtrl.transmit, SchedCtrl.awaitFeedback, SchedCtrl.setHarq, hsame]
      · cases h

/-- A grant of `pf_dl`, seen from its process. -/
inductive DlGrant (cfg : HarqConfig) (st : DlSched) : Prop
  | again (active : (st.ctrl.harqProcesses st.schedPdsch.dlHarqPid.toNat).round ≠ 0)
      (tbSize : st.schedPdsch.tbSize = (st.harqSched st.schedPdsch.dlHarqPid.toNat).tbSize)
  | fresh (idle : (st.ctrl.harqProcesses st.schedPdsch.dlHarqPid.toNat).round = 0)

theorem nrScheduleUeSpec_ok {st' : DlSched} {pucch : SchedPucch}
    (h : st.nrScheduleUeSpec cfg pucch = some st')
    (hholds : ∃ n a f r, 0 < n ∧ Holds cfg st.ctrl n [] a f r)
    (hok : ∀ p, ProcessOk cfg p (st.ctrl.harqProcesses p) (st.harqSched p) (st.sent p))
    (hpos : 0 ≤ st.schedPdsch.dlHarqPid) (hsized : st.schedPdsch.Sized)
    (hfeedback : st.schedPdsch.pucchAllocation < 0 ↔
      cfg.feedbackDisabled st.schedPdsch.dlHarqPid.toNat = true) (hgrant : DlGrant cfg st) :
    DlSchedOk cfg st' := by
  rw [DlSched.nrScheduleUeSpec] at h
  split at h
  next hzero =>
    cases h
    exact ⟨hholds, hzero, hok⟩
  next hsize =>
  split at h
  · cases h
  next s₁ pid htake =>
    obtain ⟨hpid, -⟩ := takeProcess_selected hpos htake
    obtain ⟨ctrl, hctrl, h⟩ := bind_eq_some_iff.mp h
    obtain ⟨n, a, f, r, hn, hh⟩ := hholds
    obtain ⟨hholds', -⟩ := nrScheduleUeSpec_kept hh hn hctrl
    obtain ⟨hother, hw, hself⟩ := nrScheduleUeSpec_processes hpos hsize hctrl
    rw [← hpid] at hself hother hw hfeedback
    have hy : (st.record ctrl pid).Sized := hsized
    have hnew : ∀ (saved : Nat → NrSchedPdsch), (∀ q, q ≠ pid → saved q = st.harqSched q) →
        ProcessOk cfg pid (ctrl.harqProcesses pid) (saved pid)
          (st.sent pid ++ [st.record ctrl pid]) →
        ∀ p, ProcessOk cfg p (ctrl.harqProcesses p) (saved p)
          (Function.update st.sent pid (st.sent pid ++ [st.record ctrl pid]) p) := by
      intro saved hsaved hpok p
      by_cases hp : p = pid
      · subst hp
        rw [update_self]
        exact hpok
      · rw [update_of_ne hp, hother p hp, hsaved p hp]
        exact hok p
    cases hgrant with
    | again active tbSize =>
      rw [← hpid] at active tbSize
      have hact : (st.ctrl.harqProcesses pid).Active := .inr active
      have henabled := ((hok pid).tracks.started hact).1
      rcases hself with ⟨hnone, -⟩ | ⟨-, hwait, hround, hndi⟩
      · split at hnone
        next hneg => rw [hfeedback.mp hneg] at henabled; cases henabled
        · cases hnone
      · rw [if_pos (by rw [hround]; exact active)] at h
        split at h
        · cases h
        cases h
        refine ⟨hholds', rfl, hnew st.harqSched (fun _ _ => rfl) ⟨?_, ?_, ?_⟩⟩
        · rw [hndi]
          exact (hok pid).tracks.again hact hy hndi tbSize (.inl hwait)
        · exact fun _ => (hok pid).sized hact
        · exact fun _ => (hok pid).pid hact
    | fresh idle =>
      rw [← hpid] at idle
      have hidle : ¬ (st.ctrl.harqProcesses pid).Active := by
        rintro (hwait | hround)
        · rw [hw] at hwait; cases hwait
        · exact hround idle
      rcases hself with ⟨hnone, hidle', hndi⟩ | ⟨hsome, hwait, hround, hndi⟩
      · have hblind : cfg.feedbackDisabled pid = true := by
          split at hnone
          next hneg => exact hfeedback.mp hneg
          · cases hnone
        rw [if_neg (by
          intro hne
          exact hidle' (.inr hne))] at h
        cases h
        refine ⟨hholds', rfl, hnew _ (fun q hq => update_of_ne hq _ _) ⟨?_, ?_, ?_⟩⟩
        · rw [hndi]
          exact (hok pid).tracks.freshBlind hidle hblind hy hndi hidle' _
        · exact fun ha => absurd ha hidle'
        · exact fun ha => absurd ha hidle'
      · have henabled : cfg.feedbackDisabled pid = false := by
          rw [Bool.eq_false_iff]
          intro htrue
          exact hsome (if_pos (hfeedback.mpr htrue))
        rw [if_neg (by rw [hround, idle]; decide)] at h
        cases h
        refine ⟨hholds', rfl, hnew _ (fun q hq => update_of_ne hq _ _) ⟨?_, ?_, ?_⟩⟩
        · simp only [update_self, hndi]
          exact (hok pid).tracks.fresh hidle henabled hy hndi (.inl hwait)
        · simp only [update_self]
          exact fun _ => hsized
        · intro _
          simp

/-- Every step of the downlink scheduler keeps its invariant. -/
theorem dlSched_step {st' : DlSched} {op : DlSchedOp} (hok : DlSchedOk cfg st)
    (h : st.step cfg op = some st') : DlSchedOk cfg st' := by
  obtain ⟨n, a, f, r, hn, hh⟩ := hok.holds
  have hfeedback : ∀ (s : SchedCtrl) l pid success, (s.harqProcesses pid).isWaiting = true →
      (∀ p, ProcessOk cfg p (s.harqProcesses p) (st.harqSched p) (st.sent p)) →
      ∀ p, ProcessOk cfg p ((({ s with feedbackDlHarq := l } : SchedCtrl).handleDlHarq cfg pid
        success).harqProcesses p) (st.harqSched p) (st.sent p) :=
    fun s l pid success hw hs => handleDlHarq_ok success hw hs
  have hbits : ∀ {frame slot : Nat} {bits : List Bool} {ctrl : SchedCtrl},
      st.ctrl.harqBits cfg frame slot bits = some ctrl → DlSchedOk cfg { st with ctrl := ctrl } := by
    intro frame slot bits ctrl hrun
    obtain ⟨hp, a', f', r', hh'⟩ := harqBits_keeps frame slot hfeedback hh hok.processes hrun
    exact ⟨⟨n, a', f', r', hn, hh'⟩, hok.unscheduled, hp⟩
  cases op with
  | slot numBeams s t ue pucch =>
    obtain ⟨ue', hue, h⟩ := bind_eq_some_iff.mp h
    cases pfDlUe_outcome hue with
    | nothing blocks size =>
      have hzero : ue'.schedPdsch.rbSize = 0 := size.trans hok.unscheduled
      rw [DlSched.nrScheduleUeSpec, if_pos hzero] at h
      cases h
      exact ⟨hok.holds, hzero, fun p => (hok.processes p).sameBlock (blocks p)⟩
    | again head blocks block feedback =>
      obtain ⟨rest, rfl⟩ := hh.retrans.of_head head
      have hround := (hh.rounds _ mem_cons_self).1
      have hactive : (st.ctrl.harqProcesses st.ctrl.retransDlHarq.head.toNat).Active :=
        .inr (Nat.ne_of_gt hround)
      have hpid : ue'.schedPdsch.dlHarqPid = st.ctrl.retransDlHarq.head.toNat :=
        block.pid.trans ((hok.processes _).pid hactive)
      have htoNat : ue'.schedPdsch.dlHarqPid.toNat = st.ctrl.retransDlHarq.head.toNat := by
        rw [hpid, Int.toNat_natCast]
      refine nrScheduleUeSpec_ok h hok.holds (fun p => (hok.processes p).sameBlock (blocks p))
        (by rw [hpid]; exact Int.natCast_nonneg _) (block.sized ((hok.processes _).sized hactive)) ?_
        (.again ?_ ?_)
      · rw [htoNat]
        exact feedback
      · rw [htoNat]
        exact Nat.ne_of_gt hround
      · rw [htoNat]
        exact block.tbSize.trans (blocks _).tbSize.symm
    | fresh head blocks sized pid feedback =>
      obtain ⟨rest, rfl⟩ := hh.available.of_head head
      have hidle := hh.fresh _ mem_cons_self
      have hpid : ue'.schedPdsch.dlHarqPid = st.ctrl.availableDlHarq.head := pid
      refine nrScheduleUeSpec_ok h hok.holds ?_ (by rw [hpid]; exact head) sized ?_ (.fresh ?_)
      · intro p
        rw [blocks]
        exact hok.processes p
      · rw [hpid]
        exact feedback
      · rw [hpid]
        exact hidle
  | uciPucch01 frame slot hasHarq values confidence =>
    obtain ⟨ctrl, hctrl, rfl⟩ := map_eq_some_iff.mp h
    rw [SchedCtrl.handleNrUciPucch01] at hctrl
    split at hctrl
    · exact hbits hctrl
    · cases hctrl
      exact hok
  | uciPucch234 frame slot hasCsi hasHarq bitLen payload crc =>
    obtain ⟨ctrl, hctrl, rfl⟩ := map_eq_some_iff.mp h
    rw [SchedCtrl.handleNrUciPucch234] at hctrl
    split at hctrl
    · exact hbits hctrl
    · cases hctrl
      exact hok

theorem dlSched_reach (h : Reach (dlSchedMachine cfg) st) : DlSchedOk cfg st := by
  refine h.invariant ?_ fun s op s' _ hok _ hstep => dlSched_step hok hstep
  rintro st ⟨⟨n, hn, hcap, hcreate⟩, hzero, hsent⟩
  refine ⟨⟨n, _, _, _, hn, createDlHarqList_zero hcap hcreate⟩, hzero, fun p => ?_⟩
  have hidle : ¬ (st.ctrl.harqProcesses p).Active := by
    rw [← Option.some.inj hcreate]
    rintro (hw | hround)
    · cases hw
    · exact hround rfl
  rw [hsent p]
  exact ⟨Tracks.nil hidle, fun ha => absurd ha hidle, fun ha => absurd ha hidle⟩

end NrStack.Mac
