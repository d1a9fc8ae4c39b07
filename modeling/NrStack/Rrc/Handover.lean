/-
  The F1 handover, as the CU sees it.

  STATE     RNTI, DU UE id and DU association of the UE, and the handover context with the same three
            numbers for the source and, once it has answered, the target.
  SPEC      `Sound`: the three numbers name ONE context; the handover context is freed only when the
            other context has been sent its one release command; a third DU does not matter.

  A handover is to end by the reconfiguration complete, a release request of the source or its loss AFTER
  the switch; by a loss of the target BEFORE it; by a reestablishment in the source cell at any time.  In
  every other way one of the two contexts is forgotten.  After a loss of the source the target's answer finds
  no DU, and the CU aborts.
-/
import NrStack.Lib.Machine

namespace NrStack.Rrc

open List Option

/-! ## What the CU stores -/

/-- A context of the UE at a DU: association, DU UE id and RNTI. -/
structure DuContext where
  assocId : Nat
  duUeId : Nat
  rnti : Nat
  deriving DecidableEq, Repr

/-- `nr_handover_context_t` of an F1 handover; the target's ids are 0 until it has answered. -/
structure HoContext where
  source : DuContext
  target : DuContext
  deriving DecidableEq, Repr

/-- `gNB_RRC_UE_t` and `f1_ue_data_t`, as far as a handover goes. -/
structure HoUe where
  rnti : Nat
  secondaryUe : Nat
  duAssocId : Nat
  asSecurityActive : Bool
  hoContext : Option HoContext
  deriving DecidableEq, Repr

/-- `f1ap_ue_context_release_cmd_t`: the association it goes to and the DU UE id. -/
abbrev ReleaseCmd := Nat × Nat

/-- `RETURN_IF_INVALID_ASSOC_ID`: nothing is sent to association 0. -/
def releaseCommandTo (c : DuContext) : List ReleaseCmd :=
  if c.assocId = 0 then [] else [(c.assocId, c.duUeId)]

/-- `nr_rrc_finalize_ho` -/
def nrRrcFinalizeHo (ue : HoUe) : HoUe := { ue with hoContext := none }

/-- `rrc_CU_process_ue_context_setup_response`, with the DUs that are connected.  In a handover or not, the
CU encodes an RRCReconfiguration, and `DevAssert(du != NULL)` wants the stored DU among them. -/
def contextSetupResponse (ue : HoUe) (dus : List Nat) (duUeId crnti : Nat) : Option HoUe :=
  if ue.duAssocId ∉ dus then none
  else some { ue with hoContext := ue.hoContext.map fun ho =>
    { ho with target := { ho.target with duUeId := duUeId, rnti := crnti } } }

/-- `rrc_CU_process_ue_context_modification_response`: with a cell group the same encoding, then the
switch, with its assertion. -/
def contextModificationResponse (ue : HoUe) (dus : List Nat) (cellGroup : Bool) : Option HoUe :=
  if cellGroup ∧ ue.duAssocId ∉ dus then none
  else match ue.hoContext with
  | none => some ue
  | some ho =>
    if ho.source.rnti ≠ ue.rnti then none
    else some { ue with
      secondaryUe := ho.target.duUeId
      duAssocId := ho.target.assocId
      rnti := ho.target.rnti }

/-- `handle_rrcReconfigurationComplete` with `nr_rrc_f1_ho_complete`. -/
def hoReconfigurationComplete (ue : HoUe) : HoUe × List ReleaseCmd :=
  match ue.hoContext with
  | none => (ue, [])
  | some ho => (nrRrcFinalizeHo ue, releaseCommandTo ho.source)

/-- The UE is found by the RNTI it names: at the DU of the request, or as coming from the cell it
names. -/
def foundByRnti (ue : HoUe) (assocId cell cRnti : Nat) : Bool :=
  (ue.duAssocId == assocId && ue.rnti == cRnti) ||
    ue.hoContext.any fun ho => ho.source.rnti == cRnti && ho.source.assocId == cell

/-- `rrc_handle_RRCReestablishmentRequest` from DU `assocId` with the cell of DU `cell`: the UE, the
release commands, and whether it is reestablished.  `prepared`: the RNTI is in range and MIB, SIB1 and
measurement timing are known; else a new UE is set up. -/
def reestablishmentRequest (ue : HoUe) (prepared : Bool) (assocId cell cRnti crnti duUeId : Nat) :
    HoUe × List ReleaseCmd × Bool :=
  if !prepared || !foundByRnti ue assocId cell cRnti then (ue, [], false)
  else
    let onSource := ue.hoContext.filter fun ho => ho.source.assocId == cell
    match onSource with
    | none =>
      if cell ≠ assocId ∨ !ue.asSecurityActive then (ue, [], false)
      else ({ ue with rnti := crnti, secondaryUe := duUeId }, [], true)
    | some ho =>
      -- `nr_rrc_cancel_f1_ho` does not look at the association
      let cmd := [(ho.target.assocId, ho.target.duUeId)]
      let ue := nrRrcFinalizeHo { ue with duAssocId := ho.source.assocId }
      if !ue.asSecurityActive then (ue, cmd, false)
      else ({ ue with rnti := crnti, secondaryUe := duUeId }, cmd, true)

/-- `rrc_CU_process_ue_context_release_request` from DU `assocId`. -/
def contextReleaseRequest (ue : HoUe) (assocId : Nat) : HoUe × List ReleaseCmd :=
  match ue.hoContext with
  | none => (ue, [])
  | some ho =>
    if ho.source.assocId = assocId then
      if assocId = 0 then (ue, []) else (nrRrcFinalizeHo ue, [(assocId, ho.source.duUeId)])
    else (nrRrcFinalizeHo ue, [])

/-- `invalidate_du_connections`, for this UE. -/
def invalidateDuConnection (ue : HoUe) (assocId : Nat) : HoUe :=
  let ue := nrRrcFinalizeHo ue
  if ue.duAssocId = assocId then { ue with duAssocId := 0 } else ue

variable {ue : HoUe}

lemma invalidateDuConnection_stored {a : Nat} (hassoc : ue.duAssocId = a) :
    invalidateDuConnection ue a = { ue with duAssocId := 0, hoContext := none } :=
  if_pos hassoc

lemma invalidateDuConnection_other {a : Nat} (hassoc : ue.duAssocId ≠ a) :
    invalidateDuConnection ue a = nrRrcFinalizeHo ue :=
  if_neg hassoc

lemma invalidateDuConnection_hoContext (ue : HoUe) (a : Nat) :
    (invalidateDuConnection ue a).hoContext = none := by
  by_cases hassoc : ue.duAssocId = a
  · rw [invalidateDuConnection_stored hassoc]
  · rw [invalidateDuConnection_other hassoc]
    rfl

lemma reestablishmentRequest_idle (hidle : ue.hoContext = none) (prepared : Bool)
    (a cRnti crnti duUeId : Nat) :
    reestablishmentRequest ue prepared a a cRnti crnti duUeId =
      if prepared ∧ ue.duAssocId = a ∧ ue.rnti = cRnti ∧ ue.asSecurityActive then
        ({ ue with rnti := crnti, secondaryUe := duUeId }, [], true)
      else (ue, [], false) := by
  unfold reestablishmentRequest foundByRnti
  rw [hidle]
  cases prepared <;> cases hsec : ue.asSecurityActive <;> simp
  split_ifs <;> grind

/-! ## The handover and its surroundings -/

/-- The UE, the connected DUs, the release commands sent, and what has really been set up. -/
structure Handover where
  ue : HoUe
  dus : List Nat
  sent : List ReleaseCmd
  targetDu : Nat
  source : DuContext
  target : Option DuContext
  deriving DecidableEq, Repr

/-- What can happen to a UE during a handover. -/
inductive HoEvent where
  | setupResponse (duUeId crnti : Nat)
  | modificationResponse (cellGroup : Bool)
  | reconfigurationComplete
  | reestablishment (prepared : Bool) (cRnti crnti duUeId : Nat)
  | releaseRequest (assocId : Nat)
  | duLost (assocId : Nat)
  deriving DecidableEq, Repr

/-- The one answer of the target DU, a modification response of the source DU, a request in the source
cell, a release request of either, the loss of any DU. -/
def Handover.Possible (h : Handover) : HoEvent → Prop
  | .setupResponse _ _ => h.target = none ∧ h.targetDu ∈ h.dus
  | .modificationResponse _ => h.source.assocId ∈ h.dus
  | .reconfigurationComplete => True
  | .reestablishment _ _ _ _ => h.source.assocId ∈ h.dus
  | .releaseRequest assocId => (assocId = h.source.assocId ∨ assocId = h.targetDu) ∧ assocId ∈ h.dus
  | .duLost assocId => assocId ∈ h.dus

/-- One event; `none`: the CU aborts. -/
def Handover.step (h : Handover) : HoEvent → Option Handover
  | .setupResponse duUeId crnti =>
    (contextSetupResponse h.ue h.dus duUeId crnti).map fun ue =>
      { h with ue := ue, target := some ⟨h.targetDu, duUeId, crnti⟩ }
  | .modificationResponse cellGroup =>
    (contextModificationResponse h.ue h.dus cellGroup).map fun ue => { h with ue := ue }
  | .reconfigurationComplete =>
    let r := hoReconfigurationComplete h.ue
    some { h with ue := r.1, sent := h.sent ++ r.2 }
  | .reestablishment prepared cRnti crnti duUeId =>
    let r := reestablishmentRequest h.ue prepared h.source.assocId h.source.assocId cRnti crnti duUeId
    some { h with
      ue := r.1
      sent := h.sent ++ r.2.1
      source := if r.2.2 then ⟨h.source.assocId, duUeId, crnti⟩ else h.source }
  | .releaseRequest assocId =>
    let r := contextReleaseRequest h.ue assocId
    some { h with ue := r.1, sent := h.sent ++ r.2 }
  | .duLost assocId =>
    some { h with
      ue := invalidateDuConnection h.ue assocId
      dus := h.dus.filter (· ≠ assocId) }

/-- The stored numbers are those of the context; the association is 0 if its DU is lost. -/
def Handover.Stored (h : Handover) (c : DuContext) : Prop :=
  h.ue.rnti = c.rnti ∧ h.ue.secondaryUe = c.duUeId ∧
    (h.ue.duAssocId = c.assocId ∨ h.ue.duAssocId = 0 ∧ c.assocId ∉ h.dus)

/-- They name the source context or the target context. -/
def Handover.Identified (h : Handover) : Prop :=
  h.Stored h.source ∨ ∃ t, h.target = some t ∧ h.Stored t

/-- Every context at a connected DU other than the stored one has been sent one release command. -/
def Handover.Released (h : Handover) : Prop :=
  ∀ c, (c = h.source ∨ h.target = some c) → c.assocId ∈ h.dus → c.assocId ≠ h.ue.duAssocId →
    h.sent.count (c.assocId, c.duUeId) = 1

/-- **What an event is to leave.** -/
def Sound (h : Handover) (e : HoEvent) : Prop :=
  ∃ h', h.step e = some h' ∧ h'.Identified ∧
    (h.ue.hoContext.isSome → h'.ue.hoContext = none → h'.Released) ∧
    ∀ assocId, e = .duLost assocId → assocId ≠ h.source.assocId → assocId ≠ h.targetDu →
      h'.ue.hoContext = h.ue.hoContext

/-- The target DU is the stored one. -/
def Handover.Switched (h : Handover) : Prop := h.ue.duAssocId = h.targetDu

/-- When an event comes at its time, in an ongoing handover. -/
def Handover.Timely (h : Handover) : HoEvent → Prop
  | .setupResponse _ _ => True
  | .modificationResponse _ => h.target.isSome ∧ h.ue.rnti = h.source.rnti
  | .reconfigurationComplete => h.Switched ∨ h.target = none
  | .reestablishment prepared cRnti _ _ =>
    prepared → cRnti = h.source.rnti → h.ue.asSecurityActive = false →
      h.ue.rnti = h.source.rnti ∧ h.ue.secondaryUe = h.source.duUeId
  | .releaseRequest assocId =>
    if assocId = h.source.assocId then h.Switched ∨ h.target = none else h.target = none
  | .duLost assocId =>
    if assocId = h.source.assocId then h.Switched ∨ h.target = none
    else assocId = h.targetDu ∧ ¬h.Switched

/-- The stored DU is connected, for an event that makes the CU encode an RRCReconfiguration. -/
def Handover.HasDu (h : Handover) : HoEvent → Prop
  | .setupResponse _ _ => h.ue.duAssocId ∈ h.dus
  | .modificationResponse cellGroup => cellGroup → h.ue.duAssocId ∈ h.dus
  | .reconfigurationComplete | .reestablishment _ _ _ _ | .releaseRequest _ | .duLost _ => True

/-- **The condition on an event**, in the state before it; without a handover only the first half. -/
def EventOk (h : Handover) (e : HoEvent) : Prop := h.HasDu e ∧ (h.ue.hoContext.isSome → h.Timely e)

instance (h : Handover) (e : HoEvent) : Decidable (h.Possible e) := by
  cases e <;> unfold Handover.Possible <;> infer_instance

instance (h : Handover) : Decidable h.Switched :=
  inferInstanceAs (Decidable (_ = _))

instance (h : Handover) (e : HoEvent) : Decidable (h.Timely e) := by
  cases e <;> unfold Handover.Timely <;> infer_instance

instance (h : Handover) (e : HoEvent) : Decidable (h.HasDu e) := by
  cases e <;> unfold Handover.HasDu <;> infer_instance

instance (h : Handover) (e : HoEvent) : Decidable (EventOk h e) :=
  inferInstanceAs (Decidable (_ ∧ (_ → _)))

/-! ## The invariant -/

/-- What is known while the handover goes on. -/
structure Ongoing (h : Handover) (ho : HoContext) : Prop where
  source : ho.source = h.source
  targetDu : ho.target.assocId = h.targetDu
  known : ∀ t, h.target = some t → t = ho.target
  sourceUp : h.source.assocId ∈ h.dus
  targetUp : h.targetDu ∈ h.dus
  quiet : h.sent = []
  stored : (h.ue.rnti = h.source.rnti ∧ h.ue.secondaryUe = h.source.duUeId ∧
      h.ue.duAssocId = h.source.assocId) ∨
    (h.target.isSome ∧ h.ue.rnti = ho.target.rnti ∧ h.ue.secondaryUe = ho.target.duUeId ∧ h.Switched)

/-- **The invariant.** -/
structure HoInv (h : Handover) : Prop where
  zero : 0 ∉ h.dus
  distinct : h.source.assocId ≠ h.targetDu
  answered : ∀ t, h.target = some t → t.assocId = h.targetDu
  identified : h.Identified
  ongoing : ∀ ho, h.ue.hoContext = some ho → Ongoing h ho

/-! ## The invariant, used -/

section Facts

variable {h : Handover} {ho : HoContext}

lemma Ongoing.source_ne_zero (o : Ongoing h ho) (hinv : HoInv h) : h.source.assocId ≠ 0 :=
  fun hz => hinv.zero (hz ▸ o.sourceUp)

lemma Ongoing.target_ne_zero (o : Ongoing h ho) (hinv : HoInv h) : h.targetDu ≠ 0 :=
  fun hz => hinv.zero (hz ▸ o.targetUp)

lemma Ongoing.at_source (o : Ongoing h ho) (hnot : ¬h.Switched) :
    h.ue.rnti = h.source.rnti ∧ h.ue.secondaryUe = h.source.duUeId ∧
      h.ue.duAssocId = h.source.assocId :=
  o.stored.resolve_right fun hs => hnot hs.2.2.2

lemma Ongoing.not_switched (o : Ongoing h ho) (hinv : HoInv h) (hnone : h.target = none) : ¬h.Switched := by
  intro hs
  rcases o.stored with ⟨-, -, hassoc⟩ | ⟨hsome, -⟩
  · exact hinv.distinct (hassoc.symm.trans hs)
  · rw [hnone] at hsome
    cases hsome

lemma Ongoing.stored_up (o : Ongoing h ho) : h.ue.duAssocId ∈ h.dus := by
  rcases o.stored with ⟨-, -, hassoc⟩ | ⟨-, -, -, hassoc⟩
  · rw [hassoc]
    exact o.sourceUp
  · rw [hassoc]
    exact o.targetUp

lemma Ongoing.hasDu (o : Ongoing h ho) (e : HoEvent) : h.HasDu e := by
  cases e with
  | setupResponse => exact o.stored_up
  | modificationResponse => exact fun _ => o.stored_up
  | reconfigurationComplete | reestablishment | releaseRequest | duLost => trivial

variable {h' : Handover}

section

variable (o : Ongoing h ho) (hinv : HoInv h) (hsource : h'.source = h.source)
  (htarget : h'.target = h.target) (hdus : h'.dus = h.dus)
  (hassoc : h'.ue.duAssocId = h.ue.duAssocId)
include o hinv hsource htarget hdus hassoc

theorem Ongoing.released_source_iff (hsent : h'.sent = [(h.source.assocId, h.source.duUeId)]) :
    h'.Released ↔ h.Switched ∨ h.target = none := by
  unfold Handover.Released
  rw [hsource, htarget, hdus, hassoc, hsent]
  constructor
  · intro hall
    by_contra hneither
    rw [not_or] at hneither
    obtain ⟨hnot, hsome⟩ := hneither
    obtain ⟨t, ht⟩ := ne_none_iff_exists'.mp hsome
    have hdu := hinv.answered t ht
    have hone := hall t (.inr ht) (by rw [hdu]; exact o.targetUp)
      (by rw [hdu, (o.at_source hnot).2.2]; exact hinv.distinct.symm)
    rw [count_singleton, if_neg] at hone
    · cases hone
    · rw [beq_iff_eq, Prod.mk.injEq, hdu]
      exact fun heq => hinv.distinct heq.1
  · rintro (hs | hnone) c (rfl | hc) hup hne
    · rw [count_singleton, if_pos (beq_self_eq_true _)]
    · rw [hinv.answered c hc] at hne
      exact absurd hs.symm hne
    · exact absurd (o.at_source (o.not_switched hinv hnone)).2.2.symm hne
    · exact nomatch hnone.symm.trans hc

theorem Ongoing.released_nothing_iff (hsent : h'.sent = []) :
    h'.Released ↔ h.target = none := by
  unfold Handover.Released
  rw [hsource, htarget, hdus, hassoc, hsent]
  constructor
  · intro hall
    by_contra hsome
    obtain ⟨t, ht⟩ := ne_none_iff_exists'.mp hsome
    have hdu := hinv.answered t ht
    by_cases hs : h.Switched
    · exact nomatch hall h.source (.inl rfl) o.sourceUp (by rw [hs]; exact hinv.distinct)
    · exact nomatch hall t (.inr ht) (by rw [hdu]; exact o.targetUp)
        (by rw [hdu, (o.at_source hs).2.2]; exact hinv.distinct.symm)
  · rintro hnone c (rfl | hc) hup hne
    · exact absurd (o.at_source (o.not_switched hinv hnone)).2.2.symm hne
    · exact nomatch hnone.symm.trans hc

end

lemma Handover.Identified.congr (hi : h.Identified) (hsource : h'.source = h.source)
    (htarget : h'.target = h.target) (hdus : ∀ a, a ∉ h.dus → a ∉ h'.dus)
    (hrnti : h'.ue.rnti = h.ue.rnti) (hid : h'.ue.secondaryUe = h.ue.secondaryUe)
    (hassoc : h'.ue.duAssocId = h.ue.duAssocId) : h'.Identified := by
  have hstored : ∀ c, h.Stored c → h'.Stored c := fun c hc => by
    unfold Handover.Stored at hc ⊢
    rw [hrnti, hid, hassoc]
    exact ⟨hc.1, hc.2.1, hc.2.2.imp_right fun hlost => ⟨hlost.1, hdus _ hlost.2⟩⟩
  unfold Handover.Identified
  rw [hsource, htarget]
  exact hi.imp (hstored _) fun ⟨t, ht, hst⟩ => ⟨t, ht, hstored t hst⟩

lemma Handover.Identified.lost (hi : h.Identified) (hzero : 0 ∉ h.dus) {a : Nat} (ha : a ∈ h.dus)
    (hsource : h'.source = h.source) (htarget : h'.target = h.target)
    (hdus : h'.dus = h.dus.filter (· ≠ a)) (hue : h'.ue = invalidateDuConnection h.ue a) :
    h'.Identified := by
  by_cases hassoc : h.ue.duAssocId = a
  · have hnum : h'.ue.rnti = h.ue.rnti ∧ h'.ue.secondaryUe = h.ue.secondaryUe ∧ h'.ue.duAssocId = 0 := by
      rw [hue, invalidateDuConnection_stored hassoc]
      exact ⟨rfl, rfl, rfl⟩
    have hstored : ∀ c, h.Stored c → h'.Stored c := fun c hc => by
      have hat : c.assocId = a := by
        rcases hc.2.2 with heq | ⟨hz, -⟩
        · exact heq.symm.trans hassoc
        · exact absurd (hassoc.symm.trans hz ▸ ha) hzero
      refine ⟨hnum.1.trans hc.1, hnum.2.1.trans hc.2.1, .inr ⟨hnum.2.2, ?_⟩⟩
      rw [hdus, hat]
      exact fun hmem => of_decide_eq_true (mem_filter.mp hmem).2 rfl
    unfold Handover.Identified
    rw [hsource, htarget]
    exact hi.imp (hstored _) fun ⟨t, ht, hst⟩ => ⟨t, ht, hstored t hst⟩
  · have hsame : h'.ue = nrRrcFinalizeHo h.ue := hue.trans (invalidateDuConnection_other hassoc)
    refine hi.congr hsource htarget (fun b hb hmem => ?_) ?_ ?_ ?_
    · rw [hdus] at hmem
      exact hb (mem_filter.mp hmem).1
    all_goals rw [hsame]; rfl

lemma Ongoing.foundByRnti_iff (o : Ongoing h ho) (hinv : HoInv h) (hho : h.ue.hoContext = some ho)
    (cRnti : Nat) :
    foundByRnti h.ue h.source.assocId h.source.assocId cRnti = true ↔ cRnti = h.source.rnti := by
  unfold foundByRnti
  rw [hho, any_some, o.source, Bool.or_eq_true, Bool.and_eq_true, Bool.and_eq_true, beq_iff_eq,
    beq_iff_eq, beq_iff_eq]
  constructor
  · rintro (⟨hassoc, hrnti⟩ | ⟨hrnti, -⟩)
    · have hnot : ¬h.Switched := fun hs => hinv.distinct (hassoc.symm.trans hs)
      rw [← hrnti, (o.at_source hnot).1]
    · exact hrnti.symm
  · exact fun heq => .inr ⟨heq.symm, beq_self_eq_true _⟩

end Facts

/-! ## One event

  The handlers are functions: soundness is about the one state that follows. -/

lemma sound_iff_of_step {h h' : Handover} {e : HoEvent} (hstep : h.step e = some h') :
    Sound h e ↔ h'.Identified ∧ (h.ue.hoContext.isSome → h'.ue.hoContext = none → h'.Released) ∧
      ∀ assocId, e = .duLost assocId → assocId ≠ h.source.assocId → assocId ≠ h.targetDu →
        h'.ue.hoContext = h.ue.hoContext := by
  unfold Sound
  rw [hstep]
  constructor
  · rintro ⟨_, heq, hrest⟩
    cases heq
    exact hrest
  · exact fun hrest => ⟨h', rfl, hrest⟩

section Step

variable {h : Handover} {ho : HoContext}

variable {e : HoEvent} {h' : Handover}

/-- Without a DU to encode for, the CU aborts. -/
lemma step_none (hno : ¬h.HasDu e) : h.step e = none := by
  cases e with
  | setupResponse =>
    have hno : h.ue.duAssocId ∉ h.dus := hno
    rw [Handover.step, contextSetupResponse, if_pos hno, map_none]
  | modificationResponse =>
    rw [Handover.step, contextModificationResponse, if_pos (Classical.not_imp.mp hno), map_none]
  | reconfigurationComplete | reestablishment | releaseRequest | duLost => exact absurd trivial hno

theorem HoInv.idle_step (hinv : HoInv h) (hidle : h.ue.hoContext = none) (hp : h.Possible e)
    (hdu : h.HasDu e) : ∃ h', h.step e = some h' ∧ h'.Identified ∧ h'.ue.hoContext = none := by
  cases e with
  | setupResponse duUeId crnti =>
    have hue : contextSetupResponse h.ue h.dus duUeId crnti = some h.ue := by
      have hdu : h.ue.duAssocId ∈ h.dus := hdu
      rw [contextSetupResponse, if_neg (not_not.mpr hdu), hidle, map_none, ← hidle]
    refine ⟨{ h with target := some ⟨h.targetDu, duUeId, crnti⟩ }, ?_, .inl ?_, hidle⟩
    · rw [Handover.step, hue]
      rfl
    · have hst : h.Stored h.source := hinv.identified.resolve_right fun ⟨t, ht, _⟩ =>
        nomatch hp.1.symm.trans ht
      exact hst
  | modificationResponse cellGroup =>
    have hue : contextModificationResponse h.ue h.dus cellGroup = some h.ue := by
      unfold contextModificationResponse
      rw [if_neg fun hno => hno.2 (hdu hno.1), hidle]
    refine ⟨h, ?_, hinv.identified, hidle⟩
    rw [Handover.step, hue]
    rfl
  | reconfigurationComplete =>
    have hue : hoReconfigurationComplete h.ue = (h.ue, []) := by
      unfold hoReconfigurationComplete
      rw [hidle]
    refine ⟨_, rfl, hinv.identified.congr rfl rfl (fun _ => id) ?_ ?_ ?_, ?_⟩
    all_goals rw [hue]
    exact hidle
  | reestablishment prepared cRnti crnti duUeId =>
    have hue := reestablishmentRequest_idle hidle prepared h.source.assocId cRnti crnti duUeId
    split_ifs at hue with hfound
    · -- the UE comes back in the cell it is stored in
      refine ⟨_, rfl, .inl ?_, ?_⟩
      all_goals rw [hue]
      · exact ⟨rfl, rfl, .inl hfound.2.1⟩
      · exact hidle
    · refine ⟨_, rfl, hinv.identified.congr ?_ rfl (fun _ => id) ?_ ?_ ?_, ?_⟩
      all_goals rw [hue]
      · rfl
      · exact hidle
  | releaseRequest assocId =>
    have hue : contextReleaseRequest h.ue assocId = (h.ue, []) := by
      unfold contextReleaseRequest
      rw [hidle]
    refine ⟨_, rfl, hinv.identified.congr rfl rfl (fun _ => id) ?_ ?_ ?_, ?_⟩
    all_goals rw [hue]
    exact hidle
  | duLost assocId =>
    exact ⟨_, rfl, hinv.identified.lost hinv.zero hp rfl rfl rfl rfl,
      invalidateDuConnection_hoContext _ _⟩

lemma Ongoing.step_setupResponse (o : Ongoing h ho) (hho : h.ue.hoContext = some ho)
    (duUeId crnti : Nat) :
    h.step (.setupResponse duUeId crnti) = some { h with
      ue := { h.ue with hoContext := some ⟨h.source, h.targetDu, duUeId, crnti⟩ }
      target := some ⟨h.targetDu, duUeId, crnti⟩ } := by
  rw [Handover.step, contextSetupResponse, if_neg (not_not.mpr o.stored_up), hho, map_some,
    map_some, o.source]
  dsimp only
  rw [o.targetDu]

section Ongoing

variable (hinv : HoInv h) (hho : h.ue.hoContext = some ho)

include hinv hho

lemma HoInv.sound_setupResponse {duUeId crnti : Nat}
    (hp : h.Possible (.setupResponse duUeId crnti)) : Sound h (.setupResponse duUeId crnti) := by
  have o := hinv.ongoing ho hho
  refine (sound_iff_of_step (o.step_setupResponse hho duUeId crnti)).mpr ⟨.inl ?_, ?_, nofun⟩
  · obtain ⟨hrnti, hid, hassoc⟩ := o.at_source (o.not_switched hinv hp.1)
    exact ⟨hrnti, hid, .inl hassoc⟩
  · exact fun _ hnone => nomatch hnone

theorem HoInv.sound_modificationResponse_iff (cellGroup : Bool) :
    Sound h (.modificationResponse cellGroup) ↔ h.target.isSome ∧ h.ue.rnti = h.source.rnti := by
  have o := hinv.ongoing ho hho
  have hresponse : contextModificationResponse h.ue h.dus cellGroup =
      if h.source.rnti ≠ h.ue.rnti then none
      else some ⟨ho.target.rnti, ho.target.duUeId, h.targetDu, h.ue.asSecurityActive, some ho⟩ := by
    unfold contextModificationResponse
    rw [if_neg fun hno => hno.2 o.stored_up, hho]
    dsimp only
    rw [o.source, o.targetDu]
  by_cases hrnti : h.source.rnti = h.ue.rnti
  · rw [if_neg (not_not.mpr hrnti)] at hresponse
    have hstep : h.step (.modificationResponse cellGroup) = some { h with
        ue := ⟨ho.target.rnti, ho.target.duUeId, h.targetDu, h.ue.asSecurityActive, some ho⟩ } := by
      rw [Handover.step, hresponse]
      rfl
    rw [sound_iff_of_step hstep]
    constructor
    · rintro ⟨hidentified, -, -⟩
      refine ⟨?_, hrnti.symm⟩
      rcases hidentified with ⟨-, -, hassoc⟩ | ⟨t, ht, -⟩
      · rcases hassoc with hassoc | ⟨hzero, -⟩
        · exact absurd hassoc.symm hinv.distinct
        · exact absurd hzero (o.target_ne_zero hinv)
      · exact isSome_of_mem ht
    · rintro ⟨hsome, -⟩
      obtain ⟨t, ht⟩ := isSome_iff_exists.mp hsome
      have hknown := o.known t ht
      refine ⟨.inr ⟨t, ht, ?_⟩, fun _ (hnone : some ho = none) => (nomatch hnone),
        nofun⟩
      exact ⟨by rw [hknown], by rw [hknown], .inl (hinv.answered t ht).symm⟩
  · rw [if_pos hrnti] at hresponse
    constructor
    · rintro ⟨h', hstep, -⟩
      rw [Handover.step, hresponse] at hstep
      cases hstep
    · exact fun hok => absurd hok.2.symm hrnti

lemma HoInv.sound_finalize_iff {sent : List ReleaseCmd}
    (hstep : h.step e = some { h with ue := nrRrcFinalizeHo h.ue, sent := sent })
    (hlost : ∀ a, e ≠ .duLost a) :
    Sound h e ↔ Handover.Released { h with ue := nrRrcFinalizeHo h.ue, sent := sent } := by
  rw [sound_iff_of_step hstep]
  constructor
  · exact fun hs => hs.2.1 (hho ▸ rfl) rfl
  · exact fun hr => ⟨hinv.identified.congr rfl rfl (fun _ => id) rfl rfl rfl, fun _ _ => hr,
      fun a heq => absurd heq (hlost a)⟩

theorem HoInv.sound_reconfigurationComplete_iff :
    Sound h .reconfigurationComplete ↔ h.Switched ∨ h.target = none := by
  have o := hinv.ongoing ho hho
  have hresult : hoReconfigurationComplete h.ue =
      (nrRrcFinalizeHo h.ue, [(h.source.assocId, h.source.duUeId)]) := by
    unfold hoReconfigurationComplete releaseCommandTo
    rw [hho]
    dsimp only
    rw [o.source, if_neg (o.source_ne_zero hinv)]
  have hstep : h.step .reconfigurationComplete = some { h with
      ue := nrRrcFinalizeHo h.ue, sent := [(h.source.assocId, h.source.duUeId)] } := by
    rw [Handover.step, hresult, o.quiet]
    rfl
  rw [hinv.sound_finalize_iff hho hstep nofun]
  exact o.released_source_iff hinv rfl rfl rfl rfl rfl

theorem HoInv.sound_releaseRequest_iff {a : Nat} (hp : h.Possible (.releaseRequest a)) :
    Sound h (.releaseRequest a) ↔
      if a = h.source.assocId then h.Switched ∨ h.target = none else h.target = none := by
  have o := hinv.ongoing ho hho
  have hzero : a ≠ 0 := fun hz => hinv.zero (hz ▸ hp.2)
  have hrequest : contextReleaseRequest h.ue a = (nrRrcFinalizeHo h.ue,
      if a = h.source.assocId then [(h.source.assocId, h.source.duUeId)] else []) := by
    unfold contextReleaseRequest
    rw [hho]
    dsimp only
    rw [o.source, if_neg hzero]
    by_cases hsource : a = h.source.assocId
    · rw [if_pos hsource.symm, if_pos hsource, hsource]
    · rw [if_neg fun heq => hsource heq.symm, if_neg hsource]
  have hstep : h.step (.releaseRequest a) = some { h with
      ue := nrRrcFinalizeHo h.ue
      sent := if a = h.source.assocId then [(h.source.assocId, h.source.duUeId)] else [] } := by
    rw [Handover.step, hrequest, o.quiet]
    rfl
  rw [hinv.sound_finalize_iff hho hstep nofun]
  by_cases hsource : a = h.source.assocId
  · rw [if_pos hsource, if_pos hsource]
    exact o.released_source_iff hinv rfl rfl rfl rfl rfl
  · rw [if_neg hsource, if_neg hsource]
    exact o.released_nothing_iff hinv rfl rfl rfl rfl rfl

lemma HoInv.reestablishmentRequest_eq (prepared : Bool) (cRnti crnti duUeId : Nat) :
    reestablishmentRequest h.ue prepared h.source.assocId h.source.assocId cRnti crnti duUeId =
      if prepared ∧ cRnti = h.source.rnti then
        (nrRrcFinalizeHo { h.ue with
            rnti := if h.ue.asSecurityActive then crnti else h.ue.rnti
            secondaryUe := if h.ue.asSecurityActive then duUeId else h.ue.secondaryUe
            duAssocId := h.source.assocId },
          [(h.targetDu, ho.target.duUeId)], h.ue.asSecurityActive)
      else (h.ue, [], false) := by
  have o := hinv.ongoing ho hho
  have hfound := o.foundByRnti_iff hinv hho cRnti
  unfold reestablishmentRequest
  by_cases hcancel : prepared ∧ cRnti = h.source.rnti
  · rw [if_pos hcancel, hcancel.1, hfound.mpr hcancel.2, if_neg (by decide), hho]
    rw [filter_some, o.source, if_pos (beq_self_eq_true _)]
    dsimp only
    rw [o.source, o.targetDu]
    cases hsec : h.ue.asSecurityActive <;> simp [nrRrcFinalizeHo]
  · rw [if_neg hcancel, if_pos]
    rw [Bool.or_eq_true, Bool.not_eq_true', Bool.not_eq_true']
    by_cases hprepared : prepared
    · exact .inr (Bool.eq_false_iff.mpr fun hf => hcancel ⟨hprepared, hfound.mp hf⟩)
    · exact .inl (Bool.eq_false_iff.mpr hprepared)

/-- The handover after `nr_rrc_cancel_f1_ho`. -/
def Handover.cancelled (h : Handover) (targetId : Nat) (source : DuContext) (rnti duUeId : Nat) :
    Handover :=
  { h with
    ue := nrRrcFinalizeHo { h.ue with
      rnti := rnti, secondaryUe := duUeId, duAssocId := h.source.assocId }
    sent := [(h.targetDu, targetId)]
    source := source }

lemma HoInv.released_cancelled {source : DuContext} {rnti duUeId : Nat}
    (hassoc : source.assocId = h.source.assocId) :
    (h.cancelled ho.target.duUeId source rnti duUeId).Released := by
  rintro c (rfl | hc) hup hne
  · exact absurd hassoc hne
  · rw [hinv.answered c hc, (hinv.ongoing ho hho).known c hc]
    exact count_singleton_self

theorem HoInv.sound_reestablishment_iff (prepared : Bool) (cRnti crnti duUeId : Nat) :
    Sound h (.reestablishment prepared cRnti crnti duUeId) ↔
      (prepared → cRnti = h.source.rnti → h.ue.asSecurityActive = false →
        h.ue.rnti = h.source.rnti ∧ h.ue.secondaryUe = h.source.duUeId) := by
  have o := hinv.ongoing ho hho
  have hresult := hinv.reestablishmentRequest_eq hho prepared cRnti crnti duUeId
  by_cases hcancel : prepared ∧ cRnti = h.source.rnti
  · rw [if_pos hcancel] at hresult
    cases hsec : h.ue.asSecurityActive with
    | false =>
      rw [hsec] at hresult
      have hstep : h.step (.reestablishment prepared cRnti crnti duUeId) =
          some (h.cancelled ho.target.duUeId h.source h.ue.rnti h.ue.secondaryUe) := by
        rw [Handover.step, hresult, o.quiet]
        rfl
      rw [sound_iff_of_step hstep]
      constructor
      · rintro ⟨hidentified, -, -⟩ - - -
        rcases hidentified with ⟨hrnti, hid, -⟩ | ⟨t, ht, -, -, hassoc⟩
        · exact ⟨hrnti, hid⟩
        · rcases hassoc with hassoc | ⟨hzero, -⟩
          · exact absurd (hassoc.trans (hinv.answered t ht)) hinv.distinct
          · exact absurd hzero (o.source_ne_zero hinv)
      · intro hok
        obtain ⟨hrnti, hid⟩ := hok hcancel.1 hcancel.2 rfl
        exact ⟨.inl ⟨hrnti, hid, .inl rfl⟩, fun _ _ => hinv.released_cancelled hho rfl,
          nofun⟩
    | true =>
      rw [hsec] at hresult
      have hstep : h.step (.reestablishment prepared cRnti crnti duUeId) =
          some (h.cancelled ho.target.duUeId ⟨h.source.assocId, duUeId, crnti⟩ crnti duUeId) := by
        rw [Handover.step, hresult, o.quiet]
        rfl
      refine iff_of_true ((sound_iff_of_step hstep).mpr ⟨.inl ⟨rfl, rfl, .inl rfl⟩,
        fun _ _ => hinv.released_cancelled hho rfl, nofun⟩) ?_
      exact nofun
  · rw [if_neg hcancel] at hresult
    have hstep : h.step (.reestablishment prepared cRnti crnti duUeId) = some h := by
      rw [Handover.step, hresult]
      rw [append_nil]
      rfl
    refine iff_of_true ((sound_iff_of_step hstep).mpr ⟨hinv.identified, fun hsome hnone => ?_,
      nofun⟩) fun hp hr => absurd ⟨hp, hr⟩ hcancel
    rw [hnone] at hsome
    cases hsome

theorem HoInv.sound_duLost_iff {a : Nat} (hp : h.Possible (.duLost a)) :
    Sound h (.duLost a) ↔
      if a = h.source.assocId then h.Switched ∨ h.target = none
      else a = h.targetDu ∧ ¬h.Switched := by
  have o := hinv.ongoing ho hho
  have hidentified : Handover.Identified
      { h with ue := invalidateDuConnection h.ue a, dus := h.dus.filter (· ≠ a) } :=
    hinv.identified.lost hinv.zero hp rfl rfl rfl rfl
  have hnone := invalidateDuConnection_hoContext h.ue a
  have hmem : ∀ b, b ∈ h.dus.filter (· ≠ a) ↔ b ∈ h.dus ∧ b ≠ a := fun b => by
    rw [mem_filter, decide_eq_true_iff]
  rw [sound_iff_of_step rfl]
  by_cases hsource : a = h.source.assocId
  · rw [if_pos hsource]
    constructor
    · rintro ⟨-, hreleased, -⟩
      by_contra hneither
      rw [not_or] at hneither
      obtain ⟨t, ht⟩ := ne_none_iff_exists'.mp hneither.2
      have hstored := (o.at_source hneither.1).2.2.trans hsource.symm
      have hone := hreleased (hho ▸ rfl) hnone t (.inr ht)
      rw [hinv.answered t ht, o.quiet, hmem, invalidateDuConnection_stored hstored] at hone
      exact nomatch hone ⟨o.targetUp, hsource ▸ hinv.distinct.symm⟩ (o.target_ne_zero hinv)
    · intro hok
      refine ⟨hidentified, fun _ _ => ?_, fun b heq hne => ?_⟩
      · rintro c (rfl | hc) hup hne
        · exact absurd hsource.symm ((hmem _).mp hup).2
        · rcases hok with hs | hnot
          · rw [hinv.answered c hc, invalidateDuConnection_other] at hne
            · exact absurd hs.symm hne
            · rw [hs, hsource]
              exact hinv.distinct.symm
          · exact nomatch hnot.symm.trans hc
      · cases heq
        exact absurd hsource hne
  · rw [if_neg hsource]
    constructor
    · rintro ⟨-, hreleased, hthird⟩
      have htarget : a = h.targetDu := by
        by_contra hne
        exact nomatch (hnone.symm.trans (hthird a rfl hsource hne)).trans hho
      refine ⟨htarget, fun hs => ?_⟩
      have hone := hreleased (hho ▸ rfl) hnone h.source (.inl rfl)
      rw [o.quiet, hmem, invalidateDuConnection_stored (hs.trans htarget.symm)] at hone
      exact nomatch hone ⟨o.sourceUp, Ne.symm hsource⟩ (o.source_ne_zero hinv)
    · rintro ⟨htarget, hnot⟩
      refine ⟨hidentified, fun _ _ => ?_, fun b heq _ hne => ?_⟩
      · rintro c (rfl | hc) hup hne
        · rw [invalidateDuConnection_other] at hne
          · exact absurd (o.at_source hnot).2.2.symm hne
          · rw [(o.at_source hnot).2.2]
            exact Ne.symm hsource
        · exact absurd ((hinv.answered c hc).trans htarget.symm) ((hmem _).mp hup).2
      · cases heq
        exact absurd htarget hne

end Ongoing

/-- An event does what it is to do iff it comes at its time. -/
theorem HoInv.sound_iff (hinv : HoInv h) (hp : h.Possible e) : Sound h e ↔ EventOk h e := by
  cases hho : h.ue.hoContext with
  | none =>
    have hnot : ¬h.ue.hoContext.isSome := by
      rw [hho]
      exact nofun
    by_cases hdu : h.HasDu e
    · obtain ⟨h', hstep, hi, hnone⟩ := hinv.idle_step hho hp hdu
      exact iff_of_true ((sound_iff_of_step hstep).mpr ⟨hi, fun hsome => absurd hsome hnot,
        fun _ _ _ _ => hnone.trans hho.symm⟩) ⟨hdu, fun hsome => absurd hsome hnot⟩
    · refine iff_of_false ?_ fun hok => hdu hok.1
      rintro ⟨h', hstep, -⟩
      exact nomatch (step_none hdu).symm.trans hstep
  | some ho =>
    have hok : EventOk h e ↔ h.Timely e :=
      ⟨fun hok => hok.2 (hho ▸ rfl), fun ht => ⟨(hinv.ongoing ho hho).hasDu e, fun _ => ht⟩⟩
    rw [hok]
    cases e with
    | setupResponse => exact iff_of_true (hinv.sound_setupResponse hho hp) trivial
    | modificationResponse => exact hinv.sound_modificationResponse_iff hho _
    | reconfigurationComplete => exact hinv.sound_reconfigurationComplete_iff hho
    | reestablishment => exact hinv.sound_reestablishment_iff hho _ _ _ _
    | releaseRequest => exact hinv.sound_releaseRequest_iff hho hp
    | duLost => exact hinv.sound_duLost_iff hho hp

/-! ## A run -/

lemma step_frame (hstep : h.step e = some h') :
    h'.targetDu = h.targetDu ∧ h'.source.assocId = h.source.assocId ∧ (∀ a ∈ h'.dus, a ∈ h.dus) ∧
      ∀ t, h'.target = some t → h.target = some t ∨ t.assocId = h.targetDu := by
  cases e with
  | setupResponse duUeId crnti =>
    obtain ⟨ue, -, rfl⟩ := map_eq_some_iff.mp hstep
    refine ⟨rfl, rfl, fun _ => id, fun t ht => .inr ?_⟩
    cases ht
    rfl
  | modificationResponse _ =>
    obtain ⟨ue, -, rfl⟩ := map_eq_some_iff.mp hstep
    exact ⟨rfl, rfl, fun _ => id, fun t ht => .inl ht⟩
  | reestablishment prepared cRnti crnti duUeId =>
    cases hstep
    refine ⟨rfl, ?_, fun _ => id, fun t ht => .inl ht⟩
    split <;> rfl
  | reconfigurationComplete | releaseRequest _ =>
    cases hstep
    exact ⟨rfl, rfl, fun _ => id, fun t ht => .inl ht⟩
  | duLost a =>
    cases hstep
    exact ⟨rfl, rfl, fun b hb => (mem_filter.mp hb).1, fun t ht => .inl ht⟩

lemma HoInv.ongoing_step (hinv : HoInv h) (hp : h.Possible e) (hok : EventOk h e)
    (hstep : h.step e = some h') {ho' : HoContext} (hho' : h'.ue.hoContext = some ho') :
    Ongoing h' ho' := by
  cases hho : h.ue.hoContext with
  | none =>
    obtain ⟨h'', hstep', -, hnone⟩ := hinv.idle_step hho hp hok.1
    cases hstep.symm.trans hstep'
    exact nomatch hnone.symm.trans hho'
  | some ho =>
    have o := hinv.ongoing ho hho
    cases e with
    | setupResponse duUeId crnti =>
      cases hstep.symm.trans (o.step_setupResponse hho duUeId crnti)
      cases hho'
      refine ⟨rfl, rfl, fun t ht => (Option.some.inj ht).symm, o.sourceUp, o.targetUp, o.quiet, .inl ?_⟩
      exact o.at_source (o.not_switched hinv hp.1)
    | modificationResponse cellGroup =>
      obtain ⟨hsome, hrnti⟩ := hok.2 (hho ▸ rfl)
      obtain ⟨ue, hue, rfl⟩ := map_eq_some_iff.mp hstep
      rw [contextModificationResponse, if_neg fun hno => hno.2 o.stored_up, hho] at hue
      dsimp only at hue
      rw [o.source, if_neg (not_not.mpr hrnti.symm)] at hue
      cases hue
      cases hho'
      exact { o with stored := .inr ⟨hsome, rfl, rfl, o.targetDu⟩ }
    | reconfigurationComplete =>
      cases hstep
      rw [hoReconfigurationComplete, hho] at hho'
      cases hho'
    | reestablishment prepared cRnti crnti duUeId =>
      cases hstep
      have hresult := hinv.reestablishmentRequest_eq hho prepared cRnti crnti duUeId
      by_cases hcancel : prepared ∧ cRnti = h.source.rnti
      · rw [hresult, if_pos hcancel] at hho'
        cases hho'
      · rw [if_neg hcancel] at hresult
        rw [hresult] at hho' ⊢
        cases hho.symm.trans hho'
        refine ⟨o.source, o.targetDu, o.known, o.sourceUp, o.targetUp, ?_, o.stored⟩
        exact (append_nil _).trans o.quiet
    | releaseRequest a =>
      cases hstep
      rw [contextReleaseRequest, hho] at hho'
      dsimp only at hho'
      split_ifs at hho' with _ hzero
      · exact absurd (hzero ▸ hp.2) hinv.zero
      · cases hho'
      · cases hho'
    | duLost a =>
      cases hstep
      exact nomatch (invalidateDuConnection_hoContext h.ue a).symm.trans hho'

/-- An event that does what it is to do keeps the invariant. -/
theorem HoInv.step (hinv : HoInv h) (hp : h.Possible e) (hs : Sound h e)
    (hstep : h.step e = some h') : HoInv h' := by
  obtain ⟨htargetDu, hassoc, hdus, htarget⟩ := step_frame hstep
  refine ⟨fun hz => hinv.zero (hdus 0 hz), ?_, fun t ht => ?_, ((sound_iff_of_step hstep).mp hs).1,
    fun ho' => hinv.ongoing_step hp ((hinv.sound_iff hp).mp hs) hstep⟩
  · rw [htargetDu, hassoc]
    exact hinv.distinct
  · rw [htargetDu]
    exact (htarget t ht).elim (hinv.answered t) id

end Step

end NrStack.Rrc
