/-
  RRC transaction identifiers.

  PROGRAM   one counter for all UEs of a gNB, modulo 4 (`rrc_gNB_get_next_transaction_identifier`), and
            for each UE the action of each identifier (`xids`), cleared when its completion comes.
  GHOSTS    `outstanding`, the transactions whose completion has not come, each with the DRAW that
            gave it its identifier; `draws`, the number of draws.  Draws for other UEs count.
-/
import NrStack.Lib.Machine

namespace NrStack.Rrc

open List

/-- `rrc_action_t`, without `RRC_ACTION_NONE`. -/
inductive XidAction
  | setup | setupForReestablishment | reestablish | reestablishComplete | dedicatedReconf
  | pdusessionEstablish | pdusessionModify | pdusessionRelease | uecapabilityEnquiry
  deriving DecidableEq, Repr

/-- A message that is sent to a UE and will be completed. -/
structure Transaction where
  ue : Nat
  xid : Nat
  action : XidAction
  draw : Nat
  deriving DecidableEq

/-- `transaction_id` of the gNB, `xids` of its UEs. -/
structure XidState where
  transactionId : Nat
  xids : Nat → Nat → Option XidAction
  draws : Nat
  outstanding : List Transaction

/-- A CU without transactions. -/
def noTransactions : XidState := ⟨0, fun _ _ => none, 0, []⟩

/-- `rrc_gNB_get_next_transaction_identifier`: the counter and the identifier. -/
def getNextTransactionIdentifier (transactionId : Nat) : Nat × Nat :=
  let tmp := (transactionId + 1) % 2 ^ 32
  (tmp, tmp % 4)

/-- A procedure starts, a message takes an identifier and no completion is expected (security mode
command, DL information transfer, release), a completion comes, or a UE comes back from a handover to
its source cell. -/
inductive XidEvent
  | start (ue : Nat) (action : XidAction)
  | message
  | complete (t : Transaction)
  | rollback (ue : Nat)

/-- `xids[xid] = a` -/
def XidState.setXid (s : XidState) (ue xid : Nat) (a : Option XidAction) : Nat → Nat → Option XidAction :=
  Function.update s.xids ue (Function.update (s.xids ue) xid a)

/-- `rrc_handle_RRCReestablishmentRequest` on the source cell of a handover: the reconfigurations of
the UE are aborted, and their completions will not come. -/
def XidState.abortReconf (s : XidState) (ue : Nat) : XidState :=
  { s with
    xids := Function.update s.xids ue fun xid => (s.xids ue xid).filter (· ≠ .dedicatedReconf)
    outstanding := s.outstanding.filter fun t => ¬(t.ue = ue ∧ t.action = .dedicatedReconf) }

/-- One event. -/
def XidState.step (s : XidState) : XidEvent → Option XidState
  | .start ue action =>
    let (transactionId, xid) := getNextTransactionIdentifier s.transactionId
    some
      { transactionId
        xids := s.setXid ue xid (some action)
        draws := s.draws + 1
        outstanding := s.outstanding ++ [⟨ue, xid, action, s.draws + 1⟩] }
  | .message =>
    some { s with
      transactionId := (getNextTransactionIdentifier s.transactionId).1, draws := s.draws + 1 }
  | .complete t =>
    if t ∈ s.outstanding then
      some { s with xids := s.setXid t.ue t.xid none, outstanding := s.outstanding.erase t }
    else none
  | .rollback ue => some (s.abortReconf ue)

/-- Any events. -/
def xidMachine : Machine.Spec XidState XidEvent where
  init s := s = noTransactions
  guard _ _ := True
  step := XidState.step

/-- **What is wanted**: the identifier taken has no pending action for the UE, and a completion is
handled as what was sent. -/
def XidState.Sound (s : XidState) : XidEvent → Prop
  | .start ue _ => s.xids ue (getNextTransactionIdentifier s.transactionId).2 = none
  | .message | .rollback _ => True
  | .complete t => t ∈ s.outstanding → s.xids t.ue t.xid = some t.action

/-- **The condition**: the UE has no outstanding transaction a multiple of four draws ago. -/
def XidState.Apart (s : XidState) : XidEvent → Prop
  | .start ue _ => ∀ t ∈ s.outstanding, t.ue = ue → ¬ 4 ∣ s.draws + 1 - t.draw
  | .message | .complete _ | .rollback _ => True

instance (s : XidState) : (e : XidEvent) → Decidable (s.Sound e)
  | .start ue _ => inferInstanceAs (Decidable (s.xids ue _ = none))
  | .message | .rollback _ => inferInstanceAs (Decidable True)
  | .complete t => inferInstanceAs (Decidable (t ∈ s.outstanding → s.xids t.ue t.xid = some t.action))

instance (s : XidState) : (e : XidEvent) → Decidable (s.Apart e)
  | .start ue _ =>
    inferInstanceAs (Decidable (∀ t ∈ s.outstanding, t.ue = ue → ¬ 4 ∣ s.draws + 1 - t.draw))
  | .message | .complete _ | .rollback _ => inferInstanceAs (Decidable True)

/-- The counter, and the ids that are out. -/
structure XidInv (s : XidState) : Prop where
  counter : s.transactionId = s.draws % 2 ^ 32
  drawn : ∀ t ∈ s.outstanding, t.draw ≤ s.draws ∧ t.xid = t.draw % 4
  stored : ∀ t ∈ s.outstanding, s.xids t.ue t.xid = some t.action
  known : ∀ ue xid, s.xids ue xid ≠ none → ∃ t ∈ s.outstanding, t.ue = ue ∧ t.xid = xid
  single : (s.outstanding.map fun t => (t.ue, t.xid)).Nodup

lemma xids_setXid (s : XidState) (ue xid ue' xid' : Nat) (a : Option XidAction) :
    s.setXid ue xid a ue' xid' = if ue' = ue ∧ xid' = xid then a else s.xids ue' xid' := by
  unfold XidState.setXid
  by_cases hue : ue' = ue
  · subst hue
    simp [Function.update_apply]
  · simp [hue]

variable {s s' : XidState}

section

variable (h : XidInv s)
include h

lemma XidInv.next :
    getNextTransactionIdentifier s.transactionId = ((s.draws + 1) % 2 ^ 32, (s.draws + 1) % 4) := by
  rw [getNextTransactionIdentifier, h.counter]
  refine Prod.ext ?_ ?_ <;> simp only <;> omega

lemma XidInv.xid_iff {t : Transaction} (ht : t ∈ s.outstanding) :
    t.xid = (s.draws + 1) % 4 ↔ 4 ∣ s.draws + 1 - t.draw := by
  obtain ⟨hle, hxid⟩ := h.drawn t ht
  omega

lemma XidInv.sound_iff (e : XidEvent) : s.Sound e ↔ s.Apart e := by
  cases e with
  | start ue action =>
    unfold XidState.Sound XidState.Apart
    rw [h.next]
    constructor
    · intro hfree t ht hue hdvd
      have hstored := h.stored t ht
      rw [hue, (h.xid_iff ht).mpr hdvd, hfree] at hstored
      cases hstored
    · intro hapart
      by_contra hpending
      obtain ⟨t, ht, hue, hxid⟩ := h.known _ _ hpending
      exact hapart t ht hue ((h.xid_iff ht).mp hxid)
  | message | rollback => exact Iff.rfl
  | complete t => exact ⟨fun _ => trivial, fun _ ht => h.stored t ht⟩

lemma XidInv.start {ue : Nat} {action : XidAction}
    (hfree : s.xids ue ((s.draws + 1) % 4) = none) :
    XidInv ⟨(s.draws + 1) % 2 ^ 32, s.setXid ue ((s.draws + 1) % 4) (some action), s.draws + 1,
      s.outstanding ++ [⟨ue, (s.draws + 1) % 4, action, s.draws + 1⟩]⟩ := by
  -- no outstanding transaction of the UE has the identifier
  have hnew : ∀ t ∈ s.outstanding, ¬(t.ue = ue ∧ t.xid = (s.draws + 1) % 4) := by
    rintro t ht ⟨hue, hxid⟩
    have hstored := h.stored t ht
    rw [hue, hxid, hfree] at hstored
    cases hstored
  refine ⟨rfl, ?_, ?_, fun ue' xid' hpending => ?_, ?_⟩
  · rw [forall_mem_append, forall_mem_singleton]
    exact ⟨fun t ht => ⟨Nat.le_succ_of_le (h.drawn t ht).1, (h.drawn t ht).2⟩, le_refl _, rfl⟩
  · rw [forall_mem_append, forall_mem_singleton]
    refine ⟨fun t ht => ?_, ?_⟩
    · simp only [xids_setXid, if_neg (hnew t ht)]
      exact h.stored t ht
    · simp only [xids_setXid, and_self, if_true]
  · simp only [xids_setXid] at hpending
    split at hpending
    · next heq => exact ⟨_, mem_append_right _ mem_cons_self, heq.1.symm, heq.2.symm⟩
    · obtain ⟨t, ht, hkey⟩ := h.known ue' xid' hpending
      exact ⟨t, mem_append_left _ ht, hkey⟩
  · rw [map_append, nodup_append]
    refine ⟨h.single, nodup_singleton _, fun k hk k' hk' heq => ?_⟩
    obtain ⟨t, ht, rfl⟩ := mem_map.mp hk
    rw [map_singleton, mem_singleton] at hk'
    exact hnew t ht (Prod.ext_iff.mp (heq.trans hk'))

lemma XidInv.complete {t : Transaction} (ht : t ∈ s.outstanding) :
    XidInv { s with xids := s.setXid t.ue t.xid none, outstanding := s.outstanding.erase t } := by
  have hnodup := List.Nodup.of_map _ h.single
  have hother : ∀ t' ∈ s.outstanding.erase t, ¬(t'.ue = t.ue ∧ t'.xid = t.xid) := by
    intro t' ht' hkey
    obtain ⟨hne, ht'⟩ := hnodup.mem_erase_iff.mp ht'
    exact hne (inj_on_of_nodup_map h.single ht' ht (Prod.ext hkey.1 hkey.2))
  have hold : ∀ t' ∈ s.outstanding.erase t, t' ∈ s.outstanding := fun _ => mem_of_mem_erase
  refine ⟨h.counter, fun t' ht' => h.drawn t' (hold t' ht'), fun t' ht' => ?_,
    fun ue xid hpending => ?_, h.single.sublist (erase_sublist.map _)⟩
  · simp only [xids_setXid, if_neg (hother t' ht')]
    exact h.stored t' (hold t' ht')
  · simp only [xids_setXid] at hpending
    split at hpending
    · exact absurd rfl hpending
    · next hkey =>
      obtain ⟨t', ht', hue, hxid⟩ := h.known ue xid hpending
      refine ⟨t', hnodup.mem_erase_iff.mpr ⟨fun heq => hkey ?_, ht'⟩, hue, hxid⟩
      rw [← heq]
      exact ⟨hue.symm, hxid.symm⟩

lemma XidInv.abortReconf (ue : Nat) : XidInv (s.abortReconf ue) := by
  have hxids : ∀ ue' xid, (s.abortReconf ue).xids ue' xid =
      if ue' = ue then (s.xids ue' xid).filter (· ≠ .dedicatedReconf) else s.xids ue' xid := by
    intro ue' xid
    unfold XidState.abortReconf
    by_cases hue : ue' = ue
    · subst hue
      simp only [Function.update_self, if_true]
    · simp only [Function.update_of_ne hue, if_neg hue]
  have hkept : ∀ t, t ∈ (s.abortReconf ue).outstanding ↔
      t ∈ s.outstanding ∧ ¬(t.ue = ue ∧ t.action = .dedicatedReconf) := fun t => by
    rw [XidState.abortReconf, mem_filter, decide_eq_true_eq]
  refine ⟨h.counter, fun t ht => h.drawn t ((hkept t).mp ht).1, fun t ht => ?_,
    fun ue' xid hpending => ?_, h.single.sublist (filter_sublist.map _)⟩
  · obtain ⟨hout, hother⟩ := (hkept t).mp ht
    rw [hxids, h.stored t hout]
    split
    · next hue => exact Option.filter_some_pos (decide_eq_true fun hact => hother ⟨hue, hact⟩)
    · rfl
  · -- what is still pending was not a reconfiguration
    rw [hxids] at hpending
    have hold : s.xids ue' xid ≠ none := fun hnone => hpending (by rw [hnone]; split <;> rfl)
    obtain ⟨t, ht, rfl, rfl⟩ := h.known ue' xid hold
    refine ⟨t, (hkept t).mpr ⟨ht, fun ⟨hue, hact⟩ => hpending ?_⟩, rfl, rfl⟩
    rw [if_pos hue, h.stored t ht, hact]
    rfl

lemma XidInv.step {e : XidEvent} (hsound : s.Sound e) (hstep : s.step e = some s') :
    XidInv s' := by
  cases e with
  | start ue action =>
    unfold XidState.Sound at hsound
    unfold XidState.step at hstep
    rw [h.next] at hsound hstep
    cases hstep
    exact h.start hsound
  | message =>
    unfold XidState.step at hstep
    rw [h.next] at hstep
    cases hstep
    exact ⟨rfl, fun t ht => ⟨Nat.le_succ_of_le (h.drawn t ht).1, (h.drawn t ht).2⟩, h.stored, h.known,
      h.single⟩
  | complete t =>
    obtain ⟨ht, hstep⟩ := Option.ite_none_right_eq_some.mp hstep
    cases hstep
    exact h.complete ht
  | rollback ue =>
    cases hstep
    exact h.abortReconf ue

end

/-- **Transactions of a gNB.**  For every interleaving of procedures of any UEs, with completions in
any order: no start takes an identifier that is pending for its UE and every completion is handled as
what was sent, IF AND ONLY IF no UE starts a transaction a multiple of four draws behind an outstanding
one of its own. -/
theorem transactions_sound_iff (events : List XidEvent) (hs : xidMachine.init s) :
    xidMachine.Along XidState.Sound s events ↔ xidMachine.Along XidState.Apart s events := by
  have hinit : XidInv s := by
    cases hs
    exact ⟨rfl, forall_mem_nil _, forall_mem_nil _, fun _ _ h => absurd rfl h, nodup_nil⟩
  exact Machine.Spec.along_iff (fun s e h => h.sound_iff e)
    (fun s e s' h hsound hstep => h.step hsound hstep) events hinit

theorem transactions_sound_iff_three : xidMachine.Along XidState.Sound noTransactions
    [.start 1 .uecapabilityEnquiry, .start 2 .setup, .start 1 .pdusessionEstablish,
      .complete ⟨1, 3, .pdusessionEstablish, 3⟩, .complete ⟨1, 1, .uecapabilityEnquiry, 1⟩] :=
  (transactions_sound_iff _ rfl).mpr (by decide)

/-- **Three other UEs are set up** and UE 1 takes the identifier of its own pending establishment, whose
completion is then handled as that of the modification. -/
theorem transactions_collide :
    let events := [.start 1 .pdusessionEstablish, .start 2 .setup, .start 3 .setup, .start 4 .setup,
      .start 1 .pdusessionModify]
    ¬ xidMachine.Along XidState.Sound noTransactions events ∧
    ((events.foldlM XidState.step noTransactions).map fun s =>
      (⟨1, 1, .pdusessionEstablish, 1⟩ ∈ s.outstanding : Bool) && s.xids 1 1 == some .pdusessionModify) =
      some true := by
  decide

end NrStack.Rrc
