/-
  When the two GTP-U maps stay consistent.

  CONSISTENT: a bearer's incoming TEID is a key of `te2ue_mapping` with the bearer's UE, each key is the
  TEID of one bearer, and none is 0.  A run keeps this, and its deletes delete, exactly when its calls
  meet `CallOk`:

  * create: the UE has no such bearer yet (else ALL its bearers go, and their TEIDs stay);
  * change of the UE id: the bearers of the old id have the keys `0, …, n - 1`, the new id has none;
  * delete of one: its TEID is below `2^31` (an `int` holds it on the way to the erase);
  * delete of listed ones: none of them exists (`ue2te_mapping` does not lose them);
  * update of the far end, delete of all: always.
-/
import NrStack.Lib.Paired
import NrStack.Gtpu.Tunnels
import Mathlib

namespace NrStack.Gtpu

open List Function

/-! ## What the maps say -/

/-- Where `ue2te_mapping` can have a bearer: instance, UE and bearer id. -/
structure Place where
  inst : Nat
  ue : Nat
  bearer : Nat
deriving DecidableEq

/-- The bearer that `ue2te_mapping` of the instance has there. -/
def bearerAt (s : State) (p : Place) : Option Bearer :=
  ((s.instances.lookup p.inst).bind fun m => m.lookup p.ue).bind fun bs => bs.lookup p.bearer

/-- The incoming TEID of the bearer there. -/
def teidAt (s : State) (p : Place) : Option Nat := (bearerAt s p).map fun b => b.teidIncoming.toNat

/-- The UE that `te2ue_mapping` has for a TEID. -/
def ueOf (s : State) (k : Nat) : Option Nat := (s.te2ueMapping.lookup k).map fun d => d.ueId

/-- **The two maps agree.** -/
structure Consistent (s : State) : Prop where
  known : ∀ p b, bearerAt s p = some b →
    ∃ d, s.te2ueMapping.lookup b.teidIncoming.toNat = some d ∧ d.ueId = p.ue
  unique : ∀ k, k ∈ s.te2ueMapping → ∃! p, ∃ b, bearerAt s p = some b ∧ b.teidIncoming.toNat = k
  noZero : 0 ∉ s.te2ueMapping

variable {s s' : State} {k i inst ueId oldUeId newUeId fuel : Nat} {m : Ue2te} {bs bs' : Bearers}
  {call : Call} {gone : Place → Prop} {te te' : StdMap UeidData}

lemma teidAt_eq_some {p : Place} :
    teidAt s p = some k ↔ ∃ b, bearerAt s p = some b ∧ b.teidIncoming.toNat = k :=
  Option.map_eq_some_iff

lemma ueOf_eq_some {u : Nat} :
    ueOf s k = some u ↔ ∃ d, s.te2ueMapping.lookup k = some d ∧ d.ueId = u :=
  Option.map_eq_some_iff

lemma ueOf_eq_none : ueOf s k = none ↔ k ∉ s.te2ueMapping :=
  Option.map_eq_none_iff.trans AList.lookup_eq_none

lemma ueOf_ne_none : ueOf s k ≠ none ↔ k ∈ s.te2ueMapping := by
  rw [Ne, ueOf_eq_none, not_not]

lemma consistent_iff :
    Consistent s ↔ Paired (teidAt s) (ueOf s) Place.ue ∧ 0 ∉ s.te2ueMapping := by
  refine ⟨fun h => ⟨⟨fun p k hp => ?_, fun k hk => ?_, fun p q k hp hq => ?_⟩, h.noZero⟩,
    fun ⟨hpair, hzero⟩ => ⟨fun p b hp => ?_, fun k hk => ?_, hzero⟩⟩
  · obtain ⟨b, hb, rfl⟩ := teidAt_eq_some.mp hp
    exact ueOf_eq_some.mpr (h.known p b hb)
  · obtain ⟨p, hp, -⟩ := h.unique k (ueOf_ne_none.mp hk)
    exact ⟨p, teidAt_eq_some.mpr hp⟩
  · obtain ⟨b, hb, hbk⟩ := teidAt_eq_some.mp hp
    obtain ⟨d, hd, -⟩ := h.known p b hb
    have hmem : k ∈ s.te2ueMapping := AList.lookup_isSome.mp (by rw [← hbk, hd]; rfl)
    exact (h.unique k hmem).unique ⟨b, hb, hbk⟩ (teidAt_eq_some.mp hq)
  · exact ueOf_eq_some.mp (hpair.forward p _ (teidAt_eq_some.mpr ⟨b, hp, rfl⟩))
  · obtain ⟨p, hp, huniq⟩ := hpair.existsUnique (ueOf_ne_none.mpr hk)
    exact ⟨p, teidAt_eq_some.mp hp, fun q hq => huniq q (teidAt_eq_some.mpr hq)⟩

lemma Consistent.paired (h : Consistent s) :
    Paired (teidAt s) (ueOf s) Place.ue := (consistent_iff.mp h).1

lemma Consistent.congr (h : Consistent s) (hb : ∀ p, teidAt s' p = teidAt s p)
    (hu : s'.te2ueMapping = s.te2ueMapping) : Consistent s' := by
  refine consistent_iff.mpr ⟨h.paired.congr hb fun k => ?_, hu ▸ h.noZero⟩
  unfold ueOf
  rw [hu]

lemma started_consistent (h : Started s) : Consistent s := by
  have hnone : ∀ p, bearerAt s p = none := fun p => by
    unfold bearerAt
    cases hm : s.instances.lookup p.inst with
    | none => rfl
    | some m =>
      rw [h.1 p.inst m hm]
      rfl
  refine ⟨fun p b hp => ?_, fun k hk => ?_, ?_⟩
  · rw [hnone] at hp
    cases hp
  · rw [h.2] at hk
    exact absurd hk (AList.notMem_empty k)
  · rw [h.2]
    exact AList.notMem_empty 0

/-! ## What a write does to the bearers -/

/-- The bearer in the map of one instance. -/
def bearerIn (m : Ue2te) (ue bearer : Nat) : Option Bearer :=
  (m.lookup ue).bind fun bs => bs.lookup bearer

lemma bearerAt_of_inst {p : Place} (hm : (s.instances.lookup p.inst).getD ∅ = m) :
    bearerAt s p = bearerIn m p.ue p.bearer := by
  unfold bearerAt bearerIn
  cases hl : s.instances.lookup p.inst with
  | none =>
    rw [hl] at hm
    rw [← hm]
    rfl
  | some m' =>
    rw [hl] at hm
    rw [← hm]
    rfl

lemma bearerAt_setInst (s : State) (i : Nat) (m : Ue2te) (p : Place) :
    bearerAt (setInst s i m) p = if p.inst = i then bearerIn m p.ue p.bearer else bearerAt s p := by
  unfold bearerAt setInst bearerIn
  rw [StdMap.lookup_insert_if]
  by_cases h : p.inst = i
  · rw [if_pos h, if_pos h]
    rfl
  · rw [if_neg h, if_neg h]

section

variable (hm : (s.instances.lookup i).getD ∅ = m)
include hm

lemma bearerAt_setInst_same (p : Place) :
    bearerAt (setInst s i m) p = bearerAt s p := by
  rw [bearerAt_setInst]
  by_cases h : p.inst = i
  · rw [if_pos h, bearerAt_of_inst (h ▸ hm)]
  · rw [if_neg h]

lemma bearerAt_changeUe {m' : StdMap Bearers} {o : Option Bearers} {ue : Nat}
    (hm' : ∀ u, m'.lookup u = if u = ue then o else m.lookup u) (p : Place) :
    bearerAt (setInst s i m') p =
      if p.inst = i ∧ p.ue = ue then o.bind (·.lookup p.bearer) else bearerAt s p := by
  rw [bearerAt_setInst]
  by_cases h : p.inst = i
  · rw [if_pos h, bearerAt_of_inst (h ▸ hm)]
    unfold bearerIn
    rw [hm']
    by_cases hu : p.ue = ue
    · rw [if_pos hu, if_pos ⟨h, hu⟩]
    · rw [if_neg hu, if_neg (fun hc => hu hc.2)]
  · rw [if_neg h, if_neg (fun hc => h hc.1)]

lemma bearerAt_insertUe (ue : Nat) (bs : Bearers) (p : Place) :
    bearerAt (setInst s i (m.insert ue bs)) p =
      if p.inst = i ∧ p.ue = ue then bs.lookup p.bearer else bearerAt s p :=
  bearerAt_changeUe hm (fun _ => StdMap.lookup_insert_if) p

lemma bearerAt_eraseUe (ue : Nat) (p : Place) :
    bearerAt (setInst s i (m.erase ue)) p =
      if p.inst = i ∧ p.ue = ue then none else bearerAt s p :=
  bearerAt_changeUe hm (fun _ => StdMap.lookup_erase_if) p

end

lemma getInst_eq (h : getInst s inst = some m) :
    (s.instances.lookup (compatInst s inst)).getD ∅ = m := by
  unfold getInst at h
  rw [compatInst_idem] at h
  rw [h]
  rfl

lemma getInst_none (h : getInst s inst = none) (ue bearer : Nat) :
    bearerAt s ⟨compatInst s inst, ue, bearer⟩ = none := by
  unfold getInst at h
  rw [compatInst_idem] at h
  unfold bearerAt
  rw [h]
  rfl

lemma bearerAt_of_ue {ue : Nat} (hm : (s.instances.lookup i).getD ∅ = m)
    (hu : m.lookup ue = some bs) (b : Nat) : bearerAt s ⟨i, ue, b⟩ = bs.lookup b := by
  rw [bearerAt_of_inst hm]
  unfold bearerIn
  rw [hu]
  rfl

lemma bearerAt_of_noUe {ue : Nat} (hm : (s.instances.lookup i).getD ∅ = m)
    (hu : m.lookup ue = none) (b : Nat) : bearerAt s ⟨i, ue, b⟩ = none := by
  rw [bearerAt_of_inst hm]
  unfold bearerIn
  rw [hu]
  rfl

/-! ## The condition, and what a delete is to do -/

/-- **The condition on a call**, in the state before it. -/
def CallOk (s : State) : Call → Prop
  | .create req _ =>
    bearerAt s ⟨compatInst s req.instanceId, req.ueId, toKey req.outgoingBearerId⟩ = none
  | .updateOutgoing _ _ _ _ _ => True
  | .updateUeId inst oldUeId newUeId =>
    ∀ bearers, ((s.instances.lookup (compatInst s inst)).getD ∅).lookup oldUeId = some bearers →
      (∀ k, k ∈ bearers ↔ k < bearers.size) ∧
      ∀ b, bearerAt s ⟨compatInst s inst, newUeId, b⟩ = none
  | .deleteOne inst ueId rbId =>
    ∀ b, bearerAt s ⟨compatInst s inst, ueId, toKey rbId⟩ = some b → b.teidIncoming.toNat < 2 ^ 31
  | .deleteListed inst ueId ids =>
    ∀ id ∈ ids, bearerAt s ⟨compatInst s inst, ueId, id.toNat⟩ = none
  | .deleteS1u inst rnti ids =>
    ∀ id ∈ ids, bearerAt s ⟨compatInst s inst, rnti.toNat, id.toNat⟩ = none
  | .deleteAll _ _ => True

/-- The places whose bearers a delete is asked to delete. -/
def deletes (s : State) : Call → Option (Place → Prop)
  | .deleteOne inst ueId rbId => some fun p => p = ⟨compatInst s inst, ueId, toKey rbId⟩
  | .deleteListed inst ueId ids =>
    some fun p => p.inst = compatInst s inst ∧ p.ue = ueId ∧ p.bearer ∈ ids.map UInt8.toNat
  | .deleteS1u inst rnti ids =>
    some fun p => p.inst = compatInst s inst ∧ p.ue = rnti.toNat ∧ p.bearer ∈ ids.map UInt8.toNat
  | .deleteAll inst ueId => some fun p => p.inst = compatInst s inst ∧ p.ue = ueId
  | _ => none

/-- The bearers of `gone` are in neither map any more, all others are as before in both. -/
structure Deleted (s s' : State) (gone : Place → Prop) : Prop where
  bearer : ∀ p, gone p → bearerAt s' p = none
  key : ∀ p b, gone p → bearerAt s p = some b → b.teidIncoming.toNat ∉ s'.te2ueMapping
  otherBearer : ∀ p, ¬gone p → bearerAt s' p = bearerAt s p
  otherKey : ∀ p b, ¬gone p → bearerAt s p = some b →
    s'.te2ueMapping.lookup b.teidIncoming.toNat = s.te2ueMapping.lookup b.teidIncoming.toNat

/-- What a call is to leave: consistent maps and, after a delete, exactly the others. -/
def Sound (s : State) (call : Call) (s' : State) : Prop :=
  Consistent s' ∧ ∀ gone, deletes s call = some gone → Deleted s s' gone

/-- Every step of a run, as far as its calls return. -/
def Along (P : State → Call → State → Prop) : State → List Call → Prop
  | _, [] => True
  | s, call :: calls => ∀ s', exec s call = some s' → P s call s' ∧ Along P s' calls

lemma sound_of_deleted (hcall : deletes s call = some gone)
    (h : Consistent s' ∧ Deleted s s' gone) : Sound s call s' := by
  refine ⟨h.1, fun gone' hgone => ?_⟩
  rw [hcall] at hgone
  cases hgone
  exact h.2

lemma deleted_of (h : Consistent s) {ks : List Nat} (hgone : ∀ p, gone p → bearerAt s' p = none)
    (hkept : ∀ p, ¬gone p → bearerAt s' p = bearerAt s p)
    (hks : ∀ k, k ∈ ks ↔ ∃ p, gone p ∧ teidAt s p = some k)
    (hte : ∀ k, s'.te2ueMapping.lookup k = if k ∈ ks then none else s.te2ueMapping.lookup k) :
    Consistent s' ∧ Deleted s s' gone := by
  have hue : ∀ k, ueOf s' k = if k ∈ ks then none else ueOf s k := fun k => by
    unfold ueOf
    rw [hte k]
    split <;> rfl
  refine ⟨consistent_iff.mpr ⟨h.paired.remove (fun p (hp : gone p) => ?_) ?_ ?_ ?_, ?_⟩,
    ⟨hgone, ?_, hkept, ?_⟩⟩
  · unfold teidAt
    rw [hgone p hp]
    rfl
  · intro p hp
    unfold teidAt
    rw [hkept p hp]
  · intro p k hp hk
    rw [hue, if_pos ((hks k).mpr ⟨p, hp, hk⟩)]
  · intro k hk
    rw [hue, if_neg fun hmem => ?_]
    obtain ⟨p, hp, hpk⟩ := (hks k).mp hmem
    exact hk p hp hpk
  · refine AList.lookup_eq_none.mp ?_
    rw [hte, AList.lookup_eq_none.mpr h.noZero]
    exact ite_self _
  · intro p b hp hb
    apply AList.lookup_eq_none.mp
    rw [hte, if_pos ((hks _).mpr ⟨p, hp, teidAt_eq_some.mpr ⟨b, hb, rfl⟩⟩)]
  · intro p b hp hb
    rw [hte, if_neg fun hmem => ?_]
    obtain ⟨q, hq, hqk⟩ := (hks _).mp hmem
    have hpq := h.paired.inj p q _ (teidAt_eq_some.mpr ⟨b, hb, rfl⟩) hqk
    exact hp (hpq ▸ hq)

lemma deleted_nothing (h : Consistent s) (hnone : ∀ p, gone p → bearerAt s p = none)
    (hb : ∀ p, bearerAt s' p = bearerAt s p)
    (hte : ∀ k, s'.te2ueMapping.lookup k = s.te2ueMapping.lookup k) :
    Consistent s' ∧ Deleted s s' gone := by
  have hkeys : ∀ k, k ∈ ([] : List Nat) ↔ ∃ p, gone p ∧ teidAt s p = some k := by
    refine fun k => ⟨nofun, fun ⟨p, hp, hpk⟩ => ?_⟩
    unfold teidAt at hpk
    rw [hnone p hp] at hpk
    cases hpk
  refine deleted_of h (fun p hp => (hb p).trans (hnone p hp)) (fun p _ => hb p) hkeys fun k => ?_
  rw [if_neg not_mem_nil, hte]

/-! ## Delete -/

lemma found {b : Bearer} (h : bearerAt s ⟨compatInst s inst, ueId, k⟩ = some b) :
    ∃ m bs, getInst s inst = some m ∧ m.lookup ueId = some bs ∧ bs.lookup k = some b := by
  obtain ⟨bs, hbs, hb⟩ := Option.bind_eq_some_iff.mp h
  obtain ⟨m, hm, hu⟩ := Option.bind_eq_some_iff.mp hbs
  refine ⟨m, bs, ?_, hu, hb⟩
  unfold getInst
  rw [compatInst_idem]
  exact hm

lemma deleteOne_absent {rbId : Int} (h : bearerAt s ⟨compatInst s inst, ueId, toKey rbId⟩ = none) :
    (newGtpuDeleteOneTunnel s inst ueId rbId).1 = s := by
  unfold newGtpuDeleteOneTunnel
  split
  · rfl
  · rename_i m hi
    split
    · rfl
    · rename_i bs hu
      rw [bearerAt_of_ue (getInst_eq hi) hu] at h
      rw [h]

lemma deleteOne_found {rbId : Int} {b : Bearer}
    (h : bearerAt s ⟨compatInst s inst, ueId, toKey rbId⟩ = some b) :
    (∀ p, bearerAt (newGtpuDeleteOneTunnel s inst ueId rbId).1 p =
      if p = ⟨compatInst s inst, ueId, toKey rbId⟩ then none else bearerAt s p) ∧
    (newGtpuDeleteOneTunnel s inst ueId rbId).1.te2ueMapping =
      s.te2ueMapping.erase (toKey (toInt b.teidIncoming)) := by
  obtain ⟨m, bs, hi, hu, hb⟩ := found h
  have hbs := bearerAt_of_ue (getInst_eq hi) hu
  unfold newGtpuDeleteOneTunnel
  simp only [hi, hu, hb]
  refine ⟨fun p => (bearerAt_insertUe (getInst_eq hi) ueId _ p).trans ?_, trivial⟩
  obtain ⟨i, u, k⟩ := p
  by_cases hiu : i = compatInst s inst ∧ u = ueId
  · obtain ⟨rfl, rfl⟩ := hiu
    rw [if_pos ⟨rfl, rfl⟩, StdMap.lookup_erase_if, hbs]
    simp
  · rw [if_neg hiu, if_neg fun heq => hiu ?_]
    cases heq
    exact ⟨rfl, rfl⟩

lemma deleteOne_sound (h : Consistent s) (inst ueId : Nat) (rbId : Int) :
    Sound s (.deleteOne inst ueId rbId) (newGtpuDeleteOneTunnel s inst ueId rbId).1 ↔
      CallOk s (.deleteOne inst ueId rbId) := by
  cases hhere : bearerAt s ⟨compatInst s inst, ueId, toKey rbId⟩ with
  | none =>
    rw [deleteOne_absent hhere]
    refine iff_of_true (sound_of_deleted rfl ?_) fun b hb => ?_
    · refine deleted_nothing h (fun p hp => ?_) (fun _ => rfl) fun _ => rfl
      rw [hp]
      exact hhere
    · rw [hhere] at hb
      cases hb
  | some b =>
    obtain ⟨hat, hte⟩ := deleteOne_found hhere
    have hkey : teidAt s ⟨compatInst s inst, ueId, toKey rbId⟩ = some b.teidIncoming.toNat :=
      teidAt_eq_some.mpr ⟨b, hhere, rfl⟩
    refine ⟨fun hsound b' hb' => ?_, fun hok => ?_⟩
    · -- else the erase misses, and the key stays without a bearer
      rw [hhere] at hb'
      cases hb'
      by_contra hge
      have hwide := toKey_toInt_of_ge (not_lt.mp hge)
      have hlt : b.teidIncoming.toNat < 2 ^ 32 := b.teidIncoming.toNat_lt
      refine (h.paired.unowned hkey (fun x hx => ?_) ?_) hsound.1.paired
      · unfold teidAt at hx
        rw [hat] at hx
        split at hx
        · cases hx
        · rename_i hne
          exact ⟨hne, hx⟩
      · rw [ueOf_ne_none, hte]
        refine AList.mem_erase.mpr ⟨by omega, ueOf_ne_none.mp ?_⟩
        rw [h.paired.forward _ _ hkey]
        exact Option.some_ne_none _
    · have hkeys : ∀ k, k ∈ [b.teidIncoming.toNat] ↔
          ∃ p, p = ⟨compatInst s inst, ueId, toKey rbId⟩ ∧ teidAt s p = some k := fun k => by
        simp only [mem_singleton, exists_eq_left, hkey, Option.some.injEq]
        exact eq_comm
      refine sound_of_deleted rfl (deleted_of h (fun p hp => ?_) (fun p hp => ?_) hkeys fun k => ?_)
      · rw [hat, if_pos hp]
      · rw [hat, if_neg hp]
      · rw [hte, StdMap.lookup_erase_if, toKey_toInt_of_lt (hok b hhere)]
        simp

lemma deleteAll_sound (h : Consistent s) (inst ueId : Nat) :
    Sound s (.deleteAll inst ueId) (newGtpuDeleteAllTunnels s inst ueId).1 := by
  have hnothing : (∀ k, bearerAt s ⟨compatInst s inst, ueId, k⟩ = none) →
      Sound s (.deleteAll inst ueId) s := fun hnone => by
    refine sound_of_deleted rfl (deleted_nothing h (fun p hp => ?_) (fun _ => rfl) fun _ => rfl)
    obtain ⟨i, u, k⟩ := p
    obtain ⟨rfl, rfl⟩ := hp
    exact hnone k
  unfold newGtpuDeleteAllTunnels
  split
  · rename_i hi
    exact hnothing fun k => getInst_none hi _ k
  · rename_i m hi
    have hm := getInst_eq hi
    split
    · rename_i hu
      exact hnothing fun k => bearerAt_of_noUe hm hu k
    · rename_i bs hu
      have hbs := bearerAt_of_ue hm hu
      have hkeys : ∀ k, k ∈ bs.entries.map (fun e => e.2.teidIncoming.toNat) ↔
          ∃ p : Place, (p.inst = compatInst s inst ∧ p.ue = ueId) ∧ teidAt s p = some k := by
        intro k
        rw [mem_map]
        refine ⟨fun ⟨e, he, hk⟩ => ?_, fun ⟨p, hp, hpk⟩ => ?_⟩
        · refine ⟨⟨compatInst s inst, ueId, e.1⟩, ⟨rfl, rfl⟩, teidAt_eq_some.mpr ⟨e.2, ?_, hk⟩⟩
          rw [hbs]
          exact AList.mem_lookup_iff.mpr he
        · obtain ⟨i, u, x⟩ := p
          obtain ⟨rfl, rfl⟩ := hp
          obtain ⟨b, hb, hk⟩ := teidAt_eq_some.mp hpk
          rw [hbs] at hb
          exact ⟨⟨x, b⟩, AList.mem_lookup_iff.mp hb, hk⟩
      have hat := bearerAt_eraseUe hm ueId
      exact sound_of_deleted rfl (deleted_of h (fun p hp => (hat p).trans (if_pos hp))
        (fun p hp => (hat p).trans (if_neg hp)) hkeys fun k => StdMap.lookup_eraseAll _)

/-- The bearers that a delete with a list names. -/
def Listed (i ueId : Nat) (ids : List UInt8) (p : Place) : Prop :=
  p.inst = i ∧ p.ue = ueId ∧ p.bearer ∈ ids.map UInt8.toNat

lemma listed_none {ids : List UInt8} (h : ∀ id ∈ ids, bearerAt s ⟨i, ueId, id.toNat⟩ = none)
    (p : Place) (hp : Listed i ueId ids p) : bearerAt s p = none := by
  obtain ⟨i', u, k⟩ := p
  obtain ⟨rfl, rfl, hk⟩ := hp
  obtain ⟨id, hid, rfl⟩ := mem_map.mp hk
  exact h id hid

lemma bearerAt_deleteListed (hm : (s.instances.lookup i).getD ∅ = m)
    (hu : m.lookup ueId = some bs) (ids : List Nat) (p : Place) :
    bearerAt (deleteListed s i ueId m bs ids) p = bearerAt s p := by
  change bearerAt (setInst s i (if bs.size = 0 then m.erase ueId else m)) p = _
  by_cases hsize : bs.size = 0
  · -- a UE without bearers is erased
    rw [if_pos hsize, bearerAt_eraseUe hm]
    by_cases hp : p.inst = i ∧ p.ue = ueId
    · obtain ⟨i', u, k⟩ := p
      obtain ⟨rfl, rfl⟩ := hp
      rw [if_pos ⟨rfl, rfl⟩, bearerAt_of_ue hm hu]
      symm
      refine AList.lookup_eq_none.mpr fun hk => ?_
      have hnil := length_eq_zero_iff.mp hsize
      rw [AList.mem_keys, hnil] at hk
      cases hk
    · rw [if_neg hp]
  · rw [if_neg hsize, bearerAt_setInst_same hm]

lemma deleteListed_sound (h : Consistent s) (hm : (s.instances.lookup i).getD ∅ = m)
    (hu : m.lookup ueId = some bs) (ids : List UInt8) :
    let s' := deleteListed s i ueId m bs (ids.map UInt8.toNat)
    (Consistent s' ∧ Deleted s s' (Listed i ueId ids)) ↔
      ∀ id ∈ ids, bearerAt s ⟨i, ueId, id.toNat⟩ = none := by
  intro s'
  have hat := bearerAt_deleteListed hm hu (ids.map UInt8.toNat)
  refine ⟨fun ⟨_, hdel⟩ id hid => ?_, fun hnone => ?_⟩
  · rw [← hat]
    exact hdel.bearer _ ⟨rfl, rfl, mem_map_of_mem hid⟩
  · refine deleted_nothing h (listed_none hnone) hat fun k => ?_
    have hnokeys : ((ids.map UInt8.toNat).filterMap fun id =>
        (bs.lookup id).map fun b => b.teidIncoming.toNat) = [] := by
      refine filterMap_eq_nil_iff.mpr fun id hid => ?_
      obtain ⟨id', hid', rfl⟩ := mem_map.mp hid
      rw [← bearerAt_of_ue hm hu, hnone id' hid']
      rfl
    refine (StdMap.lookup_eraseAll _).trans (if_neg ?_)
    rw [hnokeys]
    exact not_mem_nil

lemma deleteListed_nothing (h : Consistent s) {ids : List UInt8}
    (hnone : ∀ k, bearerAt s ⟨i, ueId, k⟩ = none) (hb : ∀ p, bearerAt s' p = bearerAt s p)
    (hte : s'.te2ueMapping = s.te2ueMapping) :
    (Consistent s' ∧ Deleted s s' (Listed i ueId ids)) ↔
      ∀ id ∈ ids, bearerAt s ⟨i, ueId, id.toNat⟩ = none :=
  iff_of_true
    (deleted_nothing h (listed_none fun _ _ => hnone _) hb fun k => by rw [hte])
    fun _ _ => hnone _

lemma sound_iff_deleted (hcall : deletes s call = some gone) :
    Sound s call s' ↔ Consistent s' ∧ Deleted s s' gone :=
  ⟨fun h => ⟨h.1, h.2 gone hcall⟩, sound_of_deleted hcall⟩

lemma deleteTunnels_sound (h : Consistent s) (inst ueId : Nat) (ids : List UInt8) :
    Sound s (.deleteListed inst ueId ids) (newGtpuDeleteTunnels s inst ueId ids).1 ↔
      CallOk s (.deleteListed inst ueId ids) := by
  apply (sound_iff_deleted rfl).trans
  unfold newGtpuDeleteTunnels
  split
  · rename_i hi
    exact deleteListed_nothing h (getInst_none hi _) (fun _ => rfl) rfl
  · rename_i m hi
    split
    · rename_i hu
      exact deleteListed_nothing h (bearerAt_of_noUe (getInst_eq hi) hu) (fun _ => rfl) rfl
    · rename_i bs hu
      exact deleteListed_sound h (getInst_eq hi) hu ids

lemma deleteS1u_sound (h : Consistent s) (inst : Nat) (rnti : UInt16) (ids : List UInt8) :
    Sound s (.deleteS1u inst rnti ids) (gtpv1uDeleteS1uTunnel s inst rnti ids).1 ↔
      CallOk s (.deleteS1u inst rnti ids) := by
  apply (sound_iff_deleted rfl).trans
  unfold gtpv1uDeleteS1uTunnel
  dsimp only
  split
  · rename_i hu
    exact deleteListed_nothing h (bearerAt_of_noUe rfl hu) (bearerAt_setInst_same rfl) rfl
  · rename_i bs hu
    exact deleteListed_sound h rfl hu ids

/-! ## Create -/

lemma bearerIn_dropExisting (m : Ue2te) (ueId key ue k : Nat) :
    bearerIn (dropExisting m ueId key) ue k =
      if ue = ueId ∧ bearerIn m ueId key ≠ none then none else bearerIn m ue k := by
  unfold dropExisting bearerIn
  cases (m.lookup ueId).bind fun bearers => bearers.lookup key with
  | none => rw [if_neg fun hc => hc.2 rfl]
  | some b =>
    rw [StdMap.lookup_erase_if]
    by_cases hu : ue = ueId
    · rw [if_pos hu, if_pos ⟨hu, Option.some_ne_none _⟩]
      rfl
    · rw [if_neg hu, if_neg fun hc => hu hc.1]

lemma bearerIn_insertBearer (m : Ue2te) (ueId key : Nat) (b : Bearer) (ue k : Nat) :
    bearerIn (m.insert ueId (((m.lookup ueId).getD ∅).insert key b)) ue k =
      if ue = ueId ∧ k = key then some b else bearerIn m ue k := by
  unfold bearerIn
  rw [StdMap.lookup_insert_if]
  by_cases hu : ue = ueId
  · subst hu
    rw [if_pos rfl]
    apply StdMap.lookup_insert_if.trans
    simp only [true_and]
    refine ite_congr rfl (fun _ => rfl) fun _ => ?_
    cases m.lookup ue <;> rfl
  · rw [if_neg hu, if_neg fun hc => hu hc.1]

theorem create_spec {req : CreateReq} {draws : List (Fin (randMax + 1) × Fin (randMax + 1))}
    (hi : getInst s req.instanceId = some m) (h : exec s (.create req draws) = some s') :
    let here : Place := ⟨compatInst s req.instanceId, req.ueId, toKey req.outgoingBearerId⟩
    ∃ b : Bearer, s.te2ueMapping.lookup b.teidIncoming.toNat = none ∧ b.teidIncoming.toNat ≠ 0 ∧
      (∀ p, bearerAt s' p = if p = here then some b
        else if (p.inst = here.inst ∧ p.ue = here.ue) ∧ bearerAt s here ≠ none then none
        else bearerAt s p) ∧
      s'.te2ueMapping = s.te2ueMapping.insert b.teidIncoming.toNat (newUeidData req) := by
  intro here
  simp only [exec, newGtpuCreateTunnel, hi] at h
  obtain ⟨⟨s'', teid⟩, hs'', rfl⟩ := Option.map_eq_some_iff.mp h
  split at hs''
  · cases hs''
  · rename_i incomingTeid hfresh
    split at hs''
    · cases hs''
    · rename_i tmp htmp
      cases hs''
      obtain ⟨hfree, hnz⟩ := freshTeid_spec hfresh
      refine ⟨{ tmp with
        teidIncoming := teid
        outgoingPort := req.port % 2 ^ 16
        teidOutgoing := req.outgoingTeid
        outgoingQfi := req.outgoingQfi }, hfree, hnz, fun p => ?_, rfl⟩
      apply (bearerAt_setInst s _ _ p).trans
      have hin : ∀ u k, bearerAt s ⟨compatInst s req.instanceId, u, k⟩ = bearerIn m u k :=
        fun u k => bearerAt_of_inst (getInst_eq hi)
      obtain ⟨i, u, k⟩ := p
      by_cases hpi : i = compatInst s req.instanceId
      · subst hpi
        rw [if_pos rfl, bearerIn_insertBearer, bearerIn_dropExisting, hin, hin]
        simp [here]
      · rw [if_neg hpi, if_neg fun heq => hpi (congrArg Place.inst heq),
          if_neg fun hc => hpi hc.1.1]

lemma create_sound (h : Consistent s) {req : CreateReq}
    {draws : List (Fin (randMax + 1) × Fin (randMax + 1))}
    (hexec : exec s (.create req draws) = some s') :
    Sound s (.create req draws) s' ↔ CallOk s (.create req draws) := by
  have hsound : Sound s (.create req draws) s' ↔ Consistent s' :=
    ⟨fun hs => hs.1, fun hc => ⟨hc, nofun⟩⟩
  rw [hsound]
  cases hi : getInst s req.instanceId with
  | none =>
    simp only [exec, newGtpuCreateTunnel, hi] at hexec
    cases hexec
    exact iff_of_true h (getInst_none hi _ _)
  | some m =>
    obtain ⟨b, hfree, hnz, hat, hte⟩ := create_spec hi hexec
    have hue : ueOf s' = Function.update (ueOf s) b.teidIncoming.toNat (some req.ueId) := by
      funext k
      unfold ueOf
      rw [hte, StdMap.lookup_insert_if]
      by_cases hk : k = b.teidIncoming.toNat
      · rw [if_pos hk, hk, update_self]
        rfl
      · rw [if_neg hk, update_of_ne hk]
    refine ⟨fun hc => ?_, fun hnone => ?_⟩
    · -- a bearer that was there loses its TEID, which stays a key
      by_contra hsome
      obtain ⟨old, hold⟩ := Option.ne_none_iff_exists'.mp hsome
      have hkey := teidAt_eq_some.mpr ⟨old, hold, rfl⟩
      have howned := h.paired.forward _ _ hkey
      have hne : old.teidIncoming.toNat ≠ b.teidIncoming.toNat := fun heq => by
        rw [heq] at howned
        unfold ueOf at howned
        rw [hfree] at howned
        cases howned
      refine (h.paired.unowned hkey (fun x hx => ?_) ?_) hc.paired
      · obtain ⟨bx, hbx, hbk⟩ := teidAt_eq_some.mp hx
        rw [hat] at hbx
        by_cases hhere : x = ⟨compatInst s req.instanceId, req.ueId, toKey req.outgoingBearerId⟩
        · rw [if_pos hhere] at hbx
          cases hbx
          exact absurd hbk.symm hne
        · rw [if_neg hhere] at hbx
          split at hbx
          · cases hbx
          · exact ⟨hhere, teidAt_eq_some.mpr ⟨bx, hbx, hbk⟩⟩
      · rw [hue, update_of_ne hne, howned]
        exact Option.some_ne_none _
    · have hteid : teidAt s' = Function.update (teidAt s)
          ⟨compatInst s req.instanceId, req.ueId, toKey req.outgoingBearerId⟩
          (some b.teidIncoming.toNat) := by
        funext p
        unfold teidAt
        rw [hat]
        by_cases hp : p = ⟨compatInst s req.instanceId, req.ueId, toKey req.outgoingBearerId⟩
        · rw [if_pos hp, hp, update_self]
          rfl
        · rw [if_neg hp, update_of_ne hp, if_neg fun hcon => hcon.2 hnone]
      refine consistent_iff.mpr ⟨?_, ?_⟩
      · rw [hteid, hue]
        refine h.paired.add ?_ (ueOf_eq_none.mpr (AList.lookup_eq_none.mp hfree))
        unfold teidAt
        rw [show bearerAt s _ = none from hnone]
        rfl
      · rw [hte]
        exact fun hzero => ((AList.mem_insert _).mp hzero).elim (fun h0 => hnz h0.symm) h.noZero

/-! ## Update -/

lemma updateOutgoing_consistent (h : Consistent s) (inst ueId bearerId : Nat) (addr : List UInt8)
    (teid : UInt32) :
    Consistent (gtpuUpdateTunnelOutgoingAddressAndTeid s inst ueId bearerId addr teid) := by
  unfold gtpuUpdateTunnelOutgoingAddressAndTeid
  split
  · exact h
  · rename_i m hi
    split
    · exact h
    · rename_i bs hu
      split
      · exact h
      · rename_i b hb
        have hbs := bearerAt_of_ue (getInst_eq hi) hu
        refine h.congr (fun p => ?_) rfl
        unfold teidAt
        rw [bearerAt_insertUe (getInst_eq hi)]
        by_cases hp : p.inst = compatInst s inst ∧ p.ue = ueId
        · obtain ⟨i, u, k⟩ := p
          obtain ⟨rfl, rfl⟩ := hp
          rw [if_pos ⟨rfl, rfl⟩, StdMap.lookup_insert_if, hbs]
          by_cases hk : k = bearerId
          · subst hk
            rw [if_pos rfl, hb]
            rfl
          · rw [if_neg hk]
        · rw [if_neg hp]

variable {te2ue : StdMap UeidData} {teid : Nat}

lemma mem_changeOwner :
    k ∈ changeOwner te2ue teid oldUeId newUeId ↔ k = teid ∨ k ∈ te2ue := by
  unfold changeOwner
  dsimp only
  split
  · rw [AList.mem_insert, StdMap.mem_touch]
    tauto
  · exact StdMap.mem_touch

lemma lookup_changeOwner (newUeId : Nat)
    (h : (te2ue.lookup teid).map (fun d => d.ueId) = some oldUeId) (k : Nat) :
    ((changeOwner te2ue teid oldUeId newUeId).lookup k).map (fun d => d.ueId) =
      if k = teid then some newUeId else (te2ue.lookup k).map fun d => d.ueId := by
  obtain ⟨d, hd, hold⟩ := Option.map_eq_some_iff.mp h
  have hmem : teid ∈ te2ue := AList.lookup_isSome.mp (by rw [hd]; rfl)
  unfold changeOwner
  simp only [StdMap.touch_of_mem hmem, hd, Option.getD_some, if_pos hold]
  rw [StdMap.lookup_insert_if]
  by_cases hk : k = teid
  · rw [if_pos hk, if_pos hk]
    rfl
  · rw [if_neg hk, if_neg hk]

section

variable (h : changeOwners oldUeId newUeId fuel i bs te = some (bs', te'))
include h

lemma changeOwners_keys (hk : k ∈ te) : k ∈ te' := by
  induction fuel generalizing i bs te with
  | zero => cases h
  | succ fuel ih =>
    unfold changeOwners at h
    split at h
    · exact ih h (mem_changeOwner.mpr (.inr hk))
    · cases h
      exact hk

theorem changeOwners_gap (hik : i ≤ k) (hk : k < bs.size) (hmiss : k ∉ bs) : 0 ∈ te' := by
  induction fuel generalizing i bs te with
  | zero => cases h
  | succ fuel ih =>
    unfold changeOwners at h
    rw [if_pos (lt_of_le_of_lt hik hk)] at h
    by_cases hi : i ∈ bs
    · -- not yet there
      have hne : i ≠ k := fun heq => hmiss (heq ▸ hi)
      refine ih h (by omega) ?_ ?_
      · rw [StdMap.touch_of_mem hi]
        exact hk
      · rw [StdMap.touch_of_mem hi]
        exact hmiss
    · refine changeOwners_keys h (mem_changeOwner.mpr (.inl ?_))
      rw [StdMap.lookup_touch, AList.lookup_eq_none.mpr hi]
      rfl

end

/-- Without gaps every TEID of the bearers gets the new owner, and no other. -/
theorem changeOwners_spec (hkeys : ∀ k, k ∈ bs ↔ k < bs.size)
    (hinj : ∀ j l bj bl, bs.lookup j = some bj → bs.lookup l = some bl →
      bj.teidIncoming.toNat = bl.teidIncoming.toNat → j = l)
    (hold : ∀ j b, i ≤ j → bs.lookup j = some b →
      (te.lookup b.teidIncoming.toNat).map (fun d => d.ueId) = some oldUeId)
    (h : changeOwners oldUeId newUeId fuel i bs te = some (bs', te')) :
    bs' = bs ∧
    (∀ j b, i ≤ j → bs.lookup j = some b →
      (te'.lookup b.teidIncoming.toNat).map (fun d => d.ueId) = some newUeId) ∧
    ∀ k, (∀ j b, i ≤ j → bs.lookup j = some b → b.teidIncoming.toNat ≠ k) →
      (te'.lookup k).map (fun d => d.ueId) = (te.lookup k).map fun d => d.ueId := by
  induction fuel generalizing i te with
  | zero => cases h
  | succ fuel ih =>
    unfold changeOwners at h
    split at h
    · rename_i hlt
      have hmem : i ∈ bs := (hkeys i).mpr hlt
      obtain ⟨b, hb⟩ := Option.isSome_iff_exists.mp (AList.lookup_isSome.mpr hmem)
      simp only [StdMap.touch_of_mem hmem, hb, Option.getD_some] at h
      have hhere := lookup_changeOwner newUeId (hold i b (le_refl i) hb)
      -- the TEIDs of the bearers still to come are others
      have hlater : ∀ j bj, i + 1 ≤ j → bs.lookup j = some bj →
          bj.teidIncoming.toNat ≠ b.teidIncoming.toNat := fun j bj hj hbj heq => by
        have := hinj j i bj b hbj hb heq
        omega
      obtain ⟨hbs, hnew, hother⟩ := ih (fun j bj hj hbj => by
        rw [hhere, if_neg (hlater j bj hj hbj)]
        exact hold j bj (Nat.le_of_succ_le hj) hbj) h
      refine ⟨hbs, fun j bj hj hbj => ?_, fun k hk => ?_⟩
      · rcases Nat.eq_or_lt_of_le hj with rfl | hlt'
        · rw [hb] at hbj
          cases hbj
          exact (hother _ hlater).trans ((hhere _).trans (if_pos rfl))
        · exact hnew j bj hlt' hbj
      · refine (hother k fun j bj hj hbj => hk j bj (Nat.le_of_succ_le hj) hbj).trans ?_
        exact (hhere k).trans (if_neg fun heq => hk i b (le_refl i) hb heq.symm)
    · rename_i hge
      cases h
      -- there is no bearer from the size on
      have hnone : ∀ j b, i ≤ j → bs.lookup j ≠ some b := fun j b hj hb => by
        have hmem : j ∈ bs := AList.lookup_isSome.mp (by rw [hb]; rfl)
        have := (hkeys j).mp hmem
        omega
      exact ⟨rfl, fun j b hj hb => absurd hb (hnone j b hj), fun _ _ => rfl⟩

/-- The bearers move to the new id; whatever else was there under it is gone. -/
theorem updateUeId_spec
    (hu : ((s.instances.lookup (compatInst s inst)).getD ∅).lookup oldUeId = some bs)
    (h : exec s (.updateUeId inst oldUeId newUeId) = some s') :
    ∃ bs', changeOwners oldUeId newUeId (changeOwnersFuel bs) 0 bs s.te2ueMapping =
        some (bs', s'.te2ueMapping) ∧
      ∀ p, bearerAt s' p = if p.inst = compatInst s inst ∧ p.ue = oldUeId then none
        else if p.inst = compatInst s inst ∧ p.ue = newUeId then bs'.lookup p.bearer
        else bearerAt s p := by
  simp only [exec, gtpv1uUpdateUeId, hu] at h
  obtain ⟨⟨s'', code⟩, hs'', rfl⟩ := Option.map_eq_some_iff.mp h
  split at hs''
  · cases hs''
  · rename_i bs' te' hloop
    cases hs''
    refine ⟨bs', hloop, fun p => (bearerAt_setInst s _ _ p).trans ?_⟩
    by_cases hp : p.inst = compatInst s inst
    · have hin := bearerAt_of_inst (s := s) (by rw [hp])
      rw [if_pos hp, hin]
      simp only [hp, true_and]
      unfold bearerIn
      rw [StdMap.lookup_erase_if, StdMap.lookup_insert_if]
      by_cases h1 : p.ue = oldUeId
      · rw [if_pos h1, if_pos h1]
        rfl
      · rw [if_neg h1, if_neg h1]
        by_cases h2 : p.ue = newUeId
        · rw [if_pos h2, if_pos h2]
          rfl
        · rw [if_neg h2, if_neg h2]
    · rw [if_neg hp, if_neg fun hc => hp hc.1, if_neg fun hc => hp hc.1]

/-- The place of a bearer after its UE has changed its id. -/
def moveUe (i oldUeId newUeId : Nat) (p : Place) : Place :=
  if p.inst = i then ⟨p.inst, Equiv.swap oldUeId newUeId p.ue, p.bearer⟩ else p

lemma moveUe_involutive (i oldUeId newUeId : Nat) :
    Function.Involutive (moveUe i oldUeId newUeId) := by
  intro p
  unfold moveUe
  by_cases h : p.inst = i
  · rw [if_pos h, if_pos h]
    simp
  · rw [if_neg h, if_neg h]

lemma updateUeId_keys (h : Consistent s)
    (hu : ((s.instances.lookup (compatInst s inst)).getD ∅).lookup oldUeId = some bs)
    (hloop : changeOwners oldUeId newUeId (changeOwnersFuel bs) 0 bs s.te2ueMapping =
      some (bs', s'.te2ueMapping)) (hkeys : ∀ k, k ∈ bs ↔ k < bs.size) :
    bs' = bs ∧
    (∀ b k, teidAt s ⟨compatInst s inst, oldUeId, b⟩ = some k → ueOf s' k = some newUeId) ∧
    ∀ k, (∀ b, teidAt s ⟨compatInst s inst, oldUeId, b⟩ ≠ some k) → ueOf s' k = ueOf s k := by
  have hteid : ∀ j b, bs.lookup j = some b →
      teidAt s ⟨compatInst s inst, oldUeId, j⟩ = some b.teidIncoming.toNat := fun j b hb =>
    teidAt_eq_some.mpr ⟨b, (bearerAt_of_ue rfl hu j).trans hb, rfl⟩
  have hinj : ∀ j l bj bl, bs.lookup j = some bj → bs.lookup l = some bl →
      bj.teidIncoming.toNat = bl.teidIncoming.toNat → j = l := fun j l bj bl hj hl heq => by
    have hplace := h.paired.inj _ _ _ (hteid j bj hj) (heq ▸ hteid l bl hl)
    exact congrArg Place.bearer hplace
  have hold : ∀ j b, 0 ≤ j → bs.lookup j = some b →
      (s.te2ueMapping.lookup b.teidIncoming.toNat).map (fun d => d.ueId) = some oldUeId :=
    fun j b _ hb => h.paired.forward _ _ (hteid j b hb)
  obtain ⟨hbs, hnew, hother⟩ := changeOwners_spec hkeys hinj hold hloop
  refine ⟨hbs, fun j k hk => ?_, fun k hk => hother k fun j b _ hb heq => ?_⟩
  · obtain ⟨b, hb, rfl⟩ := teidAt_eq_some.mp hk
    exact hnew j b (Nat.zero_le j) ((bearerAt_of_ue rfl hu j).symm.trans hb)
  · exact hk j (heq ▸ hteid j b hb)

lemma updateUeId_needs (h : Consistent s) (hc : Consistent s')
    (hexec : exec s (.updateUeId inst oldUeId newUeId) = some s') :
    CallOk s (.updateUeId inst oldUeId newUeId) := by
  intro bs hu
  obtain ⟨bs', hloop, hat⟩ := updateUeId_spec hu hexec
  have hkeys : ∀ k, k ∈ bs ↔ k < bs.size := by
    by_contra hgap
    obtain ⟨k, hk, hmiss⟩ := StdMap.exists_missing hgap
    exact hc.noZero (changeOwners_gap hloop (Nat.zero_le k) hk hmiss)
  refine ⟨hkeys, fun b => ?_⟩
  -- else the bearer is written over, and its key stays
  by_contra hsome
  obtain ⟨br, hbr⟩ := Option.ne_none_iff_exists'.mp hsome
  have hkey := teidAt_eq_some.mpr ⟨br, hbr, rfl⟩
  obtain ⟨rfl, -, -⟩ := updateUeId_keys h hu hloop hkeys
  refine (h.paired.unowned hkey (fun x hx => ?_) ?_) hc.paired
  · unfold teidAt at hx
    rw [hat] at hx
    by_cases h1 : x.inst = compatInst s inst ∧ x.ue = oldUeId
    · rw [if_pos h1] at hx
      cases hx
    · rw [if_neg h1] at hx
      by_cases h2 : x.inst = compatInst s inst ∧ x.ue = newUeId
      · rw [if_pos h2, ← bearerAt_of_ue rfl hu] at hx
        have hplace := h.paired.inj _ _ _ hx hkey
        exact absurd ⟨h2.1, h2.2.trans (congrArg Place.ue hplace).symm⟩ h1
      · rw [if_neg h2] at hx
        exact ⟨fun heq => h2 ⟨congrArg Place.inst heq, congrArg Place.ue heq⟩, hx⟩
  · refine ueOf_ne_none.mpr (changeOwners_keys hloop (ueOf_ne_none.mp ?_))
    rw [h.paired.forward _ _ hkey]
    exact Option.some_ne_none _

lemma teidAt_moveUe
    (hu : ((s.instances.lookup (compatInst s inst)).getD ∅).lookup oldUeId = some bs)
    (hat : ∀ p, bearerAt s' p = if p.inst = compatInst s inst ∧ p.ue = oldUeId then none
      else if p.inst = compatInst s inst ∧ p.ue = newUeId then bs.lookup p.bearer
      else bearerAt s p) (hnone : ∀ b, bearerAt s ⟨compatInst s inst, newUeId, b⟩ = none)
    (p : Place) : bearerAt s' (moveUe (compatInst s inst) oldUeId newUeId p) = bearerAt s p := by
  obtain ⟨i, u, b⟩ := p
  unfold moveUe
  by_cases hi : i = compatInst s inst
  · subst hi
    rw [if_pos rfl, hat]
    by_cases hold : u = oldUeId
    · subst hold
      rw [Equiv.swap_apply_left]
      by_cases hsame : newUeId = u
      · subst hsame
        rw [if_pos ⟨rfl, rfl⟩, hnone]
      · rw [if_neg fun hc => hsame hc.2, if_pos ⟨rfl, rfl⟩, bearerAt_of_ue rfl hu]
    · by_cases hnew : u = newUeId
      · subst hnew
        rw [Equiv.swap_apply_right, if_pos ⟨rfl, rfl⟩, hnone]
      · rw [Equiv.swap_apply_of_ne_of_ne hold hnew, if_neg fun hc => hold hc.2,
          if_neg fun hc => hnew hc.2]
  · rw [if_neg hi, hat, if_neg fun hc => hi hc.1, if_neg fun hc => hi hc.1]

lemma updateUeId_keeps (h : Consistent s)
    (hu : ((s.instances.lookup (compatInst s inst)).getD ∅).lookup oldUeId = some bs)
    (hexec : exec s (.updateUeId inst oldUeId newUeId) = some s')
    (hok : CallOk s (.updateUeId inst oldUeId newUeId)) : Consistent s' := by
  obtain ⟨bs', hloop, hat⟩ := updateUeId_spec hu hexec
  obtain ⟨hkeys, hnone⟩ := hok bs hu
  obtain ⟨rfl, hnew, hother⟩ := updateUeId_keys h hu hloop hkeys
  refine consistent_iff.mpr ⟨h.paired.rename (moveUe_involutive (compatInst s inst) oldUeId
    newUeId).toPerm (fun p => ?_) (fun p k hk => ?_) fun k hk => ?_, fun hzero => ?_⟩
  · exact congrArg (Option.map _) (teidAt_moveUe hu hat hnone p)
  · change ueOf s' k = some (moveUe _ _ _ p).ue
    obtain ⟨i, u, b⟩ := p
    unfold moveUe
    by_cases hi : i = compatInst s inst ∧ u = oldUeId
    · obtain ⟨rfl, rfl⟩ := hi
      rw [if_pos rfl, Equiv.swap_apply_left]
      exact hnew b k hk
    · -- another UE's key is no key of the old UE
      have hforeign : ∀ b', teidAt s ⟨compatInst s inst, oldUeId, b'⟩ ≠ some k := fun b' hb' => by
        have hplace := h.paired.inj _ _ _ hk hb'
        exact hi ⟨congrArg Place.inst hplace, congrArg Place.ue hplace⟩
      rw [hother k hforeign, h.paired.forward _ _ hk]
      by_cases hinst : i = compatInst s inst
      · subst hinst
        have hnotNew : u ≠ newUeId := fun heq => by
          unfold teidAt at hk
          rw [heq, hnone] at hk
          cases hk
        rw [if_pos rfl, Equiv.swap_apply_of_ne_of_ne (fun heq => hi ⟨rfl, heq⟩) hnotNew]
      · rw [if_neg hinst]
  · rw [hother k fun b hb => ?_]
    · exact hk
    · rw [h.paired.forward _ _ hb] at hk
      cases hk
  · have hfree := ueOf_eq_none.mpr h.noZero
    have hzero' := hother 0 fun b hb => by
      rw [h.paired.forward _ _ hb] at hfree
      cases hfree
    exact ueOf_ne_none.mpr hzero (hzero'.trans hfree)

lemma updateUeId_sound (h : Consistent s)
    (hexec : exec s (.updateUeId inst oldUeId newUeId) = some s') :
    Sound s (.updateUeId inst oldUeId newUeId) s' ↔ CallOk s (.updateUeId inst oldUeId newUeId) := by
  refine ⟨fun hs => updateUeId_needs h hs.1 hexec, fun hok => ⟨?_, nofun⟩⟩
  cases hu : ((s.instances.lookup (compatInst s inst)).getD ∅).lookup oldUeId with
  | none =>
    -- at most the instance is new
    simp only [exec, gtpv1uUpdateUeId, hu] at hexec
    cases hexec
    refine h.congr (fun p => ?_) rfl
    unfold teidAt
    rw [bearerAt_setInst_same rfl]
  | some bs => exact updateUeId_keeps h hu hexec hok

/-! ## Runs -/

lemma exec_sound (h : Consistent s) (hexec : exec s call = some s') :
    Sound s call s' ↔ CallOk s call := by
  cases call with
  | create req draws => exact create_sound h hexec
  | updateOutgoing inst ueId bearerId addr teid =>
    cases hexec
    exact iff_of_true ⟨updateOutgoing_consistent h _ _ _ _ _, nofun⟩
      trivial
  | updateUeId inst oldUeId newUeId => exact updateUeId_sound h hexec
  | deleteOne inst ueId rbId =>
    cases hexec
    exact deleteOne_sound h inst ueId rbId
  | deleteListed inst ueId ids =>
    cases hexec
    exact deleteTunnels_sound h inst ueId ids
  | deleteS1u inst rnti ids =>
    cases hexec
    exact deleteS1u_sound h inst rnti ids
  | deleteAll inst ueId =>
    cases hexec
    exact iff_of_true (deleteAll_sound h inst ueId) trivial

lemma along_sound (h : Consistent s) (calls : List Call) :
    Along Sound s calls ↔ Along (fun s call _ => CallOk s call) s calls := by
  induction calls generalizing s with
  | nil => exact Iff.rfl
  | cons call calls ih =>
    refine forall_congr' fun s' => forall_congr' fun hexec => ?_
    have hcall := exec_sound h hexec
    refine ⟨fun ⟨hs, hrest⟩ => ⟨hcall.mp hs, (ih hs.1).mp hrest⟩, fun ⟨hok, hrest⟩ => ?_⟩
    have hs := hcall.mpr hok
    exact ⟨hs, (ih hs.1).mpr hrest⟩

/-- **The tunnel maps along a run.**  From the state after the start, whatever the calls: every
state of the run is consistent, and every delete deletes exactly what it was asked to, if and only
if each call meets its condition in the state it is made in. -/
theorem tunnel_maps_consistent_iff (s : State) (h : Started s) (calls : List Call) :
    Along Sound s calls ↔ Along (fun s call _ => CallOk s call) s calls :=
  along_sound (started_consistent h) calls

/-- Instance 7 without tunnels. -/
def oneInstance : State := ⟨AList.singleton 7 ∅, ∅, 7⟩

/-- A tunnel for a bearer of UE 5, with the two draws of its TEID. -/
def createFor (bearer : Int) (r1 r2 : Fin (randMax + 1)) : Call :=
  .create ⟨7, 5, 1, bearer, 100, -1, [10, 0, 0, 1], 2152, 1, 0⟩ [(r1, r2)]

lemma oneInstance_started : Started oneInstance := by
  refine ⟨fun i m h => ?_, rfl⟩
  by_cases hi : i = 7
  · subst hi
    cases h
    rfl
  · have hnone : oneInstance.instances.lookup i = none :=
      AList.lookup_eq_none.mpr fun hmem => hi (mem_singleton.mp (AList.mem_keys.mp hmem))
    rw [hnone] at h
    cases h

theorem tunnel_maps_consistent_two_bearers :
    Along Sound oneInstance
      [createFor 0 0 0, createFor 1 0 1, .updateUeId 7 5 6, .deleteOne 7 6 1] := by
  apply (tunnel_maps_consistent_iff oneInstance oneInstance_started _).mpr
  intro s1 h1
  cases h1
  refine ⟨rfl, fun s2 h2 => ?_⟩
  cases h2
  refine ⟨rfl, fun s3 h3 => ?_⟩
  cases h3
  refine ⟨fun bs hbs => ?_, fun s4 h4 => ⟨fun b hb => ?_, trivial⟩⟩
  · cases hbs
    refine ⟨fun k => ?_, fun _ => rfl⟩
    change k ∈ [1, 0] ↔ k < 2
    simp only [mem_cons, not_mem_nil, or_false]
    omega
  · cases hb
    decide

/-- **Four ways to break the maps**: a bearer created again; a new UE id for a UE whose bearer has
the number 1; a delete of a bearer with a TEID from `2^31` on; a delete of a listed bearer. -/
theorem tunnel_maps_broken :
    ¬Along Sound oneInstance [createFor 1 0 0, createFor 1 0 1] ∧
    ¬Along Sound oneInstance [createFor 1 0 0, .updateUeId 7 5 6] ∧
    ¬Along Sound oneInstance [createFor 1 2147483647 0, .deleteOne 7 5 1] ∧
    ¬Along Sound oneInstance [createFor 1 0 0, .deleteListed 7 5 [1]] := by
  have hstart := started_consistent oneInstance_started
  refine ⟨fun h => ?_, fun h => ?_, fun h => ?_, fun h => ?_⟩
  · obtain ⟨-, h⟩ := (along_sound hstart _).mp h _ rfl
    obtain ⟨h, -⟩ := h _ rfl
    cases h
  · obtain ⟨-, h⟩ := (along_sound hstart _).mp h _ rfl
    obtain ⟨h, -⟩ := h _ rfl
    have hgap := (h _ rfl).1 1
    revert hgap
    decide
  · obtain ⟨-, h⟩ := (along_sound hstart _).mp h _ rfl
    obtain ⟨h, -⟩ := h _ rfl
    have hlt := h _ rfl
    revert hlt
    decide
  · obtain ⟨-, h⟩ := (along_sound hstart _).mp h _ rfl
    obtain ⟨h, -⟩ := h _ rfl
    have hnone := h 1 (mem_singleton.mpr rfl)
    cases hnone

end NrStack.Gtpu
