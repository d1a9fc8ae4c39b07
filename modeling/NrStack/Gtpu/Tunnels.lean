/-
  GTP-U tunnels: the two maps of `gtp_itf.cpp` and the calls that change them.

  `ue2te_mapping` (one per instance) has for a UE and a bearer the tunnel, with its incoming TEID;
  `te2ue_mapping` (one for all) has for an incoming TEID the UE the packet is for.

  A `std::map` is an `AList`; `m[k]`, which makes the entry when there is none, is `touch`.  Keys are
  `uint64_t`, an `int` used as one goes through the conversion of C (`toKey`).  `none` is a failed
  `AssertFatal`, or random draws that ended before a free TEID.
-/
import Mathlib

namespace NrStack.Gtpu

open List

/-! ## Maps -/

/-- `std::map` with integer keys. -/
abbrev StdMap (β : Type) := AList fun _ : Nat => β

namespace StdMap

variable {β : Type}

/-- `size()` -/
def size (m : StdMap β) : Nat := m.keys.length

/-- What `m[k]` does to the map: an entry `d` is made when there is none. -/
def touch (m : StdMap β) (k : Nat) (d : β) : StdMap β :=
  match m.lookup k with
  | some _ => m
  | none => m.insert k d

/-- `erase` for each of a list of keys. -/
def eraseAll (ks : List Nat) (m : StdMap β) : StdMap β := ks.foldl (fun m k => m.erase k) m

variable {m : StdMap β} {k x : Nat} {d : β}

lemma mem_touch : x ∈ touch m k d ↔ x = k ∨ x ∈ m := by
  unfold touch
  cases hk : m.lookup k with
  | none => exact AList.mem_insert m
  | some v =>
    refine ⟨.inr, fun h => ?_⟩
    rcases h with rfl | h
    · exact AList.lookup_isSome.mp (by rw [hk]; rfl)
    · exact h

lemma lookup_touch : (touch m k d).lookup k = some ((m.lookup k).getD d) := by
  unfold touch
  cases hk : m.lookup k with
  | none => exact AList.lookup_insert m
  | some v => exact hk

lemma touch_of_mem (h : k ∈ m) : touch m k d = m := by
  unfold touch
  obtain ⟨v, hv⟩ := Option.isSome_iff_exists.mp (AList.lookup_isSome.mpr h)
  rw [hv]

lemma lookup_insert_if {v : β} :
    (AList.insert k v m).lookup x = if x = k then some v else m.lookup x := by
  by_cases h : x = k
  · subst h
    rw [if_pos rfl]
    exact AList.lookup_insert m
  · rw [if_neg h]
    exact AList.lookup_insert_ne h

lemma lookup_erase_if : (AList.erase k m).lookup x = if x = k then none else m.lookup x := by
  by_cases h : x = k
  · subst h
    rw [if_pos rfl]
    exact AList.lookup_erase x m
  · rw [if_neg h]
    exact AList.lookup_erase_ne h

lemma lookup_eraseAll (ks : List Nat) :
    (eraseAll ks m).lookup x = if x ∈ ks then none else m.lookup x := by
  induction ks generalizing m with
  | nil => rfl
  | cons k ks ih =>
    change (eraseAll ks (m.erase k)).lookup x = _
    rw [ih, lookup_erase_if]
    by_cases hx : x ∈ ks
    · rw [if_pos hx, if_pos (mem_cons_of_mem k hx)]
    · rw [if_neg hx]
      by_cases hk : x = k
      · rw [if_pos hk, if_pos (hk ▸ mem_cons_self)]
      · rw [if_neg hk, if_neg (fun h => (mem_cons.mp h).elim hk hx)]

lemma exists_missing (h : ¬∀ k, k ∈ m ↔ k < size m) : ∃ k, k < size m ∧ k ∉ m := by
  by_contra hnone
  have hall : ∀ k, k < size m → k ∈ m := fun k hk => by
    by_contra hmem
    exact hnone ⟨k, hk, hmem⟩
  refine h fun k => ⟨fun hk => ?_, hall k⟩
  have hsub : Finset.range (size m) ⊆ m.keys.toFinset := fun x hx =>
    mem_toFinset.mpr (AList.mem_keys.mp (hall x (Finset.mem_range.mp hx)))
  have hcard : m.keys.toFinset.card ≤ (Finset.range (size m)).card := by
    rw [toFinset_card_of_nodup m.keys_nodup, Finset.card_range]
    exact le_refl _
  have hmem : k ∈ Finset.range (size m) := by
    rw [Finset.eq_of_subset_of_card_le hsub hcard]
    exact mem_toFinset.mpr (AList.mem_keys.mp hk)
  exact Finset.mem_range.mp hmem

lemma size_le {n : Nat} (h : ∀ k ∈ m, k < n) : size m ≤ n := by
  have hsub : m.keys.toFinset ⊆ Finset.range n := fun k hk =>
    Finset.mem_range.mpr (h k (AList.mem_keys.mpr (mem_toFinset.mp hk)))
  have hcard := Finset.card_le_card hsub
  rwa [toFinset_card_of_nodup m.keys_nodup, Finset.card_range] at hcard

end StdMap

/-! ## State -/

/-- `gtpv1u_bearer_t`; an entry that `operator[]` makes is all zero. -/
structure Bearer where
  teidIncoming : UInt32 := 0
  teidOutgoing : UInt32 := 0
  outgoingIpAddr : List UInt8 := [0, 0, 0, 0]
  outgoingIp6Addr : List UInt8 := List.replicate 16 0
  outgoingPort : Nat := 0
  seqNum : Nat := 0
  npduNum : Nat := 0
  outgoingQfi : Int := 0
deriving DecidableEq

/-- `ueidData_t`; the callbacks are names, `0` being `NULL`. -/
structure UeidData where
  ueId : Nat := 0
  incomingRbId : Nat := 0
  callBack : Nat := 0
  outgoingTeid : UInt32 := 0
  callBackSDAP : Nat := 0
  pdusessionId : Nat := 0
deriving DecidableEq

/-- The bearers of a UE, by their ids. -/
abbrev Bearers := StdMap Bearer

/-- `gtpEndPoint.ue2te_mapping`. -/
abbrev Ue2te := StdMap Bearers

/-- `gtpEndPoints`: the end points by instance and the map of the incoming TEIDs. -/
structure State where
  instances : StdMap Ue2te
  te2ueMapping : StdMap UeidData
  legacyInstanceMapping : Nat

/-- `INSTANCE_DEFAULT` -/
def instanceDefault : Nat := 65534

/-- `GTPNOK` -/
def gtpNok : Int := -1

/-- `!GTPNOK`. -/
def gtpOk : Int := 0

/-- `compatInst`: 0 and the default stand for the first instance. -/
def compatInst (s : State) (a : Nat) : Nat :=
  if a = 0 ∨ a = instanceDefault then s.legacyInstanceMapping else a

lemma compatInst_idem (s : State) (a : Nat) : compatInst s (compatInst s a) = compatInst s a := by
  unfold compatInst
  by_cases h : a = 0 ∨ a = instanceDefault
  · rw [if_pos h]
    exact ite_self _
  · rw [if_neg h, if_neg h]

/-- An `int` as a key of a map: the conversion to `uint64_t`. -/
def toKey (b : Int) : Nat := (b % 2 ^ 64).toNat

/-- A `teid_t` in an `int`. -/
def toInt (teid : UInt32) : Int := if teid.toNat < 2 ^ 31 then teid.toNat else teid.toNat - 2 ^ 32

variable {teid : UInt32}

lemma toKey_toInt_of_lt (h : teid.toNat < 2 ^ 31) : toKey (toInt teid) = teid.toNat := by
  unfold toKey toInt
  omega

lemma toKey_toInt_of_ge (h : 2 ^ 31 ≤ teid.toNat) : 2 ^ 32 ≤ toKey (toInt teid) := by
  have hlt : teid.toNat < 2 ^ 32 := teid.toNat_lt
  unfold toKey toInt
  omega

/-- `getInstRetInt(compatInst(instance))`. -/
def getInst (s : State) (inst : Nat) : Option Ue2te :=
  s.instances.lookup (compatInst s (compatInst s inst))

/-- `inst->ue2te_mapping` written back. -/
def setInst (s : State) (inst : Nat) (m : Ue2te) : State :=
  { s with instances := s.instances.insert inst m }

/-! ## Create -/

/-- `RAND_MAX` -/
def randMax : Nat := 2147483647

/-- `gtpv1uNewTeid` from two results of `random()`. -/
def gtpv1uNewTeid (draw : Fin (randMax + 1) × Fin (randMax + 1)) : UInt32 :=
  UInt32.ofNat (draw.1 + draw.2 % (randMax - 1) + 1)

lemma gtpv1uNewTeid_ne_zero (draw : Fin (randMax + 1) × Fin (randMax + 1)) :
    (gtpv1uNewTeid draw).toNat ≠ 0 := by
  have h1 : draw.1.val < 2147483648 := draw.1.isLt
  change (UInt32.ofNat (draw.1.val + draw.2.val % 2147483646 + 1)).toNat ≠ 0
  rw [UInt32.toNat_ofNat']
  omega

/-- The draws until one is free. -/
def freshTeid (te2ue : StdMap UeidData) :
    List (Fin (randMax + 1) × Fin (randMax + 1)) → Option UInt32
  | [] => none
  | draw :: draws =>
    match te2ue.lookup (gtpv1uNewTeid draw).toNat with
    | none => some (gtpv1uNewTeid draw)
    | some _ => freshTeid te2ue draws

lemma freshTeid_spec {te2ue : StdMap UeidData}
    {draws : List (Fin (randMax + 1) × Fin (randMax + 1))} (h : freshTeid te2ue draws = some teid) :
    te2ue.lookup teid.toNat = none ∧ teid.toNat ≠ 0 := by
  induction draws with
  | nil => cases h
  | cons draw draws ih =>
    unfold freshTeid at h
    cases hl : te2ue.lookup (gtpv1uNewTeid draw).toNat with
    | none =>
      rw [hl] at h
      cases h
      exact ⟨hl, gtpv1uNewTeid_ne_zero draw⟩
    | some d =>
      rw [hl] at h
      exact ih h

/-- The arguments of `newGtpuCreateTunnel`. -/
structure CreateReq where
  instanceId : Nat
  ueId : Nat
  incomingBearerId : Int
  outgoingBearerId : Int
  outgoingTeid : UInt32
  outgoingQfi : Int
  remoteAddr : List UInt8
  port : Nat
  callBack : Nat
  callBackSDAP : Nat

/-- An address of both kinds has no `break` and runs into the assertion of `default`. -/
def copyAddress (tmp : Bearer) (remoteAddr : List UInt8) : Option Bearer :=
  if remoteAddr.length = 4 then some { tmp with outgoingIpAddr := remoteAddr }
  else if remoteAddr.length = 16 then some { tmp with outgoingIp6Addr := remoteAddr }
  else none

/-- The entry of the UE is thrown away as a whole when it has the bearer already. -/
def dropExisting (ue2te : Ue2te) (ueId key : Nat) : Ue2te :=
  match (ue2te.lookup ueId).bind fun bearers => bearers.lookup key with
  | some _ => ue2te.erase ueId
  | none => ue2te

/-- The entry of `te2ue_mapping` for a request. -/
def newUeidData (req : CreateReq) : UeidData where
  ueId := req.ueId
  incomingRbId := toKey req.incomingBearerId % 256
  callBack := req.callBack
  outgoingTeid := req.outgoingTeid
  callBackSDAP := req.callBackSDAP
  pdusessionId := toKey req.outgoingBearerId % 256

/-- `newGtpuCreateTunnel`, returning the incoming TEID. -/
def newGtpuCreateTunnel (s : State) (req : CreateReq)
    (draws : List (Fin (randMax + 1) × Fin (randMax + 1))) : Option (State × UInt32) :=
  match getInst s req.instanceId with
  | none => some (s, UInt32.ofInt gtpNok)
  | some ue2te =>
    let key := toKey req.outgoingBearerId
    let ue2te := dropExisting ue2te req.ueId key
    match freshTeid s.te2ueMapping draws with
    | none => none
    | some incomingTeid =>
      let bearers := (ue2te.lookup req.ueId).getD ∅
      match copyAddress ((bearers.lookup key).getD {}) req.remoteAddr with
      | none => none
      | some tmp =>
        let tmp := { tmp with
          teidIncoming := incomingTeid
          outgoingPort := req.port % 2 ^ 16
          teidOutgoing := req.outgoingTeid
          outgoingQfi := req.outgoingQfi }
        some ({ setInst s (compatInst s req.instanceId)
                  (ue2te.insert req.ueId (bearers.insert key tmp)) with
                te2ueMapping := s.te2ueMapping.insert incomingTeid.toNat (newUeidData req) },
          incomingTeid)

/-! ## Update -/

/-- `GtpuUpdateTunnelOutgoingAddressAndTeid` -/
def gtpuUpdateTunnelOutgoingAddressAndTeid (s : State) (inst ueId bearerId : Nat)
    (newOutgoingAddr : List UInt8) (newOutgoingTeid : UInt32) : State :=
  match getInst s inst with
  | none => s
  | some ue2te =>
    match ue2te.lookup ueId with
    | none => s
    | some bearers =>
      match bearers.lookup bearerId with
      | none => s
      | some b =>
        let b := { b with outgoingIpAddr := newOutgoingAddr, teidOutgoing := newOutgoingTeid }
        setInst s (compatInst s inst) (ue2te.insert ueId (bearers.insert bearerId b))

/-- `te2ue_mapping[incoming_teid].ue_id = new_ue_id` where it was the old one. -/
def changeOwner (te2ue : StdMap UeidData) (teid oldUeId newUeId : Nat) : StdMap UeidData :=
  let te2ue := te2ue.touch teid {}
  let d := (te2ue.lookup teid).getD {}
  if d.ueId = oldUeId then te2ue.insert teid { d with ueId := newUeId } else te2ue

/-- `gtpv1u_update_ue_id`: `i` runs up to the NUMBER of bearers and is used as the bearer's KEY, so that
one that does not exist is made. -/
def changeOwners (oldUeId newUeId : Nat) :
    Nat → Nat → Bearers → StdMap UeidData → Option (Bearers × StdMap UeidData)
  | 0, _, _, _ => none
  | fuel + 1, i, bearers, te2ue =>
    if i < bearers.size then
      let bearers := bearers.touch i {}
      let incomingTeid := ((bearers.lookup i).getD {}).teidIncoming
      changeOwners oldUeId newUeId fuel (i + 1) bearers
        (changeOwner te2ue incomingTeid.toNat oldUeId newUeId)
    else some (bearers, te2ue)

/-- Passes that are enough: `i` does not get beyond the largest key. -/
def changeOwnersFuel (bearers : Bearers) : Nat := bearers.keys.foldr max 0 + 2

/-- `gtpv1u_update_ue_id` -/
def gtpv1uUpdateUeId (s : State) (instP oldUeId newUeId : Nat) : Option (State × Int) :=
  let inst := compatInst s instP
  -- instances[...] makes the instance
  let ue2te := (s.instances.lookup inst).getD ∅
  match ue2te.lookup oldUeId with
  | none => some (setInst s inst ue2te, gtpNok)
  | some bearers =>
    match changeOwners oldUeId newUeId (changeOwnersFuel bearers) 0 bearers s.te2ueMapping with
    | none => none
    | some (bearers, te2ue) =>
      let ue2te := (ue2te.insert newUeId bearers).erase oldUeId
      some ({ setInst s inst ue2te with te2ueMapping := te2ue }, gtpOk)

/-- A bearer that a pass makes has a key behind `i`: once `i` is beyond the keys there were, it is
beyond the number of bearers. -/
lemma changeOwners_isSome {top fuel i oldUeId newUeId : Nat} {bs : Bearers} {te : StdMap UeidData}
    (hkeys : ∀ k ∈ bs, k < i ∨ k ≤ top) (hi : i ≤ top + 1) (hfuel : top + 2 ≤ i + fuel) :
    (changeOwners oldUeId newUeId fuel i bs te).isSome := by
  induction fuel generalizing i bs te with
  | zero => omega
  | succ fuel ih =>
    unfold changeOwners
    split
    next hlt =>
      have htop : i ≤ top := by
        by_contra hgt
        have hsize := StdMap.size_le (n := i) fun k hk => by
          rcases hkeys k hk with h | h <;> omega
        omega
      refine ih (fun k hk => ?_) (by omega) (by omega)
      rcases StdMap.mem_touch.mp hk with rfl | hk
      · exact .inl (Nat.lt_succ_self k)
      · exact (hkeys k hk).imp_left Nat.lt_succ_of_lt
    next => rfl

/-- **`gtpv1u_update_ue_id` ends**, though its loop makes bearers while it counts them. -/
theorem gtpv1uUpdateUeId_isSome (s : State) (instP oldUeId newUeId : Nat) :
    (gtpv1uUpdateUeId s instP oldUeId newUeId).isSome := by
  unfold gtpv1uUpdateUeId
  dsimp only
  split
  next => rfl
  next bs _ =>
    have hsome : (changeOwners oldUeId newUeId (changeOwnersFuel bs) 0 bs s.te2ueMapping).isSome :=
      changeOwners_isSome
        (fun k hk => .inr (le_max_of_le (AList.mem_keys.mp hk) (le_refl k)))
        (Nat.zero_le _) (Nat.le_of_eq (Nat.zero_add _).symm)
    obtain ⟨r, hr⟩ := Option.isSome_iff_exists.mp hsome
    rw [hr]
    rfl

/-! ## Delete -/

/-- `newGtpuDeleteOneTunnel`: the TEID passes through an `int`. -/
def newGtpuDeleteOneTunnel (s : State) (inst ueId : Nat) (rbId : Int) : State × Int :=
  match getInst s inst with
  | none => (s, gtpNok)
  | some ue2te =>
    match ue2te.lookup ueId with
    | none => (s, gtpOk)
    | some bearers =>
      match bearers.lookup (toKey rbId) with
      | none => (s, gtpOk)
      | some b =>
        -- the TEID goes through an int
        let teid := toInt b.teidIncoming
        ({ setInst s (compatInst s inst) (ue2te.insert ueId (bearers.erase (toKey rbId))) with
            te2ueMapping := s.te2ueMapping.erase (toKey teid) }, gtpOk)

/-- `newGtpuDeleteAllTunnels` -/
def newGtpuDeleteAllTunnels (s : State) (inst ueId : Nat) : State × Int :=
  match getInst s inst with
  | none => (s, gtpNok)
  | some ue2te =>
    match ue2te.lookup ueId with
    | none => (s, gtpNok)
    | some bearers =>
      let teids := bearers.entries.map fun e => e.2.teidIncoming.toNat
      ({ setInst s (compatInst s inst) (ue2te.erase ueId) with
          te2ueMapping := s.te2ueMapping.eraseAll teids }, gtpOk)

/-- The two deletes of a list of bearers: only `te2ue_mapping` loses their TEIDs. -/
def deleteListed (s : State) (inst ueId : Nat) (ue2te : Ue2te) (bearers : Bearers)
    (ids : List Nat) : State :=
  let teids := ids.filterMap fun id => (bearers.lookup id).map fun b => b.teidIncoming.toNat
  { setInst s inst (if bearers.size = 0 then ue2te.erase ueId else ue2te) with
    te2ueMapping := s.te2ueMapping.eraseAll teids }

/-- `newGtpuDeleteTunnels`: `ue2te_mapping` is copied, so it loses nothing. -/
def newGtpuDeleteTunnels (s : State) (inst ueId : Nat) (pdusessionId : List UInt8) : State × Int :=
  match getInst s inst with
  | none => (s, gtpNok)
  | some ue2te =>
    match ue2te.lookup ueId with
    | none => (s, gtpNok)
    | some bearers =>
      (deleteListed s (compatInst s inst) ueId ue2te bearers (pdusessionId.map UInt8.toNat), gtpOk)

/-- `gtpv1u_delete_s1u_tunnel` -/
def gtpv1uDeleteS1uTunnel (s : State) (inst : Nat) (rnti : UInt16) (epsBearerId : List UInt8) :
    State × Int :=
  -- instances[...] makes the instance
  let ue2te := (s.instances.lookup (compatInst s inst)).getD ∅
  match ue2te.lookup rnti.toNat with
  | none => (setInst s (compatInst s inst) ue2te, -1)
  | some bearers =>
    (deleteListed s (compatInst s inst) rnti.toNat ue2te bearers (epsBearerId.map UInt8.toNat),
      gtpOk)

/-! ## Runs -/

/-- A call of one of the entry points. -/
inductive Call where
  | create (req : CreateReq) (draws : List (Fin (randMax + 1) × Fin (randMax + 1)))
  | updateOutgoing (inst ueId : Nat) (bearerId : UInt8) (addr : List UInt8) (teid : UInt32)
  | updateUeId (inst oldUeId newUeId : Nat)
  | deleteOne (inst ueId : Nat) (rbId : Int)
  | deleteListed (inst ueId : Nat) (pdusessionId : List UInt8)
  | deleteS1u (inst : Nat) (rnti : UInt16) (epsBearerId : List UInt8)
  | deleteAll (inst ueId : Nat)

/-- The state after a call; `none`: it does not return. -/
def exec (s : State) : Call → Option State
  | .create req draws => (newGtpuCreateTunnel s req draws).map Prod.fst
  | .updateOutgoing inst ueId bearerId addr teid =>
    some (gtpuUpdateTunnelOutgoingAddressAndTeid s inst ueId bearerId.toNat addr teid)
  | .updateUeId inst oldUeId newUeId => (gtpv1uUpdateUeId s inst oldUeId newUeId).map Prod.fst
  | .deleteOne inst ueId rbId => some (newGtpuDeleteOneTunnel s inst ueId rbId).1
  | .deleteListed inst ueId ids => some (newGtpuDeleteTunnels s inst ueId ids).1
  | .deleteS1u inst rnti ids => some (gtpv1uDeleteS1uTunnel s inst rnti ids).1
  | .deleteAll inst ueId => some (newGtpuDeleteAllTunnels s inst ueId).1

/-- After `gtpv1Init`: instances without UEs. -/
def Started (s : State) : Prop :=
  (∀ i m, s.instances.lookup i = some m → m = ∅) ∧ s.te2ueMapping = ∅

end NrStack.Gtpu
