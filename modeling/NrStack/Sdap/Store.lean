/-
  The SDAP entities of a node: a singly linked list, its head `sdap_info.sdap_entity_llist`.

  PROGRAM   the list in the order of `next_entity`, each entity as its key (UE id, PDU session id) and
            its pointer; in a search `prev` is what was passed.  `none` is an access through a null
            pointer.
  RESULT    `sdap_store_iff`: a finite map, as long as `nr_sdap_delete_entity` is not called on an EMPTY
            store with an id that its range check lets through, and what it looks for is within the bound
            of its search.
-/
import Mathlib
import NrStack.Lib.Machine

namespace NrStack.Sdap

open List Function

/-- `ue_id` and `pdusession_id`. -/
abbrev SdapKey := Nat × Int

/-- An entity of the list: its key, and the pointer that stands for the rest. -/
abbrev SdapEntity := Σ _ : SdapKey, Nat

/-- `SDAP_MAX_NUM_OF_ENTITIES`: 32 DRBs for each of 40 UEs. -/
def sdapMaxNumOfEntities : Nat := 32 * 40

/-- `nr_sdap_get_entity` -/
def nrSdapGetEntity (key : SdapKey) : List SdapEntity → Option Nat
  | [] => none
  | e :: rest => if e.1 = key then some e.2 else nrSdapGetEntity key rest

/-- `new_nr_sdap_entity`; `ptr` is what `calloc` returns. -/
def newNrSdapEntity (key : SdapKey) (ptr : Nat) (store : List SdapEntity) : List SdapEntity × Nat :=
  match nrSdapGetEntity key store with
  | some existing => (store, existing)
  | none => (⟨key, ptr⟩ :: store, ptr)

/-- The search of `nr_sdap_delete_entity` from `e` on, and the removal of what it stops at. -/
def deleteLoop (key : SdapKey) :
    Nat → List SdapEntity → SdapEntity → List SdapEntity → Option (List SdapEntity × Bool)
  | bound + 1, prev, e, next :: rest =>
    if e.1 ≠ key then deleteLoop key bound (e :: prev) next rest
    else if prev = [] then none
    else some (prev.reverse ++ next :: rest, true)
  | _, prev, e, rest =>
    if e.1 ≠ key then some (prev.reverse ++ e :: rest, false)
    else if prev = [] then none
    else some (prev.reverse ++ rest, true)

/-- The check on the empty store: a product of `int`s that is positive outside of [0, 256]. -/
def outOfRange (pdusessionId : Int) : Bool :=
  decide (0 < Int.bmod (pdusessionId * (pdusessionId - 256)) (2 ^ 32))

/-- `nr_sdap_delete_entity`: the list, and the result; `none`: NULL is dereferenced. -/
def nrSdapDeleteEntity (key : SdapKey) : List SdapEntity → Option (List SdapEntity × Bool)
  | [] => if outOfRange key.2 then some ([], false) else none
  | e :: rest =>
    if e.1 = key then some (rest, true) else deleteLoop key sdapMaxNumOfEntities [] e rest

/-- The second loop of `nr_sdap_delete_ue_entities`; `upperBound` stays 0. -/
def deleteUeLoop (ueId : Nat) : List SdapEntity → List SdapEntity → Option (List SdapEntity × Bool)
  | prev, [] => some (prev.reverse, false)
  | prev, e :: rest =>
    if e.1.1 ≠ ueId then deleteUeLoop ueId (e :: prev) rest
    else if prev = [] then none
    else (deleteUeLoop ueId prev rest).map fun r => (r.1, true)

/-- `nr_sdap_delete_ue_entities`; what its check on the empty store returns is what the loops return. -/
def nrSdapDeleteUeEntities (ueId : Nat) (store : List SdapEntity) : Option (List SdapEntity × Bool) :=
  (deleteUeLoop ueId [] (store.dropWhile fun e => e.1.1 = ueId)).map fun r =>
    (r.1, r.2 || store.head?.any fun e => e.1.1 = ueId)

/-- The calls on the list. -/
inductive SdapCall
  | new (key : SdapKey) (ptr : Nat)
  | get (key : SdapKey)
  | delete (key : SdapKey)
  | deleteUe (ueId : Nat)

/-- What a call returns. -/
inductive SdapResult
  | entity (ptr : Option Nat)
  | deleted (ret : Bool)
  deriving DecidableEq

/-- One call; `none`: it does not return. -/
def call (store : List SdapEntity) : SdapCall → Option (List SdapEntity × SdapResult)
  | .new key ptr =>
    let (store, entity) := newNrSdapEntity key ptr store
    some (store, .entity (some entity))
  | .get key => some (store, .entity (nrSdapGetEntity key store))
  | .delete key => (nrSdapDeleteEntity key store).map fun r => (r.1, .deleted r.2)
  | .deleteUe ueId => (nrSdapDeleteUeEntities ueId store).map fun r => (r.1, .deleted r.2)

/-- Any sequence of calls, from the empty list. -/
def sdapMachine : Machine.Spec (List SdapEntity) SdapCall where
  init s := s = []
  guard _ _ := True
  step s c := (call s c).map Prod.fst

/-- **The finite map**: what a call makes of it and returns. -/
def MapCall (m : SdapKey → Option Nat) (m' : SdapKey → Option Nat) (r : SdapResult) : SdapCall → Prop
  | .new key ptr => m' = Function.update m key (some ((m key).getD ptr)) ∧ r = .entity (m' key)
  | .get key => m' = m ∧ r = .entity (m key)
  | .delete key => m' = Function.update m key none ∧ r = .deleted (m key).isSome
  | .deleteUe ueId => m' = (fun key => if key.1 = ueId then none else m key) ∧
    ∃ ret, r = .deleted ret ∧ (ret ↔ ∃ key, key.1 = ueId ∧ (m key).isSome)

/-- What the list stands for: a partial map from keys to pointers. -/
def view (store : List SdapEntity) (key : SdapKey) : Option Nat := store.dlookup key

/-- **What is wanted**: the call returns, as it does for the map, with one entity a key. -/
def Refines (store : List SdapEntity) (c : SdapCall) : Prop :=
  ∃ store' r, call store c = some (store', r) ∧ MapCall (view store) (view store') r c ∧ store'.NodupKeys

/-- **The condition**. -/
def DeleteOk (store : List SdapEntity) : SdapCall → Prop
  | .delete key => (store = [] → outOfRange key.2) ∧
    (key ∈ store.keys → key ∈ (store.take (sdapMaxNumOfEntities + 1)).keys)
  | _ => True

instance (store : List SdapEntity) : (c : SdapCall) → Decidable (DeleteOk store c)
  | .delete key => inferInstanceAs (Decidable ((store = [] → outOfRange key.2) ∧
    (key ∈ store.keys → key ∈ (store.take (sdapMaxNumOfEntities + 1)).keys)))
  | .new _ _ | .get _ | .deleteUe _ => inferInstanceAs (Decidable True)

variable {store prev rest : List SdapEntity} {key : SdapKey} {ueId : Nat}

lemma nrSdapGetEntity_eq : nrSdapGetEntity key store = view store key := by
  unfold view
  induction store with
  | nil => rfl
  | cons e rest ih =>
    rw [nrSdapGetEntity]
    split
    · next h =>
      subst h
      exact (dlookup_cons_eq rest e.1 e.2).symm
    · next h => rw [dlookup_cons_ne rest e (Ne.symm h), ih]

lemma deleteLoop_eq {bound : Nat} {e : SdapEntity} (hprev : e.1 = key → prev ≠ []) :
    deleteLoop key bound prev e rest = some (if key ∈ ((e :: rest).take (bound + 1)).keys
      then (prev.reverse ++ (e :: rest).kerase key, true) else (prev.reverse ++ e :: rest, false)) := by
  induction rest generalizing bound prev e with
  | nil =>
    by_cases he : e.1 = key
    · simp [deleteLoop, he, hprev he, kerase_cons_eq]
    · simp [deleteLoop, he, Ne.symm he]
  | cons next rest ih =>
    by_cases he : e.1 = key
    · cases bound <;> simp [deleteLoop, he, hprev he, kerase_cons_eq]
    · cases bound with
      | zero => simp [deleteLoop, he, Ne.symm he]
      | succ bound =>
        rw [deleteLoop, if_pos he, ih (fun _ => by simp)]
        simp [Ne.symm he, kerase_cons_ne]

lemma deleteUeLoop_eq (hprev : prev = [] → ∀ e ∈ rest.head?, e.1.1 ≠ ueId) :
    deleteUeLoop ueId prev rest =
      some (prev.reverse ++ rest.filter (fun e => e.1.1 ≠ ueId), rest.any fun e => e.1.1 = ueId) := by
  induction rest generalizing prev with
  | nil => simp [deleteUeLoop]
  | cons e rest ih =>
    by_cases he : e.1.1 = ueId
    · have hne : prev ≠ [] := fun h => hprev h e rfl he
      rw [deleteUeLoop, if_neg (not_not.mpr he), if_neg hne, ih (fun h => absurd h hne)]
      simp [he]
    · rw [deleteUeLoop, if_pos he, ih (fun h => absurd h (cons_ne_nil _ _))]
      simp [he]

lemma nrSdapDeleteEntity_eq (hne : store ≠ []) :
    nrSdapDeleteEntity key store =
      some (if key ∈ (store.take (sdapMaxNumOfEntities + 1)).keys then (store.kerase key, true)
        else (store, false)) := by
  cases store with
  | nil => exact absurd rfl hne
  | cons e rest =>
    rw [nrSdapDeleteEntity]
    split
    · next h => simp [h, kerase_cons_eq]
    · next h => exact deleteLoop_eq fun heq => absurd heq h

lemma nrSdapDeleteUeEntities_eq : nrSdapDeleteUeEntities ueId store =
    some (store.filter (fun e => e.1.1 ≠ ueId), store.any fun e => e.1.1 = ueId) := by
  have hhead : ∀ e ∈ (store.dropWhile fun e => e.1.1 = ueId).head?, e.1.1 ≠ ueId := by
    intro e he
    have := head?_dropWhile_not (fun e : SdapEntity => decide (e.1.1 = ueId)) store
    rw [Option.mem_def.mp he] at this
    simpa using this
  have hdrop : ∀ l : List SdapEntity, (l.dropWhile fun e => e.1.1 = ueId).filter (fun e => e.1.1 ≠ ueId) =
      l.filter fun e => e.1.1 ≠ ueId := by
    intro l
    induction l with
    | nil => rfl
    | cons e l ih => by_cases he : e.1.1 = ueId <;> simp_all
  rw [nrSdapDeleteUeEntities, deleteUeLoop_eq fun _ => hhead, hdrop]
  cases store with
  | nil => rfl
  | cons e rest => by_cases he : e.1.1 = ueId <;> simp [he]

lemma view_kerase (hnodup : store.NodupKeys) :
    view (store.kerase key) = Function.update (view store) key none := by
  funext k
  by_cases hk : k = key
  · subst hk
    rw [update_self]
    exact dlookup_kerase k hnodup
  · rw [update_of_ne hk]
    exact dlookup_kerase_ne hk

lemma view_filter (hnodup : store.NodupKeys) :
    view (store.filter fun e => e.1.1 ≠ ueId) = fun k => if k.1 = ueId then none else view store k := by
  funext k
  refine Option.ext fun ptr => ?_
  have hsub : (store.filter fun e => e.1.1 ≠ ueId).NodupKeys := hnodup.sublist filter_sublist
  rw [← Option.mem_def, view, mem_dlookup_iff hsub, mem_filter, ← mem_dlookup_iff hnodup]
  by_cases hk : k.1 = ueId <;> simp [hk, view]

lemma view_cons {ptr : Nat} :
    view (⟨key, ptr⟩ :: store) = Function.update (view store) key (some ptr) := by
  funext k
  by_cases hk : k = key
  · subst hk
    rw [update_self]
    exact dlookup_cons_eq store k ptr
  · rw [update_of_ne hk]
    exact dlookup_cons_ne store ⟨key, ptr⟩ hk

lemma refines_iff (hnodup : store.NodupKeys) (c : SdapCall) : Refines store c ↔ DeleteOk store c := by
  cases c with
  | new key ptr =>
    refine iff_of_true ?_ trivial
    simp only [Refines, call, newNrSdapEntity, nrSdapGetEntity_eq]
    cases h : view store key with
    | none =>
      refine ⟨_, _, rfl, ⟨?_, ?_⟩, nodupKeys_cons.mpr ⟨dlookup_eq_none.mp h, hnodup⟩⟩
      · rw [h]
        exact view_cons
      · exact congrArg _ (dlookup_cons_eq store key ptr).symm
    | some existing =>
      refine ⟨store, _, rfl, ⟨?_, congrArg _ h.symm⟩, hnodup⟩
      rw [h, Option.getD_some, ← h, update_eq_self]
  | get key =>
    exact iff_of_true ⟨store, _, rfl, ⟨rfl, congrArg _ nrSdapGetEntity_eq⟩, hnodup⟩ trivial
  | delete key =>
    simp only [Refines, call]
    by_cases hne : store = []
    · subst hne
      rw [nrSdapDeleteEntity]
      cases hrange : outOfRange key.2 with
      | false => simp [DeleteOk, hrange]
      | true =>
        refine iff_of_true ⟨[], _, rfl, ⟨?_, rfl⟩, hnodup⟩ (by simp [DeleteOk, hrange])
        exact (update_eq_self key (view [])).symm
    · rw [nrSdapDeleteEntity_eq hne]
      split
      · next hkey =>
        have hsome : (view store key).isSome := dlookup_isSome.mpr ((take_sublist _ _).map _ |>.subset hkey)
        exact iff_of_true ⟨_, _, rfl, ⟨view_kerase hnodup, by rw [hsome]⟩, hnodup.kerase key⟩
          ⟨fun h => absurd h hne, fun _ => hkey⟩
      · next hkey =>
        constructor
        · rintro ⟨store', r, hcall, ⟨-, hr⟩, -⟩
          cases hcall
          refine ⟨fun h => absurd h hne, fun hmem => ?_⟩
          rw [show (view store key).isSome from dlookup_isSome.mpr hmem] at hr
          cases hr
        · rintro ⟨-, hbound⟩
          have hnone : view store key = none := dlookup_eq_none.mpr fun h => hkey (hbound h)
          refine ⟨store, _, rfl, ⟨?_, by rw [hnone]; rfl⟩, hnodup⟩
          rw [← hnone, update_eq_self]
  | deleteUe ueId =>
    refine iff_of_true ⟨_, _, congrArg (Option.map _) nrSdapDeleteUeEntities_eq,
      ⟨view_filter hnodup, _, rfl, ?_⟩, hnodup.sublist filter_sublist⟩ trivial
    simp [view, dlookup_isSome, mem_keys]

/-- **The store of SDAP entities.**  Along every sequence of calls from the empty store on, each call
returns what the finite map returns and leaves the map's content, with one entity a key, IF AND ONLY IF
each `nr_sdap_delete_entity` is called within its condition. -/
theorem sdap_store_iff (calls : List SdapCall) :
    sdapMachine.Along Refines [] calls ↔ sdapMachine.Along DeleteOk [] calls := by
  refine Machine.Spec.along_iff (fun s c h => refines_iff h c) ?_ calls nodupKeys_nil
  rintro s c s' - ⟨store', r, hcall, -, hnodup⟩ hstep
  cases (congrArg (Option.map Prod.fst) hcall).symm.trans hstep
  exact hnodup

/-- **A release before any session**: the store is empty, the id is valid. -/
theorem sdap_delete_empty : call [] (.delete (1, 5)) = none := by
  decide

end NrStack.Sdap
