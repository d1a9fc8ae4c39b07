/-
  Keystream uniqueness over the lifetime of a PDCP entity.

  A ciphered SDU consumes the pair (ciphering key, COUNT).  `suspend_entity` and the re-establishment of UM
  DRBs and SRBs set `tx_next` back to zero, while the key changes only if `set_security` carries a new one.

  PROGRAM   the four calls, with the pairs used so far on record, cut where `tx_next` last fell.
  FOUND     `keystream_reused`: the CU re-establishes SRB2 at a handover under the key it had.
  RESULT    `keystream_unique`: no pair is used twice as long as no SDU is ciphered under a key that
            was used BEFORE `tx_next` last fell.  Between two falls the keys may change in any way.
-/
import NrStack.Pdcp.Entity
import NrStack.Lib.Machine

namespace NrStack.Pdcp

open List Machine

/-- An entity and the pairs (key, COUNT) its ciphered PDUs have used, oldest first: those before the last
time `tx_next` fell, and those since. -/
structure Keystream where
  entity : Entity
  before : List (Key × Nat)
  since : List (Key × Nat)

/-- The calls on the entity. -/
inductive KeyOp
  | processSdu (buffer : List UInt8) (pduMaxSize : Nat)
  | setSecurity (p : SecurityKeysAndAlgos)
  | suspendEntity
  | reestablishEntity (p : SecurityKeysAndAlgos)

namespace Keystream

/-- All the pairs used. -/
def used (s : Keystream) : List (Key × Nat) := s.before ++ s.since

/-- A call has left the entity `e` and used `pairs`. -/
def follow (s : Keystream) (e : Entity) (pairs : List (Key × Nat)) : Keystream :=
  if e.txNext < s.entity.txNext then ⟨e, s.used ++ pairs, []⟩ else ⟨e, s.before, s.since ++ pairs⟩

/-- The pair that `process_sdu` is about to use; none while ciphering is off. -/
def pair (s : Keystream) : List (Key × Nat) :=
  if s.entity.hasCiphering then [(s.entity.securityContext.2, s.entity.txNext)] else []

/-- One call, with the pairs it uses on record; `none` is a failed assertion. -/
def step (c : Crypto) (s : Keystream) : KeyOp → Option Keystream
  | .processSdu buffer pduMaxSize =>
    (s.entity.processSdu c buffer pduMaxSize).map fun
      | (e, some _) => s.follow e s.pair
      | (e, none) => s.follow e []
  | .setSecurity p => (s.entity.setSecurity p).map fun e => s.follow e []
  | .suspendEntity => some (s.follow s.entity.suspend [])
  | .reestablishEntity p => (s.entity.reestablishEntity p).map fun e => s.follow e []

/-- A new entity that has used nothing. -/
def Start (s : Keystream) : Prop :=
  s.used = [] ∧ ∃ type isGnb rbId sdapRx sdapTx snSize tReordering security,
    newNrPdcpEntity type isGnb rbId sdapRx sdapTx snSize tReordering security = some s.entity

/-- **The caller's rule**: an SDU is not ciphered under a key that was used before `tx_next` last fell. -/
def FreshKeys (s : Keystream) : KeyOp → Prop
  | .processSdu _ _ => ∀ x ∈ s.pair, ∀ y ∈ s.before, y.1 ≠ x.1
  | .setSecurity _ | .suspendEntity | .reestablishEntity _ => True

instance (s : Keystream) : ∀ op, Decidable (s.FreshKeys op)
  | .processSdu _ _ => inferInstanceAs (Decidable (∀ x ∈ s.pair, ∀ y ∈ s.before, y.1 ≠ x.1))
  | .setSecurity _ | .suspendEntity | .reestablishEntity _ => .isTrue trivial

end Keystream

/-- The calls on an entity, as far as its caller keeps to `ok`. -/
def keystreamMachine (c : Crypto) (ok : Keystream → KeyOp → Prop) : Spec Keystream KeyOp where
  init := Keystream.Start
  guard := ok
  step := Keystream.step c

/-- **The invariant**: no pair has been used twice, and those since the last fall lie below `tx_next`. -/
structure KeystreamInv (s : Keystream) : Prop where
  nodup : s.used.Nodup
  below : ∀ x ∈ s.since, x.2 < s.entity.txNext

variable {s s' : Keystream} {c : Crypto} {op : KeyOp}

/-- What a call has used is on record; a fall of `tx_next` starts a new record. -/
lemma KeystreamInv.follow (h : KeystreamInv s) {e : Entity} {pairs : List (Key × Nat)}
    (hnodup : (s.used ++ pairs).Nodup)
    (hbelow : ∀ x ∈ pairs, x.2 < e.txNext ∨ e.txNext < s.entity.txNext) :
    KeystreamInv (s.follow e pairs) := by
  rw [Keystream.follow]
  split
  · constructor
    · show (s.used ++ pairs ++ []).Nodup
      rwa [append_nil]
    · exact fun x hx => absurd hx not_mem_nil
  · next hge =>
    constructor
    · show (s.before ++ (s.since ++ pairs)).Nodup
      rwa [← append_assoc]
    · intro x hx
      show x.2 < e.txNext
      rcases mem_append.mp hx with hold | hnew
      · exact (h.below x hold).trans_le (Nat.not_lt.mp hge)
      · exact (hbelow x hnew).resolve_right hge

/-- The pair of the next SDU is new: its COUNT is above those since the last fall, its key is none of
those before it. -/
lemma KeystreamInv.pair_new (h : KeystreamInv s) (hfresh : ∀ x ∈ s.pair, ∀ y ∈ s.before, y.1 ≠ x.1) :
    (s.used ++ s.pair).Nodup := by
  by_cases hc : s.entity.hasCiphering
  · rw [Keystream.pair, if_pos hc] at hfresh ⊢
    rw [← concat_eq_append, nodup_concat]
    refine ⟨?_, h.nodup⟩
    intro hmem
    rcases mem_append.mp hmem with hbefore | hsince
    · exact hfresh _ (mem_singleton_self _) _ hbefore rfl
    · exact Nat.lt_irrefl _ (h.below _ hsince)
  · rw [Keystream.pair, if_neg hc, append_nil]
    exact h.nodup

lemma KeystreamInv.unused (h : KeystreamInv s) (e : Entity) : KeystreamInv (s.follow e []) :=
  h.follow (by rw [append_nil]; exact h.nodup) fun x hx => absurd hx not_mem_nil

lemma step_keystream (h : KeystreamInv s) (hok : s.FreshKeys op) (hstep : s.step c op = some s') :
    KeystreamInv s' := by
  cases op with
  | processSdu buffer pduMaxSize =>
    obtain ⟨r, hr, rfl⟩ := Option.map_eq_some_iff.mp hstep
    rcases Entity.processSdu_cases hr with ⟨-, rfl⟩ | ⟨-, rfl⟩
    · exact h.unused _
    · refine h.follow (h.pair_new hok) fun x hx => ?_
      -- `tx_next` moves on, or wraps around, and then it falls
      have hx : x.2 = s.entity.txNext := by
        rw [Keystream.pair] at hx
        split at hx
        · rw [mem_singleton.mp hx]
        · cases hx
      show x.2 < (s.entity.txNext + 1) % 2 ^ 32 ∨ (s.entity.txNext + 1) % 2 ^ 32 < s.entity.txNext
      omega
  | setSecurity p =>
    obtain ⟨e, -, rfl⟩ := Option.map_eq_some_iff.mp hstep
    exact h.unused e
  | suspendEntity =>
    cases hstep
    exact h.unused _
  | reestablishEntity p =>
    obtain ⟨e, -, rfl⟩ := Option.map_eq_some_iff.mp hstep
    exact h.unused e

/-- **Keystream uniqueness**: whatever the calls and the keys they carry, as long as no SDU is ciphered
under a key that was used before `tx_next` last fell, no pair of key and COUNT is used twice. -/
theorem keystream_unique (c : Crypto) {s : Keystream}
    (h : Reach (keystreamMachine c Keystream.FreshKeys) s) : s.used.Nodup := by
  refine (h.invariant (P := KeystreamInv) ?_ ?_).nodup
  · rintro s ⟨hused, -⟩
    obtain ⟨-, hsince⟩ := append_eq_nil_iff.mp hused
    constructor
    · rw [hused]
      exact nodup_nil
    · rw [hsince]
      exact fun x hx => absurd hx not_mem_nil
  · exact fun s op s' _ hinv hok hstep => step_keystream hinv hok hstep

instance (c : Crypto) (s : Keystream) (op : KeyOp) :
    Decidable ((keystreamMachine c Keystream.FreshKeys).guard s op) :=
  inferInstanceAs (Decidable (s.FreshKeys op))

instance (c : Crypto) (s : Keystream) (op : KeyOp) :
    Decidable ((keystreamMachine c fun _ _ => True).guard s op) := .isTrue trivial

/-- A bearer ciphered with AES under key 1. -/
def ciphered (type : EntityType) : Keystream where
  entity := (newNrPdcpEntity type true 1 false false shortSnSize 100 ⟨0, 2, [], [1]⟩).get
    (by cases type <;> decide)
  before := []
  since := []

lemma ciphered_start (type : EntityType) : (ciphered type).Start :=
  ⟨rfl, type, true, 1, false, false, shortSnSize, 100, ⟨0, 2, [], [1]⟩, by cases type <;> rfl⟩

theorem keystream_unique_handover : ∃ s, Reach (keystreamMachine .stream Keystream.FreshKeys) s ∧
    s.used = [([1], 0), ([3], 1), ([1], 2), ([4], 0)] ∧ s.used.Nodup := by
  obtain ⟨s, hs, hused⟩ := Reach.exists_of_run
    (P := fun s => s.used = [([1], 0), ([3], 1), ([1], 2), ([4], 0)])
    (m := keystreamMachine .stream Keystream.FreshKeys) (.start (ciphered_start .srb))
    [.processSdu [5] 64, .setSecurity ⟨0, 2, [], [3]⟩, .processSdu [6] 64, .setSecurity ⟨0, 2, [], [1]⟩,
      .processSdu [6] 64, .reestablishEntity ⟨0, 2, [], [4]⟩, .processSdu [5] 64] (by decide)
  exact ⟨s, hs, hused, keystream_unique .stream hs⟩

/-- **Keystream reuse.**  SRB2 is re-established under the key it had, as `nr_rrc_f1_ho_acknowledge` does,
or a DRB is suspended and re-established with `-1`: COUNT 0 is ciphered twice. -/
theorem keystream_reused :
    (∃ s, Reach (keystreamMachine .stream fun _ _ => True) s ∧ s.entity.type = .srb ∧
      s.used = [([1], 0), ([1], 0)]) ∧
    ∃ s, Reach (keystreamMachine .stream fun _ _ => True) s ∧ s.entity.type = .drbAm ∧
      s.used = [([1], 0), ([1], 0)] := by
  constructor
  · exact Reach.exists_of_run (m := keystreamMachine .stream fun _ _ => True)
      (.start (ciphered_start .srb))
      [.processSdu [5] 64, .reestablishEntity ⟨0, 2, [], [1]⟩, .processSdu [6] 64] (by decide)
  · exact Reach.exists_of_run (m := keystreamMachine .stream fun _ _ => True)
      (.start (ciphered_start .drbAm))
      [.processSdu [5] 64, .suspendEntity, .reestablishEntity ⟨-1, -1, [], []⟩, .processSdu [6] 64]
      (by decide)

end NrStack.Pdcp
