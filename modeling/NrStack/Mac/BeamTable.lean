/-
  The table of analog beams (`beam_allocation_procedure`, `reset_beam_status`).

  Allocation stops at the first row that is FREE or has the beam.  As long as the rows in use are the
  first of the column, that finds a beam which is already there: a column is a stack of beams.  A reset
  clears by value, and one that is not of the latest allocation leaves a hole.
-/
import Mathlib
import NrStack.Lib.Machine

namespace NrStack.Mac

open Machine List Function

/-- `NR_beam_info_t`; `beamAllocation` says whether there is a table at all, which there is not without
analog beamforming. -/
structure BeamConfig where
  beamAllocation : Bool
  beamDuration : Nat
  beamsPerPeriod : Nat
  beamAllocationSize : Nat

/-- The slot of a call: `frame`, `slot` and `slots_per_frame`. -/
structure BeamSlot where
  frame : Nat
  slot : Nat
  slotsPerFrame : Nat

/-- `get_beam_index`: the column of a slot. -/
def BeamConfig.getBeamIndex (cfg : BeamConfig) (t : BeamSlot) : Nat :=
  (t.frame * t.slotsPerFrame + t.slot) / cfg.beamDuration % cfg.beamAllocationSize

/-- A column of `beam_allocation`; `none` is -1, a free row. -/
abbrev BeamColumn := List (Option Nat)

/-- The loop over the rows of a column: the new column, and `new_beam` and `idx`, or `none` for the
index -1. -/
def allocateBeam (beam : Nat) : BeamColumn → BeamColumn × Option (Bool × Nat)
  | [] => ([], none)
  | none :: rows => (some beam :: rows, some (true, 0))
  | some b :: rows =>
    if b = beam then (some b :: rows, some (false, 0))
    else
      let r := allocateBeam beam rows
      (some b :: r.1, r.2.map fun a => (a.1, a.2 + 1))

/-- `beam_allocation_procedure` on the column of its slot; without a table always index 0. -/
def beamAllocationProcedure (cfg : BeamConfig) (beam : Nat) (col : BeamColumn) :
    BeamColumn × Option (Bool × Nat) :=
  if cfg.beamAllocation then allocateBeam beam col else (col, some (false, 0))

/-- `reset_beam_status` on a column. -/
def resetBeamStatus (beam : Nat) (newBeam : Bool) (col : BeamColumn) : BeamColumn :=
  if newBeam then col.map fun row => if row = some beam then none else row else col

/-- A grant: whether it took a new place, the place, and the beam. -/
structure BeamAlloc where
  newBeam : Bool
  idx : Nat
  beam : Nat
  deriving DecidableEq, Repr

/-- The columns, and the allocations of each that are not reset, the latest first. -/
structure BeamTable where
  col : Nat → BeamColumn
  live : Nat → List BeamAlloc

/-- The calls; a reset is that of the `k`-th latest allocation in the column of its slot. -/
inductive BeamCall
  | allocate (t : BeamSlot) (beam : Nat)
  | reset (t : BeamSlot) (k : Nat)

/-- One call on the table, with the grants that live. -/
def BeamTable.step (cfg : BeamConfig) (s : BeamTable) : BeamCall → Option BeamTable
  | .allocate t beam =>
    let c := cfg.getBeamIndex t
    let r := beamAllocationProcedure cfg beam (s.col c)
    some ⟨Function.update s.col c r.1, Function.update s.live c
      ((r.2.map fun a => ⟨a.1, a.2, beam⟩).toList ++ s.live c)⟩
  | .reset t k =>
    let c := cfg.getBeamIndex t
    (s.live c)[k]?.map fun a =>
      ⟨Function.update s.col c (resetBeamStatus a.beam a.newBeam (s.col c)),
        Function.update s.live c ((s.live c).eraseIdx k)⟩

/-- Allocations in any slots, and resets of the `k`-th last allocation for the `k` of `resets`. -/
def beamMachine (cfg : BeamConfig) (resets : Nat → Prop) : Spec BeamTable BeamCall where
  init s := s = ⟨fun _ => replicate cfg.beamsPerPeriod none, fun _ => []⟩
  guard _
    | .allocate _ _ => True
    | .reset _ k => resets k
  step := BeamTable.step cfg

/-- No beam in two rows, one row for each beam, and resets that clear the row of their own allocation
only. -/
structure ColumnOk (resets : Nat → Prop) (col : BeamColumn) (live : List BeamAlloc) : Prop where
  distinct : ∀ (i j beam : Nat), col[i]? = some (some beam) → col[j]? = some (some beam) → i = j
  oneRow : ∀ a ∈ live, ∀ b ∈ live, a.beam = b.beam → a.idx = b.idx
  own : ∀ k a, resets k → live[k]? = some a →
    resetBeamStatus a.beam a.newBeam col = if a.newBeam then col.set a.idx none else col

/-! ## A column as a stack -/

/-- A column with some beams, and free rows behind them. -/
def column (beams : List Nat) (free : Nat) : BeamColumn := beams.map some ++ replicate free none

/-- The allocations and the beams they hold, the latest on top. -/
inductive Held : List BeamAlloc → List Nat → Prop
  | nil : Held [] []
  | old {live : List BeamAlloc} {beams : List Nat} {idx beam : Nat} (h : Held live beams)
      (hrow : beams[idx]? = some beam) : Held (⟨false, idx, beam⟩ :: live) beams
  | new {live : List BeamAlloc} {beams : List Nat} {beam : Nat} (h : Held live beams)
      (hnew : beam ∉ beams) : Held (⟨true, beams.length, beam⟩ :: live) (beams ++ [beam])

variable {live : List BeamAlloc} {beams : List Nat} {beam free : Nat} {cfg : BeamConfig}

lemma Held.nodup (h : Held live beams) : beams.Nodup := by
  induction h with
  | nil => exact .nil
  | old _ _ ih => exact ih
  | new _ hnew ih => exact concat_eq_append ▸ ih.concat hnew

lemma Held.row (h : Held live beams) : ∀ a ∈ live, beams[a.idx]? = some a.beam := by
  induction h with
  | nil => exact nofun
  | old _ hrow ih => exact forall_mem_cons.mpr ⟨hrow, ih⟩
  | new _ _ ih =>
    refine forall_mem_cons.mpr ⟨getElem?_concat_length, fun a ha => ?_⟩
    rw [getElem?_append_left (List.getElem?_eq_some_iff.mp (ih a ha)).1]
    exact ih a ha

lemma row_unique (h : beams.Nodup) {i j : Nat} (hi : beams[i]? = some beam)
    (hj : beams[j]? = some beam) : i = j := by
  obtain ⟨hlt, -⟩ := List.getElem?_eq_some_iff.mp hi
  exact (getElem?_inj hlt h).mp (hi.trans hj.symm)

lemma column_row {i : Nat} (h : (column beams free)[i]? = some (some beam)) :
    beams[i]? = some beam := by
  rw [column, getElem?_append] at h
  split at h
  · rw [getElem?_map] at h
    obtain ⟨b, hb, heq⟩ := Option.map_eq_some_iff.mp h
    rwa [Option.some.inj heq] at hb
  · rw [getElem?_replicate] at h
    split at h <;> cases h

/-- A beam in use is found again, a new one is put behind. -/
theorem allocateBeam_column (beam : Nat) (beams : List Nat) (free : Nat) :
    allocateBeam beam (column beams free) =
      if beam ∈ beams then (column beams free, some (false, beams.idxOf beam))
      else if free = 0 then (column beams free, none)
      else (column (beams ++ [beam]) (free - 1), some (true, beams.length)) := by
  induction beams with
  | nil => cases free <;> rfl
  | cons b beams ih =>
    rw [column, map_cons, cons_append, ← column, allocateBeam, ih]
    by_cases heq : b = beam
    · rw [if_pos heq, if_pos (mem_cons.mpr (.inl heq.symm)), heq, idxOf_cons_self]
    · have hmem : beam ∈ b :: beams ↔ beam ∈ beams := by
        rw [mem_cons, or_iff_right (Ne.symm heq)]
      rw [if_neg heq, idxOf_cons_ne _ heq]
      simp only [hmem]
      split
      · rfl
      · split <;> rfl

lemma column_concat : column (beams ++ [beam]) free = beams.map some ++ some beam :: replicate free none := by
  rw [column, map_append, append_assoc]
  rfl

theorem Held.reset {a : BeamAlloc} (h : Held (a :: live) beams) (free : Nat) :
    resetBeamStatus a.beam a.newBeam (column beams free) =
        (if a.newBeam then (column beams free).set a.idx none else column beams free) ∧
      ∃ beams' free', resetBeamStatus a.beam a.newBeam (column beams free) = column beams' free' ∧
        Held live beams' := by
  cases h with
  | old h _ => exact ⟨rfl, beams, free, rfl, h⟩
  | @new _ beams beam h hnew =>
    have hkeep : (beams.map some).map (fun row => if row = some beam then none else row) =
        beams.map some := by
      rw [map_map]
      exact map_congr_left fun b hb =>
        if_neg fun h : some b = some beam => hnew (Option.some.inj h ▸ hb)
    have hreset : resetBeamStatus beam true (column (beams ++ [beam]) free) =
        beams.map some ++ none :: replicate free none := by
      rw [resetBeamStatus, if_pos rfl, column_concat, map_append, hkeep, map_cons, if_pos rfl,
        map_replicate, if_neg nofun]
    refine ⟨?_, beams, free + 1, hreset, h⟩
    rw [hreset, if_pos rfl, column_concat, set_append_right _ _ (by simp)]
    simp

/-- In each column the taken places come first, each held by a grant. -/
def BeamTable.Stacks (s : BeamTable) : Prop :=
  ∀ c, ∃ beams free, s.col c = column beams free ∧ Held (s.live c) beams

variable {s : BeamTable} {c : Nat}

lemma stacks_update {col : BeamColumn} (h : s.Stacks)
    (hcol : ∃ beams free, col = column beams free ∧ Held live beams) :
    (BeamTable.mk (Function.update s.col c col) (Function.update s.live c live)).Stacks := by
  intro d
  by_cases hd : d = c
  · subst hd
    simpa only [update_self] using hcol
  · simpa only [update_of_ne hd] using h d

variable {s' : BeamTable} {call : BeamCall}

lemma BeamTable.Stacks.step (htable : cfg.beamAllocation = true) (h : s.Stacks)
    (hg : (beamMachine cfg (· = 0)).guard s call) (hstep : s.step cfg call = some s') :
    s'.Stacks := by
  cases call with
  | allocate t beam =>
    cases hstep
    obtain ⟨beams, free, hcol, hheld⟩ := h (cfg.getBeamIndex t)
    apply stacks_update h
    rw [hcol, beamAllocationProcedure, if_pos htable, allocateBeam_column]
    split
    · next hbeam => exact ⟨beams, free, rfl, hheld.old (getElem?_idxOf hbeam)⟩
    · next hbeam =>
      split
      · exact ⟨beams, free, rfl, hheld⟩
      · exact ⟨_, _, rfl, hheld.new hbeam⟩
  | reset t k =>
    obtain rfl : k = 0 := hg
    obtain ⟨a, ha, rfl⟩ := Option.map_eq_some_iff.mp hstep
    obtain ⟨beams, free, hcol, hheld⟩ := h (cfg.getBeamIndex t)
    obtain ⟨live, hlive⟩ := head?_eq_some_iff.mp (head?_eq_getElem?.trans ha)
    apply stacks_update h
    rw [hlive] at hheld ⊢
    rw [hcol]
    exact (hheld.reset free).2

/-- Without a table nothing is written, and every allocation has index 0. -/
def BeamTable.Single (s : BeamTable) : Prop :=
  ∀ c, (∀ row ∈ s.col c, row = none) ∧ ∀ a ∈ s.live c, a.newBeam = false ∧ a.idx = 0

lemma single_update (h : s.Single) (hlive : ∀ a ∈ live, a.newBeam = false ∧ a.idx = 0) :
    (BeamTable.mk (Function.update s.col c (s.col c)) (Function.update s.live c live)).Single := by
  intro d
  rw [update_eq_self]
  by_cases hd : d = c
  · subst hd
    simpa only [update_self] using ⟨(h d).1, hlive⟩
  · simpa only [update_of_ne hd] using h d

lemma BeamTable.Single.step (htable : cfg.beamAllocation = false)
    (h : s.Single) (hstep : s.step cfg call = some s') : s'.Single := by
  cases call with
  | allocate t beam =>
    simp only [BeamTable.step, beamAllocationProcedure, htable, Bool.false_eq_true, if_false] at hstep
    cases hstep
    exact single_update h (forall_mem_cons.mpr ⟨⟨rfl, rfl⟩, (h _).2⟩)
  | reset t k =>
    obtain ⟨a, ha, rfl⟩ := Option.map_eq_some_iff.mp hstep
    rw [resetBeamStatus, if_neg (by rw [((h _).2 a (mem_of_getElem? ha)).1]; decide)]
    exact single_update h fun b hb => (h _).2 b (mem_of_mem_eraseIdx hb)

lemma BeamTable.Single.columnOk (h : s.Single) (resets : Nat → Prop) (c : Nat) :
    ColumnOk resets (s.col c) (s.live c) where
  distinct i j beam hi _ := nomatch (h c).1 _ (mem_of_getElem? hi)
  oneRow a ha b hb _ := ((h c).2 a ha).2.trans ((h c).2 b hb).2.symm
  own k a _ hget := by rw [((h c).2 a (mem_of_getElem? hget)).1]; rfl

lemma BeamTable.Stacks.columnOk (h : s.Stacks) (c : Nat) :
    ColumnOk (· = 0) (s.col c) (s.live c) := by
  obtain ⟨beams, free, hcol, hheld⟩ := h c
  rw [hcol]
  constructor
  · intro i j beam hi hj
    exact row_unique hheld.nodup (column_row hi) (column_row hj)
  · intro a ha b hb hbeam
    exact row_unique hheld.nodup (hheld.row a ha) (hbeam ▸ hheld.row b hb)
  · rintro k a rfl hget
    obtain ⟨live, hlive⟩ := head?_eq_some_iff.mp (head?_eq_getElem?.trans hget)
    rw [hlive] at hheld
    exact (hheld.reset free).1

/-- **The beam table is consistent** as long as each reset is that of the latest allocation in its
column that is not reset yet. -/
theorem beam_table_consistent (cfg : BeamConfig) {s : BeamTable}
    (h : Reach (beamMachine cfg (· = 0)) s) (c : Nat) : ColumnOk (· = 0) (s.col c) (s.live c) := by
  cases htable : cfg.beamAllocation with
  | true =>
    refine (h.invariant (P := BeamTable.Stacks) ?_
      fun s call s' _ hs hg hstep => hs.step htable hg hstep).columnOk c
    rintro s rfl c
    exact ⟨[], cfg.beamsPerPeriod, rfl, .nil⟩
  | false =>
    refine (h.invariant (P := BeamTable.Single) ?_
      fun s call s' _ hs _ hstep => hs.step htable hstep).columnOk _ c
    rintro s rfl c
    exact ⟨fun row hrow => (mem_replicate.mp hrow).2, nofun⟩

/-- Two beams in each period. -/
def twoBeams : BeamConfig := ⟨true, 1, 2, 20⟩

instance (cfg : BeamConfig) (resets : Nat → Prop) [DecidablePred resets] :
    ∀ s call, Decidable ((beamMachine cfg resets).guard s call)
  | _, .allocate _ _ => isTrue trivial
  | _, .reset _ k => inferInstanceAs (Decidable (resets k))

theorem beam_table_consistent_reset :
    ∃ s, Reach (beamMachine twoBeams (· = 0)) s ∧ s.live 3 = [⟨true, 0, 1⟩] ∧
      ColumnOk (· = 0) (s.col 3) (s.live 3) := by
  obtain ⟨s, hs, hlive⟩ := Reach.exists_of_run (m := beamMachine twoBeams (· = 0))
    (P := fun s => s.live 3 = [⟨true, 0, 1⟩]) (.start rfl)
    [.allocate ⟨0, 3, 20⟩ 1, .allocate ⟨0, 3, 20⟩ 2, .reset ⟨0, 3, 20⟩ 0] (by decide)
  exact ⟨s, hs, hlive, beam_table_consistent twoBeams hs 3⟩

/-- **The first of two beams is given back**: the next allocation of the second one takes a second
row for it. -/
theorem beam_table_duplicates :
    ∃ s, Reach (beamMachine twoBeams fun _ => True) s ∧ s.col 3 = [some 2, some 2] ∧
      s.live 3 = [⟨true, 0, 2⟩, ⟨true, 1, 2⟩] :=
  Reach.exists_of_run (m := beamMachine twoBeams fun _ => True)
    (P := fun s => s.col 3 = [some 2, some 2] ∧ s.live 3 = [⟨true, 0, 2⟩, ⟨true, 1, 2⟩]) (.start rfl)
    [.allocate ⟨0, 3, 20⟩ 1, .allocate ⟨0, 3, 20⟩ 2, .reset ⟨0, 3, 20⟩ 1, .allocate ⟨0, 3, 20⟩ 2]
    (by decide)

end NrStack.Mac
