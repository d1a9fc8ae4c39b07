/-
  PDCCH candidates of one slot and beam: `find_pdcch_candidate` looks for one whose RBs are free on the
  symbols of the coreset, `fill_pdcch_vrb_map` marks it.

  Searcher and marker walk the same CCEs, REG bundles and RBs, so what is found free is exactly what
  is marked.  That no two candidates overlap follows from that alone.  The interleaver between bundles
  and RBs is a permutation, so that candidates of distinct CCEs do not meet either.
-/
import NrStack.Lib.Store
import NrStack.Mac.VrbMap

namespace NrStack.Mac

open Booking

/-- The loops over CCEs, over REG bundles and over the RBs of a bundle, for a coreset of `nSymb`
symbols. -/
def SchedPdcch.rbs (pdcch : SchedPdcch) (nSymb firstCce aggregation : Nat) : List Nat :=
  let L := pdcch.regBundleSize
  let R := pdcch.interleaverSize
  let nRegs := pdcch.nRb * nSymb
  let bRb := L / nSymb
  let C := if 0 < R then nRegs / (L * R) else 0
  (List.range' firstCce aggregation).flatMap fun j =>
    (List.range' (6 * j / L) (6 / L)).flatMap fun k =>
      (List.range bRb).map fun rb =>
        pdcch.bwpStart + cceToRegInterleaving R k pdcch.shiftIndex C L nRegs * bRb + rb

/-- The word of the coreset's symbols. -/
def SchedPdcch.slbitmap (pdcch : SchedPdcch) (nSymb : Nat) : Nat :=
  slToBitmap pdcch.startSymbolIndex nSymb

/-- What `get_cce_index` asks for: an aggregation level, its number of candidates, and Y.  The searcher
reads the duration of the coreset, the marker that of the PDCCH, which `set_pdcch_structure` has copied
from the coreset. -/
structure PdcchRequest where
  pdcch : SchedPdcch
  coresetDuration : Nat
  copied : pdcch.durationSymbols = coresetDuration
  aggregation : Nat
  nrOfCandidates : Nat
  Y : Nat

/-- The first CCE of candidate `m`, in `uint32_t`. -/
def PdcchRequest.firstCce (req : PdcchRequest) (nCces m : Nat) : Nat :=
  req.aggregation * ((req.Y + m * nCces / (req.aggregation * req.nrOfCandidates)) % 2 ^ 32 %
    (nCces / req.aggregation))

/-- The first candidate that is not `taken`, an inner `none` for -1.  The outer `none` is a division by
zero: fewer CCEs than the level. -/
def findPdcchCandidate (map : VrbMap) (req : PdcchRequest) : Option (Option Nat) :=
  let nCces := req.pdcch.nRb * req.coresetDuration / 6
  if req.nrOfCandidates ≠ 0 ∧ nCces / req.aggregation = 0 then none
  else
    some (((List.range req.nrOfCandidates).map (req.firstCce nCces)).find? fun firstCce =>
      !(req.pdcch.rbs req.coresetDuration firstCce req.aggregation).any
        (map.busy (req.pdcch.slbitmap req.coresetDuration)))

/-- A PDCCH candidate that was taken, with the map before. -/
structure Candidate where
  pdcch : SchedPdcch
  firstCce : Nat
  aggregation : Nat
  before : VrbMap

/-- Its RBs and symbols. -/
def Candidate.cells (c : Candidate) : Set (Nat × Nat) :=
  {x | x.1 ∈ c.pdcch.rbs c.pdcch.durationSymbols c.firstCce c.aggregation ∧
    (c.pdcch.slbitmap c.pdcch.durationSymbols).testBit x.2 = true}

/-- The (RB, symbol) pairs that a map shows as occupied. -/
def VrbMap.taken (map : VrbMap) : Set (Nat × Nat) := {x | (map x.1).testBit x.2 = true}

/-- `find_pdcch_candidate` and, if there is a candidate, `fill_pdcch_vrb_map`. -/
def allocatePdcch (s : VrbMap × List Candidate) (req : PdcchRequest) : VrbMap × List Candidate :=
  match findPdcchCandidate s.1 req with
  | some (some firstCce) =>
    (fillPdcchVrbMap s.1 req.pdcch firstCce req.aggregation,
      s.2 ++ [⟨req.pdcch, firstCce, req.aggregation, s.1⟩])
  | _ => s

lemma fillPdcchVrbMap_eq (map : VrbMap) (pdcch : SchedPdcch) (firstCce aggregation : Nat) :
    fillPdcchVrbMap map pdcch firstCce aggregation =
      (pdcch.rbs pdcch.durationSymbols firstCce aggregation).foldl
        (fun m rb => m.mark (pdcch.slbitmap pdcch.durationSymbols) rb) map := by
  simp only [fillPdcchVrbMap, SchedPdcch.rbs, SchedPdcch.slbitmap, List.foldl_flatMap, List.foldl_map]

lemma taken_fillPdcchVrbMap (c : Candidate) :
    (fillPdcchVrbMap c.before c.pdcch c.firstCce c.aggregation).taken = c.before.taken ∪ c.cells := by
  ext x
  rw [fillPdcchVrbMap_eq, VrbMap.taken, Set.mem_ofPred_eq, VrbMap.foldl_mark_testBit, Bool.or_eq_true,
    Bool.and_eq_true, decide_eq_true_eq]
  rfl

/-- **A candidate that is found is free.** -/
theorem findPdcchCandidate_free {map : VrbMap} {req : PdcchRequest} {firstCce : Nat}
    (h : findPdcchCandidate map req = some (some firstCce)) :
    Disjoint (Candidate.mk req.pdcch firstCce req.aggregation map).cells map.taken := by
  unfold findPdcchCandidate at h
  dsimp only at h
  split at h
  · cases h
  · have hfree := List.find?_some (Option.some.inj h)
    rw [Bool.not_eq_true', List.any_eq_false] at hfree
    rw [Set.disjoint_left]
    rintro ⟨rb, sym⟩ ⟨hrb, hsym⟩ htaken
    rw [req.copied] at hrb hsym
    have hzero := VrbMap.busy_eq_false.mp (Bool.eq_false_iff.mpr (hfree rb hrb)) sym hsym
    exact Bool.false_ne_true (hzero.symm.trans htaken)

lemma allocatePdcch_booked {s : VrbMap × List Candidate} (req : PdcchRequest)
    (h : Booked s.1.taken (s.2.map Candidate.cells) ∧ ∀ c ∈ s.2, Disjoint c.cells c.before.taken) :
    Booked (allocatePdcch s req).1.taken ((allocatePdcch s req).2.map Candidate.cells) ∧
      ∀ c ∈ (allocatePdcch s req).2, Disjoint c.cells c.before.taken := by
  unfold allocatePdcch
  split
  · next firstCce hfound =>
    have hfree := findPdcchCandidate_free hfound
    have htaken := taken_fillPdcchVrbMap ⟨req.pdcch, firstCce, req.aggregation, s.1⟩
    rw [List.map_append, List.forall_mem_append, htaken]
    constructor
    · exact h.1.add hfree Set.subset_union_left Set.subset_union_right
    · exact ⟨h.2, fun c hc => List.mem_singleton.mp hc ▸ hfree⟩
  · exact h

/-- **PDCCH candidates never overlap.**  On any map and for any requests, every candidate was free
before it was filled, and any two of them have no (RB, symbol) pair in common. -/
theorem pdcch_candidates_disjoint (map : VrbMap) (reqs : List PdcchRequest) :
    ((reqs.foldl allocatePdcch (map, [])).2.map Candidate.cells).Pairwise Disjoint ∧
      ∀ c ∈ (reqs.foldl allocatePdcch (map, [])).2, Disjoint c.cells c.before.taken := by
  have hrun := List.foldlRecOn (motive := fun s : VrbMap × List Candidate =>
      Booked s.1.taken (s.2.map Candidate.cells) ∧ ∀ c ∈ s.2, Disjoint c.cells c.before.taken)
    reqs allocatePdcch (b := (map, [])) ⟨⟨.nil, nofun⟩, nofun⟩
    fun s hs req _ => allocatePdcch_booked req hs
  exact ⟨hrun.1.disjoint, hrun.2⟩

/-- **The interleaver is a permutation of the REG bundles**: a matrix of R rows is written by columns
and read by rows, then shifted. -/
theorem cce_to_reg_bijective (R C L nShift : Nat) (hR : 1 ≤ R) (hC : 1 ≤ C) (hL : 1 ≤ L) :
    Set.BijOn (fun k => cceToRegInterleaving R k nShift C L (R * C * L)) (Set.Iio (R * C))
      (Set.Iio (R * C)) := by
  have hform : (fun k => cceToRegInterleaving R k nShift C L (R * C * L)) =
      fun k => (Store.transpose R C k + nShift) % (R * C) := by
    funext k
    rw [cceToRegInterleaving, if_neg (by omega), Nat.mul_div_cancel _ hL, Store.transpose]
  rw [hform, ← Finset.coe_range]
  have hmaps : Set.MapsTo (fun k => (Store.transpose R C k + nShift) % (R * C))
      (Finset.range (R * C)) (Finset.range (R * C)) := by
    intro k _
    exact Finset.mem_coe.mpr (Finset.mem_range.mpr (Nat.mod_lt _ (Nat.mul_pos hR hC)))
  have hinj : Set.InjOn (fun k => (Store.transpose R C k + nShift) % (R * C))
      (Finset.range (R * C)) := by
    rw [Finset.coe_range]
    intro k hk k' hk' heq
    -- the shift cancels
    exact Store.transpose_injOn hk hk' (Nat.ModEq.eq_of_lt_of_lt
      (Nat.ModEq.add_right_cancel' nShift heq) (Store.transpose_lt hk) (Store.transpose_lt hk'))
  exact ⟨hmaps, hinj, Finset.surjOn_of_injOn_of_card_le _ hmaps hinj (le_refl _)⟩

theorem cce_to_reg_bijective_eight :
    Set.BijOn (fun k => cceToRegInterleaving 2 k 1 4 6 48) (Set.Iio 8) (Set.Iio 8) :=
  cce_to_reg_bijective 2 4 6 1 (by decide) (by decide) (by decide)

end NrStack.Mac
