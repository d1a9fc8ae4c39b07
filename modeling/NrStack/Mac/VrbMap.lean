/-
  The map of occupied resource blocks of one slot.

  `vrb_map[beam]` holds one 16-bit word for each RB of the carrier; bit `s`: symbol `s` is occupied.
  `Alloc` records what a scheduler gave to a UE, with the map it was decided on; `Slot` is the state of the
  schedulers' loops over the UEs.  A CELL is a (beam, RB, symbol) with one of the 14 symbols of a slot.
-/
import Mathlib
import NrStack.Lib.Booking
import NrStack.Mac.UlHarq

namespace NrStack.Mac

open Booking

/-- `vrb_map[beam]`: the occupied symbols of each RB. -/
abbrev VrbMap := Nat → Nat

/-- `SL_to_bitmap(startSymbolIndex, nrOfSymbols)`, in 16 bits. -/
def slToBitmap (startSymbolIndex nrOfSymbols : Nat) : Nat :=
  (((1 <<< nrOfSymbols) - 1) <<< startSymbolIndex) % 2 ^ 16

/-- The word of a time domain allocation. -/
def TdaInfo.slbitmap (tda : TdaInfo) : Nat := slToBitmap tda.startSymbolIndex tda.nrOfSymbols

/-- `start` and `size` of the BWP a UE is scheduled in. -/
structure BwpInfo where
  bwpStart : Nat
  bwpSize : Nat
  deriving DecidableEq, Repr

namespace VrbMap

/-- `rballoc_mask[rb] & slbitmap` -/
def busy (map : VrbMap) (bits rb : Nat) : Bool := map rb &&& bits != 0

/-- `rballoc_mask[rb] |= slbitmap` -/
def mark (map : VrbMap) (bits rb : Nat) : VrbMap := Function.update map rb (map rb ||| bits)

/-- `for (rb = start; rb < stop; rb++) rballoc_mask[rb + offset] |= slbitmap` -/
def markLoop (map : VrbMap) (bits offset start stop : Nat) : VrbMap :=
  (List.range' start (stop - start)).foldl (fun m rb => m.mark bits (rb + offset)) map

end VrbMap

/-- `while (rbStart < limit && (rballoc_mask[rbStart] & slbitmap)) rbStart++` -/
def firstFree (map : VrbMap) (bits limit rbStart : Nat) : Nat :=
  advance (fun rb => decide (rb < limit) && map.busy bits rb) limit rbStart

/-- `while (rbStart + rbSize < stop && !(rballoc_mask[rbStart + rbSize] & slbitmap)) rbSize++` -/
def freeRun (map : VrbMap) (bits stop rbStart rbSize : Nat) : Nat :=
  advance (fun n => decide (rbStart + n < stop) && !map.busy bits (rbStart + n)) stop rbSize

/-- `NR_sched_pdcch_t`. -/
structure SchedPdcch where
  bwpStart : Nat
  nRb : Nat
  regBundleSize : Nat
  interleaverSize : Nat
  shiftIndex : Nat
  startSymbolIndex : Nat
  durationSymbols : Nat
  deriving DecidableEq, Repr

/-- `cce_to_reg_interleaving` -/
def cceToRegInterleaving (R k nShift C L nRegs : Nat) : Nat :=
  if R = 0 then k else ((k % R) * C + k / R + nShift) % (nRegs / L)

/-- `fill_pdcch_vrb_map` -/
def fillPdcchVrbMap (map : VrbMap) (pdcch : SchedPdcch) (firstCce aggregation : Nat) : VrbMap :=
  let L := pdcch.regBundleSize
  let R := pdcch.interleaverSize
  let nRegs := pdcch.nRb * pdcch.durationSymbols
  let bRb := L / pdcch.durationSymbols
  let C := if 0 < R then nRegs / (L * R) else 0
  (List.range' firstCce aggregation).foldl (fun m j =>
    (List.range' (6 * j / L) (6 / L)).foldl (fun m k =>
      let f := cceToRegInterleaving R k pdcch.shiftIndex C L nRegs
      (List.range bRb).foldl (fun m rb =>
        m.mark (slToBitmap pdcch.startSymbolIndex pdcch.durationSymbols)
          (pdcch.bwpStart + f * bRb + rb)) m) m) map

/-! ## Symbols of a word -/

lemma slToBitmap_testBit {start n sym : Nat} (hsym : sym < 14) :
    (slToBitmap start n).testBit sym = (decide (start ≤ sym) && decide (sym < start + n)) := by
  rw [slToBitmap, Nat.testBit_mod_two_pow, Nat.testBit_shiftLeft, Nat.one_shiftLeft,
    Nat.testBit_two_pow_sub_one]
  have h16 : sym < 16 := by omega
  simp only [h16, decide_true, Bool.true_and, ge_iff_le]
  by_cases hle : start ≤ sym
  · simp only [hle, decide_true, Bool.true_and, decide_eq_decide]
    omega
  · simp [hle]

lemma VrbMap.busy_eq_false {map : VrbMap} {bits rb : Nat} :
    map.busy bits rb = false ↔ ∀ sym, bits.testBit sym = true → (map rb).testBit sym = false := by
  rw [busy, bne_eq_false_iff_eq]
  constructor
  · intro h sym hsym
    have := congrArg (fun w => w.testBit sym) h
    simpa only [Nat.testBit_and, hsym, Bool.and_true, Nat.zero_testBit] using this
  · intro h
    apply Nat.eq_of_testBit_eq
    intro sym
    rw [Nat.testBit_and, Nat.zero_testBit]
    cases hbit : bits.testBit sym with
    | false => exact Bool.and_false _
    | true => rw [h sym hbit]; rfl

lemma VrbMap.mark_testBit (map : VrbMap) (bits rb r sym : Nat) :
    ((map.mark bits rb) r).testBit sym =
      ((map r).testBit sym || (decide (r = rb) && bits.testBit sym)) := by
  rw [mark]
  by_cases h : r = rb
  · subst h
    simp
  · rw [Function.update_of_ne h]
    simp [h]

lemma VrbMap.foldl_mark_testBit (bits : Nat) (r sym : Nat) :
    ∀ (rbs : List Nat) (map : VrbMap),
      ((rbs.foldl (fun m rb => m.mark bits rb) map) r).testBit sym =
        ((map r).testBit sym || (decide (r ∈ rbs) && bits.testBit sym)) := by
  intro rbs
  induction rbs with
  | nil => exact fun map => (Bool.or_false _).symm
  | cons rb rbs ih =>
    intro map
    rw [List.foldl_cons, ih, mark_testBit, Bool.or_assoc, ← Bool.and_or_distrib_right,
      ← Bool.decide_or]
    congr 2
    exact decide_eq_decide.mpr List.mem_cons.symm

/-! ## The searches -/

section Search

variable {map : VrbMap} {bits limit stop rbStart rbSize : Nat}

lemma le_firstFree : rbStart ≤ firstFree map bits limit rbStart := le_advance _ _ _

lemma firstFree_free (h : firstFree map bits limit rbStart < limit) :
    map.busy bits (firstFree map bits limit rbStart) = false := by
  rw [firstFree] at h ⊢
  have hstop := @advance_stopped (fun rb => decide (rb < limit) && map.busy bits rb) limit rbStart
  simp only [h, decide_true, Bool.true_and] at hstop
  apply hstop
  intro j hj
  have hge : ¬ j < limit := by omega
  simp [hge]

lemma firstFree_self (h : map.busy bits rbStart = false) :
    firstFree map bits limit rbStart = rbStart :=
  advance_of_false (by simp only [h, Bool.and_false])

lemma firstFree_le {m : Nat} (hstart : rbStart ≤ m) (hlimit : limit ≤ m) :
    firstFree map bits limit rbStart ≤ m := by
  by_cases hgt : m < firstFree map bits limit rbStart
  · have hpassed := advance_passed hstart hgt
    simp only [Bool.and_eq_true, decide_eq_true_eq] at hpassed
    omega
  · omega

lemma freeRun_free {j : Nat} (hlo : rbSize ≤ j) (hj : j < freeRun map bits stop rbStart rbSize) :
    rbStart + j < stop ∧ map.busy bits (rbStart + j) = false := by
  have h := advance_passed hlo hj
  simpa only [Bool.and_eq_true, decide_eq_true_eq, Bool.not_eq_true'] using h

lemma freeRun_le (h : rbSize < freeRun map bits stop rbStart rbSize) :
    rbStart + freeRun map bits stop rbStart rbSize ≤ stop := by
  have hlast : freeRun map bits stop rbStart rbSize - 1 < freeRun map bits stop rbStart rbSize := by
    omega
  have := (freeRun_free (by omega) hlast).1
  omega

lemma freeRun_firstFree (hlimit : limit ≤ stop) (hin : firstFree map bits limit rbStart < limit) :
    firstFree map bits limit rbStart + freeRun map bits stop (firstFree map bits limit rbStart) 1 ≤
        stop ∧
      ∀ j < freeRun map bits stop (firstFree map bits limit rbStart) 1,
        map.busy bits (firstFree map bits limit rbStart + j) = false := by
  constructor
  · have hone : 1 ≤ freeRun map bits stop (firstFree map bits limit rbStart) 1 := le_advance _ _ _
    rcases Nat.eq_or_lt_of_le hone with h | h
    · rw [← h]
      exact le_trans hin hlimit
    · exact freeRun_le h
  · intro j hj
    rcases Nat.eq_zero_or_pos j with rfl | hpos
    · exact firstFree_free hin
    · exact (freeRun_free hpos hj).2

end Search

/-! ## Cells -/

/-- A resource of the slot: beam, RB of the carrier, symbol. -/
structure Cell where
  beam : Nat
  rb : Nat
  symbol : Nat

/-- The cells that the maps of the beams show as occupied. -/
def occupied (maps : Nat → VrbMap) : Set Cell :=
  {c | (maps c.beam c.rb).testBit c.symbol = true}

/-- What a UE was given, with the map on which it was decided. -/
structure Alloc where
  beam : Nat
  bwp : BwpInfo
  rbStart : Nat
  rbSize : Nat
  tdaInfo : TdaInfo
  before : VrbMap

namespace Alloc

/-- The cells of the allocation. -/
def cells (a : Alloc) : Set Cell :=
  {c | c.beam = a.beam ∧ a.bwp.bwpStart + a.rbStart ≤ c.rb ∧
    c.rb < a.bwp.bwpStart + a.rbStart + a.rbSize ∧
    a.tdaInfo.startSymbolIndex ≤ c.symbol ∧
    c.symbol < a.tdaInfo.startSymbolIndex + a.tdaInfo.nrOfSymbols ∧ c.symbol < 14}

/-- The allocation lies in its BWP. -/
def InBwp (a : Alloc) : Prop := a.rbStart + a.rbSize ≤ a.bwp.bwpSize

/-- No cell of the allocation was occupied before it was made. -/
def WasFree (a : Alloc) : Prop := ∀ c ∈ a.cells, (a.before c.rb).testBit c.symbol = false

lemma testBit_of_mem {a : Alloc} {c : Cell} (h : c ∈ a.cells) :
    a.tdaInfo.slbitmap.testBit c.symbol = true := by
  obtain ⟨_, _, _, hlo, hhi, h14⟩ := h
  rw [TdaInfo.slbitmap, slToBitmap_testBit h14]
  simp [hlo, hhi]

lemma wasFree_of_busy {a : Alloc} (h : ∀ j < a.rbSize,
    a.before.busy a.tdaInfo.slbitmap (a.bwp.bwpStart + a.rbStart + j) = false) : a.WasFree := by
  intro c hc
  have hlo := hc.2.1
  have hhi := hc.2.2.1
  have hrb := h (c.rb - (a.bwp.bwpStart + a.rbStart)) (by omega)
  rw [Nat.add_sub_cancel' hlo] at hrb
  exact VrbMap.busy_eq_false.mp hrb c.symbol (testBit_of_mem hc)

end Alloc

/-! ## The state of the loops over the UEs -/

/-- Maps, RBs and UEs left on each beam, the UEs kept for the second loop, and what was given. -/
structure Slot (υ : Type) where
  vrbMap : Nat → VrbMap
  nRbSched : Nat → Int
  remainUEs : Nat → Int
  ueSched : List υ
  allocs : List Alloc

/-- Nothing, an allocation with the new map of its beam, or a place in the second loop. -/
inductive Turn (υ : Type)
  | skip (ue : υ)
  | given (ue : υ) (beam : Nat) (map : VrbMap)
  | later (ue : υ)

/-- The turn of a UE that was looked after on a beam. -/
def Turn.of {υ : Type} (beam : Nat) : υ × Option VrbMap → Turn υ
  | (ue, none) => .skip ue
  | (ue, some map) => .given ue beam map

/-- The UE that the turn leaves. -/
def Turn.ue {υ : Type} : Turn υ → υ
  | .skip ue => ue
  | .given ue _ _ => ue
  | .later ue => ue

/-- The turn makes an allocation. -/
def Turn.gives {υ : Type} : Option (Turn υ) → Bool
  | some (.given ..) => true
  | _ => false

namespace Slot

variable {υ : Type}

/-- The slot after an allocation. -/
def give (s : Slot υ) (a : Alloc) (map : VrbMap) (rbs : Nat) : Slot υ :=
  { s with
    vrbMap := Function.update s.vrbMap a.beam map
    nRbSched := Function.update s.nRbSched a.beam (s.nRbSched a.beam - rbs)
    remainUEs := Function.update s.remainUEs a.beam (s.remainUEs a.beam - 1)
    allocs := s.allocs ++ [a] }

/-- The slot before the loops. -/
def start (maxNumUe : Int) (vrbMap : Nat → VrbMap) (nRbSched : Nat → Int) :
    Slot υ where
  vrbMap := vrbMap
  nRbSched := nRbSched
  remainUEs := fun _ => maxNumUe
  ueSched := []
  allocs := []

/-- What `for (i = 0; i < num_beams; i++) total_rem_ues += remainUEs[i]` adds up. -/
def totalRemUes (s : Slot υ) (numBeams : Nat) : Int := ((List.range numBeams).map s.remainUEs).sum

end Slot

/-! ## Occupied cells only get more -/

/-- What is occupied stays occupied. -/
def VrbMap.Grows (map map' : VrbMap) : Prop :=
  ∀ rb sym, (map rb).testBit sym = true → (map' rb).testBit sym = true

lemma VrbMap.Grows.trans {m m' m'' : VrbMap} (h : m.Grows m') (h' : m'.Grows m'') :
    m.Grows m'' :=
  fun rb sym hbit => h' rb sym (h rb sym hbit)

lemma VrbMap.mark_grows (map : VrbMap) (bits rb : Nat) : map.Grows (map.mark bits rb) := by
  intro r sym hbit
  rw [mark_testBit, hbit, Bool.true_or]

lemma VrbMap.foldl_grows {ι : Type} {f : VrbMap → ι → VrbMap}
    (h : ∀ m i, VrbMap.Grows m (f m i)) :
    ∀ (is : List ι) (map : VrbMap), map.Grows (is.foldl f map) := by
  intro is
  induction is with
  | nil => exact fun _ _ _ hbit => hbit
  | cons i is ih => exact fun map => (h map i).trans (ih (f map i))

lemma VrbMap.markLoop_grows (map : VrbMap) (bits offset start stop : Nat) :
    map.Grows (map.markLoop bits offset start stop) :=
  foldl_grows (fun m _ => m.mark_grows _ _) _ map

lemma fillPdcchVrbMap_grows (map : VrbMap) (pdcch : SchedPdcch) (firstCce aggregation : Nat) :
    map.Grows (fillPdcchVrbMap map pdcch firstCce aggregation) := by
  apply VrbMap.foldl_grows
  intro m j
  apply VrbMap.foldl_grows
  intro m k
  exact VrbMap.foldl_grows (fun m _ => m.mark_grows _ _) _ m

/-! ## What the loops over the UEs keep -/

/-- All its cells are occupied in the map. -/
def Alloc.MarkedIn (a : Alloc) (map : VrbMap) : Prop :=
  ∀ c ∈ a.cells, (map c.rb).testBit c.symbol = true

lemma Alloc.markedIn_markLoop {a : Alloc} {map : VrbMap} {offset start stop : Nat}
    (hstart : start + offset ≤ a.bwp.bwpStart + a.rbStart)
    (hstop : a.bwp.bwpStart + a.rbStart + a.rbSize ≤ stop + offset) :
    a.MarkedIn (map.markLoop a.tdaInfo.slbitmap offset start stop) := by
  intro c hc
  have hbit := testBit_of_mem hc
  obtain ⟨_, hlo, hhi, _⟩ := hc
  have hin : c.rb ∈ (List.range' start (stop - start)).map fun rb => rb + offset :=
    List.mem_map.mpr ⟨c.rb - offset, List.mem_range'_1.mpr (by omega), by omega⟩
  rw [VrbMap.markLoop, ← List.foldl_map, VrbMap.foldl_mark_testBit, hbit,
    decide_eq_true hin]
  exact Bool.or_true _

namespace Slot

variable {υ : Type}

/-- The allocations are disjoint, and all marked. -/
def Safe (s : Slot υ) : Prop := Booked (occupied s.vrbMap) (s.allocs.map Alloc.cells)

lemma give_forall {s : Slot υ} {a : Alloc} {P : Alloc → Prop} (map : VrbMap) (rbs : Nat)
    (h : ∀ b ∈ s.allocs, P b) (ha : P a) : ∀ b ∈ (s.give a map rbs).allocs, P b := by
  intro b hb
  rcases List.mem_append.mp hb with hb | hb
  · exact h b hb
  · rw [List.mem_singleton.mp hb]
    exact ha

theorem give_safe {s : Slot υ} {a : Alloc} {map : VrbMap} (rbs : Nat) (h : s.Safe)
    (hbefore : a.before = s.vrbMap a.beam) (hfree : a.WasFree)
    (hgrows : (s.vrbMap a.beam).Grows map) (hmarked : a.MarkedIn map) :
    (s.give a map rbs).Safe := by
  have hmaps : ∀ b, (s.give a map rbs).vrbMap b = if b = a.beam then map else s.vrbMap b := by
    intro b
    exact Function.update_apply _ _ _ _
  have hgrow : occupied s.vrbMap ⊆ occupied (s.give a map rbs).vrbMap := by
    intro c hc
    change ((s.give a map rbs).vrbMap c.beam c.rb).testBit c.symbol = true
    rw [hmaps]
    split
    next hb =>
      apply hgrows
      rw [← hb]
      exact hc
    · exact hc
  have hdisj : Disjoint a.cells (occupied s.vrbMap) := by
    rw [Set.disjoint_left]
    intro c hc hocc
    have hzero := hfree c hc
    rw [hbefore, ← hc.1] at hzero
    exact Bool.false_ne_true (hzero.symm.trans hocc)
  have hcells : a.cells ⊆ occupied (s.give a map rbs).vrbMap := by
    intro c hc
    change ((s.give a map rbs).vrbMap c.beam c.rb).testBit c.symbol = true
    rw [hmaps, if_pos hc.1]
    exact hmarked c hc
  have hlist : (s.give a map rbs).allocs.map Alloc.cells =
      s.allocs.map Alloc.cells ++ [a.cells] := List.map_append
  rw [Safe, hlist]
  exact h.add hdisj hgrow hcells

lemma start_safe (maxNumUe : Int) (vrbMap : Nat → VrbMap) (nRbSched : Nat → Int) :
    (start maxNumUe vrbMap nRbSched : Slot υ).Safe :=
  ⟨List.Pairwise.nil, fun _ hc => (List.not_mem_nil hc).elim⟩

/-- What a turn keeps: allocations in the BWP always, free cells if `free`, disjointness if `marks`. -/
structure Keeps (s s' : Slot υ) (free marks : Prop) : Prop where
  inBwp : (∀ a ∈ s.allocs, a.InBwp) → ∀ a ∈ s'.allocs, a.InBwp
  wasFree : free → (∀ a ∈ s.allocs, a.WasFree) → ∀ a ∈ s'.allocs, a.WasFree
  safe : marks → s.Safe → s'.Safe

lemma Keeps.refl (s : Slot υ) (free marks : Prop) : s.Keeps s free marks :=
  ⟨id, fun _ h => h, fun _ h => h⟩

end Slot

/-- An allocation made on a map, with the map it leaves: in the BWP, on free cells if `free`, and all
its cells marked if `marks`. -/
structure Given (map : VrbMap) (a : Alloc) (map' : VrbMap) (free marks : Prop) : Prop where
  before : a.before = map
  inBwp : a.InBwp
  grows : map.Grows map'
  wasFree : free → a.WasFree
  marked : marks → a.MarkedIn map'

lemma Given.keeps {υ : Type} {s : Slot υ} {a : Alloc} {map : VrbMap} {free marks free' marks' : Prop}
    (h : Given (s.vrbMap a.beam) a map free marks) (rbs : Nat) (hfree : free' → free)
    (hmarks : marks' → free ∧ marks) : s.Keeps (s.give a map rbs) free' marks' where
  inBwp hs := Slot.give_forall _ _ hs h.inBwp
  wasFree hf hs := Slot.give_forall _ _ hs (h.wasFree (hfree hf))
  safe hm hs :=
    Slot.give_safe _ hs h.before (h.wasFree (hmarks hm).1) h.grows (h.marked (hmarks hm).2)

lemma Turn.of_map_eq_given {υ : Type} {found : Option (υ × Option VrbMap)} {beam beam' : Nat} {ue : υ}
    {map : VrbMap} (h : found.map (Turn.of beam) = some (.given ue beam' map)) :
    beam' = beam ∧ found = some (ue, some map) := by
  obtain ⟨⟨ue', map'⟩, hr, heq⟩ := Option.map_eq_some_iff.mp h
  cases map' with
  | none => cases heq
  | some map' =>
    cases heq
    exact ⟨rfl, hr⟩

/-- A turn that gives nothing leaves maps and allocations as they are. -/
lemma Slot.Keeps.of_turn {υ : Type} {s s' : Slot υ} {turn : Option (Turn υ)} {after : Turn υ → Slot υ}
    {free marks : Prop} (h : turn.map after = some s')
    (hother : ∀ ue, after (.skip ue) = s ∧ after (.later ue) = { s with ueSched := s.ueSched ++ [ue] })
    (hgiven : ∀ ue beam map, turn = some (.given ue beam map) →
      s.Keeps (after (.given ue beam map)) free marks) : s.Keeps s' free marks := by
  obtain ⟨t, ht, rfl⟩ := Option.map_eq_some_iff.mp h
  cases t with
  | skip ue =>
    rw [(hother ue).1]
    exact refl s free marks
  | later ue =>
    rw [(hother ue).2]
    exact { refl s free marks with }
  | given ue beam map => exact hgiven ue beam map ht

/-- **A slot of two loops**, the second over the UEs that the first kept: what holds of the allocations
of every turn holds of the slot's. -/
theorem Slot.Keeps.loops {υ : Type} {first second : Slot υ → υ → Option (Slot υ)}
    {free marks free' marks' : Slot υ → υ → Prop} {ues : List υ} {sort : List υ → List υ}
    {maxNumUe : Int} {vrbMap : Nat → VrbMap} {nRbSched : Nat → Int} {s : Slot υ}
    (hfirst : ∀ {s ue s'}, first s ue = some s' → s.Keeps s' (free s ue) (marks s ue))
    (hsecond : ∀ {s ue s'}, second s ue = some s' → s.Keeps s' (free' s ue) (marks' s ue))
    (h : (ues.foldlM first (start maxNumUe vrbMap nRbSched)).bind
      (fun t => (sort t.ueSched).foldlM second t) = some s) :
    ∃ t, ues.foldlM first (start maxNumUe vrbMap nRbSched) = some t ∧ (∀ a ∈ s.allocs, a.InBwp) ∧
      (Along first free (start maxNumUe vrbMap nRbSched) ues →
        Along second free' t (sort t.ueSched) → ∀ a ∈ s.allocs, a.WasFree) ∧
      (Along first marks (start maxNumUe vrbMap nRbSched) ues →
        Along second marks' t (sort t.ueSched) → (s.allocs.map Alloc.cells).Pairwise Disjoint) := by
  obtain ⟨t, ht, hs⟩ := Option.bind_eq_some_iff.mp h
  refine ⟨t, ht, ?_, fun hf hf' => ?_, fun hm hm' => ?_⟩
  · have hin := Along.invariant (fun _ _ _ hP _ hstep => (hfirst hstep).inBwp hP)
      (Along.of_forall fun _ _ => trivial) (fun _ ha => (List.not_mem_nil ha).elim) ht
    exact Along.invariant (fun _ _ _ hP _ hstep => (hsecond hstep).inBwp hP)
      (Along.of_forall fun _ _ => trivial) hin hs
  · have hfree := Along.invariant (fun _ _ _ hP hC hstep => (hfirst hstep).wasFree hC hP) hf
      (fun _ ha => (List.not_mem_nil ha).elim) ht
    exact Along.invariant (fun _ _ _ hP hC hstep => (hsecond hstep).wasFree hC hP) hf' hfree hs
  · have hsafe := Along.invariant (fun _ _ _ hP hC hstep => (hfirst hstep).safe hC hP) hm
      (start_safe _ _ _) ht
    exact (Along.invariant (fun _ _ _ hP hC hstep => (hsecond hstep).safe hC hP) hm' hsafe hs).disjoint

end NrStack.Mac
