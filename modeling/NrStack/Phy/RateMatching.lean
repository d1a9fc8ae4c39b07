/-
  LDPC rate matching and de-matching (`nr_rate_matching.c`).

  The transmitter takes `E` bits out of a circular buffer of `Ncb` coded bits, from the start of the
  redundancy version on, round the end and without the filler.  The receiver adds its `E` inputs to the same
  places, in loops around the filler.  Both models record the positions (`taken`, `into`).

  `none` is a call that does not return, `fuel` bounds the rounds of the repetition loop.  `3 * Tbslbrm`
  and `E + F` can overflow; a product with the 16 bits of `Z` cannot.
-/
import Mathlib
import NrStack.Lib.Ring

namespace NrStack.Phy

open RingWalk List

/-! ## The circular buffer -/

/-- `NR_NULL` -/
def nrNull : UInt8 := 2

/-- `index_k0` -/
def indexK0 (BG rvidx : Nat) : Nat :=
  ((if BG = 1 then [0, 17, 33, 56] else [0, 13, 25, 43])[rvidx]?).getD 0

/-- `N` -/
def codedBits (BG Z : Nat) : Nat := if BG = 1 then 66 * Z else 50 * Z

/-- `Ncb`, the length of the circular buffer. -/
def circularLength (Tbslbrm BG Z C : Nat) : Nat :=
  if Tbslbrm = 0 then codedBits BG Z
  else
    -- R_LBRM = 2/3
    let Nref := 3 * Tbslbrm % 2 ^ 32 / (2 * C)
    min (codedBits BG Z) Nref

/-- The index at which a redundancy version starts. -/
def rvStart (Tbslbrm BG Z C rvidx : Nat) : Nat :=
  (indexK0 BG rvidx * circularLength Tbslbrm BG Z C / codedBits BG Z) * Z

/-! ## `nr_rate_matching_ldpc` -/

/-- The output `e`, the bits written and where they were taken from. -/
structure RmTx where
  e : Nat → UInt8
  k : Nat
  taken : List Nat

/-- `memcpy(e + k, d + src, n)`, with `k` the bits written so far. -/
def RmTx.memcpy (d : Nat → UInt8) (st : RmTx) (src n : Nat) : RmTx :=
  { e := fun j => if st.k ≤ j ∧ j < st.k + n then d (src + (j - st.k)) else st.e j
    k := st.k + n
    taken := st.taken ++ List.range' src n }

/-- `if (d[ind] != NR_NULL) e[k++] = d[ind]` -/
def RmTx.copyBit (d : Nat → UInt8) (ind : Nat) (st : RmTx) : RmTx :=
  if d ind ≠ nrNull then
    { e := Function.update st.e st.k (d ind), k := st.k + 1, taken := st.taken ++ [ind] }
  else st

/-- The blocks copied before any repetition, from `ind` on. -/
def rateMatchFirst (d : Nat → UInt8) (Ncb F Foffset E ind : Nat) (st : RmTx) : RmTx :=
  let ind := if ind ≥ Foffset ∧ ind < F + Foffset then F + Foffset else ind
  if ind < Foffset then
    -- some bits before the filler and the rest after
    let st := st.memcpy d ind (Foffset - ind)
    if (E + F) % 2 ^ 32 ≤ Ncb - ind then st.memcpy d (Foffset + F) (E - Foffset + ind)
    else st.memcpy d (Foffset + F) (Ncb - Foffset - F)
  else if E ≤ Ncb - ind then st.memcpy d ind E
  else st.memcpy d ind (Ncb - ind)

/-- One round of the repetition: over the whole buffer, from its start. -/
def rateMatchLap (d : Nat → UInt8) (Ncb E : Nat) (st : RmTx) : RmTx :=
  (upTo (fun st => decide (st.k < E)) (RmTx.copyBit d) Ncb 0 st).2

/-- `nr_rate_matching_ldpc`: the return value and the output. -/
def nrRateMatchingLdpc (fuel Tbslbrm BG Z : Nat) (d e : Nat → UInt8) (C F Foffset rvidx E : Nat) :
    Option (Int × RmTx) :=
  let st : RmTx := { e, k := 0, taken := [] }
  let Ncb := circularLength Tbslbrm BG Z C
  if C = 0 then some (-1, st)
  else if Foffset > E then some (-1, st)
  else if Foffset > Ncb then some (-1, st)
  else
    (whileLoop (fun st => decide (st.k < E)) (rateMatchLap d Ncb E) fuel
      (rateMatchFirst d Ncb F Foffset E (rvStart Tbslbrm BG Z C rvidx) st)).map ((0, ·))

/-! ## `nr_rate_matching_ldpc_rx` -/

/-- The circular buffer of soft bits, the inputs read and where they were added. -/
structure RmRx where
  d : Nat → Int16
  k : Nat
  into : List Nat

/-- `d[ind] += soft_input[k++]` -/
def RmRx.addBit (softInput : Nat → Int16) (ind : Nat) (st : RmRx) : RmRx :=
  { d := Function.update st.d ind (st.d ind + softInput st.k)
    k := st.k + 1
    into := st.into ++ [ind] }

/-- `for (; ind < bound && k < E; ind++) d[ind] += soft_input[k++]` -/
def addLoop (softInput : Nat → Int16) (E bound ind : Nat) (st : RmRx) : Nat × RmRx :=
  upTo (fun st => decide (st.k < E)) (RmRx.addBit softInput) (bound - ind) ind st

/-- The bits before any repetition, from `ind` on. -/
def deMatchFirst (softInput : Nat → Int16) (Ncb F Foffset E ind : Nat) (st : RmRx) : RmRx :=
  let (ind, st) := if ind < Foffset then addLoop softInput E Foffset ind st else (ind, st)
  let ind := if ind ≥ Foffset ∧ ind < Foffset + F then Foffset + F else ind
  (addLoop softInput E Ncb ind st).2

/-- One round of the repetition: before the filler, then after it. -/
def deMatchLap (softInput : Nat → Int16) (Ncb F Foffset E : Nat) (st : RmRx) : RmRx :=
  (addLoop softInput E Ncb (Foffset + F) (addLoop softInput E Foffset 0 st).2).2

/-- `if (clear == 1) memset(d, 0, Ncb * sizeof(int16_t))` -/
def clearSoft (clear : Bool) (Ncb : Nat) (d : Nat → Int16) : Nat → Int16 :=
  if clear then fun x => if x < Ncb then 0 else d x else d

/-- `nr_rate_matching_ldpc_rx`: the return value and the circular buffer. -/
def nrRateMatchingLdpcRx (fuel Tbslbrm BG Z : Nat) (d softInput : Nat → Int16)
    (C rvidx : Nat) (clear : Bool) (E F Foffset : Nat) : Option (Int × RmRx) :=
  let Ncb := circularLength Tbslbrm BG Z C
  if C = 0 then some (-1, { d, k := 0, into := [] })
  else if Foffset > E then some (-1, { d, k := 0, into := [] })
  else if Foffset > Ncb then some (-1, { d, k := 0, into := [] })
  else
    let st : RmRx := { d := clearSoft clear Ncb d, k := 0, into := [] }
    (whileLoop (fun st => decide (st.k < E)) (deMatchLap softInput Ncb F Foffset E) fuel
      (deMatchFirst softInput Ncb F Foffset E (rvStart Tbslbrm BG Z C rvidx) st)).map ((0, ·))

/-! ## The transmitter's walk -/

/-- The filler bits of the circular buffer. -/
def Filler (F Foffset x : Nat) : Prop := Foffset ≤ x ∧ x < Foffset + F
deriving Decidable

variable {F Foffset Ncb : Nat}

lemma not_filler_of_le {x : Nat} (hx : Foffset + F ≤ x) : ¬ Filler F Foffset x :=
  fun hfiller => absurd hfiller.2 (not_lt.mpr hx)

lemma sweep_filler {E : Nat} {tr : List Nat} (hfit : Foffset + F ≤ Ncb) (hle : tr.length ≤ E) :
    Sweep Ncb (Filler F Foffset) E Foffset (Foffset + F) tr tr :=
  Sweep.skips hle (Nat.le_add_right Foffset F) hfit fun _ hx hx' => ⟨hx, hx'⟩

lemma sweep_start {E ind ind' : Nat} (hfit : Foffset + F ≤ Ncb) (hind : ind < Ncb)
    (hge : Foffset ≤ ind)
    (h : (if ind ≥ Foffset ∧ ind < Foffset + F then Foffset + F else ind) = ind') :
    ind' ≤ Ncb ∧ Foffset + F ≤ ind' ∧ Sweep Ncb (Filler F Foffset) E ind ind' [] [] := by
  split at h
  · next hin =>
    subst h
    exact ⟨hfit, le_refl _, Sweep.skips (Nat.zero_le E) hin.2.le hfit
      fun x hx hx' => ⟨hge.trans hx, hx'⟩⟩
  · subst h
    exact ⟨hind.le, by omega, Sweep.skips (Nat.zero_le E) (le_refl _) hind.le
      fun x hx hx' => absurd hx' (not_lt.mpr hx)⟩

/-- The output is the bits at the positions recorded. -/
structure RmTx.Ok (d : Nat → UInt8) (st : RmTx) : Prop where
  count : st.taken.length = st.k
  bits : (List.range st.k).map st.e = st.taken.map d

lemma RmTx.Ok.memcpy {d : Nat → UInt8} {st : RmTx} (h : st.Ok d) (src n : Nat) :
    (st.memcpy d src n).Ok d := by
  refine ⟨by simp [RmTx.memcpy, h.count], ?_⟩
  simp only [RmTx.memcpy, map_append, ← h.bits, range_add, List.range'_eq_map_range,
    map_map]
  congr 1
  · refine map_congr_left fun j hj => if_neg ?_
    have := mem_range.mp hj
    omega
  · refine map_congr_left fun j hj => ?_
    have := mem_range.mp hj
    simp only [Function.comp_apply]
    rw [if_pos ⟨by omega, by omega⟩, Nat.add_sub_cancel_left]

lemma RmTx.Ok.copyBit {d : Nat → UInt8} {st : RmTx} (h : st.Ok d) (ind : Nat) :
    (st.copyBit d ind).Ok d := by
  rw [RmTx.copyBit]
  split
  · refine ⟨by simp [h.count], ?_⟩
    simp only [range_succ, map_append, map_cons, map_nil, Function.update_self,
      ← h.bits]
    congr 1
    exact map_congr_left fun j hj => Function.update_of_ne (mem_range.mp hj).ne _ _
  · exact h

section Walk

variable {Ncb F Foffset E : Nat}

lemma rateMatchFirst_ok (d : Nat → UInt8) (st : RmTx) (h : st.Ok d) (ind : Nat) :
    (rateMatchFirst d Ncb F Foffset E ind st).Ok d := by
  simp only [rateMatchFirst]
  repeat' split
  all_goals first
    | exact (h.memcpy _ _).memcpy _ _
    | exact h.memcpy _ _

theorem rateMatchFirst_sweep (d : Nat → UInt8) (st : RmTx) {ind : Nat} (hst : st.taken = [])
    (hind : ind < Ncb) (hfit : Foffset + F ≤ Ncb) (hE : Foffset ≤ E) (hwrap : E + F < 2 ^ 32) :
    Sweep Ncb (Filler F Foffset) E ind Ncb [] (rateMatchFirst d Ncb F Foffset E ind st).taken := by
  simp only [rateMatchFirst, Nat.mod_eq_of_lt hwrap]
  by_cases hlt : ind < Foffset
  · -- up to the filler, over it, and on
    rw [if_neg (by omega : ¬ (ind ≥ Foffset ∧ ind < F + Foffset)), if_pos hlt]
    have hbefore : Sweep Ncb (Filler F Foffset) E ind Foffset [] ([] ++ List.range' ind
        (Foffset - ind)) :=
      Sweep.block (by rw [length_nil]; omega) (by omega) (by omega)
        (fun x _ hx hfiller => by have := hfiller.1; omega) (fun _ => by omega)
    have hover := hbefore.trans (sweep_filler hfit hbefore.le)
    have hlen : ([] ++ List.range' ind (Foffset - ind)).length = Foffset - ind := by simp
    split
    · simp only [RmTx.memcpy, hst]
      exact hover.trans (Sweep.block (by omega) (by omega) (le_refl _)
        (fun x hx _ => not_filler_of_le hx) (by omega))
    · simp only [RmTx.memcpy, hst]
      exact hover.trans (Sweep.block (by omega) (by omega) (le_refl _)
        (fun x hx _ => not_filler_of_le hx) (by omega))
  · -- in the filler or after it
    rw [Nat.add_comm F Foffset]
    generalize hadjust : (if ind ≥ Foffset ∧ ind < Foffset + F then Foffset + F else ind) = ind'
    obtain ⟨hle, hge, hover⟩ := sweep_start hfit hind (by omega) hadjust
    have hno : ∀ x, ind' ≤ x → ¬ Filler F Foffset x := fun x hx => not_filler_of_le (by omega)
    rw [if_neg (by omega)]
    split
    · simp only [RmTx.memcpy, hst]
      exact hover.trans (Sweep.block (by simp) (by omega) (le_refl _) (fun x hx _ => hno x hx)
        (by simp))
    · simp only [RmTx.memcpy, hst]
      exact hover.trans (Sweep.block (by rw [length_nil]; omega) (by omega) (le_refl _)
        (fun x hx _ => hno x hx) (by omega))

theorem rateMatchLap_sweep {d : Nat → UInt8} {st : RmTx} (h : st.Ok d) (hle : st.k ≤ E)
    (hnull : ∀ x, x < Ncb → (d x = nrNull ↔ Filler F Foffset x)) :
    (rateMatchLap d Ncb E st).Ok d ∧
      Sweep Ncb (Filler F Foffset) E 0 Ncb st.taken (rateMatchLap d Ncb E st).taken := by
  refine ⟨upTo_invariant (fun i _ _ hs => hs.copyBit i) h, ?_⟩
  have hsweep : Sweep Ncb _ E 0 (0 + Ncb) _ (rateMatchLap d Ncb E st).taken :=
    upTo_sweep (Filler F Foffset) RmTx.taken (fun s hs => by rw [hs.count])
    (fun x s hs => hs.copyBit x) h (by rw [h.count]; exact hle) (by omega)
    (fun x s _ hx hskip => by
      rw [RmTx.copyBit, if_neg (not_not.mpr ((hnull x (by omega)).mpr hskip))])
    (fun x s _ hx hskip => by
      rw [RmTx.copyBit, if_pos fun h => hskip ((hnull x (by omega)).mp h)])
  rwa [Nat.zero_add] at hsweep

end Walk

/-! ## The receiver's walk -/

/-- The inputs from the `k`-th on, added at the given positions. -/
def accumulate (softInput : Nat → Int16) : Nat → List Nat → (Nat → Int16) → (Nat → Int16)
  | _, [], d => d
  | k, ind :: l, d =>
    accumulate softInput (k + 1) l (Function.update d ind (d ind + softInput k))

lemma accumulate_concat (softInput : Nat → Int16) (ind : Nat) :
    ∀ (l : List Nat) (k : Nat) (d : Nat → Int16),
      accumulate softInput k (l ++ [ind]) d =
        Function.update (accumulate softInput k l d) ind
          (accumulate softInput k l d ind + softInput (k + l.length)) := by
  intro l
  induction l with
  | nil => exact fun k d => rfl
  | cons j l ih =>
    intro k d
    rw [cons_append, accumulate, accumulate, ih, length_cons, Nat.add_right_comm,
      Nat.add_assoc]

/-- The buffer is the inputs read, added at the positions recorded. -/
structure RmRx.Ok (softInput d : Nat → Int16) (st : RmRx) : Prop where
  count : st.into.length = st.k
  sums : st.d = accumulate softInput 0 st.into d

lemma RmRx.Ok.addBit {softInput d : Nat → Int16} {st : RmRx} (h : st.Ok softInput d)
    (ind : Nat) : (st.addBit softInput ind).Ok softInput d := by
  refine ⟨by simp [RmRx.addBit, h.count], ?_⟩
  simp [RmRx.addBit, accumulate_concat, ← h.sums, h.count]

section Walk

variable {Ncb F Foffset E : Nat} {softInput d : Nat → Int16}

variable {st : RmRx} {bound ind : Nat}

lemma addLoop_ok (h : st.Ok softInput d) (bound ind : Nat) :
    (addLoop softInput E bound ind st).2.Ok softInput d :=
  upTo_invariant (fun i _ _ hs => hs.addBit i) h

lemma addLoop_fst (softInput : Nat → Int16) (st : RmRx) (hib : ind ≤ bound)
    (hgo : (addLoop softInput E bound ind st).2.k < E) :
    (addLoop softInput E bound ind st).1 = bound := by
  have hend : (addLoop softInput E bound ind st).1 = ind + (bound - ind) :=
    upTo_fst (by exact decide_eq_true hgo)
  omega

lemma addLoop_done (hgo : ¬ st.k < E) : addLoop softInput E bound ind st = (ind, st) :=
  upTo_of_not_go (by exact decide_eq_false hgo)

lemma addLoop_sweep (h : st.Ok softInput d) (hle : st.into.length ≤ E) (hib : ind ≤ bound)
    (hbound : bound ≤ Ncb) (hno : ∀ x, ind ≤ x → x < bound → ¬ Filler F Foffset x) :
    Sweep Ncb (Filler F Foffset) E ind bound st.into
      (addLoop softInput E bound ind st).2.into := by
  have hsweep : Sweep Ncb _ E ind (ind + (bound - ind)) _ (addLoop softInput E bound ind st).2.into :=
    upTo_sweep (Filler F Foffset) RmRx.into
      (fun s hs => by rw [hs.count]) (fun x s hs => hs.addBit x) h hle (by omega)
      (fun x _ hx hx' hskip => absurd hskip (hno x hx (by omega))) (fun x _ _ _ _ => rfl)
  rwa [show ind + (bound - ind) = bound by omega] at hsweep

lemma deMatchFirst_ok (st : RmRx) (h : st.Ok softInput d) (ind : Nat) :
    (deMatchFirst softInput Ncb F Foffset E ind st).Ok softInput d := by
  simp only [deMatchFirst]
  split
  · exact addLoop_ok (addLoop_ok h _ _) _ _
  · exact addLoop_ok h _ _

theorem deMatchFirst_sweep (st : RmRx) (h : st.Ok softInput d) (hst : st.into = [])
    (hind : ind < Ncb) (hfit : Foffset + F ≤ Ncb) :
    Sweep Ncb (Filler F Foffset) E ind Ncb []
      (deMatchFirst softInput Ncb F Foffset E ind st).into := by
  simp only [deMatchFirst]
  by_cases hlt : ind < Foffset
  · rw [if_pos hlt]
    have hbefore : Sweep Ncb (Filler F Foffset) E ind Foffset _ _ :=
      addLoop_sweep h (by rw [hst]; exact Nat.zero_le E) hlt.le (by omega)
        fun x _ hx hfiller => absurd hfiller.1 (not_le.mpr hx)
    rw [hst] at hbefore
    have hok := addLoop_ok (E := E) h Foffset ind
    have hfst := addLoop_fst (E := E) softInput st hlt.le
    generalize addLoop softInput E Foffset ind st = r at hbefore hok hfst
    by_cases hgo : r.2.k < E
    · rw [hfst hgo]
      have hover := hbefore.trans (sweep_filler hfit hbefore.le)
      by_cases hF : 0 < F
      · rw [if_pos ⟨le_refl _, by omega⟩]
        exact hover.trans (addLoop_sweep hok hbefore.le hfit (le_refl _)
          fun x hx _ => not_filler_of_le hx)
      · rw [if_neg (by omega)]
        exact hbefore.trans (addLoop_sweep hok hbefore.le (by omega) (le_refl _)
          fun x hx _ => not_filler_of_le (by omega))
    · -- all inputs are used up
      rw [addLoop_done hgo]
      refine hbefore.trans (Sweep.full ?_)
      have hle := hbefore.le
      rw [hok.count] at hle ⊢
      omega
  · rw [if_neg hlt]
    generalize hadjust : (if ind ≥ Foffset ∧ ind < Foffset + F then Foffset + F else ind) = ind'
    obtain ⟨hle, hge, hover⟩ := sweep_start hfit hind (by omega) hadjust
    have hafter : Sweep Ncb (Filler F Foffset) E ind' Ncb _ _ :=
      addLoop_sweep h (by rw [hst]; exact Nat.zero_le E) hle (le_refl Ncb)
        fun x hx _ => not_filler_of_le (by omega)
    rw [hst] at hafter
    exact hover.trans hafter

theorem deMatchLap_sweep (h : st.Ok softInput d) (hle : st.k ≤ E) (hfit : Foffset + F ≤ Ncb) :
    (deMatchLap softInput Ncb F Foffset E st).Ok softInput d ∧
      Sweep Ncb (Filler F Foffset) E 0 Ncb st.into
        (deMatchLap softInput Ncb F Foffset E st).into := by
  have hbefore : Sweep Ncb (Filler F Foffset) E 0 Foffset _ _ :=
    addLoop_sweep h (by rw [h.count]; exact hle) (Nat.zero_le Foffset) (by omega)
      fun x _ hx hfiller => absurd hfiller.1 (not_le.mpr hx)
  have hok := addLoop_ok (E := E) h Foffset 0
  refine ⟨addLoop_ok hok _ _, ?_⟩
  apply (hbefore.trans (sweep_filler hfit hbefore.le)).trans
  exact addLoop_sweep hok hbefore.le hfit (le_refl Ncb) fun x hx _ => not_filler_of_le hx

end Walk

/-! ## The two agree -/

lemma indexK0_lt (BG rvidx Z : Nat) (hZ : 0 < Z) : indexK0 BG rvidx * Z < codedBits BG Z := by
  have hk0 : indexK0 BG rvidx ≤ if BG = 1 then 56 else 43 := by
    rw [indexK0]
    split <;> rcases rvidx with _ | _ | _ | _ | rv <;> simp
  have hmul := Nat.mul_le_mul_right Z hk0
  rw [codedBits]
  split at hmul <;> simp_all only [if_true, if_false] <;> omega

lemma circularLength_le (Tbslbrm BG Z C : Nat) :
    circularLength Tbslbrm BG Z C ≤ codedBits BG Z := by
  rw [circularLength]
  split
  · exact le_refl _
  · exact min_le_left _ _

lemma rvStart_lt {Tbslbrm BG Z C : Nat} (rvidx : Nat)
    (hNcb : 0 < circularLength Tbslbrm BG Z C) :
    rvStart Tbslbrm BG Z C rvidx < circularLength Tbslbrm BG Z C := by
  have hZ : 0 < Z := by
    have hle := circularLength_le Tbslbrm BG Z C
    rw [codedBits] at hle
    split at hle <;> omega
  rw [rvStart]
  generalize circularLength Tbslbrm BG Z C = Ncb at hNcb ⊢
  have hk0 := indexK0_lt BG rvidx Z hZ
  generalize indexK0 BG rvidx = k0 at hk0 ⊢
  generalize codedBits BG Z = N at hk0 ⊢
  -- k0 Z < N, so that of Ncb times k0 Z / N less than Ncb is left
  apply Nat.lt_of_mul_lt_mul_left
  calc N * (k0 * Ncb / N * Z) = N * (k0 * Ncb / N) * Z := (Nat.mul_assoc _ _ _).symm
    _ ≤ k0 * Ncb * Z := Nat.mul_le_mul_right Z (Nat.mul_div_le _ _)
    _ = k0 * Z * Ncb := Nat.mul_right_comm _ _ _
    _ < N * Ncb := Nat.mul_lt_mul_of_pos_right hk0 hNcb

lemma exists_not_filler (Foffset : Nat) (hF : F < Ncb) : ∃ x, x < Ncb ∧ ¬ Filler F Foffset x := by
  by_cases h : 0 < Foffset
  · exact ⟨0, by omega, fun hfiller => absurd hfiller.1 (not_le.mpr h)⟩
  · exact ⟨F, hF, not_filler_of_le (by omega)⟩

/-- **Rate matching and de-matching use the same positions.** Parameters that one function refuses the
other refuses as well.  Otherwise, when not the whole buffer is filler and `E + F` does not overflow,
both return, and their positions are the SAME walk round the buffer from the start of the redundancy
version that skips the filler. -/
theorem rate_matching_same_positions (Tbslbrm BG Z C F Foffset rvidx E : Nat)
    (d e : Nat → UInt8) (dRx softInput : Nat → Int16) (clear : Bool)
    (hF : F < circularLength Tbslbrm BG Z C) (hfit : Foffset + F ≤ circularLength Tbslbrm BG Z C)
    (hwrap : E + F < 2 ^ 32)
    (hnull : ∀ x, x < circularLength Tbslbrm BG Z C → (d x = nrNull ↔ Filler F Foffset x)) :
    let Ncb := circularLength Tbslbrm BG Z C
    let tx := fun fuel => nrRateMatchingLdpc fuel Tbslbrm BG Z d e C F Foffset rvidx E
    let rx := fun fuel =>
      nrRateMatchingLdpcRx fuel Tbslbrm BG Z dRx softInput C rvidx clear E F Foffset
    (C = 0 ∨ E < Foffset → ∀ fuel, tx fuel = some (-1, ⟨e, 0, []⟩) ∧
      rx fuel = some (-1, ⟨dRx, 0, []⟩)) ∧
    (0 < C → Foffset ≤ E → ∀ fuel ≥ E, ∃ outTx outRx l,
      tx fuel = some (0, outTx) ∧ rx fuel = some (0, outRx) ∧
      outTx.taken = l ∧ outRx.into = l ∧ l.length = E ∧
      (∀ x ∈ l, x < Ncb ∧ ¬ Filler F Foffset x) ∧
      (∃ j, Ring Ncb (Filler F Foffset) (rvStart Tbslbrm BG Z C rvidx) l j) ∧
      (List.range E).map outTx.e = l.map d ∧
      outRx.d = accumulate softInput 0 l (clearSoft clear Ncb dRx)) := by
  intro Ncb tx rx
  constructor
  · intro hbad fuel
    by_cases hC : C = 0
    · exact ⟨by simp only [tx, nrRateMatchingLdpc, if_pos hC],
        by simp only [rx, nrRateMatchingLdpcRx, if_pos hC]⟩
    · have hE : Foffset > E := hbad.resolve_left hC
      exact ⟨by simp only [tx, nrRateMatchingLdpc, if_neg hC, if_pos hE],
        by simp only [rx, nrRateMatchingLdpcRx, if_neg hC, if_pos hE]⟩
  · intro hC hE fuel hfuel
    have hstart := rvStart_lt rvidx (by omega : 0 < circularLength Tbslbrm BG Z C)
    obtain ⟨x, hx, hno⟩ := exists_not_filler Foffset hF
    obtain ⟨outTx, htx, hokTx, hroundsTx, hlenTx⟩ := whileLoop_rounds RmTx.taken
      (fun st hst => hst.count) (fun st hst hlt => rateMatchLap_sweep hst hlt.le hnull) hx hno hfuel
      (rateMatchFirst_ok d ⟨e, 0, []⟩ ⟨rfl, rfl⟩ _)
      (Rounds.first hstart (rateMatchFirst_sweep d ⟨e, 0, []⟩ rfl hstart hfit hE hwrap))
    let soft : RmRx := ⟨clearSoft clear Ncb dRx, 0, []⟩
    obtain ⟨outRx, hrx, hokRx, hroundsRx, hlenRx⟩ := whileLoop_rounds
      RmRx.into
      (fun st hst => hst.count) (fun st hst hlt => deMatchLap_sweep hst hlt.le hfit) hx hno hfuel
      (deMatchFirst_ok soft ⟨rfl, rfl⟩ _)
      (Rounds.first hstart (deMatchFirst_sweep soft ⟨rfl, rfl⟩ rfl hstart hfit))
    obtain ⟨j, hwalkTx, -⟩ := hroundsTx.walk
    obtain ⟨j', hwalkRx, -⟩ := hroundsRx.walk
    refine ⟨outTx, outRx, outTx.taken, ?_, ?_, rfl,
      hwalkRx.unique hwalkTx (hlenRx.trans hlenTx.symm), hlenTx, hwalkTx.mem, ⟨j, hwalkTx⟩, ?_, ?_⟩
    · simp only [tx, nrRateMatchingLdpc, if_neg hC.ne', if_neg (not_lt.mpr hE),
        if_neg (by omega : ¬ Foffset > circularLength Tbslbrm BG Z C)]
      exact congrArg (Option.map fun st => ((0 : Int), st)) htx
    · simp only [rx, nrRateMatchingLdpcRx, if_neg hC.ne', if_neg (not_lt.mpr hE),
        if_neg (by omega : ¬ Foffset > circularLength Tbslbrm BG Z C)]
      exact congrArg (Option.map fun st => ((0 : Int), st)) hrx
    · rw [← hokTx.bits, ← hokTx.count, hlenTx]
    · rw [hokRx.sums, hwalkRx.unique hwalkTx (hlenRx.trans hlenTx.symm)]

theorem rate_matching_same_positions_repeated :
    let d : Nat → UInt8 := fun x => if 12 ≤ x ∧ x < 16 then 2 else 1
    (4 < circularLength 0 2 2 1 ∧ 12 + 4 ≤ circularLength 0 2 2 1) ∧
      ∃ outTx outRx, nrRateMatchingLdpc 150 0 2 2 d (fun _ => 0) 1 4 12 2 150 = some (0, outTx) ∧
        nrRateMatchingLdpcRx 150 0 2 2 (fun _ => 0) (fun _ => 1) 1 2 true 150 4 12 =
          some (0, outRx) ∧ outTx.taken = outRx.into := by
  intro d
  have hboth := (rate_matching_same_positions 0 2 2 1 4 12 2 150 d (fun _ => 0) (fun _ => 0)
    (fun _ => 1) true (by decide) (by decide) (by decide) (by decide +kernel)).2 (by decide)
    (by decide) 150 (le_refl _)
  obtain ⟨outTx, outRx, l, htx, hrx, htaken, hinto, -⟩ := hboth
  exact ⟨by decide, outTx, outRx, htx, hrx, htaken.trans hinto.symm⟩

lemma rateMatchLap_null (Ncb E : Nat) (st : RmTx) :
    rateMatchLap (fun _ => nrNull) Ncb E st = st :=
  upTo_invariant (P := fun s => s = st) (fun i s _ hs => by
    rw [hs, RmTx.copyBit, if_neg (not_not.mpr rfl)]) rfl

/-- **A buffer of filler, and a sum that wraps.**  With nothing but filler neither function returns; with
`E + F = 2^32 + 2` the transmitter takes the sum for 2 and copies from behind the buffer. -/
theorem rate_matching_all_filler :
    ((132 : Nat) = circularLength 0 1 2 1 ∧
      (∀ x, x < 132 → ((fun _ => nrNull : Nat → UInt8) x = nrNull ↔ Filler 132 0 x)) ∧
      ∀ fuel, nrRateMatchingLdpc fuel 0 1 2 (fun _ => nrNull) (fun _ => 0) 1 132 0 0 1 = none ∧
        nrRateMatchingLdpcRx fuel 0 1 2 (fun _ => 0) (fun _ => 0) 1 0 true 1 132 0 = none) ∧
    let d : Nat → UInt8 := fun x => if Filler 4 12 x then nrNull else 1
    (∀ x, d x = nrNull ↔ Filler 4 12 x) ∧ ∀ fuel, ∃ out,
      nrRateMatchingLdpc fuel 0 1 2 d (fun _ => 0) 1 4 12 0 (2 ^ 32 - 2) = some (0, out) ∧
        circularLength 0 1 2 1 ∈ out.taken := by
  constructor
  · refine ⟨by decide, fun x hx => ⟨fun _ => ⟨Nat.zero_le x, by omega⟩, fun _ => rfl⟩, fun fuel => ?_⟩
    constructor
    · exact Option.map_eq_none_iff.mpr (whileLoop_stuck (by decide) (rateMatchLap_null _ _ _) fuel)
    · exact Option.map_eq_none_iff.mpr (whileLoop_stuck (by decide) rfl fuel)
  · intro d
    constructor
    · intro x
      show (if Filler 4 12 x then nrNull else 1) = nrNull ↔ _
      split
      · next hx => exact iff_of_true rfl hx
      · next hx => exact iff_of_false (by decide) hx
    · intro fuel
      -- twelve bits before the filler, and all others behind it
      let st : RmTx := (RmTx.memcpy d ⟨fun _ => 0, 0, []⟩ 0 12).memcpy d 16 (2 ^ 32 - 2 - 12 + 0)
      refine ⟨st, ?_, mem_append_right _ (mem_range'_1.mpr (by decide))⟩
      have hfirst : rateMatchFirst d (circularLength 0 1 2 1) 4 12 (2 ^ 32 - 2) (rvStart 0 1 2 1 0)
          ⟨fun _ => 0, 0, []⟩ = st := by
        rw [rateMatchFirst, show rvStart 0 1 2 1 0 = 0 from rfl]
        rfl
      have hdone : ¬ st.k < 2 ^ 32 - 2 := by decide
      rw [nrRateMatchingLdpc, if_neg (by decide), if_neg (by decide), if_neg (by decide), hfirst]
      cases fuel <;> rw [whileLoop, decide_eq_false hdone] <;> rfl

end NrStack.Phy
