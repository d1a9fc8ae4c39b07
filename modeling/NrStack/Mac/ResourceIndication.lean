/-
  Resource indication values (`nr_common.c`): an allocation of `NPRB` RBs from `RBstart` on, as one
  number.

  A bandwidth part of N RBs has N(N+1)/2 allocations.  Row `NPRB - 1` of the numbering has room for N
  of them and holds N + 1 - NPRB; the rows of the long allocations are turned round and fill up the
  rows of the short ones.  The decoders tell the two apart by the sum of row and column.
-/
import Mathlib

namespace NrStack.Mac

/-- `PRBalloc_to_locationandbandwidth0`; `none` is the failed assertion.  A BWP has at most 275 RBs, so
that no product leaves an `int`. -/
def prballocToLocationandbandwidth0 (nprb rbStart bwpSize : Nat) : Option Nat :=
  if nprb > 0 ∧ nprb + rbStart ≤ bwpSize then
    if nprb ≤ 1 + bwpSize >>> 1 then some (bwpSize * (nprb - 1) + rbStart)
    else some (bwpSize * (bwpSize + 1 - nprb) + (bwpSize - 1 - rbStart))
  else none

/-- `NRRIV2BW` -/
def nrriv2bw (locationAndBandwidth nRb : Nat) : Int :=
  let tmp := locationAndBandwidth / nRb
  let tmp2 := locationAndBandwidth % nRb
  if tmp ≤ (nRb >>> 1) + 1 ∧ tmp + tmp2 < nRb then tmp + 1 else nRb + 1 - tmp

/-- `NRRIV2PRBOFFSET` -/
def nrriv2prboffset (locationAndBandwidth nRb : Nat) : Int :=
  let tmp := locationAndBandwidth / nRb
  let tmp2 := locationAndBandwidth % nRb
  if tmp ≤ (nRb >>> 1) + 1 ∧ tmp + tmp2 < nRb then tmp2 else nRb - 1 - tmp2

variable {N row col v : Nat}

lemma riv_row_col (hcol : col < N) : (N * row + col) / N = row ∧ (N * row + col) % N = col := by
  constructor
  · rw [Nat.mul_add_div (by omega), Nat.div_eq_of_lt hcol, Nat.add_zero]
  · rw [Nat.mul_add_mod, Nat.mod_eq_of_lt hcol]

lemma riv_lt (hcol : col < N) (hrow : 2 * row + 1 ≤ N ∨ 2 * row = N ∧ 2 * col + 2 ≤ N) :
    N * row + col < N * (N + 1) / 2 := by
  apply (Nat.le_div_iff_mul_le (by decide)).mpr
  rcases hrow with hrow | ⟨hrow, hleft⟩
  · have := Nat.mul_le_mul_left N hrow
    rw [Nat.mul_add, Nat.mul_left_comm] at this
    rw [Nat.mul_add]
    omega
  · have := congrArg (N * ·) hrow
    simp only [Nat.mul_left_comm N 2] at this
    rw [Nat.mul_add]
    omega

/-- A code lies in the first rows of width `N`, or in the left half of the middle one. -/
lemma riv_row (hv : v < N * (N + 1) / 2) :
    v % N < N ∧ (2 * (v / N) + 1 ≤ N ∨ 2 * (v / N) = N ∧ 2 * (v % N) + 2 ≤ N) := by
  have hN : 0 < N := by
    rcases Nat.eq_zero_or_pos N with rfl | h
    · simp at hv
    · exact h
  have htwice := (Nat.le_div_iff_mul_le (by decide)).mp (Nat.succ_le_of_lt hv)
  have hsplit := Nat.div_add_mod v N
  have hle : 2 * (v / N) < N + 1 := by
    apply Nat.lt_of_mul_lt_mul_left (a := N)
    rw [Nat.mul_left_comm]
    omega
  refine ⟨Nat.mod_lt v hN, ?_⟩
  rcases Nat.lt_or_ge (2 * (v / N)) N with h | h
  · exact .inl h
  · have heq : 2 * (v / N) = N := by omega
    have := congrArg (N * ·) heq
    simp only [Nat.mul_left_comm N 2] at this
    rw [Nat.mul_add] at htwice
    exact .inr ⟨heq, by omega⟩

/-- **The resource indication value is a bijection**: every allocation has a value below N(N+1)/2,
from which the decoders recover it, and every such value is that of one allocation. -/
theorem riv_bijective (N : Nat) :
    (∀ nprb rbStart, 1 ≤ nprb → nprb + rbStart ≤ N →
      ∃ v < N * (N + 1) / 2, prballocToLocationandbandwidth0 nprb rbStart N = some v ∧
        nrriv2bw v N = nprb ∧ nrriv2prboffset v N = rbStart) ∧
    ∀ v < N * (N + 1) / 2, ∃! a : Nat × Nat, 1 ≤ a.1 ∧ a.1 + a.2 ≤ N ∧
      prballocToLocationandbandwidth0 a.1 a.2 N = some v := by
  have hdecode : ∀ nprb rbStart, 1 ≤ nprb → nprb + rbStart ≤ N →
      ∃ v < N * (N + 1) / 2, prballocToLocationandbandwidth0 nprb rbStart N = some v ∧
        nrriv2bw v N = nprb ∧ nrriv2prboffset v N = rbStart := by
    intro nprb rbStart hpos hfits
    rw [prballocToLocationandbandwidth0, if_pos ⟨hpos, hfits⟩, Nat.shiftRight_one]
    split
    · obtain ⟨hdiv, hmod⟩ := @riv_row_col N (nprb - 1) rbStart (by omega)
      refine ⟨_, riv_lt (by omega) (by omega), rfl, ?_⟩
      rw [nrriv2bw, nrriv2prboffset, hdiv, hmod, Nat.shiftRight_one, if_pos (by omega),
        if_pos (by omega)]
      omega
    · obtain ⟨hdiv, hmod⟩ := @riv_row_col N (N + 1 - nprb) (N - 1 - rbStart) (by omega)
      refine ⟨_, riv_lt (by omega) (by omega), rfl, ?_⟩
      rw [nrriv2bw, nrriv2prboffset, hdiv, hmod, Nat.shiftRight_one, if_neg (by omega),
        if_neg (by omega)]
      omega
  refine ⟨hdecode, fun v hv => ?_⟩
  obtain ⟨hcol, hrow⟩ := riv_row hv
  have hsplit := Nat.div_add_mod v N
  -- an allocation with this value is the one the decoders find
  have hunique : ∀ a : Nat × Nat, 1 ≤ a.1 ∧ a.1 + a.2 ≤ N ∧
      prballocToLocationandbandwidth0 a.1 a.2 N = some v →
      (a.1 : Int) = nrriv2bw v N ∧ (a.2 : Int) = nrriv2prboffset v N := by
    rintro ⟨nprb, rbStart⟩ ⟨hpos, hfits, hval⟩
    obtain ⟨v', -, hval', hbw, hoff⟩ := hdecode nprb rbStart hpos hfits
    cases hval.symm.trans hval'
    exact ⟨hbw.symm, hoff.symm⟩
  have hone : ∀ a b : Nat × Nat, 1 ≤ a.1 ∧ a.1 + a.2 ≤ N ∧
      prballocToLocationandbandwidth0 a.1 a.2 N = some v → 1 ≤ b.1 ∧ b.1 + b.2 ≤ N ∧
      prballocToLocationandbandwidth0 b.1 b.2 N = some v → a = b := by
    intro a b ha hb
    have := hunique a ha
    have := hunique b hb
    exact Prod.ext (by omega) (by omega)
  suffices h : ∃ a : Nat × Nat, 1 ≤ a.1 ∧ a.1 + a.2 ≤ N ∧
      prballocToLocationandbandwidth0 a.1 a.2 N = some v by
    obtain ⟨a, ha⟩ := h
    exact ⟨a, ha, fun b hb => hone b a hb ha⟩
  rcases Nat.lt_or_ge (v / N + v % N) N with hshort | hlong
  · refine ⟨(v / N + 1, v % N), by omega, by dsimp only; omega, ?_⟩
    rw [prballocToLocationandbandwidth0, if_pos (by omega), Nat.shiftRight_one, if_pos (by omega)]
    exact congrArg some hsplit
  · refine ⟨(N + 1 - v / N, N - 1 - v % N), by dsimp only; omega, by dsimp only; omega, ?_⟩
    rw [prballocToLocationandbandwidth0, if_pos (by dsimp only; omega), Nat.shiftRight_one,
      if_neg (by dsimp only; omega)]
    rw [show N + 1 - (N + 1 - v / N) = v / N by omega,
      show N - 1 - (N - 1 - v % N) = v % N by omega, hsplit]

end NrStack.Mac
