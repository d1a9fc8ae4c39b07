/-
  LDPC bit interleaving (`nr_interleaving_ldpc`, `nr_deinterleaving_ldpc` in `nr_rate_matching.c`), the
  scalar paths.

  The `E` bits are a matrix of `Qm` rows, written by rows and read by columns.  Each modulation order
  has its own unrolled loop: the transmitter's stores go up one by one, at `fp[i]` or through `fp++`,
  and the receiver's go through one pointer per row.  A loop is the list of its stores, in order.
-/
import NrStack.Lib.Store

namespace NrStack.Phy

open Store

variable {α : Type}

/-- The modulation orders with a case of their own; the others end at an assertion. -/
def isModulationOrder (Qm : Nat) : Bool := [2, 4, 6, 8].contains Qm

/-- The rounds `j, j + 1, ..`: `fp[i] = ei[j]` for each row, `fp` being `Qm` further in each round. -/
def interleavingStores (Qm EQm : Nat) (e : Nat → α) : Nat → Nat → Nat → List (Nat × α)
  | 0, _, _ => []
  | rounds + 1, j, fp =>
    (List.range Qm).map (fun i => (fp + i, e (i * EQm + j))) ++
      interleavingStores Qm EQm e rounds (j + 1) (fp + Qm)

/-- `nr_interleaving_ldpc`: `memset`, then the loop. -/
def nrInterleavingLdpc [Zero α] (E Qm : Nat) (e f : Nat → α) : Option (Nat → α) :=
  if isModulationOrder Qm then
    some ((interleavingStores Qm (E / Qm) e (E / Qm) 0 0).foldl (fun f w => Function.update f w.1 w.2)
      fun p => if p < E then 0 else f p)
  else none

/-- `while (f < end)`: `*ei++ = *f++` for each row; `k` is how far `f` is, `j` how far each `ei`. -/
def deinterleavingStores (E Qm : Nat) (f : Nat → α) : Nat → Nat → Nat → List (Nat × α)
  | 0, _, _ => []
  | fuel + 1, k, j =>
    if k + (Qm - 1) < E then
      (List.range Qm).map (fun i => (i * (E / Qm) + j, f (k + i))) ++
        deinterleavingStores E Qm f fuel (k + Qm) (j + 1)
    else []

/-- `nr_deinterleaving_ldpc`; `none` is a failed assertion. -/
def nrDeinterleavingLdpc (E Qm : Nat) (e f : Nat → α) : Option (Nat → α) :=
  if isModulationOrder Qm ∧ E % Qm = 0 then
    some ((deinterleavingStores E Qm f E 0 0).foldl (fun e w => Function.update e w.1 w.2) e)
  else none

variable {Qm C E : Nat}

lemma range_map_column {β : Type} (hQm : 0 < Qm) (g : Nat → Nat → Nat → β) (j : Nat) :
    (List.range Qm).map (fun i => g (j * Qm + i) i j) =
      (List.range' (j * Qm) Qm).map fun p => g p (p % Qm) (p / Qm) := by
  rw [List.range'_eq_map_range, List.map_map]
  refine List.map_congr_left fun i hi => ?_
  have hi := List.mem_range.mp hi
  rw [Function.comp_apply, Nat.mul_comm, Nat.mul_add_mod, Nat.mod_eq_of_lt hi,
    Nat.mul_add_div hQm, Nat.div_eq_of_lt hi, Nat.add_zero]

/-- **The transmitter's stores**: one at each position, in order. -/
theorem interleavingStores_eq (hQm : 0 < Qm) (EQm : Nat) (e : Nat → α) : ∀ rounds j,
    interleavingStores Qm EQm e rounds j (j * Qm) =
      (List.range' (j * Qm) (rounds * Qm)).map fun p => (p, e (transpose Qm EQm p)) := by
  intro rounds
  induction rounds with
  | zero => intro j; simp [interleavingStores]
  | succ rounds ih =>
    intro j
    rw [interleavingStores, range_map_column hQm (fun p i j => (p, e (i * EQm + j))), ← Nat.succ_mul,
      ih, Nat.succ_mul rounds, Nat.add_comm (rounds * Qm), ← List.range'_append_1, List.map_append,
      Nat.succ_mul j]
    rfl

/-- **The receiver's stores**: the positions in the transmitter's order. -/
theorem deinterleavingStores_eq (hQm : 0 < Qm) (hE : E = C * Qm) (f : Nat → α) : ∀ fuel j,
    j ≤ C → C - j ≤ fuel → deinterleavingStores E Qm f fuel (j * Qm) j =
      (List.range' (j * Qm) ((C - j) * Qm)).map fun p => (transpose Qm C p, f p) := by
  have hdiv : E / Qm = C := by rw [hE, Nat.mul_div_cancel _ hQm]
  intro fuel
  induction fuel with
  | zero =>
    intro j _ hfuel
    simp [deinterleavingStores, show C - j = 0 by omega]
  | succ fuel ih =>
    intro j hj hfuel
    rw [deinterleavingStores]
    rcases Nat.lt_or_eq_of_le hj with hlt | rfl
    · have hroom : (j + 1) * Qm ≤ E := hE ▸ Nat.mul_le_mul_right Qm hlt
      rw [Nat.succ_mul] at hroom
      rw [if_pos (by omega), range_map_column hQm (fun p i j => (i * (E / Qm) + j, f p)),
        ← Nat.succ_mul, ih _ hlt (by omega), show C - j = C - (j + 1) + 1 by omega,
        Nat.succ_mul (C - (j + 1)), Nat.add_comm (_ * Qm) Qm, ← List.range'_append_1, List.map_append,
        hdiv, Nat.succ_mul j]
      rfl
    · rw [if_neg (by omega), Nat.sub_self, Nat.zero_mul, List.range'_zero, List.map_nil]

/-- **Interleaving and its inverse.**  Bit `i * (E/Qm) + j` goes to `j * Qm + i`; the stores are at the
positions below `E`, each once; and the receiver's loop, run on the result, gives the bits back. -/
theorem ldpc_interleaving_inverse [Zero α] (hQm : Qm = 2 ∨ Qm = 4 ∨ Qm = 6 ∨ Qm = 8) (hdvd : Qm ∣ E)
    (e f g : Nat → α) : ∃ out back,
    nrInterleavingLdpc E Qm e f = some out ∧
    (∀ i < Qm, ∀ j < E / Qm, out (j * Qm + i) = e (i * (E / Qm) + j)) ∧
    (interleavingStores Qm (E / Qm) e (E / Qm) 0 0).map Prod.fst = List.range E ∧
    (∀ p, E ≤ p → out p = f p) ∧
    nrDeinterleavingLdpc E Qm g out = some back ∧
    (∀ p < E, back p = e p) ∧ ∀ p, E ≤ p → back p = g p := by
  have hpos : 0 < Qm := by omega
  have horder : isModulationOrder Qm = true := by rcases hQm with rfl | rfl | rfl | rfl <;> rfl
  obtain ⟨C, rfl⟩ := hdvd
  have hcols : Qm * C / Qm = C := Nat.mul_div_cancel_left C hpos
  have hsent := interleavingStores_eq hpos C e C 0
  have hback := fun out : Nat → α => deinterleavingStores_eq hpos (Nat.mul_comm Qm C) out (Qm * C) 0
    (Nat.zero_le C) (Nat.le_mul_of_pos_left C hpos)
  rw [Nat.zero_mul, Nat.mul_comm C Qm, ← List.range_eq_range'] at hsent
  simp only [Nat.zero_mul, Nat.sub_zero, Nat.mul_comm C Qm, ← List.range_eq_range'] at hback
  rw [nrInterleavingLdpc, if_pos horder, hcols, hsent, List.foldl_map]
  set out := (List.range (Qm * C)).foldl (fun f p => Function.update f p (e (transpose Qm C p)))
    fun p => if p < Qm * C then 0 else f p with hout
  have hval : ∀ p < Qm * C, out p = e (transpose Qm C p) := fun p hp =>
    foldl_update_of_mem (fun p => p) _ _ (List.mem_range.mpr hp) fun _ _ heq => heq
  refine ⟨out, (List.range (Qm * C)).foldl (fun e p => Function.update e (transpose Qm C p) (out p)) g,
    rfl, fun i hi j hj => ?_, ?_, fun p hp => ?_, ?_, fun p hp => ?_, fun p hp => ?_⟩
  · have hlt : j * Qm + i < Qm * C := by
      have := Nat.mul_le_mul_right Qm hj
      rw [Nat.succ_mul, Nat.mul_comm C] at this
      omega
    rw [hval _ hlt, transpose, Nat.mul_comm j, Nat.mul_add_mod, Nat.mod_eq_of_lt hi,
      Nat.mul_add_div hpos, Nat.div_eq_of_lt hi, Nat.add_zero]
  · rw [List.map_map]
    exact List.map_id _
  · rw [hout, foldl_update_of_ne (fun p => p) _ _ fun k hk => ?_, if_neg (not_lt.mpr hp)]
    have := List.mem_range.mp hk
    omega
  · rw [nrDeinterleavingLdpc, if_pos ⟨horder, Nat.mul_mod_right Qm C⟩, hback, List.foldl_map]
  · -- the store that reaches `p` is the one of the place where its bit is
    have hq := transpose_lt (Nat.mul_comm Qm C ▸ hp : p < C * Qm)
    rw [Nat.mul_comm C] at hq
    have hpq : transpose Qm C (transpose C Qm p) = p :=
      transpose_transpose (Nat.mul_comm Qm C ▸ hp)
    nth_rewrite 1 [← hpq]
    rw [foldl_update_of_mem (transpose Qm C) out g (List.mem_range.mpr hq) fun j hj heq =>
      transpose_injOn (List.mem_range.mp hj) hq heq, hval _ hq, hpq]
  · refine foldl_update_of_ne (transpose Qm C) out g fun k hk heq => ?_
    have := transpose_lt (List.mem_range.mp hk)
    omega

theorem ldpc_interleaving_inverse_six : ∃ out back,
    nrInterleavingLdpc 6 2 (fun p => p) (fun _ => 9) = some out ∧
    (∀ i < 2, ∀ j < 6 / 2, out (j * 2 + i) = i * (6 / 2) + j) ∧
    (interleavingStores 2 (6 / 2) (fun p => p) (6 / 2) 0 0).map Prod.fst = List.range 6 ∧
    (∀ p, 6 ≤ p → out p = 9) ∧
    nrDeinterleavingLdpc 6 2 (fun _ => 7) out = some back ∧
    (∀ p < 6, back p = p) ∧ ∀ p, 6 ≤ p → back p = 7 :=
  ldpc_interleaving_inverse (.inl rfl) ⟨3, rfl⟩ (fun p => p) (fun _ => 9) fun _ => 7

end NrStack.Phy
