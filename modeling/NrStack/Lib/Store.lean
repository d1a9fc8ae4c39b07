/-
  Arrays as functions, and a loop that stores one value per round.

  * `foldl_update_of_ne`, `foldl_update_of_mem` — what such a loop leaves, and where.
  * `transpose`                                 — a matrix written by columns and read by rows.
-/
import Mathlib

namespace Store

section Loop

variable {ι κ α : Type*} [DecidableEq ι] (pos : κ → ι) (v : κ → α)

lemma foldl_update_of_ne {i : ι} : ∀ {ks : List κ} (o : ι → α), (∀ k ∈ ks, pos k ≠ i) →
    ks.foldl (fun o k => Function.update o (pos k) (v k)) o i = o i := by
  intro ks
  induction ks with
  | nil => exact fun _ _ => rfl
  | cons j ks ih =>
    intro o hne
    obtain ⟨hj, hks⟩ := List.forall_mem_cons.mp hne
    rw [List.foldl_cons, ih _ hks, Function.update_of_ne hj.symm]

lemma foldl_update_of_mem {k : κ} : ∀ {ks : List κ} (o : ι → α), k ∈ ks →
    (∀ j ∈ ks, pos j = pos k → j = k) →
    ks.foldl (fun o k => Function.update o (pos k) (v k)) o (pos k) = v k := by
  intro ks
  induction ks with
  | nil => exact fun _ hk => absurd hk List.not_mem_nil
  | cons j ks ih =>
    intro o hk hinj
    obtain ⟨hj, hks⟩ := List.forall_mem_cons.mp hinj
    rw [List.foldl_cons]
    by_cases hmem : k ∈ ks
    · exact ih _ hmem hks
    · have hkj : k = j := (List.mem_cons.mp hk).resolve_right hmem
      subst hkj
      rw [foldl_update_of_ne pos v _ fun x hx heq => hmem (hks x hx heq ▸ hx), Function.update_self]

end Loop

/-- The place, by rows of length `C`, of the `k`-th entry by columns of length `R`. -/
def transpose (R C k : Nat) : Nat := k % R * C + k / R

variable {R C k : Nat}

lemma transpose_lt (hk : k < R * C) : transpose R C k < R * C := by
  have hR : 0 < R := Nat.pos_of_mul_pos_right (Nat.zero_lt_of_lt hk)
  have hcol : k / R < C := Nat.div_lt_of_lt_mul hk
  calc k % R * C + k / R < (k % R + 1) * C := by rw [Nat.succ_mul]; omega
    _ ≤ R * C := Nat.mul_le_mul_right C (Nat.mod_lt k hR)

lemma transpose_transpose (hk : k < R * C) : transpose C R (transpose R C k) = k := by
  have hcol : k / R < C := Nat.div_lt_of_lt_mul hk
  have hC : 0 < C := Nat.zero_lt_of_lt hcol
  rw [transpose, transpose, Nat.mul_add_mod_self_right, Nat.mod_eq_of_lt hcol,
    Nat.add_div_of_dvd_right (Nat.dvd_mul_left C _), Nat.mul_div_cancel _ hC, Nat.div_eq_of_lt hcol,
    Nat.add_zero, Nat.mul_comm, Nat.div_add_mod]

lemma transpose_injOn : Set.InjOn (transpose R C) (Set.Iio (R * C)) := by
  intro k hk k' hk' heq
  rw [← transpose_transpose hk, heq, transpose_transpose hk']

end Store
