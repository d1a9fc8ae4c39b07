/-
  Pieces of one thing: cut by number, gathered in slots.

  * `slice n l i` — the `i`-th piece of width `n`; the pieces in order give the list back
    (`flatMap_slice`).
  * `filled slots k` — how many of the first `k` slots have a piece.  A piece in an empty slot counts
    one more (`filled_update`), and `k` of them is all of them (`filled_eq_iff`): whoever counts
    arrivals instead of slots needs that NO PIECE COMES TWICE.
-/
import Mathlib

namespace Gather

variable {α : Type}

/-! ## Pieces -/

/-- The `i`-th piece of a list that is cut into pieces of `n`. -/
def slice (n : Nat) (l : List α) (i : Nat) : List α := (l.drop (i * n)).take n

lemma flatMap_slice_take (n : Nat) (l : List α) (k : Nat) :
    (List.range k).flatMap (slice n l) = l.take (k * n) := by
  induction k with
  | zero => rw [Nat.zero_mul, List.take_zero, List.range_zero, List.flatMap_nil]
  | succ k ih =>
    rw [List.range_succ, List.flatMap_append, ih, Nat.succ_mul, List.take_add]
    simp [slice]

/-- **Pieces enough give the list back.** -/
theorem flatMap_slice {n : Nat} {l : List α} {k : Nat} (h : l.length ≤ k * n) :
    (List.range k).flatMap (slice n l) = l := by
  rw [flatMap_slice_take, List.take_of_length_le h]

/-! ## Slots -/

/-- How many of the first `k` slots are filled. -/
def filled (slots : Nat → Option α) (k : Nat) : Nat :=
  ((Finset.range k).filter fun i => (slots i).isSome).card

lemma filled_none (k : Nat) : filled (fun _ => (none : Option α)) k = 0 := by
  unfold filled
  rw [Finset.card_eq_zero, Finset.filter_eq_empty_iff]
  intro i _ h
  cases h

lemma filled_le (slots : Nat → Option α) (k : Nat) : filled slots k ≤ k := by
  have h := Finset.card_filter_le (Finset.range k) fun i => (slots i).isSome
  rw [Finset.card_range] at h
  exact h

/-- **A piece in an empty slot** is one more. -/
theorem filled_update {slots : Nat → Option α} {k i : Nat} (hi : i < k) (hempty : slots i = none)
    (a : α) : filled (Function.update slots i (some a)) k = filled slots k + 1 := by
  have hset : ((Finset.range k).filter fun j => (Function.update slots i (some a) j).isSome) =
      insert i ((Finset.range k).filter fun j => (slots j).isSome) := by
    ext j
    simp only [Finset.mem_filter, Finset.mem_range, Finset.mem_insert]
    by_cases hj : j = i
    · subst hj
      rw [Function.update_self]
      exact iff_of_true ⟨hi, rfl⟩ (.inl rfl)
    · rw [Function.update_of_ne hj]
      exact (or_iff_right hj).symm
  have hnotin : i ∉ (Finset.range k).filter fun j => (slots j).isSome := by
    intro hmem
    have hsome := (Finset.mem_filter.mp hmem).2
    rw [hempty] at hsome
    cases hsome
  unfold filled
  rw [hset, Finset.card_insert_of_notMem hnotin]

/-- **All of them.** -/
theorem filled_eq_iff {slots : Nat → Option α} {k : Nat} :
    filled slots k = k ↔ ∀ i < k, (slots i).isSome := by
  unfold filled
  constructor
  · intro h i hi
    have hall := Finset.filter_card_eq (h.trans (Finset.card_range k).symm) i
    exact hall (Finset.mem_range.mpr hi)
  · intro h
    rw [Finset.filter_true_of_mem fun i hi => h i (Finset.mem_range.mp hi), Finset.card_range]

end Gather
