/-
  Searching free cells and booking them.

  * `advance` — a counting `while` loop: go up as long as a test holds.
  * `Along`   — a condition met by every step of a fold that may stop, with the invariant rule.
  * `Booked`  — claims of cells that are pairwise disjoint and all recorded as taken: a new claim
    of FREE cells keeps that, provided the record is brought up to date.
-/
import Mathlib

namespace Booking

/-! ## Counting loops -/

/-- `while (p(i)) i++`, for at most `fuel` turns. -/
def advance (p : Nat → Bool) : Nat → Nat → Nat
  | 0, i => i
  | fuel + 1, i => if p i then advance p fuel (i + 1) else i

lemma le_advance (p : Nat → Bool) : ∀ fuel i, i ≤ advance p fuel i := by
  intro fuel
  induction fuel with
  | zero => exact fun i => le_refl i
  | succ fuel ih =>
    intro i
    rw [advance]
    split
    · exact Nat.le_of_succ_le (ih (i + 1))
    · exact le_refl i

variable {p : Nat → Bool}

lemma advance_passed : ∀ {fuel i j}, i ≤ j → j < advance p fuel i → p j = true := by
  intro fuel
  induction fuel with
  | zero =>
    intro i j hij hj
    exact absurd hj (Nat.not_lt_of_le hij)
  | succ fuel ih =>
    intro i j hij hj
    rw [advance] at hj
    split at hj
    next hp =>
      rcases Nat.eq_or_lt_of_le hij with rfl | hlt
      · exact hp
      · exact ih hlt hj
    · exact absurd hj (Nat.not_lt_of_le hij)

lemma advance_stopped :
    ∀ {fuel i}, (∀ j, i + fuel ≤ j → p j = false) → p (advance p fuel i) = false := by
  intro fuel
  induction fuel with
  | zero => exact fun h => h _ (le_refl _)
  | succ fuel ih =>
    intro i h
    rw [advance]
    split
    · exact ih fun j hj => h j (by omega)
    next hp => exact Bool.eq_false_iff.mpr hp

lemma advance_of_false {fuel i : Nat} (h : p i = false) : advance p fuel i = i := by
  cases fuel with
  | zero => rfl
  | succ fuel => rw [advance, h]; rfl

/-! ## Folds that may stop -/

section Along

variable {σ ι : Type}

/-- Every step of the fold starts in a state that meets `C`. -/
def Along (f : σ → ι → Option σ) (C : σ → ι → Prop) : σ → List ι → Prop
  | _, [] => True
  | s, i :: is => C s i ∧ match f s i with
    | none => True
    | some s' => Along f C s' is

instance Along.decidable (f : σ → ι → Option σ) (C : σ → ι → Prop) [∀ s i, Decidable (C s i)] :
    ∀ s is, Decidable (Along f C s is)
  | _, [] => isTrue trivial
  | s, i :: is => by
    rw [Along]
    cases f s i with
    | none => exact inferInstance
    | some s' =>
      have := Along.decidable f C s' is
      exact inferInstance

variable {f : σ → ι → Option σ}

/-- **The fold rule.**  What every step that meets the condition keeps, the fold keeps. -/
theorem Along.invariant {C : σ → ι → Prop} {P : σ → Prop}
    (hstep : ∀ s i s', P s → C s i → f s i = some s' → P s') :
    ∀ {is : List ι} {s s' : σ}, Along f C s is → P s → is.foldlM f s = some s' → P s' := by
  intro is
  induction is with
  | nil =>
    intro s s' _ hP h
    cases h
    exact hP
  | cons i is ih =>
    intro s s' hC hP h
    obtain ⟨t, ht, h⟩ := Option.bind_eq_some_iff.mp h
    obtain ⟨hi, hC⟩ := hC
    rw [ht] at hC
    exact ih hC (hstep s i t hP hi ht) h

lemma Along.of_forall {C : ι → Prop} :
    ∀ {is : List ι} {s : σ}, (∀ i ∈ is, C i) → Along f (fun _ i => C i) s is := by
  intro is
  induction is with
  | nil => exact fun _ => True.intro
  | cons i is ih =>
    intro s h
    refine ⟨h i (List.mem_cons_self), ?_⟩
    cases f s i with
    | none => exact True.intro
    | some s' => exact ih fun j hj => h j (List.mem_cons_of_mem i hj)

end Along

/-! ## Claims -/

section Booked

variable {α : Type} {taken taken' c : Set α} {claims : List (Set α)}

/-- The claims are pairwise disjoint, and all their cells are recorded as taken. -/
structure Booked (taken : Set α) (claims : List (Set α)) : Prop where
  disjoint : claims.Pairwise Disjoint
  recorded : ∀ c ∈ claims, c ⊆ taken

/-- **Booking.**  A claim of free cells that is recorded joins the others. -/
theorem Booked.add (h : Booked taken claims) (hfree : Disjoint c taken) (hgrow : taken ⊆ taken')
    (hc : c ⊆ taken') : Booked taken' (claims ++ [c]) := by
  constructor
  · rw [List.pairwise_append]
    refine ⟨h.disjoint, List.pairwise_singleton _ _, ?_⟩
    intro d hd e he
    rw [List.mem_singleton.mp he]
    exact (hfree.mono_right (h.recorded d hd)).symm
  · intro d hd
    rcases List.mem_append.mp hd with hd | hd
    · exact (h.recorded d hd).trans hgrow
    · rw [List.mem_singleton.mp hd]
      exact hc

end Booked

end Booking
