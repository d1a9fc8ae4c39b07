/-
  Lists threaded through an array of successor indices.

  `next : Nat → Int` holds the index that follows; a negative entry ends the list.  `Seg next p xs q`:
  following `next` from `p` one reads `xs` and is left with `q`.  Segments are cut and joined (`seg_append`),
  and writes outside of one leave it alone (`Seg.update`).
-/
import Mathlib

namespace Threaded

/-- Following `next` from `p` reads `xs` and ends at `q`. -/
def Seg (next : Nat → Int) : Int → List Nat → Int → Prop
  | p, [], q => p = q
  | p, x :: xs, q => p = (x : Int) ∧ Seg next (next x) xs q

variable {next : Nat → Int}

variable {xs : List Nat}

lemma seg_append {ys : List Nat} :
    ∀ {p q : Int}, Seg next p (xs ++ ys) q ↔ ∃ r, Seg next p xs r ∧ Seg next r ys q := by
  induction xs with
  | nil =>
    intro p q
    constructor
    · exact fun h => ⟨p, rfl, h⟩
    · rintro ⟨r, rfl, h⟩; exact h
  | cons x xs ih =>
    intro p q
    constructor
    · rintro ⟨hp, h⟩
      obtain ⟨r, h1, h2⟩ := ih.mp h
      exact ⟨r, ⟨hp, h1⟩, h2⟩
    · rintro ⟨r, ⟨hp, h1⟩, h2⟩
      exact ⟨hp, ih.mpr ⟨r, h1, h2⟩⟩

variable {p q : Int}

lemma seg_concat {x : Nat} :
    Seg next p (xs ++ [x]) q ↔ Seg next p xs x ∧ next x = q := by
  rw [seg_append]
  constructor
  · rintro ⟨r, h, rfl, hq⟩; exact ⟨h, hq⟩
  · rintro ⟨h, hq⟩; exact ⟨x, h, rfl, hq⟩

lemma Seg.congr {next' : Nat → Int} :
    (∀ x ∈ xs, next' x = next x) → ∀ {p q : Int}, Seg next p xs q → Seg next' p xs q := by
  induction xs with
  | nil => exact fun _ _ _ h => h
  | cons x xs ih =>
    rintro heq p q ⟨hp, h⟩
    refine ⟨hp, ?_⟩
    rw [heq x List.mem_cons_self]
    exact ih (fun y hy => heq y (List.mem_cons_of_mem _ hy)) h

/-- **Frame rule**: a write outside the segment does not change it. -/
theorem Seg.update {i : Nat} {v : Int} (hi : i ∉ xs)
    (h : Seg next p xs q) : Seg (Function.update next i v) p xs q := by
  refine h.congr fun x hx => ?_
  have hne : x ≠ i := fun he => hi (he ▸ hx)
  exact Function.update_of_ne hne ..

end Threaded
