/-
  Two partial maps that point at each other.

  `f a = some k` is the key of `a`, `g k = some b` a table's word on `k`, and `owner a` what the table is
  to say for a key of `a`.  `Paired f g owner` is the consistency of the two: kept by a new key (`add`), by
  keys that go from both (`remove`), by things that change places (`rename`); broken by a key that stays in
  the table and nothing has any more (`unowned`).
-/
import Mathlib

variable {α κ β : Type}

/-- Every key in use is in the table with its owner, and every key of the table is one thing's. -/
structure Paired (f : α → Option κ) (g : κ → Option β) (owner : α → β) : Prop where
  forward : ∀ a k, f a = some k → g k = some (owner a)
  used : ∀ k, g k ≠ none → ∃ a, f a = some k
  inj : ∀ a a' k, f a = some k → f a' = some k → a = a'

namespace Paired

open Function

variable {f f' : α → Option κ} {g g' : κ → Option β} {owner : α → β}

lemma existsUnique (h : Paired f g owner) {k : κ} (hk : g k ≠ none) : ∃! a, f a = some k := by
  obtain ⟨a, ha⟩ := h.used k hk
  exact ⟨a, ha, fun a' ha' => h.inj a' a k ha' ha⟩

lemma congr (h : Paired f g owner) (hf : ∀ a, f' a = f a) (hg : ∀ k, g' k = g k) :
    Paired f' g' owner := by
  rw [show f' = f from funext hf, show g' = g from funext hg]
  exact h

lemma add [DecidableEq α] [DecidableEq κ] (h : Paired f g owner) {a : α} {k : κ}
    (ha : f a = none) (hk : g k = none) :
    Paired (Function.update f a (some k)) (Function.update g k (some (owner a))) owner := by
  -- nothing has the new key yet
  have hfresh : ∀ x, f x ≠ some k := fun x hx => by
    have hgk := h.forward x k hx
    rw [hk] at hgk
    cases hgk
  refine ⟨fun x l hx => ?_, fun l hl => ?_, fun x y l hx hy => ?_⟩
  · by_cases hxa : x = a
    · subst hxa
      rw [update_self] at hx
      cases hx
      rw [update_self]
    · rw [update_of_ne hxa] at hx
      have hlk : l ≠ k := fun heq => hfresh x (heq ▸ hx)
      rw [update_of_ne hlk]
      exact h.forward x l hx
  · by_cases hlk : l = k
    · exact ⟨a, by rw [update_self, hlk]⟩
    · rw [update_of_ne hlk] at hl
      obtain ⟨x, hx⟩ := h.used l hl
      have hxa : x ≠ a := fun heq => by
        rw [heq, ha] at hx
        cases hx
      exact ⟨x, by rw [update_of_ne hxa]; exact hx⟩
  · by_cases hxa : x = a <;> by_cases hya : y = a
    · rw [hxa, hya]
    · rw [hxa, update_self] at hx
      rw [update_of_ne hya] at hy
      cases hx
      exact absurd hy (hfresh y)
    · rw [hya, update_self] at hy
      rw [update_of_ne hxa] at hx
      cases hy
      exact absurd hx (hfresh x)
    · rw [update_of_ne hxa] at hx
      rw [update_of_ne hya] at hy
      exact h.inj x y l hx hy

lemma remove (h : Paired f g owner) {gone : α → Prop}
    (hgone : ∀ a, gone a → f' a = none) (hkept : ∀ a, ¬gone a → f' a = f a)
    (hkey : ∀ a k, gone a → f a = some k → g' k = none)
    (hother : ∀ k, (∀ a, gone a → f a ≠ some k) → g' k = g k) : Paired f' g' owner := by
  -- what is left is left with its key
  have hleft : ∀ a k, f' a = some k → ¬gone a ∧ f a = some k := by
    intro a k ha
    by_cases hg : gone a
    · rw [hgone a hg] at ha
      cases ha
    · exact ⟨hg, (hkept a hg).symm.trans ha⟩
  refine ⟨fun a k ha => ?_, fun k hk => ?_, fun a a' k ha ha' => ?_⟩
  · obtain ⟨hg, hfa⟩ := hleft a k ha
    have hsame : g' k = g k := hother k fun x hx hfx => hg (h.inj a x k hfa hfx ▸ hx)
    rw [hsame]
    exact h.forward a k hfa
  · by_cases hsome : ∃ a, gone a ∧ f a = some k
    · obtain ⟨a, hg, ha⟩ := hsome
      exact absurd (hkey a k hg ha) hk
    · have hnone : ∀ a, gone a → f a ≠ some k := fun a hg ha => hsome ⟨a, hg, ha⟩
      rw [hother k hnone] at hk
      obtain ⟨a, ha⟩ := h.used k hk
      exact ⟨a, (hkept a fun hg => hnone a hg ha).trans ha⟩
  · exact h.inj a a' k (hleft a k ha).2 (hleft a' k ha').2

lemma rename (h : Paired f g owner) (e : α ≃ α) (hf : ∀ a, f' (e a) = f a)
    (hkey : ∀ a k, f a = some k → g' k = some (owner (e a)))
    (hother : ∀ k, g k = none → g' k = none) : Paired f' g' owner := by
  have hback : ∀ a, f' a = f (e.symm a) := fun a => by
    rw [← hf (e.symm a), Equiv.apply_symm_apply]
  refine ⟨fun a k ha => ?_, fun k hk => ?_, fun a a' k ha ha' => ?_⟩
  · rw [hback] at ha
    rw [hkey _ k ha, Equiv.apply_symm_apply]
  · have hg : g k ≠ none := fun hnone => hk (hother k hnone)
    obtain ⟨a, ha⟩ := h.used k hg
    exact ⟨e a, (hf a).trans ha⟩
  · rw [hback] at ha ha'
    exact e.symm.injective (h.inj _ _ k ha ha')

lemma unowned (h : Paired f g owner) {a : α} {k : κ} (ha : f a = some k)
    (hnew : ∀ x, f' x = some k → x ≠ a ∧ f x = some k) (hk : g' k ≠ none) : ¬Paired f' g' owner := by
  intro h'
  obtain ⟨x, hx⟩ := h'.used k hk
  obtain ⟨hne, hfx⟩ := hnew x hx
  exact hne (h.inj x a k hfx ha)

end Paired
