/-
  Rows of blocks in a memory: what a WRITER puts down, and a loop over blocks takes in again.

  * `HasBytes mem pos bs` — the memory has the bytes `bs` at `pos`.
  * `Leads`               — the loop of `Probe` goes on from one block to another, by `go` alone.
  * `TakesIn`             — wherever a memory holds `bs`, the loop goes through exactly `bs`, and its
    state changes by `upd`.  `nil`, `block` and `append` are all that a round trip needs.
-/
import NrStack.Lib.Probe
import Mathlib

namespace Probing

open List

/-! ## Bytes in a memory -/

/-- `n` bytes of the memory from `pos` on. -/
def slice (mem : Nat → UInt8) (pos n : Nat) : List UInt8 := (List.range' pos n).map mem

/-- The memory holds these bytes there. -/
def HasBytes (mem : Nat → UInt8) (pos : Nat) (bs : List UInt8) : Prop := slice mem pos bs.length = bs

section HasBytes

variable {mem : Nat → UInt8} {pos : Nat} {a b bs : List UInt8}

@[simp] lemma length_slice (mem : Nat → UInt8) (pos n : Nat) : (slice mem pos n).length = n := by
  rw [slice, length_map, length_range']

lemma slice_add (mem : Nat → UInt8) (pos m n : Nat) :
    slice mem pos (m + n) = slice mem pos m ++ slice mem (pos + m) n := by
  rw [slice, slice, slice, ← map_append, range'_append_1]

lemma hasBytes_append : HasBytes mem pos (a ++ b) ↔ HasBytes mem pos a ∧ HasBytes mem (pos + a.length) b := by
  rw [HasBytes, length_append, slice_add]
  exact ⟨fun h => append_inj h (length_slice mem pos a.length), fun h => by rw [h.1, h.2]⟩

lemma hasBytes_cons {x : UInt8} : HasBytes mem pos (x :: bs) ↔ mem pos = x ∧ HasBytes mem (pos + 1) bs := by
  rw [HasBytes, length_cons, slice, range'_succ, map_cons, List.cons.injEq]
  rfl

lemma HasBytes.getD (h : HasBytes mem pos bs) {i : Nat} (hi : i < bs.length) :
    mem (pos + i) = bs.getD i 0 := by
  have hget : (slice mem pos bs.length)[i]? = bs[i]? := by rw [h]
  rw [slice, getElem?_map, getElem?_range' hi, Nat.one_mul, Option.map_some] at hget
  rw [getD_eq_getElem?_getD, ← hget, Option.getD_some]

lemma hasBytes_getD (bs : List UInt8) : HasBytes (fun i => bs.getD i 0) 0 bs := by
  refine ext_getElem (length_slice _ _ _) fun i h₁ h₂ => ?_
  simp only [slice, getElem_map, getElem_range', Nat.zero_add, Nat.one_mul]
  rw [getD_eq_getElem?_getD, getElem?_eq_getElem h₂, Option.getD_some]

end HasBytes

/-! ## From one block to another -/

variable {σ ε α : Type}

/-- The loop goes on from one block to another, or to the end. -/
inductive Leads (body : Nat → Nat → σ → Probe (Next ε × σ)) :
    Nat → Nat → σ → Nat → Nat → σ → Prop
  | refl {pos rem : Nat} {s : σ} : Leads body pos rem s pos rem s
  | step {pos rem len p r : Nat} {s s₁ s' : σ} (hrem : rem ≠ 0)
      (hgo : (body pos rem s).val = (.go len, s₁))
      (rest : Leads body (pos + len) (rem - len) s₁ p r s') : Leads body pos rem s p r s'

namespace Leads

variable {body : Nat → Nat → σ → Probe (Next ε × σ)} {pos rem p r p' r' : Nat} {s s' s'' : σ}

lemma trans (h : Leads body pos rem s p r s') (h' : Leads body p r s' p' r' s'') :
    Leads body pos rem s p' r' s'' := by
  induction h with
  | refl => exact h'
  | step hrem hgo _ ih => exact .step hrem hgo (ih h')

lemma reached (h : Leads body pos rem s p r s') (hr : r ≠ 0) : Reached body pos rem s p r s' := by
  induction h with
  | refl => exact .here hr
  | step hrem hgo _ ih => exact .next hrem hgo (ih hr)

lemma blocks (hprogress : Progress body) (h : Leads body pos rem s p r s') :
    ∀ {fuel : Nat}, rem ≤ fuel → ∃ fuel', r ≤ fuel' ∧
      (Probing.blocks body fuel pos rem s).val = (Probing.blocks body fuel' p r s').val := by
  induction h with
  | refl => exact fun hfuel => ⟨_, hfuel, rfl⟩
  | @step pos rem len p r s s₁ s' hrem hgo _ ih =>
    intro fuel hfuel
    have hlen := hprogress pos rem s len s₁ hgo
    obtain ⟨fuel, rfl⟩ : ∃ k, fuel = k + 1 := ⟨fuel - 1, by omega⟩
    obtain ⟨fuel', hle, heq⟩ := @ih fuel (by omega)
    refine ⟨fuel', hle, ?_⟩
    rw [Probing.blocks, if_neg hrem, val_bind, hgo]
    exact heq

end Leads

lemma blocks_cases {body : Nat → Nat → σ → Probe (Next ε × σ)} {fuel pos rem : Nat} {s : σ}
    {r : Option ε × σ} (h : (blocks body fuel pos rem s).val = some r) :
    (rem = 0 ∧ r.2 = s) ∨ (∃ e s', (body pos rem s).val = (.stop e, s') ∧ r.2 = s') ∨
      ∃ len s' fuel', (body pos rem s).val = (.go len, s') ∧
        (blocks body fuel' (pos + len) (rem - len) s').val = some r := by
  by_cases hzero : rem = 0
  · subst hzero
    rw [blocks_zero] at h
    cases h
    exact .inl ⟨rfl, rfl⟩
  · cases fuel with
    | zero =>
      rw [blocks, val_pure, if_neg hzero] at h
      cases h
    | succ fuel =>
      rw [blocks, if_neg hzero, val_bind] at h
      cases hbody : (body pos rem s).val with
      | mk next s' =>
        rw [hbody] at h
        cases next with
        | stop e =>
          cases h
          exact .inr (.inl ⟨e, s', rfl, rfl⟩)
        | go len => exact .inr (.inr ⟨len, s', fuel, rfl, h⟩)

/-! ## Rows -/

/-- Wherever a memory holds `bs`, the loop goes through exactly these bytes, and what `abs` sees of
its state changes by `upd`. -/
def TakesIn (body : (Nat → UInt8) → Nat → Nat → σ → Probe (Next ε × σ))
    (abs : (Nat → UInt8) → σ → α) (bs : List UInt8) (upd : α → α) : Prop :=
  ∀ mem pos rem s, HasBytes mem pos bs → bs.length ≤ rem →
    ∃ s', Leads (body mem) pos rem s (pos + bs.length) (rem - bs.length) s' ∧
      abs mem s' = upd (abs mem s)

namespace TakesIn

variable {body : (Nat → UInt8) → Nat → Nat → σ → Probe (Next ε × σ)}
  {abs : (Nat → UInt8) → σ → α} {a b bs : List UInt8} {f g upd : α → α}

lemma nil : TakesIn body abs [] id :=
  fun _ _ _ s _ _ => ⟨s, .refl, rfl⟩

lemma block (hne : bs ≠ [])
    (hstep : ∀ mem pos rem s, HasBytes mem pos bs → bs.length ≤ rem →
      ∃ s', (body mem pos rem s).val = (.go bs.length, s') ∧ abs mem s' = upd (abs mem s)) :
    TakesIn body abs bs upd := by
  intro mem pos rem s hmem hrem
  obtain ⟨s', hgo, habs⟩ := hstep mem pos rem s hmem hrem
  have hpos := length_pos_iff.mpr hne
  exact ⟨s', .step (by omega) hgo .refl, habs⟩

lemma append (ha : TakesIn body abs a f) (hb : TakesIn body abs b g) :
    TakesIn body abs (a ++ b) (g ∘ f) := by
  intro mem pos rem s hmem hrem
  rw [hasBytes_append] at hmem
  rw [length_append] at hrem
  obtain ⟨s₁, hleads₁, habs₁⟩ := ha mem pos rem s hmem.1 (by omega)
  obtain ⟨s₂, hleads₂, habs₂⟩ := hb mem (pos + a.length) (rem - a.length) s₁ hmem.2 (by omega)
  refine ⟨s₂, ?_, by rw [habs₂, habs₁]; rfl⟩
  rw [length_append, ← Nat.add_assoc, ← Nat.sub_sub]
  exact hleads₁.trans hleads₂

end TakesIn

end Probing
