/-
  Circular numbers — counters kept modulo `M`, compared by their distance `dist M b a` from a base.

  - It recovers the difference of the UNBOUNDED counters behind the numbers, as long as they are less
    than `M` apart (`dist_mod`);
  - every number is `dist` steps ahead of the base (`add_dist`), so a number can be LIFTED to a counter
    in the window that starts at the base (`lift`);
  - moving the base moves every distance (`dist_add_left`, `dist_add_left_behind`).
-/
import Mathlib

namespace Circular

variable {M a a' b : Nat}

/-- How far `a` lies ahead of `b`, both numbers below `M`. -/
def dist (M b a : Nat) : Nat := if b ≤ a then a - b else a + M - b

lemma add_sub_mod (ha : a < M) (hb : b < M) : (a + M - b) % M = dist M b a := by
  unfold dist
  split
  · rw [show a + M - b = a - b + M by omega, Nat.add_mod_right, Nat.mod_eq_of_lt (by omega)]
  · exact Nat.mod_eq_of_lt (by omega)

lemma dist_lt (ha : a < M) (hb : b < M) : dist M b a < M := by
  unfold dist
  split <;> omega

@[simp] lemma dist_self : dist M a a = 0 := by
  rw [dist, if_pos (le_refl a), Nat.sub_self]

lemma add_dist (ha : a < M) (hb : b < M) : (b + dist M b a) % M = a := by
  unfold dist
  split
  · rw [show b + (a - b) = a by omega, Nat.mod_eq_of_lt ha]
  · rw [show b + (a + M - b) = a + M by omega, Nat.add_mod_right, Nat.mod_eq_of_lt ha]

lemma dist_inj (ha : a < M) (ha' : a' < M) (hb : b < M) :
    dist M b a = dist M b a' ↔ a = a' := by
  constructor
  · intro h
    rw [← add_dist ha hb, h, add_dist ha' hb]
  · rintro rfl
    rfl

lemma dist_pos (ha : a < M) (hb : b < M) (hne : a ≠ b) : 0 < dist M b a := by
  by_contra h
  have hzero : dist M b a = dist M b b := by rw [dist_self]; omega
  exact hne ((dist_inj ha hb hb).mp hzero)

/-- **Distance of counters**: the distance of two counters modulo `M` is their difference, as long
as the second is less than `M` ahead. -/
theorem dist_mod {A B : Nat} (hM : 0 < M) (hle : B ≤ A) (hlt : A < B + M) :
    dist M (B % M) (A % M) = A - B := by
  have hA := Nat.mod_add_div A M
  have hB := Nat.mod_add_div B M
  -- the quotients are equal or one apart
  have hq : B / M ≤ A / M := Nat.div_le_div_right hle
  have hq' : A / M ≤ B / M + 1 := by
    calc A / M ≤ (B + M) / M := Nat.div_le_div_right (by omega)
      _ = B / M + 1 := Nat.add_div_right B hM
  rcases (by omega : A / M = B / M ∨ A / M = B / M + 1) with h | h
  · rw [h] at hA
    rw [dist, if_pos (by omega)]
    omega
  · rw [h, Nat.mul_add, Nat.mul_one] at hA
    rw [dist, if_neg (by omega)]
    omega

lemma dist_add_right {k : Nat} (hb : b < M) (hk : k < M) : dist M b ((b + k) % M) = k := by
  have h := dist_mod (M := M) (A := b + k) (B := b) (by omega) (by omega) (by omega)
  rw [Nat.mod_eq_of_lt hb] at h
  omega

lemma dist_succ_right (ha : a < M) (hb : b < M) (hlt : dist M b a + 1 < M) :
    dist M b ((a + 1) % M) = dist M b a + 1 := by
  have h := dist_add_right hb hlt
  rwa [← Nat.add_assoc, ← Nat.mod_add_mod, add_dist ha hb] at h

lemma dist_add_left {k : Nat} (ha : a < M) (hb : b < M) (hk : k ≤ dist M b a) :
    dist M ((b + k) % M) a = dist M b a - k := by
  have hlt := dist_lt ha hb
  have h := dist_mod (M := M) (A := b + dist M b a) (B := b + k) (by omega) (by omega) (by omega)
  rw [add_dist ha hb] at h
  omega

lemma dist_add_left_behind {k : Nat} (ha : a < M) (hb : b < M) (hk : dist M b a < k)
    (hkM : k ≤ M) : dist M ((b + k) % M) a = M + dist M b a - k := by
  have h := dist_mod (M := M) (A := b + dist M b a + M) (B := b + k) (by omega) (by omega) (by omega)
  rw [Nat.add_mod_right, add_dist ha hb] at h
  omega

/-- The counter less than `M` ahead of `B` that has the residue `a`. -/
def lift (M B a : Nat) : Nat := B + dist M (B % M) a

lemma lift_mod (B : Nat) (ha : a < M) : lift M B a % M = a := by
  have hM : 0 < M := by omega
  rw [lift, ← Nat.mod_add_mod, add_dist ha (Nat.mod_lt B hM)]

lemma le_lift (B : Nat) : B ≤ lift M B a := Nat.le_add_right _ _

lemma lift_of_mod {A B : Nat} (hM : 0 < M) (hle : B ≤ A) (hlt : A < B + M) :
    lift M B (A % M) = A := by
  rw [lift, dist_mod hM hle hlt]
  omega

lemma eq_of_mod {A A' B : Nat} (hle : B ≤ A) (hlt : A < B + M) (hle' : B ≤ A')
    (hlt' : A' < B + M) (h : A % M = A' % M) : A = A' := by
  have hM : 0 < M := by omega
  rw [← lift_of_mod hM hle hlt, h, lift_of_mod hM hle' hlt']

end Circular
