/-
  Fields of one machine word, the first field in the highest bits.

  A control message that fits a register is written by OR-ing each field in at a running position, and
  read by shifting and masking at one.

  - `pack` is the number a list of fields (width, value) spells, `width` the bits it takes;
  - `or_append` is ONE step of a writer: the bits below are still clear, so the OR is an append;
  - `Holds p pos fs` is what a reader from bit `pos` of `p` finds, field after field (`holds_pack`).

  Positions are integers: a reader that takes more bits than there are ends below bit 0.
-/
import Mathlib

namespace PackedWord

open List

/-! ## The number that fields spell -/

/-- The bits that the fields `(width, value)` take. -/
def width : List (Nat × Nat) → Nat
  | [] => 0
  | f :: fs => f.1 + width fs

/-- The word of the fields, the first at its high end. -/
def pack : List (Nat × Nat) → Nat
  | [] => 0
  | f :: fs => f.2 * 2 ^ width fs + pack fs

/-- Every value fits its width. -/
def Fits (fs : List (Nat × Nat)) : Prop := ∀ f ∈ fs, f.2 < 2 ^ f.1

@[simp] lemma width_nil : width [] = 0 := rfl

variable (f : Nat × Nat)

@[simp] lemma width_cons (fs : List (Nat × Nat)) :
    width (f :: fs) = f.1 + width fs := rfl

@[simp] lemma pack_nil : pack [] = 0 := rfl

@[simp] lemma pack_cons (fs : List (Nat × Nat)) :
    pack (f :: fs) = f.2 * 2 ^ width fs + pack fs := rfl

@[simp] lemma fits_nil : Fits [] := nofun

@[simp] lemma fits_cons (fs : List (Nat × Nat)) :
    Fits (f :: fs) ↔ f.2 < 2 ^ f.1 ∧ Fits fs := forall_mem_cons

lemma width_eq_sum (fs : List (Nat × Nat)) : width fs = (fs.map Prod.fst).sum := by
  induction fs with
  | nil => rfl
  | cons f fs ih => rw [width_cons, map_cons, sum_cons, ih]

lemma width_append (fs gs : List (Nat × Nat)) : width (fs ++ gs) = width fs + width gs := by
  induction fs with
  | nil => rw [nil_append, width_nil, Nat.zero_add]
  | cons f fs ih => rw [cons_append, width_cons, width_cons, ih, Nat.add_assoc]

lemma pack_append (fs gs : List (Nat × Nat)) :
    pack (fs ++ gs) = pack fs * 2 ^ width gs + pack gs := by
  induction fs with
  | nil => rw [nil_append, pack_nil, Nat.zero_mul, Nat.zero_add]
  | cons f fs ih =>
    rw [cons_append, pack_cons, pack_cons, ih, width_append, pow_add]
    ring

lemma width_concat (fs : List (Nat × Nat)) (f : Nat × Nat) :
    width (fs ++ [f]) = width fs + f.1 := by
  rw [width_append, width_cons, width_nil, Nat.add_zero]

lemma pack_concat (fs : List (Nat × Nat)) (f : Nat × Nat) :
    pack (fs ++ [f]) = pack fs * 2 ^ f.1 + f.2 := by
  rw [pack_append, width_cons, width_nil, pack_cons, pack_nil, width_nil, Nat.add_zero, pow_zero,
    Nat.mul_one, Nat.add_zero]

variable {fs : List (Nat × Nat)} {k : Nat}

lemma fits_append {gs : List (Nat × Nat)} : Fits (fs ++ gs) ↔ Fits fs ∧ Fits gs :=
  forall_mem_append

/-- **Nothing above the fields**: values that fit spell a number of `width` bits. -/
theorem pack_lt (h : Fits fs) : pack fs < 2 ^ width fs := by
  induction fs with
  | nil => exact Nat.one_pos
  | cons f fs ih =>
    obtain ⟨hf, hfs⟩ := (fits_cons f fs).mp h
    have hrest := ih hfs
    calc pack (f :: fs) < f.2 * 2 ^ width fs + 2 ^ width fs := Nat.add_lt_add_left hrest _
      _ = (f.2 + 1) * 2 ^ width fs := by rw [Nat.add_mul, Nat.one_mul]
      _ ≤ 2 ^ f.1 * 2 ^ width fs := Nat.mul_le_mul_right _ hf
      _ = 2 ^ width (f :: fs) := by rw [width_cons, pow_add]

/-! ## Writing -/

lemma mul_or_of_lt (a : Nat) {b : Nat} (h : b < 2 ^ k) : a * 2 ^ k ||| b = a * 2 ^ k + b := by
  rw [← Nat.shiftLeft_eq, Nat.shiftLeft_add_eq_or_of_lt h]

/-- **One step of a writer**: OR-ing a value right below what stands there appends it. -/
theorem or_append (p : Nat) {v w : Nat} (k : Nat) (h : v < 2 ^ w) :
    p * 2 ^ (w + k) ||| v <<< k = (p * 2 ^ w + v) * 2 ^ k := by
  have hlt : v <<< k < 2 ^ (w + k) := by
    rw [Nat.shiftLeft_eq, pow_add]
    exact Nat.mul_lt_mul_of_pos_right h (Nat.two_pow_pos k)
  rw [mul_or_of_lt p hlt, Nat.shiftLeft_eq, pow_add]
  ring

lemma or_overlap (p q : Nat) {lo : Nat} (h : lo < 2 ^ k) :
    p * 2 ^ k ||| (q * 2 ^ k + lo) = (p ||| q) * 2 ^ k + lo := by
  rw [← mul_or_of_lt q h, ← mul_or_of_lt (p ||| q) h, ← Nat.or_assoc, ← Nat.shiftLeft_eq,
    ← Nat.shiftLeft_eq, ← Nat.shiftLeft_eq, Nat.shiftLeft_or_distrib]

lemma pack_concat_or (fs : List (Nat × Nat)) {w v q : Nat} (hv : v < 2 ^ w) (hq : q < 2 ^ w) :
    pack (fs ++ [(w, v)]) ||| q = pack (fs ++ [(w, v ||| q)]) := by
  rw [pack_concat, pack_concat]
  rw [← mul_or_of_lt _ hv, ← mul_or_of_lt _ (Nat.or_lt_two_pow hv hq), Nat.or_assoc]

/-! ## Reading -/

/-- What a reader finds that starts at bit `pos` and takes one field after another. -/
def Holds (p : Nat) : Int → List (Nat × Nat) → Prop
  | _, [] => True
  | pos, f :: fs => (p >>> (pos - f.1).toNat) % 2 ^ f.1 = f.2 ∧ Holds p (pos - f.1) fs

@[simp] lemma holds_cons (p : Nat) (pos : Int) (f : Nat × Nat) (fs : List (Nat × Nat)) :
    Holds p pos (f :: fs) ↔
      (p >>> (pos - f.1).toNat) % 2 ^ f.1 = f.2 ∧ Holds p (pos - f.1) fs := Iff.rfl

/-- **A word holds what it spells**, with anything above the fields and anything below. -/
theorem holds_pack (h : Fits fs) (hi : Nat) {lo : Nat} (hlo : lo < 2 ^ k) :
    Holds ((hi * 2 ^ width fs + pack fs) * 2 ^ k + lo) ((width fs + k : Nat) : Int) fs := by
  induction fs generalizing hi with
  | nil => trivial
  | cons f fs ih =>
    obtain ⟨hf, hfs⟩ := (fits_cons f fs).mp h
    have hpos : ((width (f :: fs) + k : Nat) : Int) - f.1 = ((width fs + k : Nat) : Int) := by
      rw [width_cons]
      push_cast
      ring
    have hword : (hi * 2 ^ width (f :: fs) + pack (f :: fs)) * 2 ^ k + lo =
        ((hi * 2 ^ f.1 + f.2) * 2 ^ width fs + pack fs) * 2 ^ k + lo := by
      rw [width_cons, pack_cons, pow_add]
      ring
    rw [holds_cons, hpos, hword]
    refine ⟨?_, ih hfs _⟩
    -- below the field there are `width fs + k` bits, spelling the rest and `lo`
    have hrest : pack fs * 2 ^ k + lo < 2 ^ (width fs + k) := by
      have hpack := pack_lt hfs
      calc pack fs * 2 ^ k + lo < pack fs * 2 ^ k + 2 ^ k := Nat.add_lt_add_left hlo _
        _ = (pack fs + 1) * 2 ^ k := by rw [Nat.add_mul, Nat.one_mul]
        _ ≤ 2 ^ width fs * 2 ^ k := Nat.mul_le_mul_right _ hpack
        _ = 2 ^ (width fs + k) := (pow_add 2 _ _).symm
    have hsplit : ((hi * 2 ^ f.1 + f.2) * 2 ^ width fs + pack fs) * 2 ^ k + lo =
        (hi * 2 ^ f.1 + f.2) * 2 ^ (width fs + k) + (pack fs * 2 ^ k + lo) := by
      ring
    rw [Int.toNat_natCast, hsplit, Nat.shiftRight_eq_div_pow, Nat.add_comm,
      Nat.add_mul_div_right _ _ (Nat.two_pow_pos _), Nat.div_eq_of_lt hrest, Nat.zero_add,
      Nat.mul_add_mod', Nat.mod_eq_of_lt hf]

/-- **A word of `size` bits that starts with the fields** and goes on with anything. -/
structure Carries (size : Nat) (fs : List (Nat × Nat)) (word : Nat) : Prop where
  fits : Fits fs
  room : width fs ≤ size
  spells : ∃ lo, lo < 2 ^ (size - width fs) ∧ word = pack fs * 2 ^ (size - width fs) + lo

lemma Carries.holds {size word : Nat} (h : Carries size fs word) : Holds word size fs := by
  obtain ⟨lo, hlo, rfl⟩ := h.spells
  have hall := holds_pack h.fits 0 hlo
  rw [Nat.zero_mul, Nat.zero_add, Nat.add_sub_cancel' h.room] at hall
  exact hall

lemma Carries.lt {size word : Nat} (h : Carries size fs word) : word < 2 ^ size := by
  obtain ⟨lo, hlo, rfl⟩ := h.spells
  calc pack fs * 2 ^ (size - width fs) + lo < (pack fs + 1) * 2 ^ (size - width fs) := by
        rw [Nat.add_mul, Nat.one_mul]
        exact Nat.add_lt_add_left hlo _
    _ ≤ 2 ^ width fs * 2 ^ (size - width fs) := Nat.mul_le_mul_right _ (pack_lt h.fits)
    _ = 2 ^ size := by rw [← pow_add, Nat.add_sub_cancel' h.room]

lemma Carries.extend (size : Nat) (hfits : Fits fs) (w v lo : Nat) (hroom : width fs + w ≤ size)
    (hv : v < 2 ^ w) (hlo : lo < 2 ^ (size - (width fs + w))) :
    Carries size (fs ++ [(w, v)])
      (pack fs * 2 ^ (size - width fs) + (v * 2 ^ (size - (width fs + w)) + lo)) := by
  refine ⟨fits_append.mpr ⟨hfits, (fits_cons _ []).mpr ⟨hv, fits_nil⟩⟩, ?_, lo, ?_, ?_⟩
  · rw [width_concat]
    exact hroom
  · rw [width_concat]
    exact hlo
  · rw [width_concat, pack_concat]
    rw [show size - width fs = w + (size - (width fs + w)) by omega, pow_add]
    ring

end PackedWord
