/-
  Bit strings, most significant bit first — the arithmetic under every packed header.

  - `value` reads a bit string as a number (the loop `v = 2 * v + bit` of every bit reader) and
    `ofNat w` spells a number with `w` bits; they are inverse below `2 ^ w` (`value_ofNat`);
  - `stream` lays the bytes of a buffer out as one bit string, so the bits left at position
    (byte, bit) are `(stream buf).drop (8 * byte + bit)` (`stream_drop`).
-/
import Mathlib

namespace Bits

open List

/-! ## Numbers and bit strings -/

/-- The number a bit string spells, most significant bit first. -/
def value (bs : List Bool) : Nat := bs.foldl (fun v b => 2 * v + b.toNat) 0

/-- The `w` low bits of `v`, most significant bit first. -/
def ofNat : Nat → Nat → List Bool
  | 0, _ => []
  | w + 1, v => v.testBit w :: ofNat w v

@[simp] lemma value_nil : value [] = 0 := rfl

@[simp] lemma value_concat (bs : List Bool) (b : Bool) :
    value (bs ++ [b]) = 2 * value bs + b.toNat := by
  simp [value]

@[simp] lemma ofNat_zero (v : Nat) : ofNat 0 v = [] := rfl

variable (w v : Nat)

@[simp] lemma length_ofNat : (ofNat w v).length = w := by
  induction w with
  | zero => rfl
  | succ w ih => simp [ofNat, ih]

lemma ofNat_succ_concat : ofNat (w + 1) v = ofNat w (v / 2) ++ [v.testBit 0] := by
  induction w with
  | zero => rfl
  | succ w ih =>
    show v.testBit (w + 1) :: ofNat (w + 1) v = (v / 2).testBit w :: ofNat w (v / 2) ++ [_]
    rw [ih, Nat.testBit_succ]
    rfl

/-- A field of a header: whether it is there, its value and its width. -/
structure BitField where
  present : Bool
  value : Nat
  width : Nat

/-- What the field adds to a stream of bits. -/
def BitField.bits (f : BitField) : List Bool := if f.present then ofNat f.width f.value else []

/-- The bits of the fields, in their order. -/
def fieldBits (fs : List BitField) : List Bool := fs.flatMap BitField.bits

@[simp] lemma bits_present (v w : Nat) : (BitField.mk true v w).bits = ofNat w v := rfl

@[simp] lemma bits_absent (v w : Nat) : (BitField.mk false v w).bits = [] := rfl

@[simp] lemma fieldBits_nil : fieldBits [] = [] := rfl

@[simp] lemma fieldBits_cons (f : BitField) (fs : List BitField) :
    fieldBits (f :: fs) = f.bits ++ fieldBits fs := rfl

lemma ofNat_add (a b v : Nat) : ofNat (a + b) v = ofNat a (v >>> b) ++ ofNat b v := by
  induction a with
  | zero => rw [Nat.zero_add, ofNat_zero, nil_append]
  | succ a ih =>
    rw [Nat.succ_add]
    show v.testBit (a + b) :: ofNat (a + b) v = (v >>> b).testBit a :: (ofNat a (v >>> b) ++ ofNat b v)
    rw [ih, Nat.testBit_shiftRight, Nat.add_comm b a]

lemma ofNat_mod_width (w v n : Nat) (h : w ≤ n) : ofNat w (v % 2 ^ n) = ofNat w v := by
  induction w with
  | zero => rfl
  | succ w ih =>
    show (v % 2 ^ n).testBit w :: _ = v.testBit w :: _
    rw [ih (by omega), Nat.testBit_mod_two_pow, decide_eq_true (by omega : w < n), Bool.true_and]

variable {k i : Nat} {buf : List UInt8} {A X B : List Bool}

lemma ofNat_or_two_pow {w : Nat} (v : Nat) (h : k < w) :
    ofNat w (v ||| 2 ^ k) = (ofNat w v).set (w - 1 - k) true := by
  induction w with
  | zero => exact absurd h (Nat.not_lt_zero k)
  | succ w ih =>
    show (v ||| 2 ^ k).testBit w :: ofNat w (v ||| 2 ^ k) = (v.testBit w :: ofNat w v).set (w - k) true
    rw [Nat.testBit_or, Nat.testBit_two_pow]
    rcases lt_or_ge k w with hlt | hge
    · have hpos : w - k = w - 1 - k + 1 := by omega
      rw [hpos, set_cons_succ, ih hlt, decide_eq_false (by omega), Bool.or_false]
    · obtain rfl : k = w := by omega
      have hlow : ofNat k (v ||| 2 ^ k) = ofNat k v := by
        rw [← ofNat_mod_width k (v ||| 2 ^ k) k (le_refl k), Nat.or_mod_two_pow, Nat.mod_self,
          Nat.or_zero, ofNat_mod_width k v k (le_refl k)]
      rw [Nat.sub_self, set_cons_zero, hlow, decide_eq_true rfl, Bool.or_true]

lemma ofNat_shift (b : Bool) : ofNat (w + 1) (2 * v + b.toNat) = ofNat w v ++ [b] := by
  have hdiv : (2 * v + b.toNat) / 2 = v := by
    cases b
    · show (2 * v + 0) / 2 = v
      omega
    · show (2 * v + 1) / 2 = v
      omega
  have hlow : (2 * v + b.toNat).testBit 0 = b := by
    rw [Nat.testBit_zero]
    cases b
    · show decide ((2 * v + 0) % 2 = 1) = false
      rw [decide_eq_false_iff_not]
      omega
    · show decide ((2 * v + 1) % 2 = 1) = true
      rw [decide_eq_true_eq]
      omega
  rw [ofNat_succ_concat, hdiv, hlow]

theorem value_ofNat_mod : value (ofNat w v) = v % 2 ^ w := by
  induction w generalizing v with
  | zero => rw [ofNat_zero, value_nil, Nat.pow_zero, Nat.mod_one]
  | succ w ih =>
    have hbit : (v.testBit 0).toNat = v % 2 := by
      rw [Nat.testBit_zero]
      rcases Nat.mod_two_eq_zero_or_one v with h | h <;> rw [h] <;> rfl
    rw [ofNat_succ_concat, value_concat, ih, hbit, Nat.pow_succ, Nat.mul_comm (2 ^ w) 2,
      Nat.mod_mul]
    omega

theorem value_ofNat {w v : Nat} (h : v < 2 ^ w) : value (ofNat w v) = v := by
  rw [value_ofNat_mod, Nat.mod_eq_of_lt h]

lemma value_lt (bs : List Bool) : value bs < 2 ^ bs.length := by
  induction bs using List.reverseRecOn with
  | nil => exact Nat.one_pos
  | append_singleton bs b ih =>
    have hb : b.toNat ≤ 1 := Bool.toNat_le b
    rw [value_concat, length_append, length_singleton, Nat.pow_succ]
    omega

/-! ## Bytes and bit strings -/

/-- The bits of a byte, the high one first. -/
def byte (b : UInt8) : List Bool := ofNat 8 b.toNat

lemma byte_ofNat (v : Nat) : byte (UInt8.ofNat v) = ofNat 8 v := by
  exact ofNat_mod_width 8 v 8 (le_refl 8)

lemma byte_injective {x y : UInt8} (h : byte x = byte y) : x = y := by
  have hval := congrArg value h
  rw [byte, byte, value_ofNat x.toNat_lt, value_ofNat y.toNat_lt] at hval
  exact UInt8.toNat_inj.mp hval

@[simp] lemma length_byte (b : UInt8) : (byte b).length = 8 := length_ofNat 8 _

/-- The bits of a buffer. -/
def stream (buf : List UInt8) : List Bool := buf.flatMap byte

@[simp] lemma stream_nil : stream [] = [] := rfl

@[simp] lemma stream_cons (b : UInt8) (buf : List UInt8) :
    stream (b :: buf) = byte b ++ stream buf := rfl

@[simp] lemma stream_append (xs ys : List UInt8) : stream (xs ++ ys) = stream xs ++ stream ys :=
  flatMap_append

@[simp] lemma length_stream (buf : List UInt8) : (stream buf).length = 8 * buf.length := by
  induction buf with
  | nil => rfl
  | cons b buf ih =>
    rw [stream_cons, length_append, length_byte, ih, length_cons]
    omega

lemma stream_drop_bytes (buf : List UInt8) (k : Nat) :
    (stream buf).drop (8 * k) = stream (buf.drop k) := by
  induction k generalizing buf with
  | zero => rfl
  | succ k ih =>
    cases buf with
    | nil => simp
    | cons b buf =>
      have hlen : 8 * (k + 1) = (byte b).length + 8 * k := by rw [length_byte]; omega
      rw [stream_cons, hlen, drop_length_add_append, drop_succ_cons, ih]

lemma ofNat_drop (w v i : Nat) (h : i ≤ w) : (ofNat w v).drop i = ofNat (w - i) v := by
  induction i generalizing w with
  | zero => rfl
  | succ i ih =>
    cases w with
    | zero => exact absurd h (by omega)
    | succ w =>
      show (ofNat w v).drop i = _
      rw [ih w (by omega)]
      congr 1
      omega

theorem stream_drop (buf : List UInt8) {bit : Nat} (hk : k < buf.length) (hbit : bit < 8) :
    (stream buf).drop (8 * k + bit) =
      buf[k].toNat.testBit (7 - bit) :: (stream buf).drop (8 * k + bit + 1) := by
  have hsplit : ∀ n, n ≤ 8 → (stream buf).drop (8 * k + n) =
      ofNat (8 - n) buf[k].toNat ++ stream (buf.drop (k + 1)) := by
    intro n hn
    rw [← drop_drop, stream_drop_bytes, drop_eq_getElem_cons hk, stream_cons,
      drop_append_of_le_length (by rw [length_byte]; exact hn), byte, ofNat_drop 8 _ n hn]
  rw [Nat.add_assoc, hsplit bit (by omega), hsplit (bit + 1) (by omega),
    show 8 - bit = 7 - bit + 1 by omega, show 8 - (bit + 1) = 7 - bit by omega]
  rfl

/-! ## Patching a buffer -/

lemma stream_split (hi : i < buf.length) :
    stream buf = stream (buf.take i) ++ byte buf[i] ++ stream (buf.drop (i + 1)) := by
  rw [append_assoc, ← stream_cons, ← drop_eq_getElem_cons hi, ← stream_append,
    take_append_drop]

lemma stream_set (hi : i < buf.length) (v : UInt8) :
    stream (buf.set i v) = stream (buf.take i) ++ byte v ++ stream (buf.drop (i + 1)) := by
  rw [set_eq_take_append_cons_drop, if_pos hi, stream_append, stream_cons, append_assoc]

section

variable (h : stream buf = A ++ X ++ B) (hA : A.length = 8 * i) (hX : X.length = 8)
include h hA hX

lemma stream_window :
    ∃ hi : i < buf.length, stream (buf.take i) = A ∧ byte buf[i] = X ∧
      stream (buf.drop (i + 1)) = B := by
  have hlen := congrArg List.length h
  rw [length_stream, length_append, length_append] at hlen
  have hi : i < buf.length := by omega
  have hfront : (stream (buf.take i)).length = A.length := by
    rw [length_stream, length_take]
    omega
  rw [stream_split hi, append_assoc, append_assoc] at h
  obtain ⟨hA', hrest⟩ := append_inj h hfront
  obtain ⟨hX', hB⟩ := append_inj hrest (by rw [length_byte, hX])
  exact ⟨hi, hA', hX', hB⟩

theorem stream_overwrite (v : UInt8) : stream (buf.set i v) = A ++ byte v ++ B := by
  obtain ⟨hi, hA', -, hB⟩ := stream_window h hA hX
  rw [stream_set hi, hA', hB]

end

lemma stream_overwrite_two {Y : List Bool} (h : stream buf = A ++ (X ++ (Y ++ B)))
    (hA : A.length = 8 * i) (hX : X.length = 8) (hY : Y.length = 8) (v u : UInt8) :
    stream ((buf.set i v).set (i + 1) u) = A ++ (byte v ++ (byte u ++ B)) := by
  rw [← append_assoc] at h
  have hone := stream_overwrite h hA hX v
  rw [← append_assoc] at hone
  have htwo := stream_overwrite (i := i + 1) hone (by
    rw [length_append, hA, length_byte]
    omega) hY u
  rw [htwo, append_assoc, append_assoc]

theorem stream_set_bit {mask : UInt8} {b : Bool} (h : stream buf = A ++ b :: B)
    (hA : A.length = 8 * i + (7 - k)) (hk : k < 8) (hmask : mask.toNat = 2 ^ k) :
    stream (buf.set i (buf.getD i 0 ||| mask)) = A ++ true :: B := by
  have hlen := congrArg List.length h
  rw [length_stream, length_append, length_cons] at hlen
  have hi : i < buf.length := by omega
  have hfront : (stream (buf.take i)).length = 8 * i := by
    rw [length_stream, length_take]
    omega
  have hbyte : byte (buf.getD i 0 ||| mask) = (byte buf[i]).set (7 - k) true := by
    rw [byte, getD_eq_getElem _ _ hi, UInt8.toNat_or, hmask, ofNat_or_two_pow _ hk]
    rfl
  have hset : stream (buf.set i (buf.getD i 0 ||| mask)) = (stream buf).set (8 * i + (7 - k)) true := by
    rw [stream_set hi, stream_split hi, hbyte, append_assoc, append_assoc,
      set_append_right _ _ (by omega), hfront, Nat.add_sub_cancel_left,
      set_append_left _ _ (by rw [length_byte]; omega)]
  rw [hset, h, set_append_right _ _ (by omega), hA, Nat.sub_self, set_cons_zero]

end Bits
