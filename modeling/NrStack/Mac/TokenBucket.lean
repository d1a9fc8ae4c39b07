/-
  The token bucket of a logical channel: `Bj`, lowered in `fill_mac_sdu`, raised in `nr_ue_ul_scheduler`.

  SPEC      the new `Bj` is what was left plus what was earned, or the bucket size if that is less.
  PROGRAM   the same, but `min(bj, bucketSize_max)` compares an `int32_t` with a `uint32_t`.
  RESULT    a channel in debt is GIVEN THE WHOLE BUCKET instead, and a balance of 2^31 or more becomes a
            debt; in every other case the law holds.
-/
import Mathlib

namespace NrStack.Mac

open List

/-- What `nr_lcordered_info_t` says of the bucket: `pbr` in B/s, `UINT_MAX` if infinite. -/
structure LcBucket where
  pbr : Nat
  bucketSize : Nat
  bucketSize_lt : bucketSize < 2 ^ 32

/-- Conversion to `int32_t`. -/
def int32 (x : Int) : Int := Int.bmod x (2 ^ 32)

/-- `min` of an `int32_t` and a `uint32_t`: both are compared as `uint32_t`. -/
def cmin (a : Int) (b : Nat) : Nat :=
  let a := (a % 2 ^ 32).toNat
  if a < b then a else b

/-- Between two updates: the lengths of the SDUs served, and the slots on `Bj_timer`. -/
structure BucketRound where
  sduLengths : List Nat
  slotsElapsed : Nat

/-- `sched_info->Bj -= sdu_length`, in each call of `fill_mac_sdu`. -/
def servedBj (bj : Int) (sduLengths : List Nat) : Int :=
  sduLengths.foldl (fun (b : Int) (n : Nat) => int32 (b - n)) bj

/-- The update in `nr_ue_ul_scheduler`, with subcarrier spacing `scs`. -/
def updateBj (lc : LcBucket) (scs slotsElapsed : Nat) (bj : Int) : Int :=
  let bj :=
    if lc.pbr < 2 ^ 32 - 1 then
      int32 (bj + ((lc.pbr / 1000 * slotsElapsed % 2 ^ 32) >>> scs : Nat))
    else 2 ^ 31 - 1
  int32 (cmin bj lc.bucketSize)

/-- SDUs are served, then the bucket is updated. -/
def bucketRound (lc : LcBucket) (scs : Nat) (bj : Int) (r : BucketRound) : Int :=
  updateBj lc scs r.slotsElapsed (servedBj bj r.sduLengths)

/-- `Bj` after some rounds; it starts at 0. -/
def runBj (lc : LcBucket) (scs : Nat) (rounds : List BucketRound) : Int :=
  rounds.foldl (bucketRound lc scs) 0

/-- What the channel earns; a slot is 2^-scs ms. -/
def LcBucket.earned (lc : LcBucket) (scs slotsElapsed : Nat) : Nat :=
  (lc.pbr / 1000 * slotsElapsed) >>> scs

/-- What the round leaves before the bucket limits it. -/
def balance (lc : LcBucket) (scs : Nat) (bj : Int) (r : BucketRound) : Int :=
  bj - r.sduLengths.sum + lc.earned scs r.slotsElapsed

/-- **The law survives the conversions** at a balance `x`: without a debt, what is kept fits `int32_t` and
`x` itself `uint32_t` (above that, the wrapped `x` still exceeds the bucket); a debt only if, read as
`uint32_t`, it does not exceed the bucket. -/
def BalanceOk (size : Nat) (x : Int) : Prop :=
  (0 ≤ x ∧ min x size < 2 ^ 31 ∧ (x < 2 ^ 32 ∨ 2 ^ 32 + size ≤ x)) ∨
    (-2 ^ 31 ≤ x ∧ x < 0 ∧ 2 ^ 32 + x ≤ size)

/-- The subtractions may wrap around, but only by multiples of 2^32. -/
lemma servedBj_emod : ∀ (lens : List Nat) (bj : Int),
    servedBj bj lens % 2 ^ 32 = (bj - lens.sum) % 2 ^ 32 := by
  intro lens
  induction lens with
  | nil => simp [servedBj]
  | cons n lens ih =>
    intro bj
    have hmod : int32 (bj - n) % 2 ^ 32 = (bj - n) % 2 ^ 32 := Int.bmod_emod
    rw [servedBj, foldl_cons, ← servedBj, ih, sum_cons, Nat.cast_add]
    omega

/-- Whatever wraps around on the way, one round is the C minimum of the balance and the bucket size. -/
lemma bucketRound_eq {lc : LcBucket} {scs : Nat} {bj : Int} {r : BucketRound}
    (hfinite : lc.pbr < 2 ^ 32 - 1) (hproduct : lc.pbr / 1000 * r.slotsElapsed < 2 ^ 32) :
    bucketRound lc scs bj r = int32 (cmin (balance lc scs bj r) lc.bucketSize) := by
  rw [bucketRound, updateBj, if_pos hfinite, Nat.mod_eq_of_lt hproduct, ← LcBucket.earned, balance]
  have hmod : int32 (servedBj bj r.sduLengths + lc.earned scs r.slotsElapsed) % 2 ^ 32 =
      (bj - r.sduLengths.sum + lc.earned scs r.slotsElapsed) % 2 ^ 32 := by
    have hserved := servedBj_emod r.sduLengths bj
    rw [int32, show (2 ^ 32 : Int) = (2 ^ 32 : Nat) from rfl, Int.bmod_emod]
    omega
  show int32 (cmin (int32 (servedBj bj r.sduLengths + lc.earned scs r.slotsElapsed)) lc.bucketSize) = _
  rw [cmin, hmod, ← cmin]

/-- **One update** keeps to the law exactly if the balance survives the conversions. -/
theorem int32_cmin_eq_iff {x : Int} {size : Nat} (hx : x < 2 ^ 33) (hsize : size < 2 ^ 32) :
    int32 (cmin x size) = min x size ↔ BalanceOk size x := by
  rw [cmin, int32, Int.bmod_def, BalanceOk]
  rcases Int.lt_or_le x (2 ^ 32) with hword | hwrap
  · rcases Int.lt_or_le x 0 with hdebt | hpos
    · split <;> omega
    · have hmod : (x % 2 ^ 32).toNat = x.toNat := by omega
      rw [hmod]
      split <;> omega
  · have hmod : (x % 2 ^ 32).toNat = (x - 2 ^ 32).toNat := by omega
    rw [hmod]
    split <;> omega

lemma runBj_fits (lc : LcBucket) (scs : Nat) (rounds : List BucketRound) :
    runBj lc scs rounds < 2 ^ 31 := by
  rcases eq_nil_or_concat rounds with rfl | ⟨p, r, rfl⟩
  · show (0 : Int) < 2 ^ 31
    decide
  · rw [runBj, concat_eq_append, foldl_append, foldl_cons, foldl_nil, bucketRound,
      updateBj]
    exact Int.bmod_lt (by decide)

lemma balance_lt (lc : LcBucket) (scs : Nat) (p : List BucketRound) {r : BucketRound}
    (hproduct : lc.pbr / 1000 * r.slotsElapsed < 2 ^ 32) : balance lc scs (runBj lc scs p) r < 2 ^ 33 := by
  have hbj := runBj_fits lc scs p
  have hearned : lc.earned scs r.slotsElapsed < 2 ^ 32 := (Nat.shiftRight_le ..).trans_lt hproduct
  rw [balance]
  omega

/-- **The token bucket over any rounds.**  `Bj` never exceeds the bucket size; and every update gives
the minimum of balance and bucket size IF AND ONLY IF every balance survives the conversions. -/
theorem token_bucket_iff (lc : LcBucket) (scs : Nat) (rounds : List BucketRound)
    (hfinite : lc.pbr < 2 ^ 32 - 1)
    (hproduct : ∀ r ∈ rounds, lc.pbr / 1000 * r.slotsElapsed < 2 ^ 32) :
    (∀ p r rest, rounds = p ++ r :: rest → runBj lc scs (p ++ [r]) ≤ lc.bucketSize) ∧
    ((∀ p r rest, rounds = p ++ r :: rest →
        runBj lc scs (p ++ [r]) = min (balance lc scs (runBj lc scs p) r) lc.bucketSize) ↔
      ∀ p r rest, rounds = p ++ r :: rest →
        BalanceOk lc.bucketSize (balance lc scs (runBj lc scs p) r)) := by
  have hfits : ∀ p r rest, rounds = p ++ r :: rest → lc.pbr / 1000 * r.slotsElapsed < 2 ^ 32 := by
    rintro p r rest rfl
    exact hproduct r (mem_append_right p mem_cons_self)
  have hstep : ∀ p r rest, rounds = p ++ r :: rest → runBj lc scs (p ++ [r]) =
      int32 (cmin (balance lc scs (runBj lc scs p) r) lc.bucketSize) := by
    intro p r rest h
    rw [← bucketRound_eq hfinite (hfits p r rest h), runBj, foldl_append, foldl_cons,
      foldl_nil, ← runBj]
  constructor
  · intro p r rest h
    have hle : cmin (balance lc scs (runBj lc scs p) r) lc.bucketSize ≤ lc.bucketSize := by
      rw [cmin]
      split <;> omega
    rw [hstep p r rest h, int32, Int.bmod_def]
    omega
  · refine forall_congr' fun p => forall_congr' fun r => forall_congr' fun rest =>
      forall_congr' fun h => ?_
    rw [hstep p r rest h]
    exact int32_cmin_eq_iff (balance_lt lc scs p (hfits p r rest h)) lc.bucketSize_lt

/-- 8 kB/s and 5 ms; the bucket is `pbr * bsd`. -/
def kbps8 : LcBucket := ⟨8000, 40000, by decide⟩

theorem token_bucket_iff_solvent :
    (∀ p r rest, ([⟨[], 10⟩, ⟨[30], 1⟩] : List BucketRound) = p ++ r :: rest →
      runBj kbps8 0 (p ++ [r]) ≤ kbps8.bucketSize) ∧
    ((∀ p r rest, ([⟨[], 10⟩, ⟨[30], 1⟩] : List BucketRound) = p ++ r :: rest →
        runBj kbps8 0 (p ++ [r]) = min (balance kbps8 0 (runBj kbps8 0 p) r) kbps8.bucketSize) ↔
      ∀ p r rest, ([⟨[], 10⟩, ⟨[30], 1⟩] : List BucketRound) = p ++ r :: rest →
        BalanceOk kbps8.bucketSize (balance kbps8 0 (runBj kbps8 0 p) r)) :=
  token_bucket_iff kbps8 0 _ (by decide) (by decide)

/-- **A debt is forgiven**: 200 bytes are served from 80; one slot later `Bj` is not -112 but the bucket
size.  **A full bucket becomes a debt**: 32768 kB/s and 100 ms are more than an `int32_t` holds. -/
theorem token_bucket_debt :
    (runBj kbps8 0 [⟨[], 10⟩] = 80 ∧ balance kbps8 0 80 ⟨[200], 1⟩ = -112 ∧
      runBj kbps8 0 [⟨[], 10⟩, ⟨[200], 1⟩] = 40000) ∧
    balance ⟨32768000, 3276800000, by decide⟩ 0 0 ⟨[], 65536⟩ = 2147483648 ∧
      runBj ⟨32768000, 3276800000, by decide⟩ 0 [⟨[], 65536⟩] = -2147483648 := by
  decide

end NrStack.Mac
