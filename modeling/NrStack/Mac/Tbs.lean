/-
  Transport block sizes (`nr_compute_tbs_common.c`) and the search for a number of RBs (`nr_find_nb_rb`).

  The arithmetic is that of `uint32_t`.  Of the floating point `log2` only the integer part is used: below
  2^32 that is `Nat.log2`.  With transform precoding only RB counts 2^a 3^b 5^c are allowed; the test for
  that does not return for 0 RBs (`none`).
-/
import Mathlib

namespace NrStack.Mac

open Option

/-! ## `nr_compute_tbs` -/

/-- `NR_MAX_PDSCH_TBS` -/
def nrMaxPdschTbs : Nat := 3824

/-- `Tbstable_nr`, table 5.1.2.2-2. -/
def tbstableNr : List Nat :=
  [24, 32, 40, 48, 56, 64, 72, 80, 88, 96, 104, 112, 120, 128, 136, 144, 152, 160, 168,
    176, 184, 192, 208, 224, 240, 256, 272, 288, 304, 320, 336, 352, 368, 384, 408, 432, 456, 480,
    504, 528, 552, 576, 608, 640, 672, 704, 736, 768, 808, 848, 888, 928, 984, 1032, 1064, 1128,
    1160, 1192, 1224, 1256, 1288, 1320, 1352, 1416, 1480, 1544, 1608, 1672, 1736, 1800, 1864, 1928,
    2024, 2088, 2152, 2216, 2280, 2408, 2472, 2536, 2600, 2664, 2728, 2792, 2856, 2976, 3104, 3240,
    3368, 3496, 3624, 3752, 3824]

/-- `CEILIDIV` -/
def ceilidiv (a b : Nat) : Nat := (a + b - 1) / b

/-- `ROUNDIDIV` -/
def roundidiv (a b : Nat) : Nat := ((a <<< 1) + b) / (b <<< 1)

/-- The size of a block of `npInfo` bits in code blocks of at most `limit` bits. -/
def segmentedTbs (limit npInfo : Nat) : Nat :=
  let c := ceilidiv (npInfo + 24) limit
  (c <<< 3) * ceilidiv (npInfo + 24) (c <<< 3) - 24

/-- `nr_compute_tbs` from the number of information bits on. -/
def tbsOfInfo (R ninfo : Nat) : Nat :=
  if ninfo ≤ nrMaxPdschTbs then
    let n := max 3 (Nat.log2 ninfo - 6)
    let npInfo := max 24 ((ninfo >>> n) <<< n)
    (tbstableNr.find? fun tbs => decide (npInfo ≤ tbs)).getD 0
  else
    let n := Nat.log2 (ninfo - 24) - 5
    let npInfo := max 3840 (roundidiv (ninfo - 24) (1 <<< n) <<< n)
    if R ≤ 2560 then segmentedTbs 3816 npInfo
    else if npInfo > 8424 then segmentedTbs 8424 npInfo
    else (ceilidiv (npInfo + 24) 8) <<< 3 - 24

/-- `Ninfo`, in 32 bits. -/
def infoBits (Qm R nbRb nbSymbSch nbDmrsPrb nbRbOh tbScaling Nl : Nat) : Nat :=
  let nbpRe := (((12 * nbSymbSch : Nat) - nbDmrsPrb - nbRbOh : Int) % 2 ^ 32).toNat
  let nbRe := min 156 nbpRe * nbRb % 2 ^ 32
  -- R can be fractional: a fifth of it, and one more bit in the shift
  ((nbRe * (R / 5) * Qm * Nl % 2 ^ 32) >>> 11) >>> tbScaling

/-- `nr_compute_tbs` -/
def nrComputeTbs (Qm R nbRb nbSymbSch nbDmrsPrb nbRbOh tbScaling Nl : Nat) : Nat :=
  tbsOfInfo R (infoBits Qm R nbRb nbSymbSch nbDmrsPrb nbRbOh tbScaling Nl)

variable {b hi bytes : Nat} {tp : Bool}

lemma le_mul_ceilidiv (a : Nat) (hb : 0 < b) : a ≤ b * ceilidiv a b := by
  rw [ceilidiv]
  have := Nat.div_add_mod (a + b - 1) b
  have := Nat.mod_lt (a + b - 1) hb
  omega

lemma ceilidiv_le_iff {a c : Nat} (hb : 0 < b) : ceilidiv a b ≤ c ↔ a ≤ b * c := by
  constructor
  · intro h
    exact (le_mul_ceilidiv a hb).trans (Nat.mul_le_mul_left b h)
  · intro h
    refine Nat.lt_succ_iff.mp ((Nat.div_lt_iff_lt_mul hb).mpr ?_)
    rw [Nat.succ_mul, Nat.mul_comm c b]
    omega

lemma ceilidiv_pos {a : Nat} (ha : 0 < a) (hb : 0 < b) : 0 < ceilidiv a b :=
  Nat.div_pos (by omega) hb

lemma tbstableNr_entries : ∀ tbs ∈ tbstableNr, 24 ≤ tbs ∧ tbs ≤ 3824 ∧ tbs % 8 = 0 := by decide

lemma tbsOfInfo_small (R : Nat) {ninfo : Nat} (h : ninfo ≤ nrMaxPdschTbs) :
    tbsOfInfo R ninfo ∈ tbstableNr := by
  rw [tbsOfInfo, if_pos h]
  have hle : max 24 ((ninfo >>> max 3 (Nat.log2 ninfo - 6)) <<< max 3 (Nat.log2 ninfo - 6)) ≤
      3824 := by
    rw [Nat.shiftRight_eq_div_pow, Nat.shiftLeft_eq]
    have := Nat.div_mul_le_self ninfo (2 ^ max 3 (Nat.log2 ninfo - 6))
    rw [nrMaxPdschTbs] at h
    omega
  cases hfind : tbstableNr.find? (fun tbs => decide
      (max 24 ((ninfo >>> max 3 (Nat.log2 ninfo - 6)) <<< max 3 (Nat.log2 ninfo - 6)) ≤ tbs)) with
  | none =>
    have := List.find?_eq_none.mp hfind 3824 (by decide)
    rw [decide_eq_true_eq] at this
    exact absurd hle this
  | some tbs =>
    simp only [hfind, getD_some]
    exact List.mem_of_find?_eq_some hfind

lemma segmentedTbs_spec (limit : Nat) {npInfo : Nat} (hlimit : 0 < limit) (hnp : 3840 ≤ npInfo) :
    ∃ c q, c = ceilidiv (npInfo + 24) limit ∧ segmentedTbs limit npInfo + 24 = 8 * c * q ∧
      0 < c ∧ npInfo + 24 ≤ 8 * c * q ∧ q = ceilidiv (npInfo + 24) (8 * c) := by
  have hc : 0 < ceilidiv (npInfo + 24) limit := ceilidiv_pos (by omega) hlimit
  have hle := le_mul_ceilidiv (npInfo + 24) (b := 8 * ceilidiv (npInfo + 24) limit) (by omega)
  refine ⟨_, _, rfl, ?_, hc, hle, rfl⟩
  simp only [segmentedTbs, Nat.shiftLeft_eq]
  rw [show ceilidiv (npInfo + 24) limit * 2 ^ 3 = 8 * ceilidiv (npInfo + 24) limit by omega]
  omega

lemma tbsOfInfo_large (R : Nat) {ninfo : Nat} (h : ¬ ninfo ≤ nrMaxPdschTbs) :
    ∃ npInfo, 3840 ≤ npInfo ∧ npInfo ≤ tbsOfInfo R ninfo ∧
      ((R ≤ 2560 ∧ tbsOfInfo R ninfo = segmentedTbs 3816 npInfo) ∨
        (2560 < R ∧ 8424 < npInfo ∧ tbsOfInfo R ninfo = segmentedTbs 8424 npInfo) ∨
        (2560 < R ∧ npInfo ≤ 8424 ∧ tbsOfInfo R ninfo + 24 = 8 * ceilidiv (npInfo + 24) 8)) := by
  rw [tbsOfInfo, if_neg h]
  simp only
  generalize hgen : max 3840 (roundidiv (ninfo - 24) (1 <<< (Nat.log2 (ninfo - 24) - 5)) <<<
    (Nat.log2 (ninfo - 24) - 5)) = npInfo
  have hnp : 3840 ≤ npInfo := hgen ▸ le_max_left _ _
  refine ⟨npInfo, hnp, ?_⟩
  have hle8 := le_mul_ceilidiv (npInfo + 24) (b := 8) (by omega)
  split
  · next hR =>
    obtain ⟨c, q, -, heq, -, hle, -⟩ := segmentedTbs_spec 3816 (by omega) hnp
    exact ⟨by omega, .inl ⟨hR, rfl⟩⟩
  next hR =>
  split
  · next hbig =>
    obtain ⟨c, q, -, heq, -, hle, -⟩ := segmentedTbs_spec 8424 (by omega) hnp
    exact ⟨by omega, .inr (.inl ⟨by omega, hbig, rfl⟩)⟩
  · next hsmall =>
    exact ⟨by omega, .inr (.inr ⟨by omega, by omega, by omega⟩)⟩

lemma tbsOfInfo_ge (R ninfo : Nat) : 24 ≤ tbsOfInfo R ninfo := by
  by_cases h : ninfo ≤ nrMaxPdschTbs
  · exact (tbstableNr_entries _ (tbsOfInfo_small R h)).1
  · obtain ⟨npInfo, hnp, hle, -⟩ := tbsOfInfo_large R h
    omega

/-! ## `nr_find_nb_rb` -/

/-- `while (rb % p == 0) rb /= p`, with fuel. -/
def strip (p : Nat) : Nat → Nat → Nat
  | 0, rb => rb
  | fuel + 1, rb => if rb % p = 0 then strip p fuel (rb / p) else rb

/-- `multiple_2_3_5`; the loops do not end for 0. -/
def multiple235 (rb : Nat) : Option Bool :=
  if rb = 0 then none else some (decide (strip 5 rb (strip 3 rb (strip 2 rb rb)) = 1))

/-- `while (enabled && !multiple_2_3_5(nb_rb_max)) nb_rb_max--` -/
def lowerToMultiple (transformPrecoding : Bool) : Nat → Option Nat
  | 0 => if transformPrecoding then none else some 0
  | n + 1 =>
    if transformPrecoding then
      (multiple235 (n + 1)).bind fun ok => if ok then some (n + 1) else lowerToMultiple true n
    else some (n + 1)

/-- `while (enabled && !multiple_2_3_5(p)) p++`, with fuel. -/
def raiseToMultiple (transformPrecoding : Bool) : Nat → Nat → Option Nat
  | 0, _ => none
  | fuel + 1, p =>
    if transformPrecoding then
      (multiple235 p).bind fun ok =>
        if ok then some p else raiseToMultiple true fuel (p + 1)
    else some p

/-- The bisection of `nr_find_nb_rb`. -/
def searchNbRb (transformPrecoding : Bool) (tbsOf : Nat → Nat) (bytes : Nat) :
    Nat → Nat → Nat → Option Nat
  | 0, _, hi => some hi
  | fuel + 1, lo, hi =>
    if lo + 1 < hi then
      (raiseToMultiple transformPrecoding (hi + 1) ((hi + lo) / 2)).bind fun p =>
        -- increasing p already hit the high
        if p = hi then some hi
        else if bytes = tbsOf p then some p
        else if bytes < tbsOf p then searchNbRb transformPrecoding tbsOf bytes fuel lo p
        else searchNbRb transformPrecoding tbsOf bytes fuel p hi
    else some hi

/-- `nr_find_nb_rb`: return value, `*tbs` and `*nb_rb`. -/
def nrFindNbRb (Qm R : Nat) (transformPrecoding : Bool) (nrOfLayers nbSymbSch nbDmrsPrb bytes
    nbRbMin nbRbMax : Nat) : Option (Bool × Nat × Nat) :=
  let tbsOf := fun nbRb => nrComputeTbs Qm R nbRb nbSymbSch nbDmrsPrb 0 0 nrOfLayers >>> 3
  (lowerToMultiple transformPrecoding nbRbMax).bind fun nbRbMax =>
    -- is the maximum (not even) enough?
    if bytes > tbsOf nbRbMax then some (false, tbsOf nbRbMax, nbRbMax)
    else if bytes = tbsOf nbRbMax then some (true, tbsOf nbRbMax, nbRbMax)
    -- is the minimum enough?
    else if bytes ≤ tbsOf nbRbMin then some (true, tbsOf nbRbMin, nbRbMin)
    else
      (searchNbRb transformPrecoding tbsOf bytes nbRbMax nbRbMin nbRbMax).map fun hi =>
        (decide (tbsOf hi ≥ bytes ∧ hi ≤ nbRbMax), tbsOf hi, hi)

lemma lowerToMultiple_le : ∀ {n m : Nat}, lowerToMultiple tp n = some m → m ≤ n := by
  intro n
  induction n with
  | zero =>
    intro m h
    rw [lowerToMultiple] at h
    split at h <;> cases h
    exact le_refl _
  | succ n ih =>
    intro m h
    rw [lowerToMultiple] at h
    split at h
    · next htp =>
      obtain ⟨ok, -, h⟩ := bind_eq_some_iff.mp h
      split at h
      · cases h
        exact le_refl _
      · rw [htp] at ih
        exact Nat.le_succ_of_le (ih h)
    · cases h
      exact le_refl _

/-- With transform precoding the upper end of the search is one of the allowed counts. -/
def Allowed (tp : Bool) (n : Nat) : Prop := tp = true → multiple235 n = some true

lemma lowerToMultiple_allowed : ∀ {n m : Nat}, lowerToMultiple tp n = some m → Allowed tp m := by
  intro n
  induction n with
  | zero =>
    intro m h htp
    rw [lowerToMultiple, htp] at h
    cases h
  | succ n ih =>
    intro m h htp
    rw [htp] at h ih
    rw [lowerToMultiple, if_pos rfl] at h
    obtain ⟨ok, hok, h⟩ := bind_eq_some_iff.mp h
    split at h
    · next hyes =>
      cases h
      rw [hok, hyes]
    · exact ih h rfl

lemma raiseToMultiple_spec (hhi : Allowed tp hi) :
    ∀ {fuel p p' : Nat}, p ≤ hi → raiseToMultiple tp fuel p = some p' →
      p ≤ p' ∧ p' ≤ hi ∧ Allowed tp p' := by
  intro fuel
  induction fuel with
  | zero => exact nofun
  | succ fuel ih =>
    intro p p' hp h
    rw [raiseToMultiple] at h
    split at h
    · next htp =>
      obtain ⟨ok, hok, h⟩ := bind_eq_some_iff.mp h
      split at h
      · next hyes =>
        cases h
        exact ⟨le_refl _, hp, fun _ => by rw [hok, hyes]⟩
      · next hno =>
        have hne : p ≠ hi := by
          rintro rfl
          rw [hhi htp] at hok
          cases hok
          exact hno rfl
        rw [← htp] at h
        have := ih (by omega) h
        exact ⟨by omega, this.2⟩
    · next htp =>
      cases h
      exact ⟨le_refl _, hp, fun h => absurd h htp⟩

theorem searchNbRb_le {tbsOf : Nat → Nat} :
    ∀ {fuel lo hi n : Nat}, Allowed tp hi → searchNbRb tp tbsOf bytes fuel lo hi = some n →
      n ≤ hi ∧ (lo < hi → lo < n) := by
  intro fuel
  induction fuel with
  | zero =>
    intro lo hi n _ h
    cases h
    exact ⟨le_refl _, fun hlt => hlt⟩
  | succ fuel ih =>
    intro lo hi n hhi h
    rw [searchNbRb] at h
    split at h
    · next hlt =>
      obtain ⟨p, hp, h⟩ := bind_eq_some_iff.mp h
      obtain ⟨hge, hle, hallowed⟩ := raiseToMultiple_spec hhi (by omega) hp
      split at h
      · cases h
        omega
      split at h
      · cases h
        omega
      split at h
      · have := ih hallowed h
        omega
      · have := ih hhi h
        omega
    · cases h
      exact ⟨le_refl _, fun hlt => hlt⟩

variable {Qm R layers symb dmrs tbs n : Nat} {ok : Bool}

/-- The size is that of the RBs found, and they are in the bounds. -/
theorem nrFindNbRb_spec {lo : Nat}
    (h : nrFindNbRb Qm R tp layers symb dmrs bytes lo hi = some (ok, tbs, n)) :
    tbs = nrComputeTbs Qm R n symb dmrs 0 0 layers >>> 3 ∧ n ≤ max lo hi ∧
      (tp = false → lo ≤ hi → lo ≤ n) := by
  obtain ⟨top, htop, h⟩ := bind_eq_some_iff.mp h
  have hle := lowerToMultiple_le htop
  have hallowed := lowerToMultiple_allowed htop
  have hsame : tp = false → top = hi := by
    intro htp
    rw [htp] at htop
    cases hi with
    | zero => exact (Option.some.inj htop).symm
    | succ k => exact (Option.some.inj htop).symm
  split at h
  · cases h
    exact ⟨rfl, by omega, fun htp hlo => by rw [hsame htp]; exact hlo⟩
  split at h
  · cases h
    exact ⟨rfl, by omega, fun htp hlo => by rw [hsame htp]; exact hlo⟩
  split at h
  · cases h
    exact ⟨rfl, by omega, fun _ _ => le_refl _⟩
  next hmax hmin =>
  obtain ⟨m, hm, heq⟩ := map_eq_some_iff.mp h
  cases heq
  obtain ⟨hmle, hmlt⟩ := searchNbRb_le hallowed hm
  refine ⟨rfl, by omega, fun htp hlo => ?_⟩
  -- the lower end was not enough, so it is not the upper end
  have htop := hsame htp
  have hne : lo ≠ top := by
    rintro rfl
    omega
  omega

/-- A retransmission takes what was found only with the size of the block. -/
lemma kept_of_found {α : Type} {found : Option (Bool × Nat × Nat)} {g : Bool × Nat × Nat → Option α}
    {k : Bool × Nat × Nat → α} {size : Nat} {x : α} (h : found.map g = some (some x))
    (hg : ∀ r, g r = if !r.1 || r.2.1 != size then none else some (k r)) :
    ∃ ok n, found = some (ok, size, n) ∧ x = k (ok, size, n) := by
  obtain ⟨⟨ok, tbs, n⟩, rfl, heq⟩ := map_eq_some_iff.mp h
  rw [hg] at heq
  split at heq
  · cases heq
  next hok =>
    simp only [Bool.or_eq_true, bne_iff_ne, ne_eq, not_or, not_not] at hok
    obtain ⟨-, rfl⟩ := hok
    exact ⟨ok, n, rfl, (Option.some.inj heq).symm⟩

lemma nrFindNbRb_exact
    (h : nrFindNbRb Qm R tp layers symb dmrs bytes 1 hi = some (ok, tbs, n)) (heq : tbs = bytes) :
    n ≤ hi := by
  have hspec := nrFindNbRb_spec h
  by_cases hhi : 1 ≤ hi
  · omega
  · -- no RB at all: even that would give three bytes, so the block is not smaller
    have hzero : hi = 0 := by omega
    subst hzero
    have hge : ∀ m, 3 ≤ nrComputeTbs Qm R m symb dmrs 0 0 layers >>> 3 := by
      intro m
      have := tbsOfInfo_ge R (infoBits Qm R m symb dmrs 0 0 layers)
      rw [nrComputeTbs, Nat.shiftRight_eq_div_pow]
      omega
    obtain ⟨top, htop, h⟩ := bind_eq_some_iff.mp h
    have htop0 : top = 0 := Nat.le_zero.mp (lowerToMultiple_le htop)
    subst htop0
    split at h
    · cases h
      exact le_refl _
    split at h
    · cases h
      exact le_refl _
    next hgt hne =>
    -- fewer than the bytes of no RB: the size of one RB cannot be an exact fit
    have hsize : nrComputeTbs Qm R 0 symb dmrs 0 0 layers >>> 3 = 3 := by
      have hinfo : infoBits Qm R 0 symb dmrs 0 0 layers = 0 := by
        simp [infoBits]
      rw [nrComputeTbs, hinfo, tbsOfInfo, if_pos (Nat.zero_le _)]
      decide
    have hle : bytes ≤ nrComputeTbs Qm R 0 symb dmrs 0 0 layers >>> 3 := Nat.le_of_not_gt hgt
    have hne : bytes ≠ nrComputeTbs Qm R 0 symb dmrs 0 0 layers >>> 3 := hne
    have hn := hge n
    omega

end NrStack.Mac
