/-
  Code block segmentation (`nr_segmentation.c`) of a transport block of the size the MAC computes.

  The MAC (`nr_compute_tbs`) rounds a block up to code blocks of EQUAL size in bytes, with limits 3816 and
  8424 that depend on the code rate; the PHY chooses their number from the size alone, with limits 3840 and
  8448 that depend on the base graph, and divides, rounding DOWN.

  `get_BG` compares `R / 10240` in floating point with 0.6667 and 0.25; no `R` is near enough to 6827.008
  for rounding to matter.  `crc24b` is a parameter.
-/
import NrStack.Lib.Store
import NrStack.Mac.Tbs

namespace NrStack.Phy

open List NrStack.Mac Function

/-! ## `get_BG` and the sizes -/

/-- `get_BG` -/
def getBG (A R : Nat) : Nat :=
  if A ≤ 292 ∨ (A ≤ nrMaxPdschTbs ∧ R * 10000 ≤ 6667 * 10240) ∨ R * 4 ≤ 10240 then 2 else 1

/-- The lifting sizes, `lift_size` in the LDPC test bench. -/
def liftSize : List Nat :=
  [2, 3, 4, 5, 6, 7, 8, 9, 10, 11, 12, 13, 14, 15, 16, 18, 20, 22, 24, 26, 28, 30, 32, 36, 40, 44,
    48, 52, 56, 60, 64, 72, 80, 88, 96, 104, 112, 120, 128, 144, 160, 176, 192, 208, 224, 240, 256,
    288, 320, 352, 384]

/-- `K = (Z >> s) << s; if (K < Z) K = K + 2^s` -/
def roundUp (s Z : Nat) : Nat :=
  let K := (Z >>> s) <<< s
  if K < Z then K + 2 ^ s else K

/-- The lifting size for `Z`; `none` is the illegal codeword size. -/
def lift (Z : Nat) : Option Nat :=
  if Z ≤ 2 then some 2
  else if Z ≤ 16 then some Z
  else if Z ≤ 32 then some (roundUp 1 Z)
  else if Z ≤ 64 then some (roundUp 2 Z)
  else if Z ≤ 128 then some (roundUp 3 Z)
  else if Z ≤ 256 then some (roundUp 4 Z)
  else if Z ≤ 384 then some (roundUp 5 Z)
  else none

/-- The results of `nr_segmentation`, its return value `Kb` and the locals `L` and `Kprime`. -/
structure Segments where
  C : Nat
  K : Nat
  Z : Nat
  F : Nat
  Kb : Nat
  L : Nat
  Kprime : Nat
  deriving Repr, DecidableEq

/-- `Kcb` -/
def maxCodeBlock (BG : Nat) : Nat := if BG = 1 then 8448 else 3840

/-- `C`, for a block that needs more than one segment. -/
def segmentCount (limit B : Nat) : Nat :=
  let C := B / limit
  if limit * C < B then C + 1 else C

/-- `Kb` -/
def infoColumns (BG B : Nat) : Nat :=
  if BG = 1 then 22
  else if B > 640 then 10
  else if B > 560 then 9
  else if B > 192 then 8
  else 6

/-- `nr_segmentation` from `Kprime` on, without the buffers. -/
def segmentsOf (BG Kb C L Kprime : Nat) : Option Segments :=
  let Z := if Kprime % Kb > 0 then Kprime / Kb + 1 else Kprime / Kb
  (lift Z).map fun Zout =>
    let K := if BG = 1 then Zout * 22 else Zout * 10
    -- unsigned: a negative number of filler bits would be a huge one
    { C, K, Z := Zout, F := (K + 2 ^ 32 - Kprime) % 2 ^ 32, Kb, L, Kprime }

/-- `nr_segmentation` without the buffers; `none` is a return value of -1. -/
def segmentSizes (B BG : Nat) : Option Segments :=
  let Kcb := maxCodeBlock BG
  let Kb := infoColumns BG B
  if B ≤ Kcb then segmentsOf BG Kb 1 0 (B / 1)
  else
    let L := 24
    let C := segmentCount (Kcb - L) B
    segmentsOf BG Kb C L ((B + C * L) / C)

/-! ## The buffers -/

/-- A buffer, byte by byte. -/
abbrev Buffer := Nat → UInt8

/-- The payload from `input` at `s` on, the CRC when there are several segments, zeros for the filler.
-/
def fillSegment (crc24b : Buffer → Nat → UInt32) (seg : Segments) (input : Buffer) (s : Nat)
    (output : Buffer) : Buffer :=
  let n := (seg.Kprime - seg.L) >>> 3
  let output := (List.range n).foldl (fun o k => Function.update o k (input (s + k))) output
  let output :=
    if seg.C > 1 then
      let crc := crc24b output (seg.Kprime - seg.L) >>> 8
      let output := Function.update output n (crc >>> 16).toUInt8
      let output := Function.update output (1 + n) (crc >>> 8).toUInt8
      Function.update output (2 + n) crc.toUInt8
    else output
  if seg.F > 0 then
    (List.range' (seg.Kprime >>> 3) (seg.K >>> 3 - seg.Kprime >>> 3)).foldl
      (fun o k => Function.update o k 0) output
  else output

/-- One round of the loop over the segments; `s` counts the bytes taken. -/
def segmentRound (crc24b : Buffer → Nat → UInt32) (seg : Segments) (input : Buffer)
    (st : Nat × (Nat → Buffer)) (r : Nat) : Nat × (Nat → Buffer) :=
  (st.1 + (seg.Kprime - seg.L) >>> 3,
    Function.update st.2 r (fillSegment crc24b seg input st.1 (st.2 r)))

/-- `nr_segmentation`: the sizes, and the code blocks; `none` is a failed assertion. -/
def nrSegmentation (crc24b : Buffer → Nat → UInt32) (input : Buffer) (outputs : Nat → Buffer)
    (B BG : Nat) : Option (Segments × (Nat → Buffer)) :=
  (segmentSizes B BG).map fun seg =>
    (seg, ((List.range seg.C).foldl (segmentRound crc24b seg input) (0, outputs)).2)

/-- The payload of a segment: its bytes before CRC and filler. -/
def payload (seg : Segments) (output : Buffer) : List UInt8 :=
  (List.range ((seg.Kprime - seg.L) / 8)).map output

/-! ## The payloads -/

lemma fillSegment_payload (crc24b : Buffer → Nat → UInt32) (seg : Segments) (input : Buffer)
    (s : Nat) (output : Buffer) {k : Nat} (hk : k < (seg.Kprime - seg.L) / 8) :
    fillSegment crc24b seg input s output k = input (s + k) := by
  have hn : (seg.Kprime - seg.L) >>> 3 = (seg.Kprime - seg.L) / 8 := Nat.shiftRight_eq_div_pow _ 3
  have hK : seg.Kprime >>> 3 = seg.Kprime / 8 := Nat.shiftRight_eq_div_pow _ 3
  have hcopied : ∀ o : Buffer, (List.range ((seg.Kprime - seg.L) / 8)).foldl
      (fun o k => Function.update o k (input (s + k))) o k = input (s + k) :=
    fun o => Store.foldl_update_of_mem (fun k => k) (fun k => input (s + k)) o (mem_range.mpr hk)
      fun _ _ heq => heq
  have hfiller : ∀ j ∈ List.range' (seg.Kprime / 8) (seg.K >>> 3 - seg.Kprime / 8), j ≠ k := by
    intro j hj
    have := mem_range'_1.mp hj
    omega
  simp only [fillSegment, hn, hK]
  by_cases hC : seg.C > 1
  · simp only [if_pos hC]
    split
    · rw [Store.foldl_update_of_ne (fun j => j) (fun _ => 0) _ hfiller, update_of_ne (by omega),
        update_of_ne (by omega), update_of_ne (by omega), hcopied]
    · rw [update_of_ne (by omega), update_of_ne (by omega),
        update_of_ne (by omega), hcopied]
  · simp only [if_neg hC]
    split
    · rw [Store.foldl_update_of_ne (fun j => j) (fun _ => 0) _ hfiller, hcopied]
    · rw [hcopied]

theorem segmentRounds_payload (crc24b : Buffer → Nat → UInt32) (seg : Segments) (input : Buffer)
    (outputs : Nat → Buffer) (c : Nat) :
    let n := (seg.Kprime - seg.L) / 8
    let st := (List.range c).foldl (segmentRound crc24b seg input) (0, outputs)
    st.1 = c * n ∧ (List.range c).flatMap (fun r => payload seg (st.2 r)) =
      (List.range (c * n)).map input := by
  have hn : (seg.Kprime - seg.L) >>> 3 = (seg.Kprime - seg.L) / 8 := Nat.shiftRight_eq_div_pow _ 3
  induction c with
  | zero => exact ⟨by simp, by simp⟩
  | succ c ih =>
    rw [range_succ, foldl_append, foldl_cons, foldl_nil]
    obtain ⟨hs, hbytes⟩ := ih
    refine ⟨by rw [segmentRound, hs, hn, Nat.succ_mul], ?_⟩
    rw [flatMap_append, Nat.succ_mul, range_add, map_append, ← hbytes]
    congr 1
    · -- the segments before are not touched
      refine flatMap_congr fun r hr => ?_
      have hne : r ≠ c := (mem_range.mp hr).ne
      simp only [segmentRound, update_of_ne hne]
    · simp only [flatMap_cons, flatMap_nil, append_nil, payload, segmentRound,
        update_self, map_map]
      refine map_congr_left fun k hk => ?_
      rw [fillSegment_payload _ _ _ _ _ (mem_range.mp hk), hs]
      rfl

/-! ## The sizes of one segmentation -/

lemma lift_spec (Z : Nat) (hZ : Z ≤ 384) :
    ∃ Zout ∈ liftSize, lift Z = some Zout ∧ Z ≤ Zout := by
  have hall : ∀ Z ≤ 384, (lift Z).getD 0 ∈ liftSize ∧ Z ≤ (lift Z).getD 0 := by decide +kernel
  obtain ⟨hmem, hle⟩ := hall Z hZ
  cases heq : lift Z with
  | none =>
    rw [heq] at hmem
    exact absurd hmem (by decide)
  | some Zout =>
    rw [heq] at hmem hle
    exact ⟨Zout, hmem, rfl, hle⟩

lemma liftSize_le : ∀ Z ∈ liftSize, Z ≤ 384 := by decide

lemma segmentsOf_spec {BG Kb C L Kprime : Nat} (hpos : 0 < Kb)
    (hKb : Kb ≤ if BG = 1 then 22 else 10) (hle : Kprime ≤ 384 * Kb) :
    ∃ seg, segmentsOf BG Kb C L Kprime = some seg ∧ seg.C = C ∧ seg.L = L ∧
      seg.Kprime = Kprime ∧ seg.K = seg.Kprime + seg.F ∧ seg.Z ∈ liftSize := by
  have hdiv := Nat.div_add_mod Kprime Kb
  have hmod := Nat.mod_lt Kprime hpos
  have hZle : ∀ m, Kprime ≤ m * Kb →
      (if Kprime % Kb > 0 then Kprime / Kb + 1 else Kprime / Kb) ≤ m := by
    intro m hm
    split
    · refine Nat.succ_le_of_lt (Nat.lt_of_mul_lt_mul_left (a := Kb) ?_)
      rw [Nat.mul_comm Kb m]
      omega
    · exact Nat.div_le_of_le_mul (by rw [Nat.mul_comm]; exact hm)
  have hleZ : Kprime ≤ Kb * (if Kprime % Kb > 0 then Kprime / Kb + 1 else Kprime / Kb) := by
    split
    · rw [Nat.mul_add]
      omega
    · omega
  rw [segmentsOf]
  generalize (if Kprime % Kb > 0 then Kprime / Kb + 1 else Kprime / Kb) = Z at hZle hleZ
  obtain ⟨Zout, hmem, heq, hZZ⟩ := lift_spec Z (hZle 384 hle)
  have hZ384 := liftSize_le Zout hmem
  -- the columns not used for information are filler
  have hK : Kprime ≤ if BG = 1 then Zout * 22 else Zout * 10 := by
    calc Kprime ≤ Kb * Z := hleZ
      _ ≤ (if BG = 1 then 22 else 10) * Zout := Nat.mul_le_mul hKb hZZ
      _ = if BG = 1 then Zout * 22 else Zout * 10 := by split <;> omega
  simp only [heq, Option.map_some]
  refine ⟨_, rfl, rfl, rfl, rfl, ?_, hmem⟩
  split at hK <;> simp_all only [if_true, if_false] <;> omega

lemma infoColumns_spec (BG B : Nat) {Kprime : Nat} (hmax : Kprime ≤ maxCodeBlock BG)
    (hB : Kprime ≤ B ∨ 640 < B) :
    0 < infoColumns BG B ∧ (infoColumns BG B ≤ if BG = 1 then 22 else 10) ∧
      Kprime ≤ 384 * infoColumns BG B := by
  rw [maxCodeBlock] at hmax
  rw [infoColumns]
  by_cases hBG : BG = 1
  · simp only [if_pos hBG] at hmax ⊢
    omega
  · simp only [if_neg hBG] at hmax ⊢
    repeat' split
    all_goals omega

theorem segmentSizes_one {B BG : Nat} (hB : B ≤ maxCodeBlock BG) :
    ∃ seg, segmentSizes B BG = some seg ∧ seg.C = 1 ∧ seg.L = 0 ∧ seg.Kprime = B ∧
      seg.K = seg.Kprime + seg.F ∧ seg.Z ∈ liftSize := by
  obtain ⟨hpos, hKb, hle⟩ := infoColumns_spec BG B hB (.inl (le_refl B))
  rw [segmentSizes]
  simp only [if_pos hB, Nat.div_one]
  exact segmentsOf_spec hpos hKb hle

lemma segmentCount_eq {limit B c : Nat} (hlow : limit * (c - 1) < B) (hhigh : B ≤ limit * c) :
    segmentCount limit B = c := by
  obtain ⟨c, rfl⟩ : ∃ c', c = c' + 1 := ⟨c - 1, by
    cases c with
    | zero => rw [Nat.mul_zero] at hhigh; omega
    | succ c => rfl⟩
  rw [Nat.add_sub_cancel] at hlow
  rw [Nat.mul_succ] at hhigh
  have hlimit : 0 < limit := by omega
  rw [segmentCount]
  by_cases hfull : B = limit * c + limit
  · rw [hfull, ← Nat.mul_succ, Nat.mul_div_cancel_left _ hlimit, if_neg (lt_irrefl _)]
  · have hdiv : B / limit = c :=
      Nat.div_eq_of_lt_le (by rw [Nat.mul_comm]; omega) (by rw [Nat.succ_mul, Nat.mul_comm]; omega)
    rw [hdiv, if_pos hlow]

theorem segmentSizes_many {B BG c q : Nat} (hB : maxCodeBlock BG < B) (heq : B = 8 * c * q)
    (hlow : (maxCodeBlock BG - 24) * (c - 1) < B) (hq : 8 * q ≤ maxCodeBlock BG - 24) :
    ∃ seg, segmentSizes B BG = some seg ∧ seg.C = c ∧ seg.L = 24 ∧ seg.Kprime = 8 * q + 24 ∧
      seg.K = seg.Kprime + seg.F ∧ seg.Z ∈ liftSize := by
  have hmul : B = c * (8 * q) := by rw [heq, Nat.mul_comm 8 c, Nat.mul_assoc]
  have hc : 0 < c := by
    rcases Nat.eq_zero_or_pos c with rfl | hc
    · rw [Nat.zero_mul] at hmul
      omega
    · exact hc
  have hhigh : B ≤ (maxCodeBlock BG - 24) * c := by
    rw [hmul, Nat.mul_comm c]
    exact Nat.mul_le_mul_right c hq
  have hKprime : (B + c * 24) / c = 8 * q + 24 := by
    rw [hmul, ← Nat.mul_add, Nat.mul_div_cancel_left _ hc]
  have hmin : 3840 ≤ maxCodeBlock BG := by
    rw [maxCodeBlock]
    split <;> omega
  obtain ⟨hpos, hKb, hle⟩ :=
    infoColumns_spec BG B (by omega : 8 * q + 24 ≤ maxCodeBlock BG) (.inr (by omega))
  rw [segmentSizes]
  simp only [if_neg (not_le.mpr hB), segmentCount_eq hlow hhigh, hKprime]
  exact segmentsOf_spec hpos hKb hle

/-! ## The MAC's sizes fit -/

lemma getBG_large {A R : Nat} (hA : nrMaxPdschTbs < A) :
    getBG A R = if R ≤ 2560 then 2 else 1 := by
  rw [nrMaxPdschTbs] at hA
  rw [getBG, nrMaxPdschTbs]
  by_cases hR : R ≤ 2560
  · rw [if_pos (.inr (.inr (by omega))), if_pos hR]
  · rw [if_neg (by omega), if_neg hR]

lemma segmentedTbs_parts {m npInfo : Nat} (hm : 0 < m) (hnp : 3840 ≤ npInfo) :
    ∃ c q, segmentedTbs (8 * m) npInfo + 24 = 8 * c * q ∧ q ≤ m ∧
      8 * m * (c - 1) < segmentedTbs (8 * m) npInfo + 24 ∧
      npInfo ≤ segmentedTbs (8 * m) npInfo := by
  obtain ⟨c, q, hc, heq, hpos, hle, hq⟩ := segmentedTbs_spec (8 * m) (by omega) hnp
  refine ⟨c, q, heq, ?_, ?_, by omega⟩
  · rw [hq, ceilidiv_le_iff (by omega)]
    calc npInfo + 24 ≤ 8 * m * c := by rw [hc]; exact le_mul_ceilidiv _ (by omega)
      _ = 8 * c * m := Nat.mul_right_comm 8 m c
  · refine lt_of_lt_of_le (lt_of_not_ge fun hge => ?_) (heq ▸ hle)
    have := (ceilidiv_le_iff (by omega : 0 < 8 * m)).mpr hge
    omega

/-- The bits of the transport block's CRC. -/
def tbCrcBits (A : Nat) : Nat := if A > 3824 then 24 else 16

/-- A segmentation without loss: the segments without their CRC are the block, in whole bytes, and
filler completes each to the size of the code. -/
structure Segments.Exact (seg : Segments) (B : Nat) : Prop where
  crc : seg.L = if seg.C > 1 then 24 else 0
  fits : seg.L ≤ seg.Kprime
  total : seg.C * (seg.Kprime - seg.L) = B
  bytes : (seg.Kprime - seg.L) % 8 = 0
  filler : seg.K = seg.Kprime + seg.F
  lifting : seg.Z ∈ liftSize

lemma segmentSizes_one_exact {B BG : Nat} (hB : B ≤ maxCodeBlock BG) (hbytes : B % 8 = 0) :
    ∃ seg, segmentSizes B BG = some seg ∧ seg.Exact B := by
  obtain ⟨seg, heq, hC, hL, hKprime, hK, hZ⟩ := segmentSizes_one hB
  refine ⟨seg, heq, ?_, by omega, ?_, by rw [hKprime, hL]; exact hbytes, hK, hZ⟩
  · rw [hC, hL, if_neg (by decide)]
  · rw [hC, hL, hKprime, Nat.one_mul, Nat.sub_zero]

lemma segmentSizes_many_exact {A BG m npInfo : Nat} (hm : 8 * m = maxCodeBlock BG - 24)
    (hA : A = segmentedTbs (8 * m) npInfo) (hnp : 3840 ≤ npInfo)
    (hB : maxCodeBlock BG < A + 24) :
    ∃ seg, segmentSizes (A + 24) BG = some seg ∧ seg.Exact (A + 24) := by
  have hmin : 3840 ≤ maxCodeBlock BG := by
    rw [maxCodeBlock]
    split <;> omega
  obtain ⟨c, q, hparts, hq, hlow, -⟩ := segmentedTbs_parts (by omega : 0 < m) hnp
  rw [← hA] at hparts hlow
  obtain ⟨seg, heq, hC, hL, hKprime, hK, hZ⟩ :=
    segmentSizes_many hB hparts (by rw [← hm]; exact hlow) (by omega)
  -- one part would not be more than a code block
  have hc : 1 < c := by
    by_contra hc
    have : 8 * c * q ≤ 8 * 1 * m := Nat.mul_le_mul (Nat.mul_le_mul_left 8 (by omega)) hq
    omega
  refine ⟨seg, heq, ?_, by omega, ?_, by omega, hK, hZ⟩
  · rw [hC, hL, if_pos hc]
  · rw [hC, hL, hKprime, Nat.add_sub_cancel, hparts, Nat.mul_comm 8 c, Nat.mul_assoc]

theorem segmentSizes_tbs (R ninfo : Nat) :
    let A := tbsOfInfo R ninfo
    ∃ seg, segmentSizes (A + tbCrcBits A) (getBG A R) = some seg ∧
      seg.Exact (A + tbCrcBits A) := by
  intro A
  by_cases h : ninfo ≤ nrMaxPdschTbs
  · -- a table entry: one segment with either base graph
    obtain ⟨-, hle, hbytes⟩ := tbstableNr_entries _ (tbsOfInfo_small R h)
    have hcrc : tbCrcBits A = 16 := if_neg (not_lt.mpr hle)
    have hmin : 3840 ≤ maxCodeBlock (getBG A R) := by
      rw [maxCodeBlock]
      split <;> omega
    exact segmentSizes_one_exact (by omega) (by omega)
  · obtain ⟨npInfo, hnp, hle, hcases⟩ := tbsOfInfo_large R h
    have hcrc : tbCrcBits A = 24 := if_pos (by omega)
    rw [hcrc, getBG_large (by rw [nrMaxPdschTbs]; omega)]
    rcases hcases with ⟨hR, hA⟩ | ⟨hR, hbig, hA⟩ | ⟨hR, hsmall, hA⟩
    · rw [if_pos hR]
      have hmax : maxCodeBlock 2 = 3840 := rfl
      exact segmentSizes_many_exact (m := 477) (by omega) hA hnp (by omega)
    · rw [if_neg (by omega)]
      have hmax : maxCodeBlock 1 = 8448 := rfl
      exact segmentSizes_many_exact (m := 1053) (by omega) hA hnp (by omega)
    · rw [if_neg (by omega)]
      have hmax : maxCodeBlock 1 = 8448 := rfl
      have hceil : ceilidiv (npInfo + 24) 8 ≤ 1056 := (ceilidiv_le_iff (by decide)).mpr (by omega)
      exact segmentSizes_one_exact (by omega) (by omega)

/-- **Segmentation is exact for every size there is**: with the base graph for the block,
`nr_segmentation` never fails, its segments are equal, in whole bytes and without a remainder,
completed by filler to a lifting size, and their payloads are the input. -/
theorem nr_segmentation_exact (crc24b : Buffer → Nat → UInt32) (input : Buffer)
    (outputs : Nat → Buffer) (Qm R nbRb nbSymbSch nbDmrsPrb nbRbOh tbScaling Nl : Nat) :
    let A := nrComputeTbs Qm R nbRb nbSymbSch nbDmrsPrb nbRbOh tbScaling Nl
    let B := A + if A > 3824 then 24 else 16
    ∃ seg out, nrSegmentation crc24b input outputs B (getBG A R) = some (seg, out) ∧
      let L := if seg.C > 1 then 24 else 0
      L ≤ seg.Kprime ∧ seg.C * (seg.Kprime - L) = B ∧ (seg.Kprime - L) % 8 = 0 ∧
      seg.K = seg.Kprime + seg.F ∧ seg.Z ∈ liftSize ∧ seg.Z ≤ 384 ∧
      (List.range seg.C).flatMap (fun r => (List.range ((seg.Kprime - L) / 8)).map (out r)) =
        (List.range (B / 8)).map input := by
  intro A B
  obtain ⟨seg, heq, hexact⟩ :=
    segmentSizes_tbs R (infoBits Qm R nbRb nbSymbSch nbDmrsPrb nbRbOh tbScaling Nl)
  change segmentSizes B (getBG A R) = some seg at heq
  change seg.Exact B at hexact
  refine ⟨seg, ((List.range seg.C).foldl (segmentRound crc24b seg input) (0, outputs)).2,
    by rw [nrSegmentation, heq]; rfl, ?_⟩
  have hbytes : seg.C * ((seg.Kprime - seg.L) / 8) = B / 8 := by
    rw [← hexact.total, Nat.mul_div_assoc _ (Nat.dvd_of_mod_eq_zero hexact.bytes)]
  simp only [← hexact.crc, ← hbytes]
  exact ⟨hexact.fits, hexact.total, hexact.bytes, hexact.filler, hexact.lifting,
    liftSize_le _ hexact.lifting, (segmentRounds_payload crc24b seg input outputs seg.C).2⟩

/-- A block that does not fit into one code block. -/
example : (segmentSizes (nrComputeTbs 6 6660 50 12 12 0 0 2 + 24) 1).map
    (fun seg => (seg.C, seg.K, seg.Z, seg.F)) = some (7, 7744, 352, 400) := by decide +kernel

end NrStack.Phy
