/-
  Downlink control information: what gNB and UE share.

  A DCI travels as ONE word of at most 64 bits.  The gNB ORs the fields of `dci_pdu_rel15_t` in from the
  top, the UE takes them out from the top (`readBits`), `nr_dci_size` gives both the widths.  The gNB writes

  - FIELD by field (`Payload.field`), twice without the cast to 64 bits (`field32`, `fieldInt`);
  - BIT by bit, with `pos` one ahead (`Payload.bits`).

  `Written` says of either that the word so far is the packed list of the fields so far.
-/
import Mathlib
import NrStack.Lib.PackedWord

namespace NrStack.Dci

open PackedWord List

/-! ## Data -/

/-- `dci_field_t`: a field of variable width. -/
structure DciField where
  val : Nat
  nbits : Nat
  deriving DecidableEq, Repr

/-- `dci_pdu_rel15_t`, the fields of formats 0_0, 0_1, 1_0 and 1_1. -/
structure DciPdu where
  formatIndicator : Nat
  raPreambleIndex : Nat
  ssPbchIndex : Nat
  prachMaskIndex : Nat
  mcs : Nat
  ndi : Nat
  rv : Nat
  harqPid : DciField
  tpc : Nat
  shortMessagesIndicator : Nat
  shortMessages : Nat
  tbScaling : Nat
  pucchResourceIndicator : Nat
  systemInfoIndicator : Nat
  ulschIndicator : Nat
  padding : Nat
  mcs2 : DciField
  ndi2 : DciField
  rv2 : DciField
  frequencyDomainAssignment : DciField
  timeDomainAssignment : DciField
  frequencyHoppingFlag : DciField
  vrbToPrbMapping : DciField
  dai0 : DciField
  dai1 : DciField
  pdschToHarqFeedbackTimingIndicator : DciField
  carrierIndicator : DciField
  bwpIndicator : DciField
  prbBundlingSizeIndicator : DciField
  rateMatchingIndicator : DciField
  zpCsiRsTrigger : DciField
  transmissionConfigurationIndication : DciField
  srsRequest : DciField
  cbgti : DciField
  cbgfi : DciField
  srsResourceIndicator : DciField
  precodingInformation : DciField
  csiRequest : DciField
  ptrsDmrsAssociation : DciField
  betaOffsetIndicator : DciField
  ulSulIndicator : DciField
  antennaPorts : DciField
  dmrsSequenceInitialization : DciField
  deriving DecidableEq, Repr

/-- The field that `memset` leaves. -/
def DciField.zero : DciField := ⟨0, 0⟩

/-- The PDU that `memset` leaves. -/
def DciPdu.zero : DciPdu where
  formatIndicator := 0
  raPreambleIndex := 0
  ssPbchIndex := 0
  prachMaskIndex := 0
  mcs := 0
  ndi := 0
  rv := 0
  harqPid := .zero
  tpc := 0
  shortMessagesIndicator := 0
  shortMessages := 0
  tbScaling := 0
  pucchResourceIndicator := 0
  systemInfoIndicator := 0
  ulschIndicator := 0
  padding := 0
  mcs2 := .zero
  ndi2 := .zero
  rv2 := .zero
  frequencyDomainAssignment := .zero
  timeDomainAssignment := .zero
  frequencyHoppingFlag := .zero
  vrbToPrbMapping := .zero
  dai0 := .zero
  dai1 := .zero
  pdschToHarqFeedbackTimingIndicator := .zero
  carrierIndicator := .zero
  bwpIndicator := .zero
  prbBundlingSizeIndicator := .zero
  rateMatchingIndicator := .zero
  zpCsiRsTrigger := .zero
  transmissionConfigurationIndication := .zero
  srsRequest := .zero
  cbgti := .zero
  cbgfi := .zero
  srsResourceIndicator := .zero
  precodingInformation := .zero
  csiRequest := .zero
  ptrsDmrsAssociation := .zero
  betaOffsetIndicator := .zero
  ulSulIndicator := .zero
  antennaPorts := .zero
  dmrsSequenceInitialization := .zero

/-- `nr_dci_format_t`, the formats both sides implement. -/
inductive DciFormat where
  | ulDciFormat00 | ulDciFormat01 | dlDciFormat10 | dlDciFormat11
  deriving DecidableEq, Repr

/-- `NR_SearchSpace__searchSpaceType_PR`. -/
inductive SsType where
  | common | ueSpecific
  deriving DecidableEq, Repr

/-- The size of a bandwidth part in resource blocks (`getRBGSize` refuses 276 and above). -/
abbrev BwpSize := { n : Nat // 0 < n ∧ n < 276 }

/-! ## Widths -/

/-- `(int)ceil(log2(x))`, exact. -/
def ceilLog2 (x : Nat) : Nat := if x ≤ 1 then 0 else (x - 1).log2 + 1

/-- The width of a resource indication value, `(int)ceil(log2((N_RB * (N_RB + 1)) >> 1))`. -/
def rivBits (nRB : Nat) : Nat := ceilLog2 ((nRB * (nRB + 1)) >>> 1)

/-- `get_rb_bwp_dci` -/
def getRbBwpDci (format : DciFormat) (ssType : SsType)
    (cset0BwpSize ulBwpSize dlBwpSize initialUlBwpSize initialDlBwpSize : Nat) : Nat :=
  match format with
  | .ulDciFormat00 => if ssType = .common then initialUlBwpSize else ulBwpSize
  | .ulDciFormat01 => ulBwpSize
  | .dlDciFormat10 =>
    if ssType = .common then
      (if cset0BwpSize ≠ 0 then cset0BwpSize else initialDlBwpSize)
    else dlBwpSize
  | .dlDciFormat11 => dlBwpSize

theorem ceilLog2_le_iff {x : Nat} (hx : 0 < x) (k : Nat) : ceilLog2 x ≤ k ↔ x ≤ 2 ^ k := by
  unfold ceilLog2
  split
  · next h =>
    have hpow : 1 ≤ 2 ^ k := Nat.one_le_two_pow
    exact ⟨fun _ => by omega, fun _ => Nat.zero_le k⟩
  · next h =>
    have hne : x - 1 ≠ 0 := by omega
    rw [Nat.succ_le_iff, Nat.log2_lt hne]
    omega

lemma rivBits_le {n : Nat} (h : n < 276) : rivBits n ≤ 16 := by
  rcases Nat.eq_zero_or_pos n with rfl | hn
  · decide
  · have hmono : n * (n + 1) ≤ 275 * 276 := Nat.mul_le_mul (by omega) (by omega)
    have hpos : 1 * 2 ≤ n * (n + 1) := Nat.mul_le_mul hn (by omega)
    unfold rivBits
    rw [ceilLog2_le_iff (by rw [Nat.shiftRight_eq_div_pow]; omega), Nat.shiftRight_eq_div_pow]
    omega

/-! ## The gNB's writer -/

/-- The word under construction and the writer's position, counted from the top. -/
structure Payload where
  word : Nat
  pos : Nat
  deriving DecidableEq, Repr

namespace Payload

/-- `pos += w; *dci_pdu |= ((uint64_t)val & ((1 << w) - 1)) << (dci_size - pos)`. -/
def field (size : Nat) (p : Payload) (f : Nat × Nat) : Payload :=
  let pos := p.pos + f.1
  ⟨p.word ||| ((f.2 &&& ((1 <<< f.1) - 1)) <<< (size - pos)) % 18446744073709551616, pos⟩

/-- The same without the cast, on a `uint32_t`: what is shifted above bit 31 is lost. -/
def field32 (size : Nat) (p : Payload) (f : Nat × Nat) : Payload :=
  let pos := p.pos + f.1
  ⟨p.word ||| ((f.2 &&& ((1 <<< f.1) - 1)) <<< (size - pos)) % 4294967296, pos⟩

/-- The same without the cast, on a `uint8_t`: the shift is one of `int`, and a result with bit 31 set
is negative, so that the OR fills the upper half. -/
def fieldInt (size : Nat) (p : Payload) (f : Nat × Nat) : Payload :=
  let pos := p.pos + f.1
  let shifted := ((f.2 &&& ((1 <<< f.1) - 1)) <<< (size - pos)) % 4294967296
  ⟨p.word ||| (if shifted < 2147483648 then shifted else shifted + 18446744069414584320), pos⟩

/-- `*dci_pdu |= ((uint64_t)val & 1) << (dci_size - pos++)`. -/
def bit (size : Nat) (p : Payload) (val : Nat) : Payload :=
  ⟨p.word ||| ((val &&& 1) <<< (size - p.pos)) % 18446744073709551616, p.pos + 1⟩

/-- The loop over the bits of a field, the highest first. -/
def bits (size : Nat) (p : Payload) (f : Nat × Nat) : Payload :=
  (List.range f.1).foldl (fun p i => p.bit size (f.2 >>> (f.1 - i - 1))) p

/-- The loop over the padding bits, `for (int a = pos; a < dci_size; a++)`. -/
def pad (size : Nat) (p : Payload) (padding : Nat) : Payload :=
  (List.range (size - p.pos)).foldl (fun p _ => p.bit size padding) p

end Payload

/-- **The word so far is the list of fields so far**, in the top bits of `size`.  The writer by bits
keeps its position one ahead. -/
structure Written (size ahead : Nat) (fs : List (Nat × Nat)) (p : Payload) : Prop where
  pos : p.pos = width fs + ahead
  word : p.word = pack fs * 2 ^ (size - width fs)
  fits : Fits fs
  room : width fs ≤ size

lemma and_mask (v w : Nat) : v &&& ((1 <<< w) - 1) = v % 2 ^ w := by
  rw [Nat.one_shiftLeft, Nat.and_two_pow_sub_one_eq_mod]

lemma written_start (size ahead : Nat) : Written size ahead [] ⟨0, ahead⟩ :=
  ⟨(Nat.zero_add ahead).symm, (Nat.zero_mul _).symm, fits_nil, Nat.zero_le size⟩

section Writing

variable {size ahead : Nat} {fs : List (Nat × Nat)} {p : Payload}

lemma Written.foldl {put : Payload → Nat × Nat → Payload} (h : Written size ahead fs p)
    (hput : ∀ {fs p} (g : Nat × Nat), Written size ahead fs p → g.2 < 2 ^ g.1 → width fs + g.1 ≤ size →
      Written size ahead (fs ++ [g]) (put p g)) (gs : List (Nat × Nat)) (hgs : Fits gs)
    (hroom : width fs + width gs ≤ size) : Written size ahead (fs ++ gs) (gs.foldl put p) := by
  induction gs generalizing fs p with
  | nil =>
    rw [append_nil]
    exact h
  | cons g gs ih =>
    obtain ⟨hg, hgs⟩ := (fits_cons g gs).mp hgs
    rw [width_cons] at hroom
    have hrest := ih (hput g h hg (by omega)) hgs (by rw [width_concat]; omega)
    rw [append_assoc] at hrest
    exact hrest

lemma Written.append (h : Written size ahead fs p) (f : Nat × Nat) (hf : f.2 < 2 ^ f.1)
    (hroom : width fs + f.1 ≤ size) (hsize : size ≤ 64) :
    p.word ||| (f.2 <<< (size - (width fs + f.1))) % 18446744073709551616 =
      pack (fs ++ [f]) * 2 ^ (size - width (fs ++ [f])) := by
  obtain ⟨w, v⟩ := f
  have hlt : v <<< (size - (width fs + w)) < 2 ^ 64 :=
    lt_of_lt_of_le (Nat.shiftLeft_lt hf) (Nat.pow_le_pow_right (by decide) (by omega))
  have hdrop : size - width fs = w + (size - (width fs + w)) := by omega
  rw [Nat.mod_eq_of_lt (by simpa using hlt), h.word, hdrop, or_append _ _ hf, pack_concat,
    width_concat]

lemma Written.field (h : Written size 0 fs p) (f : Nat × Nat) (hf : f.2 < 2 ^ f.1)
    (hroom : width fs + f.1 ≤ size) (hsize : size ≤ 64) :
    Written size 0 (fs ++ [f]) (p.field size f) := by
  refine ⟨?_, ?_, ?_, ?_⟩
  · show p.pos + f.1 = _
    rw [h.pos, width_concat, Nat.add_zero, Nat.add_zero]
  · show p.word ||| ((f.2 &&& ((1 <<< f.1) - 1)) <<< (size - (p.pos + f.1))) % _ = _
    rw [and_mask, Nat.mod_eq_of_lt hf, h.pos, Nat.add_zero]
    exact h.append f hf hroom hsize
  · exact fits_append.mpr ⟨h.fits, (fits_cons f []).mpr ⟨hf, fits_nil⟩⟩
  · rw [width_concat]
    exact hroom

theorem Written.fields (h : Written size 0 fs p) (gs : List (Nat × Nat)) (hgs : Fits gs)
    (hroom : width fs + width gs ≤ size) (hsize : size ≤ 64) :
    Written size 0 (fs ++ gs) (gs.foldl (Payload.field size) p) :=
  h.foldl (fun g h hg hroom => h.field g hg hroom hsize) gs hgs hroom

lemma written_fields (gs : List (Nat × Nat)) (hgs : Fits gs) (hroom : width gs ≤ size)
    (hsize : size ≤ 64) : Written size 0 gs (gs.foldl (Payload.field size) ⟨0, 0⟩) :=
  (written_start size 0).fields gs hgs (by rw [width_nil, Nat.zero_add]; exact hroom) hsize

lemma pos_foldl_field (size : Nat) (gs : List (Nat × Nat)) (p : Payload) :
    (gs.foldl (Payload.field size) p).pos = p.pos + width gs := by
  induction gs generalizing p with
  | nil => rfl
  | cons g gs ih =>
    rw [foldl_cons, ih, width_cons, ← Nat.add_assoc]
    rfl

lemma Written.congr (h : Written size ahead fs p) {gs : List (Nat × Nat)}
    (hpack : pack fs = pack gs) (hwidth : width fs = width gs) (hfits : Fits gs) :
    Written size ahead gs p :=
  ⟨hwidth ▸ h.pos, hwidth ▸ hpack ▸ h.word, hfits, hwidth ▸ h.room⟩

lemma Written.bit (h : Written size 1 fs p) (v : Nat) (hroom : width fs + 1 ≤ size)
    (hsize : size ≤ 64) : Written size 1 (fs ++ [(1, v % 2)]) (p.bit size v) := by
  have hv : v % 2 < 2 ^ 1 := Nat.mod_lt v (by decide)
  refine ⟨?_, ?_, ?_, ?_⟩
  · show p.pos + 1 = _
    rw [h.pos, width_concat]
  · show p.word ||| ((v &&& 1) <<< (size - p.pos)) % _ = _
    rw [Nat.and_one_is_mod, h.pos]
    exact h.append (1, v % 2) hv hroom hsize
  · exact fits_append.mpr ⟨h.fits, (fits_cons _ []).mpr ⟨hv, fits_nil⟩⟩
  · rw [width_concat]
    exact hroom

lemma pack_halve (fs : List (Nat × Nat)) (i u : Nat) :
    pack (fs ++ [(i, u / 2)] ++ [(1, u % 2)]) = pack (fs ++ [(i + 1, u)]) := by
  rw [pack_concat, pack_concat, pack_concat]
  show (pack fs * 2 ^ i + u / 2) * 2 ^ 1 + u % 2 = pack fs * 2 ^ (i + 1) + u
  rw [pow_one, pow_succ, ← Nat.mul_assoc]
  omega

lemma Written.bits (h : Written size 1 fs p) (f : Nat × Nat) (hf : f.2 < 2 ^ f.1)
    (hroom : width fs + f.1 ≤ size) (hsize : size ≤ 64) :
    Written size 1 (fs ++ [f]) (p.bits size f) := by
  obtain ⟨w, v⟩ := f
  have hupper : ∀ i, i ≤ w → Fits (fs ++ [(i, v >>> (w - i))]) := by
    intro i hi
    refine fits_append.mpr ⟨h.fits, (fits_cons _ []).mpr ⟨?_, fits_nil⟩⟩
    rw [Nat.shiftRight_eq_div_pow, Nat.div_lt_iff_lt_mul (Nat.two_pow_pos _), ← pow_add,
      Nat.add_sub_cancel' hi]
    exact hf
  have hloop : ∀ i, i ≤ w → Written size 1 (fs ++ [(i, v >>> (w - i))])
      ((List.range i).foldl (fun p i => p.bit size (v >>> (w - i - 1))) p) := by
    intro i hi
    induction i with
    | zero =>
      have hzero : v >>> (w - 0) = 0 := by
        rw [Nat.sub_zero, Nat.shiftRight_eq_div_pow, Nat.div_eq_of_lt hf]
      refine h.congr ?_ (width_concat fs (0, v >>> (w - 0))).symm (hupper 0 hi)
      rw [hzero, pack_concat]
      exact (Nat.mul_one _).symm
    | succ i ih =>
      have hhalf : v >>> (w - i) = v >>> (w - i - 1) / 2 := by
        rw [show w - i = w - i - 1 + 1 by omega, Nat.shiftRight_add, Nat.add_sub_cancel]
        rfl
      have hnext := (ih (by omega)).bit (v >>> (w - i - 1))
        (by rw [width_concat]; show width fs + i + 1 ≤ size; omega) hsize
      rw [range_succ, foldl_append, foldl_cons, foldl_nil]
      refine hnext.congr ?_ ?_ (hupper (i + 1) hi)
      · rw [hhalf, pack_halve, Nat.sub_sub]
      · rw [width_concat, width_concat, width_concat]
        exact Nat.add_assoc _ _ _
  have hdone := hloop w (le_refl w)
  rw [Nat.sub_self, Nat.shiftRight_zero] at hdone
  exact hdone

theorem Written.allBits (h : Written size 1 fs p) (gs : List (Nat × Nat)) (hgs : Fits gs)
    (hroom : width fs + width gs ≤ size) (hsize : size ≤ 64) :
    Written size 1 (fs ++ gs) (gs.foldl (Payload.bits size) p) :=
  h.foldl (fun g h hg hroom => h.bits g hg hroom hsize) gs hgs hroom

end Writing

theorem word_pad (size : Nat) (p : Payload) (b : Nat) (hd : size - p.pos < 64) :
    (p.pad size b).word = p.word ||| b % 2 * (2 ^ (size - p.pos + 1) - 2) := by
  obtain ⟨d, hsize⟩ : ∃ d, size - p.pos = d := ⟨_, rfl⟩
  have hloop : ∀ n, n ≤ d → (List.range n).foldl (fun p _ => p.bit size b) p =
      ⟨p.word ||| b % 2 * (2 ^ (d + 1) - 2 ^ (d + 1 - n)), p.pos + n⟩ := by
    intro n hn
    induction n with
    | zero => rw [Nat.sub_zero, Nat.sub_self, Nat.mul_zero, Nat.or_zero]; rfl
    | succ n ih =>
      rw [range_succ, foldl_append, foldl_cons, foldl_nil, ih (by omega)]
      show Payload.mk (p.word ||| b % 2 * (2 ^ (d + 1) - 2 ^ (d + 1 - n)) |||
        ((b &&& 1) <<< (size - (p.pos + n))) % 18446744073709551616) (p.pos + n + 1) = _
      have hshift : size - (p.pos + n) = d - n := by omega
      have hbit : (b % 2) <<< (d - n) < 18446744073709551616 := by
        rw [Nat.shiftLeft_eq]
        calc b % 2 * 2 ^ (d - n) ≤ 1 * 2 ^ 63 :=
              Nat.mul_le_mul (by omega) (Nat.pow_le_pow_right (by decide) (by omega))
          _ < 18446744073709551616 := by decide
      -- the bits set so far are the ones above, so one more is an append
      have hones : 2 ^ (d + 1) - 2 ^ (d + 1 - n) = (2 ^ n - 1) * 2 ^ (1 + (d - n)) := by
        rw [show 1 + (d - n) = d + 1 - n by omega, Nat.sub_mul, ← pow_add, Nat.one_mul,
          Nat.add_sub_cancel' (by omega : n ≤ d + 1)]
      have hmore : 2 ^ (d + 1) - 2 ^ (d + 1 - (n + 1)) = ((2 ^ n - 1) * 2 ^ 1 + 1) * 2 ^ (d - n) := by
        have hpow : 1 ≤ 2 ^ n := Nat.one_le_two_pow
        rw [show d + 1 - (n + 1) = d - n by omega, show d + 1 = n + 1 + (d - n) by omega, pow_add,
          ← Nat.sub_one_mul, pow_succ]
        congr 1
        omega
      rw [Nat.and_one_is_mod, hshift, Nat.mod_eq_of_lt hbit, Nat.or_assoc, hmore, hones]
      rcases Nat.mod_two_eq_zero_or_one b with hb | hb
      · rw [hb, Nat.zero_mul, Nat.zero_mul, Nat.zero_shiftLeft, Nat.or_zero, Nat.add_assoc]
      · rw [hb, Nat.one_mul, Nat.one_mul, or_append _ _ (by decide), Nat.add_assoc]
  have hdone := hloop d (le_refl d)
  rw [Nat.add_sub_cancel_left, pow_one] at hdone
  unfold Payload.pad
  rw [hsize, hdone]

variable {size w v : Nat} {fs : List (Nat × Nat)}

lemma Written.word_pad {p : Payload} (h : Written size 0 (fs ++ [(w, v)]) p) (hw : 0 < w)
    (hsize : size ≤ 63) (b : Nat) (hleft : 0 < size - width (fs ++ [(w, v)])) :
    (p.pad size b).word = pack (fs ++ [(w, v ||| b % 2)]) * 2 ^ (size - width (fs ++ [(w, v)])) +
      b % 2 * (2 ^ (size - width (fs ++ [(w, v)])) - 2) := by
  have hv : v < 2 ^ w := ((fits_cons _ _).mp (fits_append.mp h.fits).2).1
  have hpos : p.pos = width (fs ++ [(w, v)]) := h.pos
  rw [Dci.word_pad size p b (by omega), h.word, hpos]
  generalize size - width (fs ++ [(w, v)]) = n at hleft ⊢
  rcases Nat.mod_two_eq_zero_or_one b with hb | hb
  · rw [hb, Nat.zero_mul, Nat.zero_mul, Nat.or_zero, Nat.or_zero, Nat.add_zero]
  · have htwo : 2 ≤ 2 ^ n := Nat.le_self_pow hleft.ne' 2
    have hones : 2 ^ (n + 1) - 2 = 1 * 2 ^ n + (2 ^ n - 2) := by
      omega
    rw [hb, Nat.one_mul, Nat.one_mul, hones, or_overlap _ _ (by omega),
      pack_concat_or fs hv (Nat.one_lt_two_pow hw.ne')]

/-! ## The shifts that are not 64 bits wide -/

lemma field32_eq (size : Nat) (p : Payload) (hv : v < 2 ^ w) (hs : size - (p.pos + w) ≤ 32) :
    p.field32 size (w, v) = p.field size (w, v % 2 ^ (32 - (size - (p.pos + w)))) := by
  show Payload.mk _ _ = Payload.mk _ _
  generalize size - (p.pos + w) = s at hs ⊢
  have hlow : v % 2 ^ (32 - s) < 2 ^ w := lt_of_le_of_lt (Nat.mod_le _ _) hv
  have hcut : v <<< s % 4294967296 = (v % 2 ^ (32 - s)) <<< s := by
    rw [Nat.shiftLeft_eq, Nat.shiftLeft_eq, show 4294967296 = 2 ^ (32 - s) * 2 ^ s by
      rw [← pow_add, Nat.sub_add_cancel hs]; norm_num, Nat.mul_mod_mul_right]
  have hlt : (v % 2 ^ (32 - s)) <<< s < 18446744073709551616 := by
    rw [← hcut]
    exact lt_trans (Nat.mod_lt _ (by decide)) (by decide)
  rw [and_mask, and_mask, Nat.mod_eq_of_lt hv, Nat.mod_eq_of_lt hlow, hcut, Nat.mod_eq_of_lt hlt]

lemma fieldInt_eq (size : Nat) (p : Payload) (hv : v < 2 ^ w)
    (h : (v <<< (size - (p.pos + w))) % 4294967296 < 2147483648) :
    p.fieldInt size (w, v) = p.field32 size (w, v) := by
  have hmask : v &&& ((1 <<< w) - 1) = v := by rw [and_mask, Nat.mod_eq_of_lt hv]
  simp only [Payload.fieldInt, Payload.field32, hmask, if_pos h]

lemma fieldInt_word_ge (size : Nat) (p : Payload) (hv : v < 2 ^ w)
    (h : ¬(v <<< (size - (p.pos + w))) % 4294967296 < 2147483648) :
    2 ^ 63 ≤ (p.fieldInt size (w, v)).word := by
  show _ ≤ _ ||| if ((v &&& ((1 <<< w) - 1)) <<< _) % _ < _ then _ else _
  rw [and_mask, Nat.mod_eq_of_lt hv, if_neg h]
  refine le_trans ?_ Nat.right_le_or
  omega

section Narrow

variable {size : Nat} {fs : List (Nat × Nat)} {p : Payload}

section

variable (h : Written size 0 fs p)
include h

lemma Written.field32_cut {w v : Nat} (hv : v < 2 ^ w)
    (hroom : width fs + w ≤ size) (hsize : size ≤ 64) (hs : size - (width fs + w) ≤ 32) :
    Written size 0 (fs ++ [(w, v % 2 ^ (32 - (size - (width fs + w))))]) (p.field32 size (w, v)) := by
  have hpos : p.pos + w = width fs + w := by rw [h.pos, Nat.add_zero]
  rw [field32_eq size p hv (by rw [hpos]; exact hs), hpos]
  exact h.field _ (lt_of_le_of_lt (Nat.mod_le _ _) hv) hroom hsize

lemma Written.field32 (f : Nat × Nat) (hf : f.2 < 2 ^ f.1)
    (hroom : width fs + f.1 ≤ size) (hs : size - width fs ≤ 32) (hsize : size ≤ 64) :
    Written size 0 (fs ++ [f]) (p.field32 size f) := by
  have hcut := h.field32_cut hf hroom hsize (by omega)
  rw [Nat.mod_eq_of_lt (lt_of_lt_of_le hf (Nat.pow_le_pow_right (by decide) (by omega)))] at hcut
  exact hcut

lemma Written.fieldInt_cut {w v : Nat} (hv : v < 2 ^ w)
    (hroom : width fs + w ≤ size) (hsize : size ≤ 64) (hs : size - (width fs + w) ≤ 32)
    (hsign : (v <<< (size - (width fs + w))) % 4294967296 < 2147483648) :
    Written size 0 (fs ++ [(w, v % 2 ^ (32 - (size - (width fs + w))))]) (p.fieldInt size (w, v)) := by
  rw [fieldInt_eq size p hv (by rw [h.pos, Nat.add_zero]; exact hsign)]
  exact h.field32_cut hv hroom hsize hs

lemma Written.fieldInt (f : Nat × Nat) (hf : f.2 < 2 ^ f.1)
    (hroom : width fs + f.1 ≤ size) (hs : size - width fs ≤ 31) (hsize : size ≤ 64) :
    Written size 0 (fs ++ [f]) (p.fieldInt size f) := by
  obtain ⟨w, v⟩ := f
  have hlt : v <<< (size - (width fs + w)) < 2 ^ 31 :=
    lt_of_lt_of_le (Nat.shiftLeft_lt hf) (Nat.pow_le_pow_right (by decide) (by omega))
  rw [fieldInt_eq size p hf (by
    rw [h.pos, Nat.add_zero]
    exact lt_of_le_of_lt (Nat.mod_le _ _) hlt)]
  exact h.field32 (w, v) hf hroom (by omega) hsize

end

end Narrow

/-! ## The UE's reader -/

/-- `readBits`: the value, and the position after it. -/
def readBits (dci : Nat) (start : Int) (length : Nat) : Nat × Int :=
  let start := start - length
  ((dci >>> start.toNat) &&& ((1 <<< length) - 1), start)

lemma readBits_eq (dci : Nat) (start : Int) (length : Nat) :
    readBits dci start length = ((dci >>> (start - length).toNat) % 2 ^ length, start - length) := by
  show ((dci >>> (start - length).toNat) &&& ((1 <<< length) - 1), start - (length : Int)) = _
  rw [and_mask]

lemma readBits_of_carries {word : Nat} (h : Carries size ((w, v) :: fs) word) :
    readBits word size w = (v, (size : Int) - w) ∧ Holds word ((size : Int) - w) fs := by
  obtain ⟨hfirst, hrest⟩ := h.holds
  rw [readBits_eq]
  exact ⟨Prod.ext hfirst rfl, hrest⟩

lemma Written.carries {ahead : Nat} {p : Payload} (h : Written size ahead fs p) :
    Carries size fs p.word :=
  ⟨h.fits, h.room, 0, Nat.two_pow_pos _, by rw [Nat.add_zero]; exact h.word⟩

end NrStack.Dci
