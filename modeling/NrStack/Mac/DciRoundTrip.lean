/-
  What the UE reads of a fallback DCI.

  Each format is a LAYOUT, the list of fields the extractor of its RNTI type takes.

  - WRITER   the payload carries the layout of `sent c k d` (`carries_fill`), except a PRACH order whose
             preamble index is shifted into the sign of an `int`;
  - READER   a layout that is carried comes back (`ueReceive_of_carries`);
  - SLIPS    `sent c k d` and `d` have the same layout exactly when `Survives c k d`.
-/
import NrStack.Mac.DciFallback

namespace NrStack.Dci

open PackedWord

/-! ## Layouts -/

/-- The fields of a PDCCH order. -/
def orderFields (d : DciPdu) : List (Nat × Nat) :=
  [(6, d.raPreambleIndex), (1, d.ulSulIndicator.val), (6, d.ssPbchIndex), (4, d.prachMaskIndex)]

/-- The fields of a downlink assignment. -/
def assignmentFields (d : DciPdu) : List (Nat × Nat) :=
  [(4, d.timeDomainAssignment.val), (1, d.vrbToPrbMapping.val), (5, d.mcs), (1, d.ndi), (2, d.rv),
    (4, d.harqPid.val), (2, d.dai0.val), (2, d.tpc), (3, d.pucchResourceIndicator),
    (3, d.pdschToHarqFeedbackTimingIndicator.val)]

/-- The fields of an uplink grant that every RNTI has. -/
def grantHead (c : FallbackConfig) (d : DciPdu) : List (Nat × Nat) :=
  [(1, d.formatIndicator), (fda00 c, d.frequencyDomainAssignment.val),
    (4, d.timeDomainAssignment.val), (1, d.frequencyHoppingFlag.val), (5, d.mcs), (1, d.ndi),
    (2, d.rv)]

/-- The fields of an uplink grant with a HARQ process. -/
def grantFields (c : FallbackConfig) (d : DciPdu) : List (Nat × Nat) :=
  grantHead c d ++ [(4, d.harqPid.val)]

/-- The fields that the extractor reads, first to last, each with its width. -/
def Fallback.layout (c : FallbackConfig) : Fallback → DciPdu → List (Nat × Nat)
  | .ra10, d =>
    [(fda10 c, d.frequencyDomainAssignment.val), (4, d.timeDomainAssignment.val),
      (1, d.vrbToPrbMapping.val), (5, d.mcs), (2, d.tbScaling)]
  | .si10, d =>
    [(fda10 c, d.frequencyDomainAssignment.val), (4, d.timeDomainAssignment.val),
      (1, d.vrbToPrbMapping.val), (5, d.mcs), (2, d.rv), (1, d.systemInfoIndicator)]
  | .c10, d =>
    (1, d.formatIndicator) :: (fda10 c, d.frequencyDomainAssignment.val) ::
      if allOnes (fda10 c) d.frequencyDomainAssignment.val then orderFields d
      else assignmentFields d
  | .tc10, d =>
    (1, d.formatIndicator) :: (fda10 c, d.frequencyDomainAssignment.val) :: assignmentFields d
  | .c00, d | .tc00, d => grantFields c d ++ [(2, d.tpc)]

/-- An assignment of field values: each fits its width, and the identifier is that of the format. -/
structure FieldsFit (c : FallbackConfig) (k : Fallback) (d : DciPdu) : Prop where
  fits : Fits (k.layout c d)
  indicator : k.rnti = .cRnti ∨ k.rnti = .tcRnti → d.formatIndicator = k.indicator

/-- The padding of 1_0. -/
def pad10 (c : FallbackConfig) : Nat := commonSize c - (28 + fda10 c)

/-- The padding of 0_0. -/
def pad00 (c : FallbackConfig) : Nat := commonSize c - (20 + fda00 c)

section

variable (c : FallbackConfig)
include c

lemma commonSize_eq_pad10 : commonSize c = 28 + fda10 c + pad10 c := by
  have : 28 + fda10 c ≤ commonSize c := le_max_left _ _
  unfold pad10
  omega

lemma commonSize_eq_pad00 : commonSize c = 20 + fda00 c + pad00 c := by
  have : 20 + fda00 c ≤ commonSize c := le_max_right _ _
  unfold pad00
  omega

lemma commonSize_le : commonSize c ≤ 44 := by
  have h10 := fda10_le c
  have h00 := fda00_le c
  exact max_le (by omega) (by omega)

lemma pad10_le : pad10 c ≤ 8 := by
  have h00 := fda00_le c
  have hmax : commonSize c ≤ 36 + fda10 c := max_le (by omega) (by omega)
  unfold pad10
  omega

end

/-- The PDU with another preamble. -/
def DciPdu.withPreamble (d : DciPdu) (v : Nat) : DciPdu := { d with raPreambleIndex := v }

/-- The PDU with another time domain assignment. -/
def DciPdu.withTda (d : DciPdu) (v : Nat) : DciPdu := { d with timeDomainAssignment.val := v }

/-- The PDU with another TPC command. -/
def DciPdu.withTpc (d : DciPdu) (v : Nat) : DciPdu := { d with tpc := v }

/-- The PDU with another HARQ process. -/
def DciPdu.withHarqPid (d : DciPdu) (v : Nat) : DciPdu := { d with harqPid.val := v }

/-- The PDU as the UE gets to see it. -/
def sent (c : FallbackConfig) (k : Fallback) (d : DciPdu) : DciPdu :=
  match k with
  | .c10 =>
    if allOnes (fda10 c) d.frequencyDomainAssignment.val then
      d.withPreamble (d.raPreambleIndex % 2 ^ (11 - pad10 c))
    else d.withTda (d.timeDomainAssignment.val % 2 ^ (9 - pad10 c))
  | .c00 => if pad00 c = 0 then d else d.withTpc (d.tpc ||| d.padding % 2)
  | .tc00 =>
    (d.withHarqPid (d.harqPid.val ||| d.padding % 2)).withTpc
      (d.padding % 2 * (if pad00 c = 0 then 2 else 3))
  | .ra10 | .si10 | .tc10 => d

/-- **The condition**: the three slips of the writer do no harm. -/
def Survives (c : FallbackConfig) (k : Fallback) (d : DciPdu) : Prop :=
  match k with
  | .c10 =>
    if allOnes (fda10 c) d.frequencyDomainAssignment.val then
      d.raPreambleIndex * 2 ^ (21 + pad10 c) < 2 ^ 31
    else d.timeDomainAssignment.val * 2 ^ (23 + pad10 c) < 2 ^ 32
  | .c00 => d.padding % 2 = 0 ∨ pad00 c = 0 ∨ d.tpc % 2 = 1
  | .tc00 =>
    if d.padding % 2 = 0 then d.tpc = 0
    else d.harqPid.val % 2 = 1 ∧ d.tpc = if pad00 c = 0 then 2 else 3
  | .ra10 | .si10 | .tc10 => True

/-! ## Slips -/

/-- The preamble index is not shifted into the sign of an `int`. -/
def NotNegative (c : FallbackConfig) (k : Fallback) (d : DciPdu) : Prop :=
  k = .c10 → allOnes (fda10 c) d.frequencyDomainAssignment.val →
    (d.raPreambleIndex <<< (21 + pad10 c)) % 4294967296 < 2147483648

lemma shift_lt_iff (v : Nat) {s n : Nat} (h : s ≤ n) : v * 2 ^ s < 2 ^ n ↔ v < 2 ^ (n - s) := by
  rw [show 2 ^ n = 2 ^ (n - s) * 2 ^ s by rw [← pow_add, Nat.sub_add_cancel h]]
  exact Nat.mul_lt_mul_right (Nat.two_pow_pos s)

lemma mod_two_pow_eq_iff (v n : Nat) : v % 2 ^ n = v ↔ v < 2 ^ n :=
  Nat.mod_eq_iff_lt (Nat.two_pow_pos n).ne'

lemma or_bit_eq_iff (v b : Nat) : v ||| b % 2 = v ↔ b % 2 = 0 ∨ v % 2 = 1 := by
  rcases Nat.mod_two_eq_zero_or_one b with hb | hb
  · rw [hb, Nat.or_zero]
    exact ⟨fun _ => .inl rfl, fun _ => rfl⟩
  · rw [hb]
    refine ⟨fun h => .inr ?_, fun h => ?_⟩
    · have hodd : (v ||| 1) % 2 = 1 := Nat.or_mod_two_eq_one.mpr (.inr rfl)
      rw [h] at hodd
      exact hodd
    · have hv : v = v / 2 * 2 ^ 1 ||| 1 := by
        rw [mul_or_of_lt _ (by decide)]
        omega
      rw [hv, Nat.or_assoc, Nat.or_self]

variable {c : FallbackConfig} {d : DciPdu}

lemma layout_order (hones : allOnes (fda10 c) d.frequencyDomainAssignment.val) :
    Fallback.c10.layout c d =
      (1, d.formatIndicator) :: (fda10 c, d.frequencyDomainAssignment.val) :: orderFields d := by
  unfold Fallback.layout
  dsimp only
  rw [if_pos hones]

lemma layout_assignment (hzero : ¬allOnes (fda10 c) d.frequencyDomainAssignment.val) :
    Fallback.c10.layout c d =
      (1, d.formatIndicator) :: (fda10 c, d.frequencyDomainAssignment.val) :: assignmentFields d := by
  unfold Fallback.layout
  dsimp only
  rw [if_neg hzero]

lemma layout_withPreamble_iff (c : FallbackConfig) (v : Nat)
    (hones : allOnes (fda10 c) d.frequencyDomainAssignment.val) :
    Fallback.c10.layout c (d.withPreamble v) = Fallback.c10.layout c d ↔ v = d.raPreambleIndex := by
  have hthis : allOnes (fda10 c) (d.withPreamble v).frequencyDomainAssignment.val := hones
  rw [layout_order hones, layout_order hthis]
  simp [orderFields, DciPdu.withPreamble]

lemma layout_withTda_iff (c : FallbackConfig) (v : Nat)
    (hzero : ¬allOnes (fda10 c) d.frequencyDomainAssignment.val) :
    Fallback.c10.layout c (d.withTda v) = Fallback.c10.layout c d ↔
      v = d.timeDomainAssignment.val := by
  have hthis : ¬allOnes (fda10 c) (d.withTda v).frequencyDomainAssignment.val := hzero
  rw [layout_assignment hzero, layout_assignment hthis]
  simp [assignmentFields, DciPdu.withTda]

lemma layout_withTpc_iff (c : FallbackConfig) (d : DciPdu) (v : Nat) :
    Fallback.c00.layout c (d.withTpc v) = Fallback.c00.layout c d ↔ v = d.tpc := by
  simp [Fallback.layout, grantFields, grantHead, DciPdu.withTpc]

lemma layout_withHarqPid_iff (c : FallbackConfig) (d : DciPdu) (u v : Nat) :
    Fallback.tc00.layout c ((d.withHarqPid u).withTpc v) = Fallback.tc00.layout c d ↔
      u = d.harqPid.val ∧ v = d.tpc := by
  simp [Fallback.layout, grantFields, grantHead, DciPdu.withTpc, DciPdu.withHarqPid]

/-- Nothing is lost on the way into the word iff the fields survive. -/
theorem layout_sent_iff (c : FallbackConfig) (k : Fallback) (d : DciPdu) :
    NotNegative c k d ∧ k.layout c (sent c k d) = k.layout c d ↔ Survives c k d := by
  have hpad := pad10_le c
  cases k with
  | ra10 | si10 | tc10 => exact ⟨fun _ => trivial, fun _ => ⟨nofun, rfl⟩⟩
  | c10 =>
    unfold Survives NotNegative sent
    dsimp only
    split
    · next hones =>
      rw [layout_withPreamble_iff c _ hones, mod_two_pow_eq_iff,
        show 11 - pad10 c = 32 - (21 + pad10 c) by omega, ← shift_lt_iff _ (by omega),
        Nat.shiftLeft_eq]
      -- nothing is lost above bit 31, so the sign bit alone decides
      constructor
      · rintro ⟨hneg, hlt⟩
        have hsign := hneg rfl hones
        omega
      · intro hlt
        exact ⟨fun _ _ => by omega, by omega⟩
    · next hzero =>
      rw [layout_withTda_iff c _ hzero, mod_two_pow_eq_iff,
        show 9 - pad10 c = 32 - (23 + pad10 c) by omega, ← shift_lt_iff _ (by omega)]
      exact ⟨fun h => h.2, fun h => ⟨fun _ hones => absurd hones hzero, h⟩⟩
  | c00 =>
    unfold Survives sent
    have hnn : NotNegative c .c00 d := nofun
    rcases Nat.eq_zero_or_pos (pad00 c) with hp | hp
    · rw [if_pos hp]
      exact ⟨fun _ => .inr (.inl hp), fun _ => ⟨hnn, rfl⟩⟩
    · rw [if_neg hp.ne']
      rw [layout_withTpc_iff, or_bit_eq_iff]
      exact ⟨fun h => h.2.imp_right .inr,
        fun h => ⟨hnn, h.imp_right (fun h => h.resolve_left hp.ne')⟩⟩
  | tc00 =>
    unfold Survives sent
    have hnn : NotNegative c .tc00 d := nofun
    rw [layout_withHarqPid_iff, or_bit_eq_iff]
    rcases Nat.mod_two_eq_zero_or_one d.padding with hb | hb
    · rw [hb, if_pos rfl, Nat.zero_mul]
      exact ⟨fun h => h.2.2.symm, fun h => ⟨hnn, .inl rfl, h.symm⟩⟩
    · rw [hb, if_neg Nat.one_ne_zero, Nat.one_mul]
      exact ⟨fun h => ⟨h.2.1.resolve_left (by decide), h.2.2.symm⟩,
        fun h => ⟨hnn, .inr h.1, h.2.symm⟩⟩

/-! ## Reader -/

lemma getNrbForDci_eq (c : FallbackConfig) :
    getNrbForDci c .dlDciFormat10 = nRbDci c .dlDciFormat10 := by
  unfold getNrbForDci nRbDci
  split <;> rfl

lemma nRbDci_pos (hb : c.bwps.isSome) : nRbDci c .dlDciFormat10 ≠ 0 := by
  obtain ⟨b, hbwps⟩ := Option.isSome_iff_exists.mp hb
  have hdl := b.dlBwpSize.2.1
  have hidl := b.initialDlBwpSize.2.1
  unfold nRbDci getRbBwpDci
  rw [hbwps]
  dsimp only
  split
  · split <;> omega
  · omega

section Extract

variable {c : FallbackConfig} {dci : Nat} {pos : Int} (d : DciPdu) (e : DciPdu)

lemma layout_extract10RaRnti (h : Holds dci pos (Fallback.ra10.layout c d)) :
    Fallback.ra10.layout c (extract10RaRnti e dci pos (nRbDci c .dlDciFormat10)) =
      Fallback.ra10.layout c d := by
  simp only [Fallback.layout, fda10, holds_cons] at h
  obtain ⟨h1, h2, h3, h4, h5, -⟩ := h
  simp only [Fallback.layout, fda10, extract10RaRnti, readBits_eq, h1, h2, h3, h4, h5]

lemma layout_extract10SiRnti (h : Holds dci pos (Fallback.si10.layout c d)) :
    Fallback.si10.layout c (extract10SiRnti e dci pos (nRbDci c .dlDciFormat10)) =
      Fallback.si10.layout c d := by
  simp only [Fallback.layout, fda10, holds_cons] at h
  obtain ⟨h1, h2, h3, h4, h5, h6, -⟩ := h
  simp only [Fallback.layout, fda10, extract10SiRnti, readBits_eq, h1, h2, h3, h4, h5, h6]

lemma layout_extract10CRnti (he : e.harqPid.nbits = 4) (i : Nat) (hi : i = d.formatIndicator)
    (h : Holds dci pos ((Fallback.c10.layout c d).tail)) :
    Fallback.c10.layout c
        { extract10CRnti e dci pos (nRbDci c .dlDciFormat10) with formatIndicator := i } =
      Fallback.c10.layout c d := by
  subst hi
  by_cases hones : allOnes (fda10 c) d.frequencyDomainAssignment.val
  · rw [layout_order hones] at h ⊢
    simp only [List.tail_cons, holds_cons, orderFields, fda10] at h
    obtain ⟨h1, h2, h3, h4, h5, -⟩ := h
    have hbranch := hones
    unfold fda10 at hbranch
    simp only [extract10CRnti, readBits_eq, h1, hbranch, if_true]
    refine (layout_order ?_).trans ?_
    · exact hones
    · simp only [orderFields, h2, h3, h4, h5]
  · rw [layout_assignment hones] at h ⊢
    simp only [List.tail_cons, holds_cons, assignmentFields, fda10] at h
    obtain ⟨h1, h2, h3, h4, h5, h6, h7, h8, h9, h10, h11, -⟩ := h
    have hbranch := hones
    unfold fda10 at hbranch
    simp only [extract10CRnti, readBits_eq, h1, hbranch, he]
    rw [if_neg (by decide)]
    refine (layout_assignment ?_).trans ?_
    · exact hones
    · simp only [assignmentFields, h2, h3, h4, h5, h6, h7, h8, h9, h10, h11]

lemma layout_extract10TcRnti (i : Nat) (hi : i = d.formatIndicator)
    (h : Holds dci pos ((Fallback.tc10.layout c d).tail)) :
    Fallback.tc10.layout c
        { extract10TcRnti e dci pos (nRbDci c .dlDciFormat10) with formatIndicator := i } =
      Fallback.tc10.layout c d := by
  subst hi
  simp only [Fallback.layout, List.tail_cons, holds_cons, assignmentFields, fda10] at h
  obtain ⟨h1, h2, h3, h4, h5, h6, h7, h8, h9, h10, h11, -⟩ := h
  simp only [Fallback.layout, fda10, extract10TcRnti, readBits_eq, assignmentFields, h1, h2, h3, h4,
    h5, h6, h7, h8, h9, h10, h11]

lemma layout_extract00 (he : e.frequencyDomainAssignment.nbits = fda00 c) (i : Nat)
    (hi : i = d.formatIndicator) (h : Holds dci pos ((Fallback.c00.layout c d).tail)) :
    Fallback.c00.layout c { extract00 e dci pos with formatIndicator := i } =
      Fallback.c00.layout c d := by
  subst hi
  obtain ⟨h1, h2, h3, h4, h5, h6, h7, h8, -⟩ := h
  simp only [Fallback.layout, grantFields, grantHead, extract00, readBits_eq, he, h1, h2, h3, h4, h5,
    h6, h7, h8]

end Extract

lemma configDciPdu_eq (hb : c.bwps.isSome) (rntiType : RntiType) (defs : DefDciPdus) :
    ∃ defs', configDciPdu c rntiType defs = some (commonSize c, defs') ∧
      defs'.dl10.harqPid.nbits = 4 ∧ (rntiType = .cRnti ∨ rntiType = .tcRnti →
        defs'.ul00.frequencyDomainAssignment.nbits = fda00 c) := by
  have hpos : commonSize c ≠ 0 := by
    have := commonSize_eq_pad10 c
    omega
  unfold configDciPdu
  rw [sized10_eq hb, sized00_eq hb]
  dsimp only
  rw [if_neg hpos, if_neg hpos]
  cases rntiType with
  | raRnti | siRnti => exact ⟨_, rfl, rfl, fun h => by simp at h⟩
  | cRnti | tcRnti => exact ⟨_, rfl, rfl, fun _ => rfl⟩

/-- The UE reads back a word that carries the fields. -/
theorem ueReceive_of_carries (hb : c.bwps.isSome) (k : Fallback) (d : DciPdu) (defs : DefDciPdus)
    {word : Nat} (h : Carries (commonSize c) (k.layout c d) word)
    (hind : k.rnti = .cRnti ∨ k.rnti = .tcRnti → d.formatIndicator = k.indicator) :
    ∃ r, ueReceive c k.rnti defs (commonSize c, word) = some (k.format, r) ∧
      k.layout c r = k.layout c d := by
  obtain ⟨defs', hconfig, hharq, hfda⟩ := configDciPdu_eq hb k.rnti defs
  have hnrb := nRbDci_pos hb
  unfold ueReceive
  rw [hconfig]
  dsimp only
  rw [if_pos rfl]
  unfold nrExtractDci0010
  rw [getNrbForDci_eq]
  cases k with
  | ra10 => exact ⟨_, if_neg hnrb, layout_extract10RaRnti d _ h.holds⟩
  | si10 => exact ⟨_, if_neg hnrb, layout_extract10SiRnti d _ h.holds⟩
  | c10 =>
    obtain ⟨hid, hrest⟩ := readBits_of_carries h
    rw [show d.formatIndicator = 1 from hind (.inl rfl)] at hid
    refine ⟨_, ?_, layout_extract10CRnti d defs'.dl10 hharq 1 (hind (.inl rfl)).symm hrest⟩
    simp [Fallback.rnti, Fallback.format, hid, hnrb]
  | tc10 =>
    obtain ⟨hid, hrest⟩ := readBits_of_carries h
    rw [show d.formatIndicator = 1 from hind (.inr rfl)] at hid
    refine ⟨_, ?_, layout_extract10TcRnti d defs'.dl10 1 (hind (.inr rfl)).symm hrest⟩
    simp [Fallback.rnti, Fallback.format, hid, hnrb]
  | c00 =>
    obtain ⟨hid, hrest⟩ := readBits_of_carries h
    rw [show d.formatIndicator = 0 from hind (.inl rfl)] at hid
    refine ⟨_, ?_, layout_extract00 d defs'.ul00 (hfda (.inl rfl)) 0 (hind (.inl rfl)).symm hrest⟩
    simp [Fallback.rnti, Fallback.format, hid]
  | tc00 =>
    obtain ⟨hid, hrest⟩ := readBits_of_carries h
    rw [show d.formatIndicator = 0 from hind (.inr rfl)] at hid
    refine ⟨_, ?_, layout_extract00 d defs'.ul00 (hfda (.inr rfl)) 0 (hind (.inr rfl)).symm hrest⟩
    simp [Fallback.rnti, Fallback.format, hid]

/-! ## Writer -/

lemma commonSize_writes (c : FallbackConfig) : ¬(commonSize c = 0 ∨ 64 < commonSize c) := by
  have hle := commonSize_le c
  have hge := commonSize_eq_pad10 c
  omega

lemma fillDciPduRel15_eq (hb : c.bwps.isSome) (k : Fallback) (d : DciPdu) :
    fillDciPduRel15 c k d = some (commonSize c, (generatePayload (commonSize c) (nRbDci c k.format) k
      (if k.format = .dlDciFormat10 then widths10 (fda10 c) d else widths00 (fda00 c) d)).word) := by
  by_cases hk : k.format = .dlDciFormat10
  · simp only [fillDciPduRel15, if_pos hk, sized10_eq hb, if_neg (commonSize_writes c)]
  · simp only [fillDciPduRel15, if_neg hk, sized00_eq hb, if_neg (commonSize_writes c)]

section Fill

variable {c : FallbackConfig} {d : DciPdu}

lemma width_layout_le (c : FallbackConfig) (d : DciPdu) {k : Fallback}
    (hk : k = .ra10 ∨ k = .si10 ∨ k = .tc10) : width [] + width (k.layout c d) ≤ commonSize c := by
  have hsize := commonSize_eq_pad10 c
  rcases hk with rfl | rfl | rfl
  all_goals
    simp only [Fallback.layout, assignmentFields, width_cons, width_nil]
    omega

lemma width_head10 (c : FallbackConfig) (d : DciPdu) :
    width [(1, 1), (fda10 c, d.frequencyDomainAssignment.val)] = 1 + fda10 c := by
  simp only [width_cons, width_nil]
  omega

lemma written_head10 (hfda : d.frequencyDomainAssignment.val < 2 ^ fda10 c) :
    Written (commonSize c) 0 [(1, 1), (fda10 c, d.frequencyDomainAssignment.val)]
      ([(1, 1), (fda10 c, d.frequencyDomainAssignment.val)].foldl
        (Payload.field (commonSize c)) ⟨0, 0⟩) := by
  have hsize := commonSize_eq_pad10 c
  have hle := commonSize_le c
  refine written_fields _ ?_ ?_ (by omega)
  · simp only [fits_cons, fits_nil, and_true]
    exact ⟨by decide, hfda⟩
  · rw [width_head10]
    omega

section

variable (h : Fits (Fallback.c10.layout c d)) (hind : d.formatIndicator = 1)
include h hind

lemma written_fill10CRnti_order (hnn : NotNegative c .c10 d)
    (hones : allOnes (fda10 c) d.frequencyDomainAssignment.val) :
    Written (commonSize c) 0
      (Fallback.c10.layout c (d.withPreamble (d.raPreambleIndex % 2 ^ (11 - pad10 c))))
      (fill10CRnti (commonSize c) (nRbDci c .dlDciFormat10) (widths10 (fda10 c) d)) := by
  have hsize := commonSize_eq_pad10 c
  have hle := commonSize_le c
  have hpad := pad10_le c
  rw [layout_order hones] at h
  simp only [fits_cons, orderFields, fits_nil, and_true] at h
  obtain ⟨-, hfda, hra, hsul, hssb, hmask⟩ := h
  have hwidth := width_head10 c d
  have hshift : commonSize c - (width [(1, 1), (fda10 c, d.frequencyDomainAssignment.val)] + 6) =
      21 + pad10 c := by omega
  have hpre := (written_head10 hfda).fieldInt_cut hra (by omega) (by omega) (by omega)
    (by rw [hshift]; exact hnn rfl hones)
  rw [hshift, show 32 - (21 + pad10 c) = 11 - pad10 c by omega] at hpre
  generalize d.raPreambleIndex % 2 ^ (11 - pad10 c) = v at hpre ⊢
  have hall := ((hpre.field32 (1, d.ulSulIndicator.val) hsul ?_ ?_ (by omega)).fieldInt
    (6, d.ssPbchIndex) hssb ?_ ?_ (by omega)).fieldInt (4, d.prachMaskIndex) hmask ?_ ?_ (by omega)
  · rw [layout_order (d := d.withPreamble v) hones]
    show Written _ _ ((1, d.formatIndicator) :: _) (if allOnes (fda10 c) _ then _ else _)
    rw [hind, if_pos (show allOnes (fda10 c) (widths10 (fda10 c) d).frequencyDomainAssignment.val
      from hones)]
    exact hall
  all_goals
    simp only [width_append, width_cons, width_nil]
    omega

lemma written_fill10CRnti_assignment
    (hzero : ¬allOnes (fda10 c) d.frequencyDomainAssignment.val) :
    Written (commonSize c) 0
      (Fallback.c10.layout c (d.withTda (d.timeDomainAssignment.val % 2 ^ (9 - pad10 c))))
      (fill10CRnti (commonSize c) (nRbDci c .dlDciFormat10) (widths10 (fda10 c) d)) := by
  have hsize := commonSize_eq_pad10 c
  have hle := commonSize_le c
  have hpad := pad10_le c
  rw [layout_assignment hzero] at h
  simp only [fits_cons, assignmentFields, fits_nil, and_true] at h
  obtain ⟨-, hfda, htda, hvrb, hmcs, hndi, hrv, hharq, hdai, htpc, hpucch, htiming⟩ := h
  have hwidth := width_head10 c d
  have htime := (written_head10 hfda).field32_cut htda (by omega) (by omega) (by omega)
  rw [show commonSize c - (width [(1, 1), (fda10 c, d.frequencyDomainAssignment.val)] + 4) =
    23 + pad10 c by omega, show 32 - (23 + pad10 c) = 9 - pad10 c by omega] at htime
  generalize d.timeDomainAssignment.val % 2 ^ (9 - pad10 c) = v at htime ⊢
  have h1 := htime.field32 (1, d.vrbToPrbMapping.val) hvrb ?_ ?_ (by omega)
  have h2 := h1.fieldInt (5, d.mcs) hmcs ?_ ?_ (by omega)
  have h3 := h2.fieldInt (1, d.ndi) hndi ?_ ?_ (by omega)
  have h4 := h3.fieldInt (2, d.rv) hrv ?_ ?_ (by omega)
  have h5 := h4.field32 (4, d.harqPid.val) hharq ?_ ?_ (by omega)
  have h6 := h5.field32 (2, d.dai0.val) hdai ?_ ?_ (by omega)
  have h7 := h6.fieldInt (2, d.tpc) htpc ?_ ?_ (by omega)
  have h8 := h7.fieldInt (3, d.pucchResourceIndicator) hpucch ?_ ?_ (by omega)
  have h9 := h8.field32 (3, d.pdschToHarqFeedbackTimingIndicator.val) htiming ?_ ?_ (by omega)
  · rw [layout_assignment (d := d.withTda v) hzero]
    show Written _ _ ((1, d.formatIndicator) :: _) (if allOnes (fda10 c) _ then _ else _)
    rw [hind, if_neg (show ¬allOnes (fda10 c) (widths10 (fda10 c) d).frequencyDomainAssignment.val
      from hzero)]
    exact h9
  all_goals
    simp only [width_append, width_cons, width_nil]
    omega

end

theorem generatePayload_negative {k : Fallback} (h : FieldsFit c k d) (hneg : ¬NotNegative c k d) :
    2 ^ 63 ≤ (generatePayload (commonSize c) (nRbDci c k.format) k
      (if k.format = .dlDciFormat10 then widths10 (fda10 c) d else widths00 (fda00 c) d)).word := by
  unfold NotNegative at hneg
  push Not at hneg
  obtain ⟨rfl, hones, hsign⟩ := hneg
  have hsize := commonSize_eq_pad10 c
  have hfits := h.fits
  rw [layout_order hones] at hfits
  simp only [fits_cons, orderFields] at hfits
  obtain ⟨-, hfda, hra, -⟩ := hfits
  rw [if_pos (show Fallback.c10.format = .dlDciFormat10 from rfl)]
  show _ ≤ Payload.word (if allOnes (fda10 c) _ then _ else _)
  rw [if_pos (show allOnes (fda10 c) (widths10 (fda10 c) d).frequencyDomainAssignment.val
    from hones)]
  have hshift : commonSize c - (Payload.pos ([(1, 1), (fda10 c, d.frequencyDomainAssignment.val)].foldl
      (Payload.field (commonSize c)) ⟨0, 0⟩) + 6) = 21 + pad10 c := by
    rw [(written_head10 hfda).pos, width_head10]
    omega
  have hge := fieldInt_word_ge (commonSize c) _ hra (by rw [hshift]; omega)
  -- later fields only add to the word
  exact hge.trans (Nat.left_le_or.trans (Nat.left_le_or.trans Nat.left_le_or))

lemma width_grantHead (c : FallbackConfig) (d : DciPdu) :
    width (grantHead c d) = 14 + fda00 c := by
  simp only [grantHead, width_cons, width_nil]
  omega

lemma width_grantFields (c : FallbackConfig) (d : DciPdu) :
    width (grantFields c d) = 18 + fda00 c := by
  unfold grantFields
  rw [width_concat, width_grantHead]
  omega

lemma written_grant (gs : List (Nat × Nat)) (h : Fits (grantFields c d ++ gs))
    (hroom : width gs ≤ 2) :
    Written (commonSize c) 0 (grantFields c d ++ gs)
      ((grantFields c d ++ gs).foldl (Payload.field (commonSize c)) ⟨0, 0⟩) := by
  have hsize := commonSize_eq_pad00 c
  have hle := commonSize_le c
  refine written_fields _ h ?_ (by omega)
  rw [width_append, width_grantFields]
  omega

lemma left_of_grant (c : FallbackConfig) (d : DciPdu) (tpc : Nat) :
    commonSize c - width (grantFields c d ++ [(2, tpc)]) = pad00 c := by
  rw [width_concat, width_grantFields, commonSize_eq_pad00]
  omega

lemma pad_lt (c : FallbackConfig) (b : Nat) : b % 2 * (2 ^ pad00 c - 2) < 2 ^ pad00 c := by
  have hpow : 0 < 2 ^ pad00 c := Nat.two_pow_pos _
  rcases Nat.mod_two_eq_zero_or_one b with hb | hb <;> rw [hb]
  · rw [Nat.zero_mul]
    exact hpow
  · omega

lemma fits_concat_or {fs : List (Nat × Nat)} {w v : Nat} (h : Fits (fs ++ [(w, v)])) (hw : w ≠ 0)
    (b : Nat) : Fits (fs ++ [(w, v ||| b % 2)]) := by
  obtain ⟨hfs, hlast⟩ := fits_append.mp h
  have hbit : b % 2 < 2 ^ w := (Nat.mod_lt _ (by decide)).trans_le (Nat.le_self_pow hw 2)
  exact fits_append.mpr
    ⟨hfs, (fits_cons _ _).mpr ⟨Nat.or_lt_two_pow ((fits_cons _ _).mp hlast).1 hbit, fits_nil⟩⟩

lemma carries_fill00CRnti (h : Fits (Fallback.c00.layout c d)) :
    Carries (commonSize c) (Fallback.c00.layout c (sent c .c00 d))
      (fill00CRnti (commonSize c) (widths00 (fda00 c) d)).word := by
  have hle := commonSize_le c
  have hgrant := written_grant [(2, d.tpc)] h (le_refl 2)
  have hleft := left_of_grant c d
  unfold sent
  rcases Nat.eq_zero_or_pos (pad00 c) with hpad | hpad
  · -- no bit is left, and the loop does nothing
    have hnone : commonSize c - Payload.pos ((grantFields c d ++ [(2, d.tpc)]).foldl
        (Payload.field (commonSize c)) ⟨0, 0⟩) = 0 := by
      rw [hgrant.pos, Nat.add_zero, hleft, hpad]
    have hstop : fill00CRnti (commonSize c) (widths00 (fda00 c) d) =
        (grantFields c d ++ [(2, d.tpc)]).foldl (Payload.field (commonSize c)) ⟨0, 0⟩ := by
      show Payload.pad _ ((grantFields c d ++ [(2, d.tpc)]).foldl _ _) _ = _
      unfold Payload.pad
      rw [hnone]
      rfl
    rw [hstop, if_pos hpad]
    exact hgrant.carries
  · rw [if_neg hpad.ne']
    have hword := hgrant.word_pad (by decide) (by omega) d.padding (by rw [hleft]; exact hpad)
    refine ⟨fits_concat_or h (by decide) _, hgrant.room, d.padding % 2 * (2 ^ pad00 c - 2), ?_, ?_⟩
    · exact Nat.lt_of_lt_of_eq (pad_lt c d.padding) (by rw [← hleft (d.tpc ||| d.padding % 2)]; rfl)
    · refine hword.trans ?_
      rw [← hleft (d.tpc ||| d.padding % 2)]
      rfl

lemma carries_fill00TcRnti (h : Fits (Fallback.tc00.layout c d)) :
    Carries (commonSize c) (Fallback.tc00.layout c (sent c .tc00 d))
      (fill00TcRnti (commonSize c) (widths00 (fda00 c) d)).word := by
  have hsize := commonSize_eq_pad00 c
  have hle := commonSize_le c
  have hfits := (fits_append.mp h).1
  have hgrant := written_grant [] (by rw [List.append_nil]; exact hfits)
    (Nat.zero_le 2)
  rw [List.append_nil] at hgrant
  have hleft : ∀ v, commonSize c - width (grantHead c d ++ [(4, v)]) = pad00 c + 2 := by
    intro v
    rw [width_concat, width_grantHead]
    omega
  have hword := hgrant.word_pad (by decide) (by omega) d.padding
    (by rw [hleft]; omega)
  rw [hleft] at hword
  -- the two bits under the HARQ process number, and what is below them
  have hsplit : d.padding % 2 * (2 ^ (pad00 c + 2) - 2) =
      d.padding % 2 * (if pad00 c = 0 then 2 else 3) * 2 ^ pad00 c +
        d.padding % 2 * (2 ^ pad00 c - 2) := by
    rw [Nat.mul_assoc, ← Nat.mul_add]
    congr 1
    split
    · next hpad =>
      rw [hpad]
      decide
    · next hpad =>
      have htwo : 2 ≤ 2 ^ pad00 c := Nat.le_self_pow hpad 2
      rw [pow_add]
      omega
  have hwidth : width (grantHead c d ++ [(4, d.harqPid.val ||| d.padding % 2)]) = 18 + fda00 c :=
    width_grantFields c d
  have hrest : commonSize c - (18 + fda00 c + 2) = pad00 c := by omega
  have hcarries := Carries.extend (commonSize c) (fits_concat_or hfits (by decide) d.padding) 2
    (d.padding % 2 * (if pad00 c = 0 then 2 else 3)) (d.padding % 2 * (2 ^ pad00 c - 2))
    (by rw [hwidth]; omega)
    (by rcases Nat.mod_two_eq_zero_or_one d.padding with hb | hb <;> rw [hb] <;> split <;> decide)
    (by rw [hwidth, hrest]; exact pad_lt c d.padding)
  rw [hleft, hwidth, hrest, ← hsplit, ← hword] at hcarries
  exact hcarries

/-- The payload carries the fields as they are sent. -/
theorem carries_generatePayload (k : Fallback) (h : FieldsFit c k d) (hnn : NotNegative c k d) :
    Carries (commonSize c) (k.layout c (sent c k d))
      (generatePayload (commonSize c) (nRbDci c k.format) k
        (if k.format = .dlDciFormat10 then widths10 (fda10 c) d else widths00 (fda00 c) d)).word := by
  have hle : commonSize c ≤ 64 := (commonSize_le c).trans (by decide)
  have hroom := width_layout_le c d (k := k)
  cases k with
  | ra10 => exact ((written_start _ 0).fields _ h.fits (hroom (.inl rfl)) hle).carries
  | si10 => exact ((written_start _ 1).allBits _ h.fits (hroom (.inr (.inl rfl))) hle).carries
  | tc10 => exact ((written_start _ 1).allBits _ h.fits (hroom (.inr (.inr rfl))) hle).carries
  | c00 => exact carries_fill00CRnti h.fits
  | tc00 => exact carries_fill00TcRnti h.fits
  | c10 =>
    have hind : d.formatIndicator = 1 := h.indicator (.inl rfl)
    unfold sent
    dsimp only
    split
    · next hones => exact (written_fill10CRnti_order h.fits hind hnn hones).carries
    · next hzero => exact (written_fill10CRnti_assignment h.fits hind hzero).carries

end Fill

lemma sent_formatIndicator (c : FallbackConfig) (k : Fallback) (d : DciPdu) :
    (sent c k d).formatIndicator = d.formatIndicator := by
  cases k with
  | ra10 | si10 | tc10 | tc00 => rfl
  | c10 | c00 =>
    unfold sent
    dsimp only
    split <;> rfl

/-! ## The round trip -/

/-- `nr_dci_size` gives 0_0 and 1_0 one size, whatever the PDUs it sets the widths in. -/
def OneSize (c : FallbackConfig) : Prop := ∀ d d', (sized10 c d).1 = (sized00 c d').1

/-- The payload fits its size, and the UE recovers the format and every field its extractor reads. -/
def RoundTrip (c : FallbackConfig) (k : Fallback) (defs : DefDciPdus) (d : DciPdu) : Prop :=
  ∃ size word r, fillDciPduRel15 c k d = some (size, word) ∧ word < 2 ^ size ∧
    ueReceive c k.rnti defs (size, word) = some (k.format, r) ∧ k.layout c r = k.layout c d

/-- **The fallback formats make the round trip exactly when** the bandwidth parts are configured and
the writer's slips do no harm. -/
theorem fallback_round_trip_iff (c : FallbackConfig) (k : Fallback) (defs : DefDciPdus) (d : DciPdu)
    (h : FieldsFit c k d) :
    OneSize c ∧ RoundTrip c k defs d ↔ c.bwps.isSome ∧ Survives c k d := by
  by_cases hb : c.bwps.isSome
  · have hone : OneSize c := fun d d' => by rw [sized10_eq hb, sized00_eq hb]
    have hfill := fillDciPduRel15_eq hb k d
    rw [← layout_sent_iff]
    have hreach : NotNegative c k d → _ := fun hnn =>
      ueReceive_of_carries hb k (sent c k d) defs (carries_generatePayload k h hnn)
        (fun hk => (sent_formatIndicator c k d).trans (h.indicator hk))
    constructor
    · rintro ⟨-, size, word, r, hw, hlt, hue, hlayout⟩
      obtain ⟨rfl, rfl⟩ := Prod.ext_iff.mp (Option.some.inj (hfill.symm.trans hw))
      by_cases hnn : NotNegative c k d
      · obtain ⟨r', hue', hlayout'⟩ := hreach hnn
        obtain rfl : r' = r := (Prod.ext_iff.mp (Option.some.inj (hue'.symm.trans hue))).2
        exact ⟨hb, hnn, hlayout'.symm.trans hlayout⟩
      · -- the sign extension leaves a word of 64 bits
        have hge := generatePayload_negative h hnn
        have hle : 2 ^ commonSize c ≤ 2 ^ 63 :=
          Nat.pow_le_pow_right (by decide) (by have := commonSize_le c; omega)
        exact absurd hlt (not_lt.mpr (hle.trans hge))
    · rintro ⟨-, hnn, hlayout⟩
      obtain ⟨r, hue, hr⟩ := hreach hnn
      exact ⟨hone, _, _, r, hfill, (carries_generatePayload k h hnn).lt, hue, hr.trans hlayout⟩
  · exact ⟨fun ⟨hone, _⟩ => absurd (hone d d) (sizes_differ hb d d), fun ⟨hb', _⟩ => absurd hb' hb⟩

/-- 106 RBs everywhere, a common search space. -/
def commonCell : FallbackConfig where
  bwps := some ⟨⟨106, by decide⟩, ⟨106, by decide⟩, ⟨106, by decide⟩, ⟨106, by decide⟩⟩
  cset0BwpSize := ⟨48, by decide⟩
  ssType := .common

/-- The same in a UE-specific search space. -/
def dedicatedCell : FallbackConfig := { commonCell with ssType := .ueSpecific }

/-- A wide uplink and a downlink of two RBs. -/
def narrowCell : FallbackConfig where
  bwps := some ⟨⟨273, by decide⟩, ⟨2, by decide⟩, ⟨273, by decide⟩, ⟨2, by decide⟩⟩
  cset0BwpSize := ⟨48, by decide⟩
  ssType := .ueSpecific

theorem fallback_round_trip_grant :
    FieldsFit dedicatedCell .c00 { DciPdu.zero with tpc := 1, padding := 1 } ∧
      OneSize dedicatedCell ∧
      RoundTrip dedicatedCell .c00 ⟨.zero, .zero⟩ { DciPdu.zero with tpc := 1, padding := 1 } := by
  have hfit : FieldsFit dedicatedCell .c00 { DciPdu.zero with tpc := 1, padding := 1 } :=
    ⟨by unfold Fits; decide +kernel, fun _ => rfl⟩
  exact ⟨hfit, (fallback_round_trip_iff dedicatedCell .c00 ⟨.zero, .zero⟩ _ hfit).mpr
    ⟨rfl, .inr (.inr rfl)⟩⟩

/-- The fields that the UE reads of a DCI. -/
def received (c : FallbackConfig) (k : Fallback) (defs : DefDciPdus) (d : DciPdu) :
    Option (List (Nat × Nat)) :=
  ((fillDciPduRel15 c k d).bind (ueReceive c k.rnti defs)).map (fun r => k.layout c r.2)

lemma not_roundTrip_of_received {k : Fallback} {defs : DefDciPdus}
    (h : received c k defs d ≠ some (k.layout c d)) : ¬RoundTrip c k defs d := by
  rintro ⟨size, word, r, hfill, -, hue, hlayout⟩
  apply h
  unfold received
  rw [hfill, Option.bind_some, hue, Option.map_some, hlayout]

/-- **The three slips at work**: a TPC command 1 in the grant of a retransmitted Msg3, a TPC command
0 under padding bits 1, a time domain assignment 8 in a padded format 1_0. -/
theorem fallback_round_trip_broken :
    (FieldsFit commonCell .tc00 { DciPdu.zero with tpc := 1 } ∧
      ¬RoundTrip commonCell .tc00 ⟨.zero, .zero⟩ { DciPdu.zero with tpc := 1 }) ∧
    (FieldsFit dedicatedCell .c00 { DciPdu.zero with padding := 1 } ∧
      ¬RoundTrip dedicatedCell .c00 ⟨.zero, .zero⟩ { DciPdu.zero with padding := 1 }) ∧
    (FieldsFit narrowCell .c10
        { DciPdu.zero with formatIndicator := 1, timeDomainAssignment.val := 8 } ∧
      ¬RoundTrip narrowCell .c10 ⟨.zero, .zero⟩
        { DciPdu.zero with formatIndicator := 1, timeDomainAssignment.val := 8 }) := by
  refine ⟨⟨⟨by unfold Fits; decide +kernel, fun _ => rfl⟩, not_roundTrip_of_received ?_⟩,
    ⟨⟨by unfold Fits; decide +kernel, fun _ => rfl⟩, not_roundTrip_of_received ?_⟩,
    ⟨⟨by unfold Fits; decide +kernel, fun _ => rfl⟩, not_roundTrip_of_received ?_⟩⟩ <;>
  decide +kernel

end NrStack.Dci
