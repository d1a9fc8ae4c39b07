/-
  The non-fallback formats 0_1 and 1_1: gNB writer, UE reader, round trip.

  `prepareDci` overwrites some values and refuses some configurations; the writer ORs the fields in;
  `extract01CRnti` and `extract11CRnti` walk the same way down.  What stands against the round trip:

  * 0_1: the UE steps over no frequency hopping flag, takes the frequency domain assignment to be of
    type 1, and sizes the precoding information by its last DCI's SRS resource;
  * 1_1: a second code word is counted in the size and has no fields;
  * 1_1: the rate matching indicator of group 1 alone, and the VRB-to-PRB mapping outside type 1, get
    values that do not fit their fields.
-/
import NrStack.Mac.DciWidths

namespace NrStack.Dci

open PackedWord List

/-! ## The gNB -/

/-- The two formats with configured fields, 0_1 and 1_1. -/
inductive NonFallback where
  | ul01 | dl11
  deriving DecidableEq, Repr

/-- `nr_dci_size`: the size and the PDU with its widths. -/
def NonFallback.nrDciSize (f : NonFallback) (c : DciConfig) (d : DciPdu) : Option (Nat × DciPdu) :=
  match f with
  | .ul01 => nrDciSize01 c d
  | .dl11 => nrDciSize11 c d

/-- `prepare_dci` for format 0_1; `none` is a failed assertion. -/
def prepareDci01 (c : DciConfig) (d : DciPdu) : Option DciPdu :=
  if c.sc.crossCarrierSchedulingConfig ∨ c.sc.supplementaryUplink then none
  else some { d with formatIndicator := 0, srsRequest.val := 0, ulschIndicator := 1 }

/-- `prepare_dci` for format 1_1; `none` is a failed assertion. -/
def prepareDci11 (c : DciConfig) (d : DciPdu) : Option DciPdu :=
  c.dl.pdschConfig.bind fun p =>
    if c.sc.crossCarrierSchedulingConfig ∨ p.dynamicBundling ∨ p.aperiodicZpCsiRs.isSome ∨
        c.tciPresentInDci ∨ c.sc.srsTpcPdcchGroup = some .typeA ∨
        c.sc.srsTpcPdcchGroup = some .typeB ∨ c.sc.pdschCgbTransmission.isSome then none
    else
      let msb := if p.rateMatchPatternGroup1 then 1 else 0
      let lsb := if p.rateMatchPatternGroup2 then 1 else 0
      some { d with
        formatIndicator := 1
        vrbToPrbMapping.val := if p.vrbToPrbInterleaver then 1 else 0
        rateMatchingIndicator.val := lsb ||| msb <<< 1
        srsRequest.val := 0 }

/-- `prepare_dci` -/
def NonFallback.prepareDci (f : NonFallback) (c : DciConfig) (d : DciPdu) : Option DciPdu :=
  match f with
  | .ul01 => prepareDci01 c d
  | .dl11 => prepareDci11 c d

/-- The fields of format 0_1 as they are written, each with its width. -/
def fields01 (d : DciPdu) : List (Nat × Nat) :=
  [(1, d.formatIndicator),
    (d.carrierIndicator.nbits, d.carrierIndicator.val),
    (d.ulSulIndicator.nbits, d.ulSulIndicator.val),
    (d.bwpIndicator.nbits, d.bwpIndicator.val),
    (d.frequencyDomainAssignment.nbits, d.frequencyDomainAssignment.val),
    (d.timeDomainAssignment.nbits, d.timeDomainAssignment.val),
    (d.frequencyHoppingFlag.nbits, d.frequencyHoppingFlag.val),
    (5, d.mcs), (1, d.ndi), (2, d.rv),
    (d.harqPid.nbits, d.harqPid.val),
    (d.dai0.nbits, d.dai0.val), (d.dai1.nbits, d.dai1.val),
    (2, d.tpc),
    (d.srsResourceIndicator.nbits, d.srsResourceIndicator.val),
    (d.precodingInformation.nbits, d.precodingInformation.val),
    (d.antennaPorts.nbits, d.antennaPorts.val),
    (d.srsRequest.nbits, d.srsRequest.val),
    (d.csiRequest.nbits, d.csiRequest.val),
    (d.cbgti.nbits, d.cbgti.val),
    (d.ptrsDmrsAssociation.nbits, d.ptrsDmrsAssociation.val),
    (d.betaOffsetIndicator.nbits, d.betaOffsetIndicator.val),
    (d.dmrsSequenceInitialization.nbits, d.dmrsSequenceInitialization.val),
    (1, d.ulschIndicator)]

/-- The fields of format 1_1 as they are written, each with its width. -/
def fields11 (d : DciPdu) : List (Nat × Nat) :=
  [(1, d.formatIndicator),
    (d.carrierIndicator.nbits, d.carrierIndicator.val),
    (d.bwpIndicator.nbits, d.bwpIndicator.val),
    (d.frequencyDomainAssignment.nbits, d.frequencyDomainAssignment.val),
    (d.timeDomainAssignment.nbits, d.timeDomainAssignment.val),
    (d.vrbToPrbMapping.nbits, d.vrbToPrbMapping.val),
    (d.prbBundlingSizeIndicator.nbits, d.prbBundlingSizeIndicator.val),
    (d.rateMatchingIndicator.nbits, d.rateMatchingIndicator.val),
    (d.zpCsiRsTrigger.nbits, d.zpCsiRsTrigger.val),
    (5, d.mcs), (1, d.ndi), (2, d.rv),
    (d.mcs2.nbits, d.mcs2.val), (d.ndi2.nbits, d.ndi2.val), (d.rv2.nbits, d.rv2.val),
    (d.harqPid.nbits, d.harqPid.val),
    (d.dai0.nbits, d.dai0.val),
    (2, d.tpc), (3, d.pucchResourceIndicator),
    (d.pdschToHarqFeedbackTimingIndicator.nbits, d.pdschToHarqFeedbackTimingIndicator.val),
    (d.antennaPorts.nbits, d.antennaPorts.val),
    (d.transmissionConfigurationIndication.nbits, d.transmissionConfigurationIndication.val),
    (d.srsRequest.nbits, d.srsRequest.val),
    (d.cbgti.nbits, d.cbgti.val), (d.cbgfi.nbits, d.cbgfi.val),
    (1, d.dmrsSequenceInitialization.val)]

/-- The fields of a format as they are written. -/
def NonFallback.fields (f : NonFallback) (d : DciPdu) : List (Nat × Nat) :=
  match f with
  | .ul01 => fields01 d
  | .dl11 => fields11 d

/-- What `fill_dci_pdu_rel15` leaves: `PayloadSizeBits`, the prepared PDU and the payload. -/
structure Filled where
  size : Nat
  pdu : DciPdu
  payload : Payload

/-- `fill_dci_pdu_rel15` on the non-fallback formats. -/
def NonFallback.fill (f : NonFallback) (c : DciConfig) (d : DciPdu) : Option Filled :=
  (f.nrDciSize c d).bind fun sized =>
    if sized.1 = 0 ∨ 64 < sized.1 then none
    else (f.prepareDci c sized.2).map fun pdu =>
      ⟨sized.1, pdu, (f.fields pdu).foldl (Payload.field sized.1) ⟨0, 0⟩⟩

/-! ## The UE -/

/-- `extract_01_c_rnti`: the PDU and the position the walk ends at. -/
def extract01CRnti (d : DciPdu) (dci : Nat) (pos : Int) (nRB : Nat) : DciPdu × Int :=
  let (carrier, pos) := readBits dci pos d.carrierIndicator.nbits
  let (ulSul, pos) := readBits dci pos d.ulSulIndicator.nbits
  let (bwp, pos) := readBits dci pos d.bwpIndicator.nbits
  let (fda, pos) := readBits dci pos (rivBits nRB)
  let (tda, pos) := readBits dci pos d.timeDomainAssignment.nbits
  -- "Not supported yet - skip for now": the frequency hopping flag
  let (mcs, pos) := readBits dci pos 5
  let (ndi, pos) := readBits dci pos 1
  let (rv, pos) := readBits dci pos 2
  let (harqPid, pos) := readBits dci pos d.harqPid.nbits
  let (dai0, pos) := readBits dci pos d.dai0.nbits
  let (dai1, pos) := readBits dci pos d.dai1.nbits
  let (tpc, pos) := readBits dci pos 2
  let (sri, pos) := readBits dci pos d.srsResourceIndicator.nbits
  let (precoding, pos) := readBits dci pos d.precodingInformation.nbits
  let (antenna, pos) := readBits dci pos d.antennaPorts.nbits
  let (srsRequest, pos) := readBits dci pos d.srsRequest.nbits
  let (csi, pos) := readBits dci pos d.csiRequest.nbits
  let (cbgti, pos) := readBits dci pos d.cbgti.nbits
  let (ptrs, pos) := readBits dci pos d.ptrsDmrsAssociation.nbits
  let (beta, pos) := readBits dci pos d.betaOffsetIndicator.nbits
  let (dmrs, pos) := readBits dci pos d.dmrsSequenceInitialization.nbits
  let (ulsch, pos) := readBits dci pos 1
  ({ d with
    carrierIndicator.val := carrier
    ulSulIndicator.val := ulSul
    bwpIndicator.val := bwp
    frequencyDomainAssignment.val := fda
    timeDomainAssignment.val := tda
    mcs := mcs
    ndi := ndi
    rv := rv
    harqPid.val := harqPid
    dai0.val := dai0
    dai1.val := dai1
    tpc := tpc
    srsResourceIndicator.val := sri
    precodingInformation.val := precoding
    antennaPorts.val := antenna
    srsRequest.val := srsRequest
    csiRequest.val := csi
    cbgti.val := cbgti
    ptrsDmrsAssociation.val := ptrs
    betaOffsetIndicator.val := beta
    dmrsSequenceInitialization.val := dmrs
    ulschIndicator := ulsch }, pos)

/-- `extract_11_c_rnti`: the PDU and the position the walk ends at. -/
def extract11CRnti (d : DciPdu) (dci : Nat) (pos : Int) : DciPdu × Int :=
  let (carrier, pos) := readBits dci pos d.carrierIndicator.nbits
  let (bwp, pos) := readBits dci pos d.bwpIndicator.nbits
  let (fda, pos) := readBits dci pos d.frequencyDomainAssignment.nbits
  let (tda, pos) := readBits dci pos d.timeDomainAssignment.nbits
  let (vrb, pos) := readBits dci pos d.vrbToPrbMapping.nbits
  let (bundling, pos) := readBits dci pos d.prbBundlingSizeIndicator.nbits
  let (rateMatching, pos) := readBits dci pos d.rateMatchingIndicator.nbits
  let (zp, pos) := readBits dci pos d.zpCsiRsTrigger.nbits
  let (mcs, pos) := readBits dci pos 5
  let (ndi, pos) := readBits dci pos 1
  let (rv, pos) := readBits dci pos 2
  let (mcs2, pos) := readBits dci pos d.mcs2.nbits
  let (ndi2, pos) := readBits dci pos d.ndi2.nbits
  let (rv2, pos) := readBits dci pos d.rv2.nbits
  let (harqPid, pos) := readBits dci pos d.harqPid.nbits
  let (dai0, pos) := readBits dci pos d.dai0.nbits
  let (tpc, pos) := readBits dci pos 2
  let (pucchResource, pos) := readBits dci pos 3
  let (timing, pos) := readBits dci pos d.pdschToHarqFeedbackTimingIndicator.nbits
  let (antenna, pos) := readBits dci pos d.antennaPorts.nbits
  let (tci, pos) := readBits dci pos d.transmissionConfigurationIndication.nbits
  let (srsRequest, pos) := readBits dci pos d.srsRequest.nbits
  let (cbgti, pos) := readBits dci pos d.cbgti.nbits
  let (cbgfi, pos) := readBits dci pos d.cbgfi.nbits
  let (dmrs, pos) := readBits dci pos 1
  ({ d with
    carrierIndicator.val := carrier
    bwpIndicator.val := bwp
    frequencyDomainAssignment.val := fda
    timeDomainAssignment.val := tda
    vrbToPrbMapping.val := vrb
    prbBundlingSizeIndicator.val := bundling
    rateMatchingIndicator.val := rateMatching
    zpCsiRsTrigger.val := zp
    mcs := mcs
    ndi := ndi
    rv := rv
    mcs2.val := mcs2
    ndi2.val := ndi2
    rv2.val := rv2
    harqPid.val := harqPid
    dai0.val := dai0
    tpc := tpc
    pucchResourceIndicator := pucchResource
    pdschToHarqFeedbackTimingIndicator.val := timing
    antennaPorts.val := antenna
    transmissionConfigurationIndication.val := tci
    srsRequest.val := srsRequest
    cbgti.val := cbgti
    cbgfi.val := cbgfi
    dmrsSequenceInitialization.val := dmrs }, pos)

/-- `mac->def_dci_pdu_rel15[slot]`, the entries of the two formats. -/
structure UePdus where
  dl11 : DciPdu
  ul01 : DciPdu

/-- The PDU of a format. -/
def UePdus.get (e : UePdus) : NonFallback → DciPdu
  | .ul01 => e.ul01
  | .dl11 => e.dl11

/-- Another PDU for a format. -/
def UePdus.set (e : UePdus) : NonFallback → DciPdu → UePdus
  | .ul01, d => { e with ul01 := d }
  | .dl11, d => { e with dl11 := d }

/-- The identifier, stored in the PDU of its format. -/
def DciPdu.withIndicator (d : DciPdu) (v : Nat) : DciPdu := { d with formatIndicator := v }

/-- `nr_extract_dci_info` for the C-RNTI: the format, its PDU and where the walk ended. -/
def nrExtractDciInfo (c : DciConfig) (e : UePdus) (dci : Nat) (pos : Int) :
    NonFallback × DciPdu × Int :=
  let (indicator, pos) := readBits dci pos 1
  if indicator = 1 then
    (.dl11, extract11CRnti (e.dl11.withIndicator indicator) dci pos)
  else
    (.ul01, extract01CRnti (e.ul01.withIndicator indicator) dci pos c.ul.bwpSize)

/-- What the UE makes of a payload, found at the length of format `f`: the first bit decides which PDU
is read. -/
def ueReceiveDci (c : DciConfig) (f : NonFallback) (e : UePdus) (size word : Nat) :
    Option (NonFallback × DciPdu × Int) :=
  (f.nrDciSize c (e.get f)).bind fun sized =>
    if size = sized.1 then some (nrExtractDciInfo c (e.set f sized.2) word size) else none

/-! ## What the configuration makes of the widths -/

/-- The fields that the configuration leaves out have no width, the hopping flag, which the UE never
writes, no value either. -/
@[mk_iff]
structure Clear01 (c : DciConfig) (d : DciPdu) : Prop where
  carrier : c.sc.crossCarrierSchedulingConfig = false → c.sc.supplementaryUplink = false →
    d.carrierIndicator.nbits = 0
  ulSul : d.ulSulIndicator.nbits = 0
  hopping : hoppingFlag c = false → d.frequencyHoppingFlag = .zero
  dai1 : c.sc.pdschCgbTransmission.isSome = false → d.dai1.nbits = 0
  csi : c.sc.reportTriggerSize.isSome = false → d.csiRequest.nbits = 0
  cbgti : c.sc.puschCgbTransmission.isSome = false → d.cbgti.nbits = 0
  beta : c.ul.puschConfig.any PuschConfig.dynamicBetaOffsets = false →
    d.betaOffsetIndicator.nbits = 0
  dmrs : getTransformPrecoding c.ul ≠ .disabled → d.dmrsSequenceInitialization.nbits = 0

/-- The same for format 1_1; no configuration has fields for a second code word. -/
@[mk_iff]
structure Clear11 (c : DciConfig) (d : DciPdu) : Prop where
  carrier : c.sc.crossCarrierSchedulingConfig = false → d.carrierIndicator.nbits = 0
  vrb : c.dl.pdschConfig.any (fun p => p.resourceAllocation = .type1 && p.vrbToPrbInterleaver) =
    false → d.vrbToPrbMapping.nbits = 0
  bundling : c.dl.pdschConfig.any PdschConfig.dynamicBundling = false →
    d.prbBundlingSizeIndicator.nbits = 0
  rateMatching : c.dl.pdschConfig.any PdschConfig.rateMatchPatternGroup1 = false →
    c.dl.pdschConfig.any PdschConfig.rateMatchPatternGroup2 = false →
    d.rateMatchingIndicator.nbits = 0
  zp : (c.dl.pdschConfig.bind PdschConfig.aperiodicZpCsiRs).isSome = false →
    d.zpCsiRsTrigger.nbits = 0
  mcs2 : d.mcs2.nbits = 0
  ndi2 : d.ndi2.nbits = 0
  rv2 : d.rv2.nbits = 0
  dai0 : c.dynamicHarqAckCodebook = false → d.dai0.nbits = 0
  tci : c.tciPresentInDci = false → d.transmissionConfigurationIndication.nbits = 0
  cbgti : c.sc.pdschCgbTransmission.isSome = false → d.cbgti.nbits = 0
  cbgfi : c.sc.pdschCgbTransmission.any Prod.snd = false → d.cbgfi.nbits = 0

/-- No width is left that the configuration does not write. -/
def NonFallback.Clear (f : NonFallback) (c : DciConfig) (d : DciPdu) : Prop :=
  match f with
  | .ul01 => Clear01 c d
  | .dl11 => Clear11 c d

lemma nbits_sized {f : DciField} {b : Bool} (w : Nat) (h : b = false → f.nbits = 0) :
    (f.sized b w).nbits = if b then w else 0 := by
  cases b with
  | false => exact h rfl
  | true => rfl

lemma nbits_sized_groups {f : DciField} {g1 g2 : Bool}
    (h : g1 = false → g2 = false → f.nbits = 0) :
    ((f.sized (g1 && g2) 2).sized (g1 != g2) 1).nbits =
      if g1 != g2 then 1 else if g1 && g2 then 2 else 0 := by
  cases g1 <;> cases g2
  · exact h rfl rfl
  all_goals rfl

/-- The widths of `fields01` for a configuration. -/
def widths01 (c : DciConfig) (harq sri precoding antenna : Nat) : List Nat :=
  [1, 0, 0, if c.sc.nUlBwp < 2 then c.sc.nUlBwp else 2, ulFdaBits c, ulTdaBits c,
    if hoppingFlag c then 1 else 0, 5, 1, 2, harq, if c.dynamicHarqAckCodebook then 2 else 1,
    if c.sc.pdschCgbTransmission.isSome then 2 else 0, 2, sri, precoding, antenna, 2,
    if c.sc.reportTriggerSize.isSome then c.sc.reportTriggerSize.getD 0 else 0,
    if c.sc.puschCgbTransmission.isSome then 2 + (c.sc.puschCgbTransmission.getD 0) <<< 1 else 0,
    ptrsBits c, if c.ul.puschConfig.any PuschConfig.dynamicBetaOffsets then 2 else 0,
    if getTransformPrecoding c.ul = .disabled then 1 else 0, 1]

variable {f : NonFallback} {c : DciConfig} {d : DciPdu} {s : Filled} {e : UePdus}

lemma widths_sized01 (hclear : Clear01 c d) (hcross : c.sc.crossCarrierSchedulingConfig = false)
    (hsul : c.sc.supplementaryUplink = false) (harq sri precoding antenna : Nat) :
    (fields01 (sized01 c d harq sri precoding antenna).2).map Prod.fst =
      widths01 c harq sri precoding antenna := by
  have hcarrier : ((d.carrierIndicator.sized false 3).sized false 1).nbits = 0 :=
    hclear.carrier hcross hsul
  have hdmrs := nbits_sized 1 (fun h => hclear.dmrs (of_decide_eq_false h))
  simp only [fields01, sized01, map_cons, map_nil, widths01, hcarrier, hclear.ulSul, hcross,
    hsul, nbits_sized 1 (fun h => congrArg DciField.nbits (hclear.hopping h)),
    nbits_sized 2 hclear.dai1, nbits_sized _ hclear.csi, nbits_sized _ hclear.cbgti,
    nbits_sized 2 hclear.beta, hdmrs, decide_eq_true_eq, Bool.false_eq_true, if_false]

theorem size_sized01 (hcross : c.sc.crossCarrierSchedulingConfig = false)
    (hsul : c.sc.supplementaryUplink = false) (harq sri precoding antenna : Nat) :
    (sized01 c d harq sri precoding antenna).1 = (widths01 c harq sri precoding antenna).sum := by
  simp only [sized01, widths01, sum_cons, sum_nil, hcross, hsul, Bool.false_eq_true,
    if_false]
  omega

/-- The widths of `fields11` for a configuration. -/
def widths11 (c : DciConfig) (harq antenna : Nat) : List Nat :=
  [1, 0, if c.sc.nDlBwp < 2 then c.sc.nDlBwp else 2, dlFdaBits c, dlTdaBits c,
    if c.dl.pdschConfig.any (fun p => p.resourceAllocation = .type1 && p.vrbToPrbInterleaver) then 1
    else 0, 0,
    if c.dl.pdschConfig.any PdschConfig.rateMatchPatternGroup1 !=
      c.dl.pdschConfig.any PdschConfig.rateMatchPatternGroup2 then 1
    else if c.dl.pdschConfig.any PdschConfig.rateMatchPatternGroup1 &&
      c.dl.pdschConfig.any PdschConfig.rateMatchPatternGroup2 then 2 else 0,
    0, 5, 1, 2, 0, 0, 0, harq, if c.dynamicHarqAckCodebook then 2 else 0, 2, 3,
    ceilLog2 (c.ul.dlDataToUlAck.getD 8), antenna, 0, if c.sc.supplementaryUplink then 3 else 2, 0, 0,
    1]

/-- What `prepare_dci` has checked for format 1_1. -/
structure Accepted11 (c : DciConfig) : Prop where
  cross : c.sc.crossCarrierSchedulingConfig = false
  bundling : c.dl.pdschConfig.any PdschConfig.dynamicBundling = false
  zp : c.dl.pdschConfig.bind PdschConfig.aperiodicZpCsiRs = none
  tci : c.tciPresentInDci = false
  cbg : c.sc.pdschCgbTransmission = none

section

variable (hclear : Clear11 c d) (hacc : Accepted11 c)
include hclear hacc

lemma Clear11.refused :
    d.carrierIndicator.nbits = 0 ∧ d.prbBundlingSizeIndicator.nbits = 0 ∧
      d.zpCsiRsTrigger.nbits = 0 ∧ d.transmissionConfigurationIndication.nbits = 0 ∧
      d.cbgti.nbits = 0 ∧ d.cbgfi.nbits = 0 :=
  ⟨hclear.carrier hacc.cross, hclear.bundling hacc.bundling, hclear.zp (by rw [hacc.zp]; rfl),
    hclear.tci hacc.tci, hclear.cbgti (by rw [hacc.cbg]; rfl), hclear.cbgfi (by rw [hacc.cbg]; rfl)⟩

lemma widths_sized11 (harq antenna : Nat) :
    (fields11 (sized11 c d harq antenna).2).map Prod.fst = widths11 c harq antenna := by
  obtain ⟨hcarrier, hbundling, hzp, htci, hcbgti, hcbgfi⟩ := hclear.refused hacc
  have hoff : ∀ (f : DciField) (w : Nat), (f.sized false w).nbits = f.nbits := fun _ _ => rfl
  simp only [fields11, sized11, map_cons, map_nil, widths11,
    nbits_sized_groups hclear.rateMatching, nbits_sized 1 hclear.vrb, nbits_sized 2 hclear.dai0,
    hclear.mcs2, hclear.ndi2, hclear.rv2, hacc.cross, hacc.bundling, hacc.zp, hacc.tci, hacc.cbg,
    Option.isSome_none, Option.any_none, hoff, hcarrier, hbundling, hzp, htci, hcbgti, hcbgfi]

theorem size_sized11 (harq antenna : Nat) :
    (sized11 c d harq antenna).1 = (widths11 c harq antenna).sum +
      if c.dl.pdschConfig.bind PdschConfig.maxNrofCodeWordsScheduledByDci = some 2 then 8 else 0 := by
  obtain ⟨-, -, hzp, -⟩ := hclear.refused hacc
  have hoff : ∀ (f : DciField) (w : Nat), (f.sized false w).nbits = f.nbits := fun _ _ => rfl
  simp only [sized11, widths11, sum_cons, sum_nil,
    nbits_sized_groups hclear.rateMatching, hoff, hzp,
    hacc.cross, hacc.bundling, hacc.zp, hacc.tci, hacc.cbg,
    Option.isSome_none, Option.any_none, Bool.false_eq_true, if_false]
  omega

end

/-! ## The two walks -/

section Walk

variable {dci : Nat} {pos : Int} {d e : DciPdu}

theorem fields_extract11 (hw : (fields11 e).map Prod.fst = (fields11 d).map Prod.fst)
    (hi : e.formatIndicator = d.formatIndicator) (h : Holds dci pos (fields11 d).tail) :
    fields11 (extract11CRnti e dci pos).1 = fields11 d := by
  simp only [fields11, map_cons, List.cons.injEq] at hw
  obtain ⟨-, w1, w2, w3, w4, w5, w6, w7, w8, -, -, -, w9, w10, w11, w12, w13, -, -, w14, w15, w16,
    w17, w18, w19, -⟩ := hw
  obtain ⟨h1, h2, h3, h4, h5, h6, h7, h8, h9, h10, h11, h12, h13, h14, h15, h16, h17, h18, h19, h20,
    h21, h22, h23, h24, h25, -⟩ := h
  simp only [fields11, extract11CRnti, readBits_eq, hi, w1, w2, w3, w4, w5, w6, w7, w8, w9, w10, w11,
    w12, w13, w14, w15, w16, w17, w18, w19, h1, h2, h3, h4, h5, h6, h7, h8, h9, h10, h11, h12, h13,
    h14, h15, h16, h17, h18, h19, h20, h21, h22, h23, h24, h25]

lemma end_extract11 : (extract11CRnti e dci pos).2 = pos + 1 - width (fields11 e) := by
  simp only [extract11CRnti, readBits_eq, fields11, width_cons, width_nil]
  push_cast
  ring

theorem fields_extract01 {nRB : Nat} (hw : (fields01 e).map Prod.fst = (fields01 d).map Prod.fst)
    (hi : e.formatIndicator = d.formatIndicator) (hfda : d.frequencyDomainAssignment.nbits = rivBits nRB)
    (hhop : d.frequencyHoppingFlag = .zero) (hhop' : e.frequencyHoppingFlag = .zero)
    (h : Holds dci pos (fields01 d).tail) :
    fields01 (extract01CRnti e dci pos nRB).1 = fields01 d := by
  simp only [fields01, map_cons, List.cons.injEq] at hw
  obtain ⟨-, w1, w2, w3, w4, w5, -, -, -, -, w6, w7, w8, -, w9, w10, w11, w12, w13, w14, w15, w16, w17,
    -⟩ := hw
  simp only [fields01, tail_cons, holds_cons, hfda, hhop, DciField.zero, Nat.cast_zero,
    sub_zero] at h
  obtain ⟨h1, h2, h3, h4, h5, -, h6, h7, h8, h9, h10, h11, h12, h13, h14, h15, h16, h17, h18, h19,
    h20, h21, h22, -⟩ := h
  simp only [fields01, extract01CRnti, readBits_eq, hi, hhop, hhop', hfda, w1, w2, w3, w4, w5, w6, w7,
    w8, w9, w10, w11, w12, w13, w14, w15, w16, w17, h1, h2, h3, h4, h5, h6, h7, h8, h9, h10, h11, h12,
    h13, h14, h15, h16, h17, h18, h19, h20, h21, h22]

lemma end_extract01 (nRB : Nat) : (extract01CRnti e dci pos nRB).2 =
    pos + 1 - width (fields01 e) + e.frequencyHoppingFlag.nbits +
      (e.frequencyDomainAssignment.nbits - rivBits nRB) := by
  simp only [extract01CRnti, readBits_eq, fields01, width_cons, width_nil]
  push_cast
  ring

lemma fits_extract11 (hi : e.formatIndicator < 2 ^ 1) :
    Fits (fields11 (extract11CRnti e dci pos).1) := by
  simp only [fields11, extract11CRnti, readBits_eq, fits_cons, fits_nil, and_true]
  have hmod : ∀ v w, v % 2 ^ w < 2 ^ w := fun v w => Nat.mod_lt v (Nat.two_pow_pos w)
  simp only [hmod, hi, and_self]

end Walk

/-! ## What the gNB has filled -/

lemma fill01_inv (h : NonFallback.ul01.fill c d = some s) :
    ∃ harq sri precoding antenna, ulHarqBits c = some harq ∧
      computeSrsResourceIndicator c = some sri ∧ precodingWidth c d = some precoding ∧
      ulAntennaPortBits c = some antenna ∧
      c.sc.crossCarrierSchedulingConfig = false ∧ c.sc.supplementaryUplink = false ∧
      s.size = (sized01 c d harq sri precoding antenna).1 ∧ s.size ≤ 64 ∧
      s.pdu = { (sized01 c d harq sri precoding antenna).2 with
        formatIndicator := 0, srsRequest.val := 0, ulschIndicator := 1 } ∧
      s.payload = (fields01 s.pdu).foldl (Payload.field s.size) ⟨0, 0⟩ := by
  obtain ⟨sized, hsized, h⟩ := Option.bind_eq_some_iff.mp h
  obtain ⟨harq, hharq, hsized⟩ := Option.bind_eq_some_iff.mp hsized
  obtain ⟨sri, hsri, hsized⟩ := Option.bind_eq_some_iff.mp hsized
  obtain ⟨precoding, hprecoding, hsized⟩ := Option.bind_eq_some_iff.mp hsized
  obtain ⟨antenna, hantenna, rfl⟩ := Option.map_eq_some_iff.mp hsized
  split at h
  · cases h
  · next hsize =>
    obtain ⟨pdu, hpdu, rfl⟩ := Option.map_eq_some_iff.mp h
    change (if _ then none else some _) = some pdu at hpdu
    split at hpdu
    · cases hpdu
    · next hrefused =>
      rw [not_or, Bool.not_eq_true, Bool.not_eq_true] at hrefused
      exact ⟨harq, sri, precoding, antenna, hharq, hsri, hprecoding, hantenna, hrefused.1, hrefused.2,
        rfl, Nat.le_of_not_lt (fun hlt => hsize (.inr hlt)), (Option.some.inj hpdu).symm, rfl⟩

/-- The value `prepare_dci` gives the VRB-to-PRB mapping. -/
def preparedVrb (p : PdschConfig) : Nat := if p.vrbToPrbInterleaver then 1 else 0

/-- The value `prepare_dci` gives the rate matching indicator. -/
def preparedRateMatching (p : PdschConfig) : Nat :=
  (if p.rateMatchPatternGroup2 then 1 else 0) ||| (if p.rateMatchPatternGroup1 then 1 else 0) <<< 1

lemma fill11_inv (h : NonFallback.dl11.fill c d = some s) :
    ∃ p harq antenna, c.dl.pdschConfig = some p ∧ Accepted11 c ∧
      (∀ e, nrDciSize11 c e = some (sized11 c e harq antenna)) ∧
      s.size = (sized11 c d harq antenna).1 ∧ s.size ≤ 64 ∧
      s.pdu = { (sized11 c d harq antenna).2 with
        formatIndicator := 1
        vrbToPrbMapping.val := preparedVrb p
        rateMatchingIndicator.val := preparedRateMatching p
        srsRequest.val := 0 } ∧
      s.payload = (fields11 s.pdu).foldl (Payload.field s.size) ⟨0, 0⟩ := by
  obtain ⟨sized, hsized, h⟩ := Option.bind_eq_some_iff.mp h
  change nrDciSize11 c d = some sized at hsized
  unfold nrDciSize11 at hsized
  dsimp only at hsized
  split at hsized
  · cases hsized
  next hdmrs =>
  obtain ⟨harq, hharq, rfl⟩ := Option.map_eq_some_iff.mp hsized
  split at h
  · cases h
  next hsize =>
  obtain ⟨pdu, hpdu, rfl⟩ := Option.map_eq_some_iff.mp h
  obtain ⟨p, hp, hpdu⟩ := Option.bind_eq_some_iff.mp hpdu
  split at hpdu
  · cases hpdu
  next hrefused =>
  simp only [not_or, Bool.not_eq_true, Option.isSome_eq_false_iff, Option.isNone_iff_eq_none]
    at hrefused
  obtain ⟨hcross, hbundling, hzp, htci, -, -, hcbg⟩ := hrefused
  refine ⟨p, harq, _, hp, ⟨hcross, by rw [hp]; exact hbundling, by rw [hp]; exact hzp, htci, hcbg⟩,
    fun e => ?_, rfl, Nat.le_of_not_lt (fun hlt => hsize (.inr hlt)), (Option.some.inj hpdu).symm, rfl⟩
  unfold nrDciSize11
  rw [if_neg hdmrs, hharq]
  rfl

/-! ## The round trip -/

/-- The caller's values fit the widths that `nr_dci_size` gives them. -/
def NonFallback.Assigned (f : NonFallback) (c : DciConfig) (d : DciPdu) : Prop :=
  ∀ sized, f.nrDciSize c d = some sized → Fits (f.fields sized.2)

/-- **The round trip**: the writer ends at bit 0; the UE finds the format, every field with its width
and value, and ends at bit 0 too. -/
def NonFallback.RoundTrip (f : NonFallback) (c : DciConfig) (e : UePdus) (s : Filled) : Prop :=
  s.payload.pos = s.size ∧
    ∃ r, ueReceiveDci c f e s.size s.payload.word = some (f, r, 0) ∧ f.fields r = f.fields s.pdu

/-- No rate matching pattern in group 1 alone, no interleaved VRBs outside type 1. -/
def plainPdschConfig (c : DciConfig) : Bool :=
  c.dl.pdschConfig.all (fun p =>
    (!p.rateMatchPatternGroup1 || p.rateMatchPatternGroup2) &&
      (!p.vrbToPrbInterleaver || p.resourceAllocation = .type1))

/-- **The condition** on the configuration, and for 0_1 on the SRS resource of the UE's last DCI. -/
def NonFallback.Agrees (f : NonFallback) (c : DciConfig) (d : DciPdu) (e : UePdus) : Prop :=
  match f with
  | .ul01 =>
    hoppingFlag c = false ∧ ulFdaBits c = rivBits c.ul.bwpSize ∧
      precodingWidth c e.ul01 = precodingWidth c d
  | .dl11 =>
    c.dl.pdschConfig.bind PdschConfig.maxNrofCodeWordsScheduledByDci ≠ some 2 ∧
      plainPdschConfig c

lemma rivBits_le_fdaBits {alloc : ResourceAllocation} (h : alloc ≠ .type0) (numRbg riv : Nat) :
    riv ≤ fdaBits alloc numRbg riv := by
  cases alloc with
  | type0 => exact absurd rfl h
  | type1 => exact le_refl riv
  | dynamicSwitch =>
    unfold fdaBits
    dsimp only
    split <;> omega

lemma rivBits_le_of_hopping (h : hoppingFlag c = true) : rivBits c.ul.bwpSize ≤ ulFdaBits c := by
  obtain ⟨p, hp, hflag⟩ := (Option.any_eq_true _ _).mp h
  have hne : p.resourceAllocation ≠ .type0 := by
    rw [Bool.and_eq_true, bne_iff_ne] at hflag
    exact hflag.2
  unfold ulFdaBits
  rw [hp]
  exact rivBits_le_fdaBits hne _ _

lemma nrDciSize01_eq {harq sri antenna : Nat} (hharq : ulHarqBits c = some harq)
    (hsri : computeSrsResourceIndicator c = some sri)
    (hantenna : ulAntennaPortBits c = some antenna) (d : DciPdu) : nrDciSize01 c d =
      (precodingWidth c d).map (fun precoding => sized01 c d harq sri precoding antenna) := by
  unfold nrDciSize01
  rw [hharq, Option.bind_some, hsri, Option.bind_some, hantenna]
  cases precodingWidth c d <;> rfl

lemma fits_prepared01 (h : Fits (fields01 d)) :
    Fits (fields01 { d with formatIndicator := 0, srsRequest.val := 0, ulschIndicator := 1 }) := by
  simp only [fields01, fits_cons, fits_nil, and_true] at h ⊢
  obtain ⟨-, h1, h2, h3, h4, h5, h6, h7, h8, h9, h10, h11, h12, h13, h14, h15, h16, -, h18, h19, h20,
    h21, h22, -⟩ := h
  exact ⟨by decide, h1, h2, h3, h4, h5, h6, h7, h8, h9, h10, h11, h12, h13, h14, h15, h16,
    Nat.two_pow_pos _, h18, h19, h20, h21, h22, by decide⟩

section Format01

variable {c : DciConfig} {harq sri precoding precoding' antenna : Nat} {e d : DciPdu}

lemma nbits_of_widths01 (h : (fields01 e).map Prod.fst = widths01 c harq sri precoding antenna) :
    e.frequencyDomainAssignment.nbits = ulFdaBits c ∧
      e.frequencyHoppingFlag.nbits = if hoppingFlag c then 1 else 0 := by
  simp only [fields01, widths01, map_cons, List.cons.injEq] at h
  exact ⟨h.2.2.2.2.1, h.2.2.2.2.2.2.1⟩

lemma widths01_inj
    (h : widths01 c harq sri precoding' antenna = widths01 c harq sri precoding antenna) :
    precoding' = precoding := by
  simp only [widths01, List.cons.injEq, true_and, and_true] at h
  exact h

lemma widths_extract01 (e : DciPdu) (dci : Nat) (pos : Int) (nRB : Nat) :
    (fields01 (extract01CRnti e dci pos nRB).1).map Prod.fst = (fields01 e).map Prod.fst := rfl

section

variable {dci size : Nat} (hwidth : width (fields01 d) = size)
  (hd : (fields01 d).map Prod.fst = widths01 c harq sri precoding antenna)
include hwidth hd

lemma agrees_of_walk (he : (fields01 e).map Prod.fst = widths01 c harq sri precoding' antenna)
    (hend : (extract01CRnti e dci ((size : Int) - 1) c.ul.bwpSize).2 = 0)
    (hfields : fields01 (extract01CRnti e dci ((size : Int) - 1) c.ul.bwpSize).1 = fields01 d) :
    hoppingFlag c = false ∧ ulFdaBits c = rivBits c.ul.bwpSize ∧ precoding' = precoding := by
  have hsame : (fields01 e).map Prod.fst = (fields01 d).map Prod.fst :=
    (widths_extract01 ..).symm.trans (congrArg (List.map Prod.fst) hfields)
  obtain rfl : precoding' = precoding := widths01_inj (he.symm.trans (hsame.trans hd))
  have hewidth : width (fields01 e) = size := by rw [width_eq_sum, hsame, ← width_eq_sum, hwidth]
  obtain ⟨hfda, hhop⟩ := nbits_of_widths01 he
  rw [end_extract01, hewidth, hfda, hhop] at hend
  cases hflag : hoppingFlag c with
  | false =>
    rw [hflag] at hend
    exact ⟨rfl, by simp at hend; omega, rfl⟩
  | true =>
    -- the flag would have to be made up for by a narrower assignment
    have hle := rivBits_le_of_hopping hflag
    rw [hflag] at hend
    simp at hend
    omega

lemma walk_of_agrees (he : (fields01 e).map Prod.fst = widths01 c harq sri precoding antenna)
    (hi : e.formatIndicator = d.formatIndicator)
    (hfda : ulFdaBits c = rivBits c.ul.bwpSize) (hdhop : d.frequencyHoppingFlag = .zero)
    (hehop : e.frequencyHoppingFlag = .zero) (h : Holds dci ((size : Int) - 1) (fields01 d).tail) :
    (extract01CRnti e dci ((size : Int) - 1) c.ul.bwpSize).2 = 0 ∧
      fields01 (extract01CRnti e dci ((size : Int) - 1) c.ul.bwpSize).1 = fields01 d := by
  have hewidth : width (fields01 e) = size := by rw [width_eq_sum, he, ← hd, ← width_eq_sum, hwidth]
  obtain ⟨hefda, -⟩ := nbits_of_widths01 he
  obtain ⟨hdfda, -⟩ := nbits_of_widths01 hd
  refine ⟨?_, fields_extract01 (he.trans hd.symm) hi (hdfda.trans hfda) hdhop hehop h⟩
  rw [end_extract01, hewidth, hefda, hfda, hehop]
  simp [DciField.zero]

end

end Format01

lemma roundTrip01_iff (hd : Clear01 c d) (he : Clear01 c e.ul01)
    (hfill : NonFallback.ul01.fill c d = some s) (hfit : NonFallback.ul01.Assigned c d) :
    NonFallback.ul01.RoundTrip c e s ↔ NonFallback.ul01.Agrees c d e := by
  obtain ⟨harq, sri, precoding, antenna, hharq, hsri, hprecoding, hantenna, hcross, hsul, hsize, hle,
    hpdu, hpayload⟩ := fill01_inv hfill
  have hwidths : (fields01 s.pdu).map Prod.fst = widths01 c harq sri precoding antenna := by
    rw [hpdu, ← widths_sized01 hd hcross hsul]
    rfl
  have hwidth : width (fields01 s.pdu) = s.size := by
    rw [width_eq_sum, hwidths, hsize, size_sized01 hcross hsul]
  have hwritten : Written s.size 0 (fields01 s.pdu) s.payload := by
    have hassigned := hfit (sized01 c d harq sri precoding antenna)
      (by show nrDciSize01 c d = _; rw [nrDciSize01_eq hharq hsri hantenna, hprecoding]; rfl)
    rw [hpayload]
    refine written_fields _ ?_ (le_of_eq hwidth) hle
    rw [hpdu]
    exact fits_prepared01 hassigned
  have hzero : s.pdu.formatIndicator = 0 := by rw [hpdu]
  obtain ⟨hid, hrest⟩ := readBits_of_carries hwritten.carries
  rw [hzero] at hid
  unfold NonFallback.RoundTrip NonFallback.Agrees ueReceiveDci
  rw [hprecoding, show NonFallback.ul01.nrDciSize c (e.get .ul01) = _ from
    nrDciSize01_eq hharq hsri hantenna e.ul01]
  cases precodingWidth c e.ul01 with
  | none => exact ⟨fun ⟨_, r, h, _⟩ => (nomatch h), fun ⟨_, _, h⟩ => (nomatch h)⟩
  | some precoding' =>
    rw [Option.map_some, Option.bind_some]
    have hwidths' := widths_sized01 he hcross hsul harq sri precoding' antenna
    have hsize' := size_sized01 (d := e.ul01) hcross hsul harq sri precoding' antenna
    have hinfo : nrExtractDciInfo c
        (e.set .ul01 (sized01 c e.ul01 harq sri precoding' antenna).2) s.payload.word s.size =
        (.ul01, extract01CRnti
          ((sized01 c e.ul01 harq sri precoding' antenna).2.withIndicator 0)
          s.payload.word ((s.size : Int) - 1) c.ul.bwpSize) := by
      unfold nrExtractDciInfo
      rw [hid]
      rfl
    rw [hinfo]
    constructor
    · rintro ⟨-, r, hfound, hfields⟩
      split at hfound
      · have hwalk := (Prod.ext_iff.mp (Option.some.inj hfound)).2
        obtain ⟨hhop, hfda, rfl⟩ := agrees_of_walk
          (e := (sized01 c e.ul01 harq sri precoding' antenna).2.withIndicator 0)
          hwidth hwidths hwidths' (congrArg Prod.snd hwalk)
          ((congrArg (fun x : DciPdu × Int => fields01 x.1) hwalk).trans hfields)
        exact ⟨hhop, hfda, rfl⟩
      · cases hfound
    · rintro ⟨hhop, hfda, hpre⟩
      obtain rfl := Option.some.inj hpre
      have hdhop : s.pdu.frequencyHoppingFlag = .zero := by
        rw [hpdu]
        show d.frequencyHoppingFlag.sized (hoppingFlag c) 1 = _
        rw [hhop]
        exact hd.hopping hhop
      have hehop : (sized01 c e.ul01 harq sri precoding' antenna).2.frequencyHoppingFlag = .zero := by
        show e.ul01.frequencyHoppingFlag.sized (hoppingFlag c) 1 = _
        rw [hhop]
        exact he.hopping hhop
      obtain ⟨hend, hfields⟩ := walk_of_agrees
        (e := (sized01 c e.ul01 harq sri precoding' antenna).2.withIndicator 0)
        hwidth hwidths hwidths' hzero.symm hfda hdhop hehop hrest
      refine ⟨by rw [hwritten.pos, Nat.add_zero, hwidth], _, ?_, hfields⟩
      rw [if_pos (by rw [hsize', ← hwidth, width_eq_sum, hwidths])]
      exact congrArg some (Prod.ext rfl (Prod.ext rfl hend))

section Format11

variable {c : DciConfig} {harq antenna : Nat} {d : DciPdu}

lemma fits_prepared11_iff (p : PdschConfig) (h : Fits (fields11 d)) :
    Fits (fields11 { d with
        formatIndicator := 1
        vrbToPrbMapping.val := preparedVrb p
        rateMatchingIndicator.val := preparedRateMatching p
        srsRequest.val := 0 }) ↔
      preparedVrb p < 2 ^ d.vrbToPrbMapping.nbits ∧
        preparedRateMatching p < 2 ^ d.rateMatchingIndicator.nbits := by
  simp only [fields11, fits_cons, fits_nil, and_true] at h ⊢
  obtain ⟨-, h1, h2, h3, h4, -, h6, -, h8, h9, h10, h11, h12, h13, h14, h15, h16, h17, h18, h19, h20,
    h21, -, h23, h24, h25⟩ := h
  constructor
  · rintro ⟨-, -, -, -, -, hvrb, -, hrate, -⟩
    exact ⟨hvrb, hrate⟩
  · rintro ⟨hvrb, hrate⟩
    exact ⟨by decide, h1, h2, h3, h4, hvrb, h6, hrate, h8, h9, h10, h11, h12, h13, h14, h15, h16, h17,
      h18, h19, h20, h21, Nat.two_pow_pos _, h23, h24, h25⟩

lemma prepared11_lt_iff {p : PdschConfig} (hp : c.dl.pdschConfig = some p)
    (h : (fields11 d).map Prod.fst = widths11 c harq antenna) :
    (preparedVrb p < 2 ^ d.vrbToPrbMapping.nbits ∧
        preparedRateMatching p < 2 ^ d.rateMatchingIndicator.nbits) ↔
      plainPdschConfig c := by
  simp only [fields11, widths11, map_cons, List.cons.injEq] at h
  obtain ⟨-, -, -, -, -, hvrb, -, hrate, -⟩ := h
  rw [hvrb, hrate, hp]
  have hvrbFits : ∀ interleaver type1 : Bool,
      (if interleaver then 1 else 0) < 2 ^ (if type1 && interleaver then 1 else 0) ↔
        !interleaver || type1 := by decide
  have hrateFits : ∀ group1 group2 : Bool,
      (if group2 then 1 else 0) ||| (if group1 then 1 else 0) <<< 1 <
        2 ^ (if group1 != group2 then 1 else if group1 && group2 then 2 else 0) ↔
        !group1 || group2 := by decide
  apply Iff.trans (and_congr (hvrbFits _ _) (hrateFits _ _))
  rw [plainPdschConfig, hp, Option.all_some, Bool.and_eq_true]
  exact and_comm

end Format11

lemma roundTrip11_iff (hd : Clear11 c d) (he : Clear11 c e.dl11)
    (hfill : NonFallback.dl11.fill c d = some s) (hfit : NonFallback.dl11.Assigned c d) :
    NonFallback.dl11.RoundTrip c e s ↔ NonFallback.dl11.Agrees c d e := by
  obtain ⟨p, harq, antenna, hp, hacc, hsizes, hsize, hle, hpdu, hpayload⟩ := fill11_inv hfill
  have hwidths : (fields11 s.pdu).map Prod.fst = widths11 c harq antenna := by
    rw [hpdu, ← widths_sized11 hd hacc]
    rfl
  have hwidths' := widths_sized11 he hacc harq antenna
  have hsame : (sized11 c e.dl11 harq antenna).1 = s.size := by
    rw [hsize, size_sized11 hd hacc, size_sized11 he hacc]
  have hfits : Fits (fields11 s.pdu) ↔ plainPdschConfig c := by
    rw [hpdu, fits_prepared11_iff p (hfit _ (hsizes d)),
      prepared11_lt_iff hp (widths_sized11 hd hacc harq antenna)]
  have hlast : s.payload.pos = s.size ↔
      c.dl.pdschConfig.bind PdschConfig.maxNrofCodeWordsScheduledByDci ≠ some 2 := by
    rw [hpayload, pos_foldl_field, width_eq_sum, hwidths, hsize, size_sized11 hd hacc]
    split <;> simp_all
  unfold NonFallback.RoundTrip NonFallback.Agrees ueReceiveDci
  rw [show NonFallback.dl11.nrDciSize c (e.get .dl11) = _ from hsizes e.dl11, Option.bind_some,
    if_pos hsame.symm, hlast, ← hfits]
  refine and_congr_right fun hone => ⟨?_, fun hfit' => ?_⟩
  · rintro ⟨r, hfound, hfields⟩
    -- whatever was read fits, and what was read is what was prepared
    unfold nrExtractDciInfo at hfound
    dsimp only at hfound
    split at hfound
    · next hid =>
      have hwalk := (Prod.ext_iff.mp (Option.some.inj hfound)).2
      obtain rfl : _ = r := congrArg Prod.fst hwalk
      change fields11 _ = fields11 s.pdu at hfields
      rw [← hfields]
      exact fits_extract11 (lt_of_le_of_lt (le_of_eq hid) (by decide))
    · cases hfound
  · have hwidth : width (fields11 s.pdu) = s.size := by
      rw [← hlast.mpr hone, hpayload, pos_foldl_field, Nat.zero_add]
    have hwritten : Written s.size 0 (fields11 s.pdu) s.payload := by
      rw [hpayload]
      exact written_fields _ hfit' (le_of_eq hwidth) hle
    have hone' : s.pdu.formatIndicator = 1 := by rw [hpdu]
    obtain ⟨hid, hrest⟩ := readBits_of_carries hwritten.carries
    rw [hone'] at hid
    have hinfo : nrExtractDciInfo c (e.set .dl11 (sized11 c e.dl11 harq antenna).2)
        s.payload.word s.size = (.dl11, extract11CRnti ((sized11 c e.dl11 harq antenna).2.withIndicator 1)
          s.payload.word ((s.size : Int) - 1)) := by
      unfold nrExtractDciInfo
      rw [hid]
      rfl
    rw [hinfo]
    refine ⟨_, congrArg some (Prod.ext rfl (Prod.ext rfl ?_)),
      fields_extract11 (hwidths'.trans hwidths.symm) hone'.symm hrest⟩
    rw [end_extract11, width_eq_sum]
    change (s.size : Int) - 1 + 1 - ((fields11 (sized11 c e.dl11 harq antenna).2).map Prod.fst).sum = 0
    rw [hwidths', ← hwidths, ← width_eq_sum, hwidth]
    omega

lemma NonFallback.clear_zero (f : NonFallback) (c : DciConfig) : f.Clear c .zero := by
  cases f with
  | ul01 => constructor <;> intros <;> rfl
  | dl11 => constructor <;> intros <;> rfl

/-! ## The round trip of either format -/

/-- **The non-fallback formats come back whole** exactly where writer and reader agree. -/
theorem non_fallback_round_trip_iff (f : NonFallback) (c : DciConfig) (d : DciPdu) (e : UePdus)
    (s : Filled) (hd : f.Clear c d) (he : f.Clear c (e.get f))
    (hfill : f.fill c d = some s) (hfit : f.Assigned c d) : f.RoundTrip c e s ↔ f.Agrees c d e := by
  cases f with
  | ul01 => exact roundTrip01_iff hd he hfill hfit
  | dl11 => exact roundTrip11_iff hd he hfill hfit

/-! ### On one cell -/

/-- Codebook transmission, type 1 allocation, no hopping. -/
def plainPusch : PuschConfig where
  txConfig := some .codebook
  dmrsMappingTypeA := none
  dmrsMappingTypeB := some ⟨false, false, false⟩
  frequencyHopping := false
  resourceAllocation := .type1
  timeDomainAllocationList := none
  transformPrecoder := none
  codebookSubset := some .fullyAndPartialAndNonCoherent
  maxRank := some 1
  rbgSize := false
  fullpowerMode1 := false
  dynamicBetaOffsets := false
  harqProcessNumberSizeDci01 := false

/-- Type 1 allocation without interleaver, one code word. -/
def plainPdsch : PdschConfig where
  dmrsMappingTypeA := some ⟨false, false⟩
  dmrsMappingTypeB := none
  vrbToPrbInterleaver := false
  resourceAllocation := .type1
  timeDomainAllocationList := none
  rateMatchPatternGroup1 := false
  rateMatchPatternGroup2 := false
  rbgSizeConfig2 := false
  maxNrofCodeWordsScheduledByDci := none
  dynamicBundling := false
  aperiodicZpCsiRs := none
  harqProcessNumberSizeDci11 := false

lemma carrier106_legal : 0 < 106 ∧ 106 < 276 := by decide

/-- A carrier of 106 RBs. -/
def carrier106 (pusch : PuschConfig) (pdsch : PdschConfig) (srs : Option SrsConfig) : DciConfig where
  sc := ⟨false, false, 1, 1, none, none, none, none, none, false, false⟩
  ul := ⟨⟨106, carrier106_legal⟩, 0, some pusch, srs, some 4, false, some 8⟩
  dl := ⟨⟨106, carrier106_legal⟩, 0, some pdsch, some 4⟩
  dynamicHarqAckCodebook := true
  ssType := .ueSpecific
  controlResourceSetId := 1
  tciPresentInDci := false
  phyTest := false

lemma assigned_of_all
    (h : (f.nrDciSize c d).all (fun sized => (f.fields sized.2).all (fun g => decide (g.2 < 2 ^ g.1)))) :
    f.Assigned c d := by
  intro sized hsized
  rw [hsized, Option.all_some, all_eq_true] at h
  exact fun g hg => of_decide_eq_true (h g hg)

theorem non_fallback_round_trip_plain :
    (∃ s, NonFallback.ul01.fill (carrier106 plainPusch plainPdsch none) { DciPdu.zero with mcs := 9 } =
        some s ∧
      NonFallback.ul01.RoundTrip (carrier106 plainPusch plainPdsch none) ⟨.zero, .zero⟩ s) ∧
    ∃ s, NonFallback.dl11.fill (carrier106 plainPusch plainPdsch none) { DciPdu.zero with mcs := 9 } =
        some s ∧
      NonFallback.dl11.RoundTrip (carrier106 plainPusch plainPdsch none) ⟨.zero, .zero⟩ s := by
  constructor
  · obtain ⟨s, hs⟩ : ∃ s, NonFallback.ul01.fill (carrier106 plainPusch plainPdsch none)
        { DciPdu.zero with mcs := 9 } = some s := Option.isSome_iff_exists.mp (by decide +kernel)
    refine ⟨s, hs, (non_fallback_round_trip_iff .ul01 _ _ _ _ ?_ (NonFallback.clear_zero _ _) hs
      (assigned_of_all (by decide +kernel))).mpr ⟨by decide, by decide +kernel, rfl⟩⟩
    constructor <;> intros <;> rfl
  · obtain ⟨s, hs⟩ : ∃ s, NonFallback.dl11.fill (carrier106 plainPusch plainPdsch none)
        { DciPdu.zero with mcs := 9 } = some s := Option.isSome_iff_exists.mp (by decide +kernel)
    refine ⟨s, hs, (non_fallback_round_trip_iff .dl11 _ _ _ _ ?_ (NonFallback.clear_zero _ _) hs
      (assigned_of_all (by decide +kernel))).mpr ⟨by decide, by decide⟩⟩
    constructor <;> intros <;> rfl

/-- A DCI that the gNB sends and that does not come back. -/
structure NonFallback.Breaks (f : NonFallback) (c : DciConfig) (d : DciPdu) (e : UePdus) : Prop where
  clear : f.Clear c d
  clearUe : f.Clear c (e.get f)
  assigned : f.Assigned c d
  broken : ∃ s, f.fill c d = some s ∧ ¬f.RoundTrip c e s

/-- Whether the UE reads the fields that were written. -/
def NonFallback.comesBack (f : NonFallback) (c : DciConfig) (d : DciPdu) (e : UePdus) : Option Bool :=
  (f.fill c d).map fun s =>
    decide ((ueReceiveDci c f e s.size s.payload.word).map (fun r => (r.1, f.fields r.2.1, r.2.2)) =
      some (f, f.fields s.pdu, 0))

lemma broken_of_comesBack (h : f.comesBack c d e = some false) :
    ∃ s, f.fill c d = some s ∧ ¬f.RoundTrip c e s := by
  obtain ⟨s, hs, hreceived⟩ := Option.map_eq_some_iff.mp h
  refine ⟨s, hs, ?_⟩
  rintro ⟨-, r, hr, hfields⟩
  apply of_decide_eq_false hreceived
  rw [hr, Option.map_some, hfields]

lemma breaks_zero (hfit : f.Assigned c .zero)
    (h : f.comesBack c .zero ⟨.zero, .zero⟩ = some false) : f.Breaks c .zero ⟨.zero, .zero⟩ where
  clear := f.clear_zero c
  clearUe := by
    cases f with
    | ul01 => exact NonFallback.clear_zero .ul01 c
    | dl11 => exact NonFallback.clear_zero .dl11 c
  assigned := hfit
  broken := broken_of_comesBack h

/-- **The slips at work**: frequency hopping, a resource allocation of either type, an SRS resource with
more ports than the last, rate matching in group 1 only, VRBs interleaved in type 0. -/
theorem non_fallback_round_trip_broken :
    NonFallback.ul01.Breaks (carrier106 { plainPusch with frequencyHopping := true } plainPdsch none)
        .zero ⟨.zero, .zero⟩ ∧
      NonFallback.ul01.Breaks
        (carrier106 { plainPusch with resourceAllocation := .dynamicSwitch } plainPdsch none)
        .zero ⟨.zero, .zero⟩ ∧
      NonFallback.ul01.Breaks
        (carrier106 plainPusch plainPdsch (some ⟨[.codebook, .codebook], [0, 1]⟩))
        { DciPdu.zero with srsResourceIndicator.val := 1 } ⟨.zero, .zero⟩ ∧
      NonFallback.dl11.Breaks
        (carrier106 plainPusch { plainPdsch with rateMatchPatternGroup1 := true } none)
        .zero ⟨.zero, .zero⟩ ∧
      NonFallback.dl11.Breaks
        (carrier106 plainPusch
          { plainPdsch with resourceAllocation := .type0, vrbToPrbInterleaver := true } none)
        .zero ⟨.zero, .zero⟩ := by
  refine ⟨breaks_zero (assigned_of_all ?_) ?_, breaks_zero (assigned_of_all ?_) ?_,
    ⟨⟨?_, ?_, ?_, ?_, ?_, ?_, ?_, ?_⟩, NonFallback.clear_zero _ _, assigned_of_all ?_,
      broken_of_comesBack ?_⟩,
    breaks_zero (assigned_of_all ?_) ?_, breaks_zero (assigned_of_all ?_) ?_⟩
  all_goals decide +kernel

end NrStack.Dci
