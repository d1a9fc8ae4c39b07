/-
  The widths of the non-fallback formats 0_1 and 1_1.

  `nr_dci_size` walks the RRC configuration and sets the width of every optional field.  gNB and UE call it
  on the same configuration, each on its own `dci_pdu_rel15_t`; a field that the configuration leaves out
  keeps the width it had.  The width of the precoding information follows the SRS resource of
  `srs_resource_indicator.val`, on the gNB the value about to be sent and on the UE that of an EARLIER DCI.

  A failed assertion and a NULL pointer are `none`.
-/
import NrStack.Mac.Dci

namespace NrStack.Dci

/-! ## Configuration -/

/-- `resourceAllocation` of PUSCH-Config and PDSCH-Config. -/
inductive ResourceAllocation where
  | type0 | type1 | dynamicSwitch
  deriving DecidableEq, Repr

/-- `txConfig` of PUSCH-Config. -/
inductive TxConfig where
  | codebook | nonCodebook
  deriving DecidableEq, Repr

/-- `codebookSubset` of PUSCH-Config. -/
inductive CodebookSubset where
  | fullyAndPartialAndNonCoherent | partialAndNonCoherent | nonCoherent
  deriving DecidableEq, Repr

/-- `transformPrecoder` of PUSCH-Config. -/
inductive TransformPrecoder where
  | enabled | disabled
  deriving DecidableEq, Repr

/-- `usage` of an SRS resource set. -/
inductive SrsUsage where
  | beamManagement | codebook | nonCodebook | antennaSwitching
  deriving DecidableEq, Repr

/-- `srs_TPC_PDCCH_Group` of SRS-CarrierSwitching. -/
inductive SrsTpcPdcchGroup where
  | nothing | typeA | typeB
  deriving DecidableEq, Repr

/-- SRS-Config: the usage of each resource set, and `nrofSRS_Ports` (0, 1, 2) of each resource. -/
structure SrsConfig where
  resourceSets : List SrsUsage
  nrofSrsPorts : List Nat

/-- DMRS-UplinkConfig: whether each element is configured. -/
structure DmrsUplinkConfig where
  dmrsType : Bool
  maxLength : Bool
  phaseTrackingRS : Bool

/-- PUSCH-Config.  Time domain lists are given by their length. -/
structure PuschConfig where
  txConfig : Option TxConfig
  dmrsMappingTypeA : Option DmrsUplinkConfig
  dmrsMappingTypeB : Option DmrsUplinkConfig
  frequencyHopping : Bool
  resourceAllocation : ResourceAllocation
  timeDomainAllocationList : Option Nat
  transformPrecoder : Option TransformPrecoder
  codebookSubset : Option CodebookSubset
  maxRank : Option Nat
  rbgSize : Bool
  fullpowerMode1 : Bool
  dynamicBetaOffsets : Bool
  harqProcessNumberSizeDci01 : Bool

/-- `NR_UE_UL_BWP_t`. -/
structure UlBwp where
  bwpSize : BwpSize
  bwpStart : Nat
  puschConfig : Option PuschConfig
  srsConfig : Option SrsConfig
  tdaListCommon : Option Nat
  msg3TransformPrecoder : Bool
  dlDataToUlAck : Option Nat

/-- DMRS-DownlinkConfig: whether each element is configured. -/
structure DmrsDownlinkConfig where
  dmrsType : Bool
  maxLength : Bool

/-- PDSCH-Config. -/
structure PdschConfig where
  dmrsMappingTypeA : Option DmrsDownlinkConfig
  dmrsMappingTypeB : Option DmrsDownlinkConfig
  vrbToPrbInterleaver : Bool
  resourceAllocation : ResourceAllocation
  timeDomainAllocationList : Option Nat
  rateMatchPatternGroup1 : Bool
  rateMatchPatternGroup2 : Bool
  rbgSizeConfig2 : Bool
  maxNrofCodeWordsScheduledByDci : Option Nat
  dynamicBundling : Bool
  aperiodicZpCsiRs : Option Nat
  harqProcessNumberSizeDci11 : Bool

/-- `NR_UE_DL_BWP_t`. -/
structure DlBwp where
  bwpSize : BwpSize
  bwpStart : Nat
  pdschConfig : Option PdschConfig
  tdaListCommon : Option Nat

/-- `NR_UE_ServingCell_Info_t`. -/
structure ServingCellInfo where
  crossCarrierSchedulingConfig : Bool
  supplementaryUplink : Bool
  nUlBwp : Nat
  nDlBwp : Nat
  pdschCgbTransmission : Option (Nat × Bool)
  puschCgbTransmission : Option Nat
  maxMimoLayersPusch : Option Nat
  reportTriggerSize : Option Nat
  srsTpcPdcchGroup : Option SrsTpcPdcchGroup
  nrofHarqProcesses32Pdsch : Bool
  nrofHarqProcesses32Pusch : Bool

/-- What the two formats depend on, the same on both sides. -/
structure DciConfig where
  sc : ServingCellInfo
  ul : UlBwp
  dl : DlBwp
  dynamicHarqAckCodebook : Bool
  ssType : SsType
  controlResourceSetId : Nat
  tciPresentInDci : Bool
  phyTest : Bool

/-! ## Widths that the configuration alone decides -/

/-- `getRBGSize` -/
def getRbgSize (bwpSize : Nat) (rbgSizeConfig : Bool) : Nat :=
  if bwpSize < 37 then (if rbgSizeConfig then 4 else 2)
  else if bwpSize < 73 then (if rbgSizeConfig then 8 else 4)
  else if bwpSize < 145 then (if rbgSizeConfig then 16 else 8)
  else 16

/-- `getNRBG`, the quotient rounded up. -/
def getNrbg (bwpSize bwpStart : Nat) (rbgSizeConfig : Bool) : Nat :=
  let rbgSize := getRbgSize bwpSize rbgSizeConfig
  (bwpSize + bwpStart % rbgSize + rbgSize - 1) / rbgSize

/-- The width of a frequency domain assignment. -/
def fdaBits (alloc : ResourceAllocation) (numRbg riv : Nat) : Nat :=
  match alloc with
  | .type0 => numRbg
  | .type1 => riv
  | .dynamicSwitch => if numRbg < riv then riv + 1 else numRbg + 1

/-- The list a C-RNTI assignment indexes, dedicated or common; the default table has 16 entries. -/
def tdaEntries (c : DciConfig) (dedicated common : Option Nat) : Nat :=
  if ¬(c.ssType = .common ∧ c.controlResourceSetId = 0) ∧ dedicated.isSome then dedicated.getD 16
  else common.getD 16

/-- `get_transformPrecoding` for a dynamic grant of format 0_1. -/
def getTransformPrecoding (ul : UlBwp) : TransformPrecoder :=
  match ul.puschConfig.bind PuschConfig.transformPrecoder with
  | some tp => tp
  | none => if ul.msg3TransformPrecoder then .enabled else .disabled

/-- `ul_ant_bits` -/
def ulAntBits (dmrs : DmrsUplinkConfig) (tp : TransformPrecoder) : Option Nat :=
  let type := if dmrs.dmrsType then 2 else 1
  let maxl := if dmrs.maxLength then 2 else 1
  match tp with
  | .disabled => some (maxl + type + 1)
  | .enabled => if type = 1 then some (maxl <<< 1) else none

/-- `getAntPortBitWidth`, one mapping type. -/
def antPortBits (dmrs : DmrsDownlinkConfig) : Nat :=
  (if dmrs.dmrsType then 2 else 1) + (if dmrs.maxLength then 2 else 1) + 2

/-- The wider of the two mapping types. -/
def getAntPortBitWidth (typeA typeB : Option DmrsDownlinkConfig) : Nat :=
  max ((typeA.map antPortBits).getD 0) ((typeB.map antPortBits).getD 0)

/-- The loop has the coefficient so far and the `n` that it lowers; 0 on an overflow. -/
def binomial (n k : Nat) : Nat :=
  let turn := fun (s : Nat × Nat) i =>
    if (2 ^ 32 - 1) / s.2 < s.1 / (i + 1) then none
    else some (s.1 / (i + 1) * s.2 + s.1 % (i + 1) * s.2 / (i + 1), s.2 - 1)
  (((List.range (min k (n - k))).foldlM turn (1, n)).map Prod.fst).getD 0

/-- `compute_srs_resource_indicator`, the width. -/
def computeSrsResourceIndicator (c : DciConfig) : Option Nat :=
  match c.ul.srsConfig, c.ul.puschConfig.bind PuschConfig.txConfig with
  | some srs, some .codebook =>
    let count := srs.resourceSets.countP (· = .codebook)
    some (if 0 < count then ceilLog2 count else 0)
  | some srs, some .nonCodebook =>
    c.sc.maxMimoLayersPusch.map fun lmax =>
      let count := srs.resourceSets.countP (· = .nonCodebook)
      let lsum := ((List.range (min count lmax)).map (fun k => binomial count (k + 1))).sum
      if 0 < lsum then ceilLog2 lsum else 0
  | _, _ => some 0

/-- `get_pusch_nb_antenna_ports` -/
def getPuschNbAntennaPorts (c : DciConfig) (sri : DciField) : Option Nat :=
  if c.phyTest then c.ul.puschConfig.bind PuschConfig.maxRank
  else
    match c.ul.srsConfig with
    | some srs =>
      if .codebook ∈ srs.resourceSets then
        (srs.nrofSrsPorts[if 0 < sri.nbits then sri.val else 0]?).map (1 <<< ·)
      else some 1
    | none => some 1

/-- `compute_precoding_information` for two antenna ports. -/
def precodingBits2 (p : PuschConfig) (maxRank : Nat) : Nat :=
  if maxRank = 1 then
    if p.fullpowerMode1 then 2
    else if p.codebookSubset = some .nonCoherent then 1 else 3
  else
    if p.fullpowerMode1 then 2
    else if p.codebookSubset = some .nonCoherent then 2 else 4

/-- `compute_precoding_information` for four antenna ports. -/
def precodingBits4 (p : PuschConfig) (maxRank : Nat) : Nat :=
  if maxRank = 1 then
    if p.fullpowerMode1 then (if p.codebookSubset = some .nonCoherent then 3 else 4)
    else if p.codebookSubset = some .nonCoherent then 2
    else if p.codebookSubset = some .partialAndNonCoherent then 4
    else 5
  else if p.fullpowerMode1 then
    if maxRank = 2 then (if p.codebookSubset = some .nonCoherent then 4 else 5)
    else (if p.codebookSubset = some .nonCoherent then 4 else 6)
  else if p.codebookSubset = some .nonCoherent then 4
  else if p.codebookSubset = some .partialAndNonCoherent then 5
  else 6

/-- `compute_precoding_information`, the width. -/
def computePrecodingInformation (c : DciConfig) (sri : DciField) : Option Nat :=
  match getPuschNbAntennaPorts c sri with
  | none => none
  | some ports =>
    match c.ul.puschConfig with
    | none => some 0
    | some p =>
      if p.txConfig = some .nonCodebook ∨ ports = 1 then some 0
      else
        p.maxRank.map fun maxRank =>
          if ports = 2 then precodingBits2 p maxRank
          else if ports = 4 then precodingBits4 p maxRank
          else 0

/-- The DMRS configuration that `nr_dci_size` looked at last. -/
def lastDmrs (p : PuschConfig) : Option DmrsUplinkConfig := p.dmrsMappingTypeB.or p.dmrsMappingTypeA

/-- `ul_ant_bits` of a mapping type, if it is configured. -/
def ulAntBitsOf (dmrs : Option DmrsUplinkConfig) (tp : TransformPrecoder) : Option Nat :=
  match dmrs with
  | none => some 0
  | some dmrs => ulAntBits dmrs tp

/-- The width of the antenna ports of 0_1; `none` is a failed assertion. -/
def ulAntennaPortBits (c : DciConfig) : Option Nat :=
  match c.ul.puschConfig with
  | none => some 0
  | some p =>
    let tp := getTransformPrecoding c.ul
    (ulAntBitsOf p.dmrsMappingTypeA tp).bind fun xa =>
      (ulAntBitsOf p.dmrsMappingTypeB tp).map fun xb => if xb < xa then xa else xb

/-- PTRS-DMRS association of format 0_1. -/
def ptrsBits (c : DciConfig) : Nat :=
  let tp := getTransformPrecoding c.ul
  let dmrs := c.ul.puschConfig.bind lastDmrs
  let rank1 := c.ul.puschConfig.bind PuschConfig.maxRank = some 1
  if (dmrs.any (fun d => !d.phaseTrackingRS) ∧ tp = .disabled) ∨ tp = .enabled ∨ rank1 then 0 else 2

/-- `get_nrofHARQ_bits_PUSCH` for format 0_1: five bits only with 32 processes. -/
def ulHarqBits (c : DciConfig) : Option Nat :=
  if c.ul.puschConfig.any PuschConfig.harqProcessNumberSizeDci01 then
    (if c.sc.nrofHarqProcesses32Pusch then some 5 else none)
  else some 4

/-- `get_nrofHARQ_bits_PDSCH` for format 1_1. -/
def dlHarqBits (c : DciConfig) : Option Nat :=
  if c.dl.pdschConfig.any PdschConfig.harqProcessNumberSizeDci11 then
    (if c.sc.nrofHarqProcesses32Pdsch then some 5 else none)
  else some 4

/-- Format 0_1 has a frequency hopping flag. -/
def hoppingFlag (c : DciConfig) : Bool :=
  c.ul.puschConfig.any (fun p => p.frequencyHopping && p.resourceAllocation != .type0)

/-- The width of the frequency domain assignment of 0_1. -/
def ulFdaBits (c : DciConfig) : Nat :=
  match c.ul.puschConfig with
  | none => rivBits c.ul.bwpSize
  | some p =>
    fdaBits p.resourceAllocation (getNrbg c.ul.bwpSize c.ul.bwpStart p.rbgSize) (rivBits c.ul.bwpSize)

/-- The width of the frequency domain assignment of 1_1. -/
def dlFdaBits (c : DciConfig) : Nat :=
  match c.dl.pdschConfig with
  | none => rivBits c.dl.bwpSize
  | some p =>
    fdaBits p.resourceAllocation (getNrbg c.dl.bwpSize c.dl.bwpStart p.rbgSizeConfig2)
      (rivBits c.dl.bwpSize)

/-- The width of the time domain assignment of 0_1. -/
def ulTdaBits (c : DciConfig) : Nat :=
  ceilLog2 (tdaEntries c (c.ul.puschConfig.bind PuschConfig.timeDomainAllocationList)
    c.ul.tdaListCommon)

/-- The width of the time domain assignment of 1_1. -/
def dlTdaBits (c : DciConfig) : Nat :=
  ceilLog2 (tdaEntries c (c.dl.pdschConfig.bind PdschConfig.timeDomainAllocationList)
    c.dl.tdaListCommon)

/-! ## `nr_dci_size` -/

/-- `w` if the configuration has the field, else the width it had. -/
def DciField.sized (f : DciField) (present : Bool) (w : Nat) : DciField :=
  if present then { f with nbits := w } else f

/-- `nr_dci_size`, format 0_1: the sum and the widths, once the four helpers have answered. -/
def sized01 (c : DciConfig) (d : DciPdu) (harq sri precoding antenna : Nat) : Nat × DciPdu :=
  let transformPrecoder := getTransformPrecoding c.ul
  let bwp := if c.sc.nUlBwp < 2 then c.sc.nUlBwp else 2
  let dai0 := if c.dynamicHarqAckCodebook then 2 else 1
  let srsRequest := if c.sc.supplementaryUplink then 3 else 2
  let csi := c.sc.reportTriggerSize.getD 0
  let cbgti := 2 + (c.sc.puschCgbTransmission.getD 0) <<< 1
  let size :=
    -- fixed: identifier 1, MCS 5, NDI 1, RV 2, TPC 2, UL-SCH indicator 1
    12 + harq
    + (if c.sc.crossCarrierSchedulingConfig then 3 else 0)
    -- the width set here is that of the carrier indicator, the one added is not
    + (if c.sc.supplementaryUplink then d.ulSulIndicator.nbits else 0)
    + bwp + ulFdaBits c + ulTdaBits c
    + (if hoppingFlag c then 1 else 0)
    + dai0
    + (if c.sc.pdschCgbTransmission.isSome then 2 else 0)
    + sri + precoding + antenna + srsRequest
    + (if c.sc.reportTriggerSize.isSome then csi else 0)
    + (if c.sc.puschCgbTransmission.isSome then cbgti else 0)
    + ptrsBits c
    + (if c.ul.puschConfig.any PuschConfig.dynamicBetaOffsets then 2 else 0)
    + (if transformPrecoder = .disabled then 1 else 0)
  (size, { d with
    harqPid.nbits := harq
    carrierIndicator := (d.carrierIndicator.sized c.sc.crossCarrierSchedulingConfig 3).sized
      c.sc.supplementaryUplink 1
    bwpIndicator.nbits := bwp
    frequencyDomainAssignment.nbits := ulFdaBits c
    timeDomainAssignment.nbits := ulTdaBits c
    frequencyHoppingFlag := d.frequencyHoppingFlag.sized (hoppingFlag c) 1
    dai0.nbits := dai0
    dai1 := d.dai1.sized c.sc.pdschCgbTransmission.isSome 2
    srsResourceIndicator.nbits := sri
    precodingInformation.nbits := precoding
    antennaPorts.nbits := antenna
    srsRequest.nbits := srsRequest
    csiRequest := d.csiRequest.sized c.sc.reportTriggerSize.isSome csi
    cbgti := d.cbgti.sized c.sc.puschCgbTransmission.isSome cbgti
    ptrsDmrsAssociation.nbits := ptrsBits c
    betaOffsetIndicator :=
      d.betaOffsetIndicator.sized (c.ul.puschConfig.any PuschConfig.dynamicBetaOffsets) 2
    dmrsSequenceInitialization :=
      d.dmrsSequenceInitialization.sized (decide (transformPrecoder = .disabled)) 1 })

/-- The width of the precoding information: the SRS resource is the one the PDU points at. -/
def precodingWidth (c : DciConfig) (d : DciPdu) : Option Nat :=
  (computeSrsResourceIndicator c).bind fun sri =>
    computePrecodingInformation c { d.srsResourceIndicator with nbits := sri }

/-- `nr_dci_size` for format 0_1; `none` is a failed assertion. -/
def nrDciSize01 (c : DciConfig) (d : DciPdu) : Option (Nat × DciPdu) :=
  (ulHarqBits c).bind fun harq =>
  (computeSrsResourceIndicator c).bind fun sri =>
  (precodingWidth c d).bind fun precoding =>
  (ulAntennaPortBits c).map fun antenna => sized01 c d harq sri precoding antenna

/-- `nr_dci_size`, format 1_1: the sum and the widths, once the assertions have held. -/
def sized11 (c : DciConfig) (d : DciPdu) (harq antenna : Nat) : Nat × DciPdu :=
  let bwp := if c.sc.nDlBwp < 2 then c.sc.nDlBwp else 2
  let vrb := c.dl.pdschConfig.any (fun p => p.resourceAllocation = .type1 && p.vrbToPrbInterleaver)
  let bundling := c.dl.pdschConfig.any PdschConfig.dynamicBundling
  let group1 := c.dl.pdschConfig.any PdschConfig.rateMatchPatternGroup1
  let group2 := c.dl.pdschConfig.any PdschConfig.rateMatchPatternGroup2
  let rateMatching :=
    (d.rateMatchingIndicator.sized (group1 && group2) 2).sized (group1 != group2) 1
  let zpSets := c.dl.pdschConfig.bind PdschConfig.aperiodicZpCsiRs
  let zp := d.zpCsiRsTrigger.sized zpSets.isSome (ceilLog2 (zpSets.getD 0 + 1))
  let maxCw := c.dl.pdschConfig.bind PdschConfig.maxNrofCodeWordsScheduledByDci
  let timing := ceilLog2 (c.ul.dlDataToUlAck.getD 8)
  let srsRequest := if c.sc.supplementaryUplink then 3 else 2
  let cbgti := ((c.sc.pdschCgbTransmission.map Prod.fst).getD 0 + 1) * 2 * maxCw.getD 1
  let cbgfi := c.sc.pdschCgbTransmission.any Prod.snd
  let size :=
    1
    + (if c.sc.crossCarrierSchedulingConfig then 3 else 0)
    + bwp + dlFdaBits c + dlTdaBits c
    + (if vrb then 1 else 0)
    + (if bundling then 1 else 0)
    + rateMatching.nbits + zp.nbits
    -- TB1, and the same for TB2 without widths of its own
    + 8 + (if maxCw = some 2 then 8 else 0)
    + harq
    + (if c.dynamicHarqAckCodebook then 2 else 0)
    -- TPC and PUCCH resource indicator
    + 2 + 3
    + timing + antenna
    + (if c.tciPresentInDci then 3 else 0)
    + srsRequest
    + (if c.sc.pdschCgbTransmission.isSome then cbgti else 0)
    + (if cbgfi then 1 else 0)
    -- DMRS sequence initialization
    + 1
  (size, { d with
    carrierIndicator := d.carrierIndicator.sized c.sc.crossCarrierSchedulingConfig 3
    bwpIndicator.nbits := bwp
    frequencyDomainAssignment.nbits := dlFdaBits c
    timeDomainAssignment.nbits := dlTdaBits c
    vrbToPrbMapping := d.vrbToPrbMapping.sized vrb 1
    prbBundlingSizeIndicator := d.prbBundlingSizeIndicator.sized bundling 1
    rateMatchingIndicator := rateMatching
    zpCsiRsTrigger := zp
    harqPid.nbits := harq
    dai0 := d.dai0.sized c.dynamicHarqAckCodebook 2
    pdschToHarqFeedbackTimingIndicator.nbits := timing
    antennaPorts.nbits := antenna
    transmissionConfigurationIndication :=
      d.transmissionConfigurationIndication.sized c.tciPresentInDci 3
    srsRequest.nbits := srsRequest
    cbgti := d.cbgti.sized c.sc.pdschCgbTransmission.isSome cbgti
    cbgfi := d.cbgfi.sized cbgfi 1 })

/-- `nr_dci_size`, format 1_1: one DMRS mapping type has to be configured. -/
def nrDciSize11 (c : DciConfig) (d : DciPdu) : Option (Nat × DciPdu) :=
  let typeA := c.dl.pdschConfig.bind PdschConfig.dmrsMappingTypeA
  let typeB := c.dl.pdschConfig.bind PdschConfig.dmrsMappingTypeB
  if typeA.isNone ∧ typeB.isNone then none
  else (dlHarqBits c).map fun harq => sized11 c d harq (getAntPortBitWidth typeA typeB)

end NrStack.Dci
