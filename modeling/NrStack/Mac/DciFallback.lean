/-
  The fallback formats 0_0 and 1_0: gNB writer, UE reader, and the size both compute.

  `nr_dci_size` aligns the two formats: 0_0 is padded or truncated to the size of 1_0, and in a
  UE-specific search space 1_0 is padded to the size of 0_0; the first bit tells them apart.

  What the UE reads (`sent`) is the PDU the gNB was given, except that

  - in 0_0 the padding loop starts one bit too high: a padding bit 1 lands on the last field;
  - in 0_0 for the TC-RNTI the TPC command is never written, though counted and read;
  - in 1_0 for the C-RNTI the fields after the frequency assignment are shifted in 32 bits, too few
    once the format is padded by five bits or more.
-/
import NrStack.Mac.Dci

namespace NrStack.Dci

open PackedWord

/-! ## The size of formats 0_0 and 1_0 -/

/-- The sizes of the BWPs, current and initial. -/
structure Bwps where
  ulBwpSize : BwpSize
  dlBwpSize : BwpSize
  initialUlBwpSize : BwpSize
  initialDlBwpSize : BwpSize

/-- The current bandwidth parts (`current_DL_BWP` may be `NULL`), the size of CORESET 0 (0: none) and
the search space. -/
structure FallbackConfig where
  bwps : Option Bwps
  cset0BwpSize : { n : Nat // n < 276 }
  ssType : SsType

/-- `N_RB` in `nr_dci_size` and in `fill_dci_pdu_rel15`. -/
def nRbDci (c : FallbackConfig) (format : DciFormat) : Nat :=
  match c.bwps with
  | none => c.cset0BwpSize
  | some b =>
    getRbBwpDci format c.ssType c.cset0BwpSize b.ulBwpSize b.dlBwpSize b.initialUlBwpSize
      b.initialDlBwpSize

/-- What `nr_dci_size` writes into the PDU for format 0_0. -/
def widths00 (nbits : Nat) (d : DciPdu) : DciPdu :=
  { d with harqPid.nbits := 4, frequencyDomainAssignment.nbits := nbits }

/-- What it writes for format 1_0. -/
def widths10 (nbits : Nat) (d : DciPdu) : DciPdu :=
  { d with
    harqPid.nbits := 4
    frequencyDomainAssignment.nbits := nbits
    timeDomainAssignment.nbits := 4
    vrbToPrbMapping.nbits := 1 }

/-- `nr_dci_size` for format 0_0. -/
def nrDciSize00 (c : FallbackConfig) (altSize : Nat) (d : DciPdu) : Nat × DciPdu :=
  let nbits := rivBits (nRbDci c .ulDciFormat00)
  let size := 20 + nbits
  if size ≤ altSize then
    -- padding to match the size of 1_0
    (size + (altSize - size), widths00 nbits d)
  else if c.ssType = .common then
    -- truncation; `nbits` is a `uint8_t`
    (altSize, widths00 ((nbits + 256 - (size - altSize) % 256) % 256) d)
  else (size, widths00 nbits d)

/-- `nr_dci_size` for format 1_0. -/
def nrDciSize10 (c : FallbackConfig) (altSize : Nat) (d : DciPdu) : Nat × DciPdu :=
  let nbits := rivBits (nRbDci c .dlDciFormat10)
  let size := 28 + nbits
  if c.ssType = .ueSpecific ∧ size ≤ altSize then
    -- padding to match the size of 0_0
    (size + (altSize - size), widths10 nbits d)
  else (size, widths10 nbits d)

/-- Format 1_0, sized with the size of 0_0 as the alternative. -/
def sized10 (c : FallbackConfig) (d : DciPdu) : Nat × DciPdu :=
  nrDciSize10 c (if c.bwps.isSome then (nrDciSize00 c 0 d).1 else 0) d

/-- Format 0_0, sized with the size of 1_0 as the alternative. -/
def sized00 (c : FallbackConfig) (d : DciPdu) : Nat × DciPdu :=
  nrDciSize00 c (if c.bwps.isSome then (nrDciSize10 c 0 d).1 else 0) d

/-- The width of the frequency domain assignment of 1_0. -/
def fda10 (c : FallbackConfig) : Nat := rivBits (nRbDci c .dlDciFormat10)

/-- The width of the frequency domain assignment of format 0_0, truncated in a common search
space. -/
def fda00 (c : FallbackConfig) : Nat :=
  if c.ssType = .common then min (rivBits (nRbDci c .ulDciFormat00)) (fda10 c + 8)
  else rivBits (nRbDci c .ulDciFormat00)

/-- The larger of the two sizes, to which both are padded. -/
def commonSize (c : FallbackConfig) : Nat := max (28 + fda10 c) (20 + fda00 c)

variable (c : FallbackConfig)

lemma nRbDci_lt (format : DciFormat) : nRbDci c format < 276 := by
  unfold nRbDci
  split
  · exact c.cset0BwpSize.2
  · next b _ =>
    have hul := b.ulBwpSize.2.2
    have hdl := b.dlBwpSize.2.2
    have hiul := b.initialUlBwpSize.2.2
    have hidl := b.initialDlBwpSize.2.2
    have hcset := c.cset0BwpSize.2
    unfold getRbBwpDci
    split <;> (try split) <;> (try split) <;> assumption

lemma fda10_le : fda10 c ≤ 16 := rivBits_le (nRbDci_lt c _)

lemma fda00_le : fda00 c ≤ 16 := by
  have hul := rivBits_le (nRbDci_lt c .ulDciFormat00)
  unfold fda00
  split <;> omega

lemma nrDciSize00_alone (d : DciPdu) :
    (nrDciSize00 c 0 d).1 =
      if c.ssType = .common then 0 else 20 + rivBits (nRbDci c .ulDciFormat00) := by
  unfold nrDciSize00
  rw [if_neg (by omega)]
  split <;> rfl

lemma nrDciSize10_alone (d : DciPdu) :
    (nrDciSize10 c 0 d).1 = 28 + fda10 c := by
  unfold nrDciSize10
  rw [if_neg (by omega)]
  rfl

theorem sized10_eq {c : FallbackConfig} (hb : c.bwps.isSome) (d : DciPdu) :
    sized10 c d = (commonSize c, widths10 (fda10 c) d) := by
  unfold sized10 nrDciSize10 commonSize
  rw [if_pos hb, nrDciSize00_alone]
  show (if c.ssType = .ueSpecific ∧ 28 + fda10 c ≤ _ then
    (28 + fda10 c + (_ - (28 + fda10 c)), widths10 (fda10 c) d)
    else (28 + fda10 c, widths10 (fda10 c) d)) = _
  unfold fda00
  cases c.ssType with
  | common =>
    rw [if_neg (by simp), if_pos rfl, max_eq_left (by omega)]
  | ueSpecific =>
    simp only [reduceCtorEq, if_false]
    split
    · next h => rw [max_eq_right h.2, Nat.add_sub_cancel' h.2]
    · next h => rw [max_eq_left (Nat.le_of_not_le (fun hle => h ⟨trivial, hle⟩))]

theorem sized00_eq {c : FallbackConfig} (hb : c.bwps.isSome) (d : DciPdu) :
    sized00 c d = (commonSize c, widths00 (fda00 c) d) := by
  have hul := rivBits_le (nRbDci_lt c .ulDciFormat00)
  unfold sized00 nrDciSize00 commonSize
  rw [if_pos hb, nrDciSize10_alone]
  unfold fda00
  dsimp only
  generalize rivBits (nRbDci c .ulDciFormat00) = ul at hul ⊢
  cases c.ssType with
  | common =>
    rw [if_pos rfl, if_pos rfl]
    split
    · next h => rw [min_eq_left (by omega), max_eq_left h, Nat.add_sub_cancel' h]
    · next h =>
      have hcut : (ul + 256 - (20 + ul - (28 + fda10 c)) % 256) % 256 = fda10 c + 8 := by omega
      rw [hcut, min_eq_right (by omega), max_eq_left (by omega)]
  | ueSpecific =>
    simp only [reduceCtorEq, if_false]
    split
    · next h => rw [max_eq_left h, Nat.add_sub_cancel' h]
    · next h => rw [max_eq_right (by omega)]

lemma sizes_differ {c : FallbackConfig} (hb : ¬c.bwps.isSome) (d d' : DciPdu) :
    (sized10 c d).1 ≠ (sized00 c d').1 := by
  have hsame : nRbDci c .ulDciFormat00 = nRbDci c .dlDciFormat10 := by
    unfold nRbDci
    cases h : c.bwps with
    | none => rfl
    | some b => exact absurd (by rw [h]; rfl) hb
  unfold sized10 sized00
  rw [if_neg hb, if_neg hb, nrDciSize10_alone, nrDciSize00_alone, hsame]
  unfold fda10
  split <;> omega

/-! ## The gNB: `fill_dci_pdu_rel15` -/

/-- `nr_rnti_type_t`, the types the UE extracts fallback formats for. -/
inductive RntiType where
  | raRnti | siRnti | cRnti | tcRnti
  deriving DecidableEq, Repr

/-- The formats and RNTI types that have a writer and a reader. -/
inductive Fallback where
  | ra10 | si10 | c10 | tc10 | c00 | tc00
  deriving DecidableEq, Repr

/-- The RNTI that scrambles the DCI. -/
def Fallback.rnti : Fallback → RntiType
  | .ra10 => .raRnti
  | .si10 => .siRnti
  | .c10 | .c00 => .cRnti
  | .tc10 | .tc00 => .tcRnti

/-- The format it has. -/
def Fallback.format : Fallback → DciFormat
  | .ra10 | .si10 | .c10 | .tc10 => .dlDciFormat10
  | .c00 | .tc00 => .ulDciFormat00

/-- The format indicator it carries. -/
def Fallback.indicator : Fallback → Nat
  | .ra10 | .si10 | .c10 | .tc10 => 1
  | .c00 | .tc00 => 0

/-- The loop that looks for a zero in a frequency domain assignment: all ones order a PRACH. -/
def allOnes (fsize val : Nat) : Bool := (List.range fsize).all (fun i => val.testBit i)

/-- `fill_dci_pdu_rel15`: format 1_0, RA-RNTI. -/
def fill10RaRnti (size nRB : Nat) (d : DciPdu) : Payload :=
  [(rivBits nRB, d.frequencyDomainAssignment.val), (4, d.timeDomainAssignment.val),
    (1, d.vrbToPrbMapping.val), (5, d.mcs), (2, d.tbScaling)].foldl (Payload.field size) ⟨0, 0⟩

/-- Format 1_0, `TYPE_SI_RNTI_`: bit by bit, from `pos = 1`. -/
def fill10SiRnti (size nRB : Nat) (d : DciPdu) : Payload :=
  [(rivBits nRB, d.frequencyDomainAssignment.val), (4, d.timeDomainAssignment.val),
    (1, d.vrbToPrbMapping.val), (5, d.mcs), (2, d.rv),
    (1, d.systemInfoIndicator)].foldl (Payload.bits size) ⟨0, 1⟩

/-- Format 1_0, `TYPE_C_RNTI_`: behind the frequency domain assignment the values are shifted in the
type they come in. -/
def fill10CRnti (size nRB : Nat) (d : DciPdu) : Payload :=
  let fsize := rivBits nRB
  let p := [(1, 1), (fsize, d.frequencyDomainAssignment.val)].foldl (Payload.field size) ⟨0, 0⟩
  if allOnes fsize d.frequencyDomainAssignment.val then
    let p := p.fieldInt size (6, d.raPreambleIndex)
    let p := p.field32 size (1, d.ulSulIndicator.val)
    let p := p.fieldInt size (6, d.ssPbchIndex)
    p.fieldInt size (4, d.prachMaskIndex)
  else
    let p := p.field32 size (4, d.timeDomainAssignment.val)
    let p := p.field32 size (1, d.vrbToPrbMapping.val)
    let p := p.fieldInt size (5, d.mcs)
    let p := p.fieldInt size (1, d.ndi)
    let p := p.fieldInt size (2, d.rv)
    let p := p.field32 size (d.harqPid.nbits, d.harqPid.val)
    let p := p.field32 size (2, d.dai0.val)
    let p := p.fieldInt size (2, d.tpc)
    let p := p.fieldInt size (3, d.pucchResourceIndicator)
    p.field32 size (3, d.pdschToHarqFeedbackTimingIndicator.val)

/-- Format 1_0, `TYPE_TC_RNTI_`: bit by bit, from `pos = 1`. -/
def fill10TcRnti (size nRB : Nat) (d : DciPdu) : Payload :=
  [(1, d.formatIndicator), (rivBits nRB, d.frequencyDomainAssignment.val),
    (4, d.timeDomainAssignment.val), (1, d.vrbToPrbMapping.val), (5, d.mcs), (1, d.ndi), (2, d.rv),
    (d.harqPid.nbits, d.harqPid.val), (2, d.dai0.val), (2, d.tpc), (3, d.pucchResourceIndicator),
    (3, d.pdschToHarqFeedbackTimingIndicator.val)].foldl (Payload.bits size) ⟨0, 1⟩

/-- `fill_dci_pdu_rel15`: format 0_0, C-RNTI. -/
def fill00CRnti (size : Nat) (d : DciPdu) : Payload :=
  ([(1, d.formatIndicator), (d.frequencyDomainAssignment.nbits, d.frequencyDomainAssignment.val),
    (4, d.timeDomainAssignment.val), (1, d.frequencyHoppingFlag.val), (5, d.mcs), (1, d.ndi),
    (2, d.rv), (d.harqPid.nbits, d.harqPid.val),
    (2, d.tpc)].foldl (Payload.field size) ⟨0, 0⟩).pad size d.padding

/-- Format 0_0, `TYPE_TC_RNTI_`: the padding follows the HARQ process number. -/
def fill00TcRnti (size : Nat) (d : DciPdu) : Payload :=
  ([(1, d.formatIndicator), (d.frequencyDomainAssignment.nbits, d.frequencyDomainAssignment.val),
    (4, d.timeDomainAssignment.val), (1, d.frequencyHoppingFlag.val), (5, d.mcs), (1, d.ndi),
    (2, d.rv),
    (d.harqPid.nbits, d.harqPid.val)].foldl (Payload.field size) ⟨0, 0⟩).pad size d.padding

/-- `fill_dci_pdu_rel15`, the payload generation. -/
def generatePayload (size nRB : Nat) (k : Fallback) (d : DciPdu) : Payload :=
  match k with
  | .ra10 => fill10RaRnti size nRB d
  | .si10 => fill10SiRnti size nRB d
  | .c10 => fill10CRnti size nRB d
  | .tc10 => fill10TcRnti size nRB d
  | .c00 => fill00CRnti size d
  | .tc00 => fill00TcRnti size d

/-- `fill_dci_pdu_rel15` on the fallback formats: `PayloadSizeBits` and the payload. -/
def fillDciPduRel15 (c : FallbackConfig) (k : Fallback) (d : DciPdu) : Option (Nat × Nat) :=
  let nRB := nRbDci c k.format
  let (size, d) := if k.format = .dlDciFormat10 then sized10 c d else sized00 c d
  if size = 0 ∨ 64 < size then none
  else some (size, (generatePayload size nRB k d).word)

/-! ## The UE: `config_dci_pdu` and `nr_extract_dci_00_10` -/

/-- `extract_10_ra_rnti` -/
def extract10RaRnti (d : DciPdu) (dci : Nat) (pos : Int) (nRB : Nat) : DciPdu :=
  let (fda, pos) := readBits dci pos (rivBits nRB)
  let (tda, pos) := readBits dci pos 4
  let (vrb, pos) := readBits dci pos 1
  let (mcs, pos) := readBits dci pos 5
  let (tbScaling, _) := readBits dci pos 2
  { d with
    frequencyDomainAssignment.val := fda
    timeDomainAssignment.val := tda
    vrbToPrbMapping.val := vrb
    mcs := mcs
    tbScaling := tbScaling }

/-- `extract_10_si_rnti` -/
def extract10SiRnti (d : DciPdu) (dci : Nat) (pos : Int) (nRB : Nat) : DciPdu :=
  let (fda, pos) := readBits dci pos (rivBits nRB)
  let (tda, pos) := readBits dci pos 4
  let (vrb, pos) := readBits dci pos 1
  let (mcs, pos) := readBits dci pos 5
  let (rv, pos) := readBits dci pos 2
  let (systemInfo, _) := readBits dci pos 1
  { d with
    frequencyDomainAssignment.val := fda
    timeDomainAssignment.val := tda
    vrbToPrbMapping.val := vrb
    mcs := mcs
    rv := rv
    systemInfoIndicator := systemInfo }

/-- `extract_10_c_rnti` -/
def extract10CRnti (d : DciPdu) (dci : Nat) (pos : Int) (nRB : Nat) : DciPdu :=
  let fsize := rivBits nRB
  let (fda, pos) := readBits dci pos fsize
  if allOnes fsize fda then
    let (raPreamble, pos) := readBits dci pos 6
    let (ulSul, pos) := readBits dci pos 1
    let (ssPbch, pos) := readBits dci pos 6
    let (prachMask, _) := readBits dci pos 4
    { d with
      frequencyDomainAssignment.val := fda
      raPreambleIndex := raPreamble
      ulSulIndicator.val := ulSul
      ssPbchIndex := ssPbch
      prachMaskIndex := prachMask }
  else
    let (tda, pos) := readBits dci pos 4
    let (vrb, pos) := readBits dci pos 1
    let (mcs, pos) := readBits dci pos 5
    let (ndi, pos) := readBits dci pos 1
    let (rv, pos) := readBits dci pos 2
    let (harqPid, pos) := readBits dci pos d.harqPid.nbits
    let (dai, pos) := readBits dci pos 2
    let (tpc, pos) := readBits dci pos 2
    let (pucchResource, pos) := readBits dci pos 3
    let (timing, _) := readBits dci pos 3
    { d with
      frequencyDomainAssignment.val := fda
      timeDomainAssignment.val := tda
      vrbToPrbMapping.val := vrb
      mcs := mcs
      ndi := ndi
      rv := rv
      harqPid.val := harqPid
      dai0.val := dai
      tpc := tpc
      pucchResourceIndicator := pucchResource
      pdschToHarqFeedbackTimingIndicator.val := timing }

/-- `extract_10_tc_rnti` -/
def extract10TcRnti (d : DciPdu) (dci : Nat) (pos : Int) (nRB : Nat) : DciPdu :=
  let (fda, pos) := readBits dci pos (rivBits nRB)
  let (tda, pos) := readBits dci pos 4
  let (vrb, pos) := readBits dci pos 1
  let (mcs, pos) := readBits dci pos 5
  let (ndi, pos) := readBits dci pos 1
  let (rv, pos) := readBits dci pos 2
  let (harqPid, pos) := readBits dci pos 4
  let (dai, pos) := readBits dci pos 2
  let (tpc, pos) := readBits dci pos 2
  let (pucchResource, pos) := readBits dci pos 3
  let (timing, _) := readBits dci pos 3
  { d with
    frequencyDomainAssignment.val := fda
    timeDomainAssignment.val := tda
    vrbToPrbMapping.val := vrb
    mcs := mcs
    ndi := ndi
    rv := rv
    harqPid.val := harqPid
    dai0.val := dai
    tpc := tpc
    pucchResourceIndicator := pucchResource
    pdschToHarqFeedbackTimingIndicator.val := timing }

/-- `extract_00_c_rnti`, and word for word `extract_00_tc_rnti`. -/
def extract00 (d : DciPdu) (dci : Nat) (pos : Int) : DciPdu :=
  let (fda, pos) := readBits dci pos d.frequencyDomainAssignment.nbits
  let (tda, pos) := readBits dci pos 4
  let (hopping, pos) := readBits dci pos 1
  let (mcs, pos) := readBits dci pos 5
  let (ndi, pos) := readBits dci pos 1
  let (rv, pos) := readBits dci pos 2
  let (harqPid, pos) := readBits dci pos 4
  let (tpc, _) := readBits dci pos 2
  { d with
    frequencyDomainAssignment.val := fda
    timeDomainAssignment.val := tda
    frequencyHoppingFlag.val := hopping
    mcs := mcs
    ndi := ndi
    rv := rv
    harqPid.val := harqPid
    tpc := tpc }

/-- `get_nrb_for_dci`: the size of the initial DL bandwidth part stands for the UL one too. -/
def getNrbForDci (c : FallbackConfig) (format : DciFormat) : Nat :=
  match c.bwps with
  | none => c.cset0BwpSize
  | some b =>
    getRbBwpDci format c.ssType c.cset0BwpSize b.ulBwpSize b.dlBwpSize b.initialDlBwpSize
      b.initialDlBwpSize

/-- `mac->def_dci_pdu_rel15[slot]`, the entries of formats 1_0 and 0_0. -/
structure DefDciPdus where
  dl10 : DciPdu
  ul00 : DciPdu

/-- `nr_extract_dci_00_10`; `none` is `NR_DCI_NONE`. -/
def nrExtractDci0010 (c : FallbackConfig) (rntiType : RntiType) (dci : Nat) (pos : Int)
    (defs : DefDciPdus) : Option (DciFormat × DciPdu) :=
  let nRB := getNrbForDci c .dlDciFormat10
  match rntiType with
  | .raRnti =>
    if nRB = 0 then none
    else some (.dlDciFormat10, extract10RaRnti defs.dl10 dci pos nRB)
  | .siRnti =>
    if nRB = 0 then none
    else some (.dlDciFormat10, extract10SiRnti defs.dl10 dci pos nRB)
  | .cRnti =>
    let (indicator, pos) := readBits dci pos 1
    if indicator = 1 then
      if nRB = 0 then none
      else some (.dlDciFormat10,
        { extract10CRnti defs.dl10 dci pos nRB with formatIndicator := indicator })
    else some (.ulDciFormat00, { extract00 defs.ul00 dci pos with formatIndicator := indicator })
  | .tcRnti =>
    let (indicator, pos) := readBits dci pos 1
    if indicator = 1 then
      if nRB = 0 then none
      else some (.dlDciFormat10,
        { extract10TcRnti defs.dl10 dci pos nRB with formatIndicator := indicator })
    else some (.ulDciFormat00, { extract00 defs.ul00 dci pos with formatIndicator := indicator })

/-- `config_dci_pdu`: one DCI option while a RAR or system information is awaited, else 1_0 and 0_0; L1
searches for the length of the first. -/
def configDciPdu (c : FallbackConfig) (rntiType : RntiType) (defs : DefDciPdus) :
    Option (Nat × DefDciPdus) :=
  let (size10, dl10) := sized10 c defs.dl10
  if size10 = 0 then none
  else
    match rntiType with
    | .raRnti | .siRnti => some (size10, { defs with dl10 := dl10 })
    | .cRnti | .tcRnti =>
      let (size00, ul00) := sized00 c defs.ul00
      if size00 = 0 then none else some (size10, ⟨dl10, ul00⟩)

/-- What the UE makes of a payload on the air.  L1 finds only the length it searches for. -/
def ueReceive (c : FallbackConfig) (rntiType : RntiType) (defs : DefDciPdus) (sent : Nat × Nat) :
    Option (DciFormat × DciPdu) :=
  match configDciPdu c rntiType defs with
  | none => none
  | some (length, defs) =>
    if length = sent.1 then nrExtractDci0010 c rntiType sent.2 length defs else none

end NrStack.Dci
