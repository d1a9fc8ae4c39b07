/-
  The gNB's parser of uplink MAC PDUs (`gNB_scheduler_ulsch.c`).

  The input is ANY bytes, in a memory that goes on after them; every address read is on record (`Probe`).
  `lcid_crnti_lookahead` looks for a C-RNTI MAC CE, `nr_process_mac_pdu` hands SDUs to RLC and takes PHR
  and BSR.  Both decode the subheader BEFORE they compare with the bytes that are left.  Outcomes outside
  the PDU are inputs (`GnbEnv`).  `assertFatal` ends the program.
-/
import Mathlib
import NrStack.Lib.Probe

namespace NrStack.Mac

open Probing List

/-! ## Subheaders -/

/-- `UL_SCH_LCID_..` -/
inductive UlLcid
  | ccch64Bits
  | srb1
  | srb2
  | dtch (lcid : Nat)
  | ccch48Bits
  | recommendedBitrateQuery
  | multiEntryPhr4Oct
  | configuredGrantConfirmation
  | multiEntryPhr1Oct
  | singleEntryPhr
  | cRnti
  | sTruncatedBsr
  | lTruncatedBsr
  | sBsr
  | lBsr
  | padding
  | unhandled (lcid : Nat)
  deriving DecidableEq, Repr

/-- The LCID of six bits.  `UL_SCH_LCID_SRB3`, 3, has no case of its own in either `switch`. -/
def UlLcid.ofCode (lcid : Nat) : UlLcid :=
  if lcid = 0x00 then .ccch64Bits
  else if lcid = 0x01 then .srb1
  else if lcid = 0x02 then .srb2
  else if 0x04 ≤ lcid ∧ lcid ≤ 0x04 + 28 then .dtch lcid
  else if lcid = 0x34 then .ccch48Bits
  else if lcid = 0x35 then .recommendedBitrateQuery
  else if lcid = 0x36 then .multiEntryPhr4Oct
  else if lcid = 0x37 then .configuredGrantConfirmation
  else if lcid = 0x38 then .multiEntryPhr1Oct
  else if lcid = 0x39 then .singleEntryPhr
  else if lcid = 0x3A then .cRnti
  else if lcid = 0x3B then .sTruncatedBsr
  else if lcid = 0x3C then .lTruncatedBsr
  else if lcid = 0x3D then .sBsr
  else if lcid = 0x3E then .lBsr
  else if lcid = 0x3F then .padding
  else .unhandled lcid

/-- `decode_ul_mac_sub_pdu_header`: the length known from the LCID, `none` for a length field. -/
def UlLcid.fixedLength : UlLcid → Option Nat
  | .ccch64Bits => some 8
  | .srb1 | .srb2 | .dtch _ | .lTruncatedBsr | .lBsr => none
  | .ccch48Bits => some 6
  | .singleEntryPhr | .cRnti => some 2
  | .sTruncatedBsr | .sBsr => some 1
  -- padding, and what is not handled yet
  | _ => some 0

/-- `UL_SCH_LCID_L_TRUNCATED_BSR` or `UL_SCH_LCID_L_BSR` -/
def UlLcid.isLongBsr : UlLcid → Bool
  | .lTruncatedBsr | .lBsr => true
  | _ => false

/-- What `decode_ul_mac_sub_pdu_header` gives. -/
structure UlSubheader where
  lcid : UlLcid
  length : Nat
  macSubheaderLen : Nat
  deriving DecidableEq, Repr

/-- Subheader and payload. -/
def UlSubheader.size (h : UlSubheader) : Nat := h.macSubheaderLen + h.length

/-- `decode_ul_mac_sub_pdu_header`, after the first byte. -/
def decodeUlLength (mem : Nat → UInt8) (pduP b : Nat) : Probe UlSubheader :=
  let lcid := UlLcid.ofCode (b % 64)
  match lcid.fixedLength with
  | some length => pure ⟨lcid, length, 1⟩
  | none =>
    -- F = 1: a length of 16 bits
    if b / 64 % 2 = 1 then do
      let hi ← read mem (pduP + 1)
      let lo ← read mem (pduP + 2)
      pure ⟨lcid, hi * 256 + lo, 3⟩
    else do
      let lo ← read mem (pduP + 1)
      pure ⟨lcid, lo, 2⟩

/-- `decode_ul_mac_sub_pdu_header` -/
def decodeUlMacSubPduHeader (mem : Nat → UInt8) (pduP : Nat) : Probe UlSubheader :=
  read mem pduP >>= decodeUlLength mem pduP

/-! ## Buffer status -/

/-- `NR_SHORT_BSR_TABLE` -/
def nrShortBsrTable : List Nat :=
  [0, 10, 14, 20, 28, 38, 53, 74, 102, 142, 198, 276, 384, 535, 745, 1038, 1446, 2014, 2806, 3909,
    5446, 7587, 10570, 14726, 20516, 28581, 39818, 55474, 77284, 107669, 150000, 300000]

/-- `NR_LONG_BSR_TABLE` -/
def nrLongBsrTable : List Nat :=
  [0, 10, 11, 12, 13, 14, 15, 16, 17, 18, 19, 20, 22, 23, 25, 26, 28, 30, 32, 34, 36, 38, 40, 43,
    46, 49, 52, 55, 59, 62, 66, 71, 75, 80, 85, 91, 97, 103, 110, 117, 124, 132, 141, 150, 160,
    170, 181, 193, 205, 218, 233, 248, 264, 281, 299, 318, 339, 361, 384, 409, 436, 464, 494, 526,
    560, 597, 635, 677, 720, 767, 817, 870, 926, 987, 1051, 1119, 1191, 1269, 1351, 1439, 1532,
    1631, 1737, 1850, 1970, 2098, 2234, 2379, 2533, 2698, 2873, 3059, 3258, 3469, 3694, 3934, 4189,
    4461, 4751, 5059, 5387, 5737, 6109, 6506, 6928, 7378, 7857, 8367, 8910, 9488, 10104, 10760,
    11458, 12202, 12994, 13838, 14736, 15692, 16711, 17795, 18951, 20181, 21491, 22885, 24371,
    25953, 27638, 29431, 31342, 33376, 35543, 37850, 40307, 42923, 45709, 48676, 51836, 55200,
    58784, 62599, 66663, 70990, 75598, 80505, 85730, 91295, 97221, 103532, 110252, 117409, 125030,
    133146, 141789, 150992, 160793, 171231, 182345, 194182, 206786, 220209, 234503, 249725, 265935,
    283197, 301579, 321155, 342002, 364202, 387842, 413018, 439827, 468377, 498780, 531156, 565634,
    602350, 641449, 683087, 727427, 774645, 824928, 878475, 935498, 996222, 1060888, 1129752,
    1203085, 1281179, 1364342, 1452903, 1547213, 1647644, 1754595, 1868488, 1989774, 2118933,
    2256475, 2402946, 2558924, 2725027, 2901912, 3090279, 3290873, 3504487, 3731968, 3974215,
    4232186, 4506902, 4799451, 5110989, 5442750, 5796046, 6172275, 6572925, 6999582, 7453933,
    7937777, 8453028, 9001725, 9586039, 10208280, 10870913, 11576557, 12328006, 13128233, 13980403,
    14887889, 15854280, 16883401, 17979324, 19146385, 20389201, 21712690, 23122088, 24622972,
    26221280, 27923336, 29735875, 31666069, 33721553, 35910462, 38241455, 40723756, 43367187,
    46182206, 49179951, 52372284, 55771835, 59392055, 63247269, 67352729, 71724679, 76380419,
    81338368, 162676736, 4294967295]

/-- `overestim_bsr_index` -/
def overestimBsrIndex (realIndex : Nat) : Nat := if realIndex > 0 then realIndex + 1 else realIndex

/-- The table at the overestimated index. -/
def estimSize (table : List Nat) (repIdx : Nat) : Nat :=
  (table[min (overestimBsrIndex repIdx) (table.length - 1)]?).getD 0

/-- `estimate_ul_buffer_short_bsr`: the estimate, and the pair of LCG and index it is for. -/
def estimateUlBufferShortBsr (mem : Nat → UInt8) (ce : Nat) : Probe (Int × List (Nat × Nat)) := do
  let b ← read mem ce
  let bufferSize := b % 32
  let lcgId := b / 32
  pure (estimSize nrShortBsrTable bufferSize, [(lcgId, bufferSize)])

/-- The loop over the LCGs of a long BSR; `m` counts the buffer sizes taken. -/
def longBsrLoop (mem : Nat → UInt8) (payload bitmap : Nat) :
    List Nat → Nat → Probe (List (Nat × Nat))
  | [], _ => pure []
  | n :: ns, m =>
    if bitmap.testBit n then do
      let repIdx ← read mem (payload + m)
      let rest ← longBsrLoop mem payload bitmap ns (m + 1)
      pure ((n, repIdx) :: rest)
    else longBsrLoop mem payload bitmap ns m

/-- `estimate_ul_buffer_long_bsr`; the sum is an `int`. -/
def estimateUlBufferLongBsr (mem : Nat → UInt8) (ce : Nat) : Probe (Int × List (Nat × Nat)) := do
  let bsr ← read mem ce >>= fun bitmap => longBsrLoop mem (ce + 1) bitmap (List.range 8) 0
  pure (bsr.foldl (fun sum e => Int.bmod (sum + estimSize nrLongBsrTable e.2) (2 ^ 32)) 0, bsr)

/-! ## `lcid_crnti_lookahead` -/

/-- A sub-PDU met on the way: where it starts and its subheader. -/
abbrev UlSubPdu := Nat × UlSubheader

/-- What both functions do with a sub-PDU longer than what is left: print the first bytes. -/
def printResidual (mem : Nat → UInt8) (pduP pduLen : Nat) : Probe (List Nat) :=
  readAll mem (List.range' pduP (min 30 pduLen))

/-- One round of `lcid_crnti_lookahead` after the subheader; it stops with the value to return. -/
def lookaheadLcid (mem : Nat → UInt8) (pdu pduLen : Nat) (met : List UlSubPdu) (h : UlSubheader) :
    Probe (Next Nat × List UlSubPdu) :=
  let met := met ++ [(pdu, h)]
  if h.size > pduLen then do
    let _ ← printResidual mem pdu pduLen
    pure (.stop 0, met)
  else if h.lcid = .cRnti then do
    let hi ← read mem (pdu + 1)
    let lo ← read mem (pdu + 2)
    pure (.stop (hi * 256 + lo), met)
  else if h.lcid = .padding then pure (.stop 0, met)
  else pure (.go h.size, met)

/-- One turn of the loop of `lcid_crnti_lookahead`. -/
def lookaheadSubPdu (mem : Nat → UInt8) (pdu pduLen : Nat) (met : List UlSubPdu) :
    Probe (Next Nat × List UlSubPdu) :=
  decodeUlMacSubPduHeader mem pdu >>= lookaheadLcid mem pdu pduLen met

/-- `lcid_crnti_lookahead`: the C-RNTI or 0, and the sub-PDUs met. -/
def lcidCrntiLookahead (mem : Nat → UInt8) (pduLen : Nat) :
    Probe (Option (Nat × List UlSubPdu)) := do
  let r ← blocks (lookaheadSubPdu mem) pduLen 0 pduLen []
  pure (r.map fun r => (r.1.getD 0, r.2))

/-! ## `nr_process_mac_pdu` -/

/-- `phFactor` is the result of `compute_ph_factor`, `ccchOk` that of `prepare_initial_ul_rrc_message`.
-/
structure GnbEnv where
  harqPid : Int
  cellGroup : Bool
  raIdle : Bool
  ccchOk : Nat → Bool
  phFactor : Int

/-- `mac_rlc_data_ind`: the channel and the slice of the PDU. -/
structure RlcInd where
  lcid : Nat
  start : Nat
  len : Nat
  deriving DecidableEq, Repr

/-- What `nr_process_mac_pdu` changes of `UE_sched_ctrl`. -/
structure UlCtrl where
  estimatedUlBuffer : Int
  ph : Int
  ph0 : Int
  pcmax : Int
  deriving DecidableEq, Repr

/-- The same with the SDUs handed to RLC, the PHRs and BSRs taken and the sub-PDUs met. -/
structure UlRx extends UlCtrl where
  rlc : List RlcInd := []
  phrs : List (Nat × Nat) := []
  bsrs : List (List (Nat × Nat)) := []
  met : List UlSubPdu := []
  deriving DecidableEq, Repr

/-- How `nr_process_mac_pdu` ends before the PDU does. -/
inductive UlExit
  | returned (ret : Int)
  | assertFatal
  deriving DecidableEq, Repr

/-- Is there a byte that is not 0?  The loop stops at the first one. -/
def anyNonZero (mem : Nat → UInt8) : List Nat → Probe Bool
  | [] => pure false
  | i :: is => do
    let b ← read mem i
    if b ≠ 0 then pure true else anyNonZero mem is

/-- The PHR's index as a power headroom, table 10.1.17.1-1. -/
def powerHeadroom (ph : Nat) : Int :=
  if ph < 55 then (ph : Int) - 32 else if ph < 63 then 28 + ((ph : Int) - 55) * 2 else 42

/-- `mac_rlc_data_ind(.., lcid, pduP + mac_subheader_len, mac_len, ..)` -/
def UlRx.deliver (st : UlRx) (lcid pduP : Nat) (h : UlSubheader) : UlRx :=
  { st with rlc := st.rlc ++ [⟨lcid, pduP + h.macSubheaderLen, h.length⟩] }

/-- The `switch` of `nr_process_mac_pdu`, for a sub-PDU that is not longer than what is left. -/
def processLcid (env : GnbEnv) (mem : Nat → UInt8) (pduP : Nat) (h : UlSubheader) (st : UlRx) :
    Probe (Next UlExit × UlRx) :=
  let ce := pduP + h.macSubheaderLen
  match h.lcid with
  | .ccch64Bits => do
    -- all zeros is no message
    let validPdu ← anyNonZero mem (List.range' pduP h.size)
    if validPdu then
      pure (.go h.size, if env.ccchOk pduP then st.deliver 0 pduP h else st)
    else pure (.stop (.returned 0), st)
  | .ccch48Bits => pure (.go h.size, if env.ccchOk pduP then st.deliver 0 pduP h else st)
  | .srb1 =>
    pure (if env.cellGroup then (.go h.size, st.deliver 1 pduP h) else (.stop .assertFatal, st))
  | .srb2 =>
    pure (if env.cellGroup then (.go h.size, st.deliver 2 pduP h) else (.stop .assertFatal, st))
  | .dtch lcid =>
    -- the estimated buffer is what has not been received yet
    let left := if st.estimatedUlBuffer ≥ h.length then st.estimatedUlBuffer - h.length else 0
    pure (.go h.size, { st.deliver lcid pduP h with estimatedUlBuffer := left })
  | .recommendedBitrateQuery | .multiEntryPhr4Oct | .configuredGrantConfirmation
  | .multiEntryPhr1Oct => pure (.go h.size, st)
  | .singleEntryPhr =>
    if env.harqPid < 0 then pure (.stop (.returned 0), st)
    else do
      let b1 ← read mem ce
      let b2 ← read mem (ce + 1)
      let ph0 := powerHeadroom (b1 % 64)
      pure (.go h.size, { st with
        ph := ph0 + env.phFactor, ph0 := ph0, pcmax := ((b2 % 64 : Nat) : Int) - 29
        phrs := st.phrs ++ [(b1 % 64, b2 % 64)] })
  | .cRnti =>
    if env.raIdle then do
      let _ ← read mem (pduP + 1)
      let _ ← read mem (pduP + 2)
      pure (.stop .assertFatal, st)
    else pure (.go h.size, st)
  | .sTruncatedBsr | .sBsr => do
    let r ← estimateUlBufferShortBsr mem ce
    pure (.go h.size, { st with estimatedUlBuffer := r.1, bsrs := st.bsrs ++ [r.2] })
  | .lTruncatedBsr | .lBsr => do
    let r ← estimateUlBufferLongBsr mem ce
    pure (.go h.size, { st with estimatedUlBuffer := r.1, bsrs := st.bsrs ++ [r.2] })
  | .padding => pure (.stop (.returned 0), st)
  | .unhandled _ => pure (.stop (.returned (-1)), st)

/-- One round of `nr_process_mac_pdu` after the subheader. -/
def processDecoded (env : GnbEnv) (mem : Nat → UInt8) (pduP pduLen : Nat) (st : UlRx)
    (h : UlSubheader) : Probe (Next UlExit × UlRx) :=
  let st := { st with met := st.met ++ [(pduP, h)] }
  if h.size > pduLen then do
    let _ ← printResidual mem pduP pduLen
    pure (.stop (.returned 0), st)
  else processLcid env mem pduP h st

/-- One turn of the loop of `nr_process_mac_pdu`. -/
def processSubPdu (env : GnbEnv) (mem : Nat → UInt8) (pduP pduLen : Nat) (st : UlRx) :
    Probe (Next UlExit × UlRx) :=
  decodeUlMacSubPduHeader mem pduP >>= processDecoded env mem pduP pduLen st

/-- `nr_process_mac_pdu`: how it ended and what it did. -/
def nrProcessMacPdu (env : GnbEnv) (mem : Nat → UInt8) (pduLen : Nat) (ctrl : UlCtrl) :
    Probe (Option (UlExit × UlRx)) := do
  -- the message trace is for PDUs that are not padding
  let _ ← read mem 0
  let r ← blocks (processSubPdu env mem) pduLen 0 pduLen { toUlCtrl := ctrl }
  pure (r.map fun r => (r.1.getD (.returned 0), r.2))

/-! ## Where the sub-PDUs are -/

/-- The subheader at `pduP`, as the bytes there say. -/
def ulSubheader (mem : Nat → UInt8) (pduP : Nat) : UlSubheader :=
  (decodeUlMacSubPduHeader mem pduP).val

variable {n p len : Nat} {mem : Nat → UInt8} {env : GnbEnv} {st : UlRx}

lemma within_decodeUlLength (mem : Nat → UInt8) (p b : Nat) :
    0 < (decodeUlLength mem p b).val.macSubheaderLen ∧
      (p < n ∧ Within n (decodeUlLength mem p b) ↔
        p + (decodeUlLength mem p b).val.macSubheaderLen ≤ n) := by
  rw [decodeUlLength]
  split
  · simp only [val_pure, within_pure, and_true]
    omega
  · by_cases hF : b / 64 % 2 = 1
    · simp only [if_pos hF, val_bind, val_pure, within_bind, within_read, within_pure, and_true]
      omega
    · simp only [if_neg hF, val_bind, val_pure, within_bind, within_read, within_pure, and_true]
      omega

lemma within_decode (mem : Nat → UInt8) (p : Nat) :
    Within n (decodeUlMacSubPduHeader mem p) ↔ p + (ulSubheader mem p).macSubheaderLen ≤ n := by
  rw [decodeUlMacSubPduHeader, within_bind, within_read]
  exact (within_decodeUlLength mem p _).2

lemma ulSubheader_size_pos (mem : Nat → UInt8) (p : Nat) : 0 < (ulSubheader mem p).size :=
  lt_of_lt_of_le (within_decodeUlLength (n := 0) mem p _).1 (Nat.le_add_right _ _)

lemma decodeUlLength_fixed {b : Nat} (h : (decodeUlLength mem p b).val.lcid.fixedLength = some n) :
    (decodeUlLength mem p b).val = ⟨(decodeUlLength mem p b).val.lcid, n, 1⟩ := by
  rw [decodeUlLength] at h ⊢
  split at h
  · next hlen =>
    obtain rfl : _ = n := Option.some.inj (hlen.symm.trans h)
    rfl
  · next hnone =>
    by_cases hF : b / 64 % 2 = 1
    · rw [if_pos hF] at h
      exact absurd (hnone.symm.trans h) nofun
    · rw [if_neg hF] at h
      exact absurd (hnone.symm.trans h) nofun

lemma ulSubheader_fixed (h : (ulSubheader mem p).lcid.fixedLength = some n) :
    (ulSubheader mem p).length = n ∧ (ulSubheader mem p).macSubheaderLen = 1 := by
  have := decodeUlLength_fixed h
  exact ⟨congrArg UlSubheader.length this, congrArg UlSubheader.macSubheaderLen this⟩

lemma within_printResidual (mem : Nat → UInt8) (hp : p < len) :
    Within len (printResidual mem p (len - p)) := by
  intro i hi
  have := mem_range'_1.mp hi
  omega

/-- At a C-RNTI or at padding the lookahead stops. -/
def LookaheadStops (mem : Nat → UInt8) (p : Nat) : Prop :=
  (ulSubheader mem p).lcid = .cRnti ∨ (ulSubheader mem p).lcid = .padding

lemma lookaheadSubPdu_go {pos rem : Nat} {s s' : List UlSubPdu} :
    (lookaheadSubPdu mem pos rem s).val = (.go n, s') ↔
      n = (ulSubheader mem pos).size ∧ s' = s ++ [(pos, ulSubheader mem pos)] ∧
        (ulSubheader mem pos).size ≤ rem ∧ ¬ LookaheadStops mem pos := by
  rw [lookaheadSubPdu, val_bind, ← ulSubheader, lookaheadLcid, LookaheadStops]
  by_cases hfit : (ulSubheader mem pos).size > rem
  · rw [if_pos hfit]
    exact ⟨nofun, fun h => absurd h.2.2.1 (not_le.mpr hfit)⟩
  by_cases hcrnti : (ulSubheader mem pos).lcid = .cRnti
  · rw [if_neg hfit, if_pos hcrnti]
    exact ⟨nofun, fun h => absurd (.inl hcrnti) h.2.2.2⟩
  by_cases hpadding : (ulSubheader mem pos).lcid = .padding
  · rw [if_neg hfit, if_neg hcrnti, if_pos hpadding]
    exact ⟨nofun, fun h => absurd (.inr hpadding) h.2.2.2⟩
  rw [if_neg hfit, if_neg hcrnti, if_neg hpadding, val_pure, Prod.mk.injEq, Next.go.injEq]
  constructor
  · rintro ⟨rfl, rfl⟩
    exact ⟨rfl, rfl, Nat.le_of_not_gt hfit, fun h => h.elim hcrnti hpadding⟩
  · rintro ⟨rfl, rfl, -⟩
    exact ⟨rfl, rfl⟩

lemma lookaheadSubPdu_follows (mem : Nat → UInt8) (len : Nat) :
    Follows (lookaheadSubPdu mem) len (fun p => (ulSubheader mem p).size) (LookaheadStops mem)
      (fun _ _ => ()) (fun _ => ()) := by
  refine ⟨ulSubheader_size_pos mem, fun p s hp hgo hlt => ?_, fun p s n s' hp h => ?_⟩
  · exact ⟨_, lookaheadSubPdu_go.mpr ⟨rfl, rfl, by omega, hgo⟩⟩
  · obtain ⟨rfl, -, -, hgo⟩ := lookaheadSubPdu_go.mp h
    exact ⟨rfl, fun _ => hgo, rfl⟩

lemma lookaheadSubPdu_progress (mem : Nat → UInt8) : Progress (lookaheadSubPdu mem) := by
  intro pos rem s n s' h
  obtain ⟨rfl, -⟩ := lookaheadSubPdu_go.mp h
  exact ulSubheader_size_pos mem pos

lemma within_lookaheadSubPdu (mem : Nat → UInt8) (s : List UlSubPdu) (hp : p < len) :
    Within len (lookaheadSubPdu mem p (len - p) s) ↔
      p + (ulSubheader mem p).macSubheaderLen ≤ len := by
  rw [lookaheadSubPdu, within_bind, within_decode, ← ulSubheader, lookaheadLcid]
  refine and_iff_left_of_imp fun hdr => ?_
  split
  · rw [within_bind]
    exact ⟨within_printResidual mem hp, within_pure _⟩
  split
  · next hfit hcrnti =>
    have hform : (ulSubheader mem p).lcid.fixedLength = some 2 := by rw [hcrnti]; rfl
    obtain ⟨hlen, hone⟩ := ulSubheader_fixed hform
    rw [UlSubheader.size] at hfit
    simp only [within_bind, within_read, within_pure, and_true]
    omega
  split
  · exact within_pure _
  · exact within_pure _

/-! ## Where `nr_process_mac_pdu` reads -/

lemma anyNonZero_val (mem : Nat → UInt8) (is : List Nat) :
    (anyNonZero mem is).val = true ↔ ∃ i ∈ is, mem i ≠ 0 := by
  induction is with
  | nil => simp [anyNonZero]
  | cons i is ih =>
    have hzero : (mem i).toNat ≠ 0 ↔ mem i ≠ 0 := by
      rw [Ne, Ne, ← UInt8.toNat_inj]
      rfl
    rw [anyNonZero, val_bind, exists_mem_cons_iff, ← hzero, ← ih]
    by_cases h : (mem i).toNat ≠ 0
    · exact ⟨fun _ => .inl h, fun _ => by rw [val_read, if_pos h]; rfl⟩
    · rw [val_read, if_neg h]
      exact ⟨.inr, fun h' => h'.resolve_left h⟩

lemma within_anyNonZero (mem : Nat → UInt8) :
    ∀ is : List Nat, (∀ i ∈ is, i < n) → Within n (anyNonZero mem is) := by
  intro is
  induction is with
  | nil => exact fun _ => within_pure _
  | cons i is ih =>
    intro h
    rw [anyNonZero, within_bind, within_read]
    refine ⟨h i mem_cons_self, ?_⟩
    split
    · exact within_pure _
    · exact ih fun j hj => h j (mem_cons_of_mem _ hj)

/-- The LCGs a long BSR says it has a buffer size for. -/
def lcgCount (bitmap : Nat) : Nat := (List.range 8).countP bitmap.testBit

lemma within_longBsrLoop (mem : Nat → UInt8) (payload bitmap : Nat) :
    ∀ (ns : List Nat) (m : Nat), Within n (longBsrLoop mem payload bitmap ns m) ↔
      (ns.countP bitmap.testBit = 0 ∨ payload + m + ns.countP bitmap.testBit ≤ n) := by
  intro ns
  induction ns with
  | nil =>
    intro m
    simp [longBsrLoop]
  | cons k ns ih =>
    intro m
    rw [longBsrLoop]
    by_cases hk : bitmap.testBit k = true
    · rw [if_pos hk, within_bind, within_bind, within_read, ih, countP_cons_of_pos hk]
      simp only [within_pure, and_true]
      omega
    · rw [if_neg hk, ih, countP_cons_of_neg hk]

lemma within_estimateUlBufferLongBsr (mem : Nat → UInt8) (ce : Nat) :
    Within n (estimateUlBufferLongBsr mem ce) ↔ ce + 1 + lcgCount (mem ce).toNat ≤ n := by
  rw [estimateUlBufferLongBsr, within_bind, within_bind, within_read, within_longBsrLoop, val_read,
    lcgCount]
  simp only [within_pure, and_true]
  omega

/-- Where `nr_process_mac_pdu` stops at a sub-PDU that is not longer than what is left. -/
def ProcessStops (env : GnbEnv) (mem : Nat → UInt8) (p : Nat) (h : UlSubheader) : Prop :=
  match h.lcid with
  | .ccch64Bits => ∀ i ∈ List.range' p h.size, mem i = 0
  | .srb1 | .srb2 => env.cellGroup = false
  | .singleEntryPhr => env.harqPid < 0
  | .cRnti => env.raIdle = true
  | .padding | .unhandled _ => True
  | _ => False

lemma processLcid_go {h : UlSubheader} :
    (¬ ProcessStops env mem p h → ∃ st', (processLcid env mem p h st).val = (.go h.size, st')) ∧
      ∀ {n : Nat} {st' : UlRx}, (processLcid env mem p h st).val = (.go n, st') →
        n = h.size ∧ ¬ ProcessStops env mem p h := by
  cases hl : h.lcid with
  | ccch64Bits =>
    simp only [processLcid, ProcessStops, hl, val_bind]
    have hval := anyNonZero_val mem (List.range' p h.size)
    by_cases hvalid : (anyNonZero mem (List.range' p h.size)).val = true
    · obtain ⟨i, hi, hne⟩ := hval.mp hvalid
      simp only [if_pos hvalid, val_pure]
      exact ⟨fun _ => ⟨_, rfl⟩, fun heq => by cases heq; exact ⟨rfl, fun hz => hne (hz i hi)⟩⟩
    · simp only [if_neg hvalid, val_pure]
      refine ⟨fun hno => absurd (fun i hi => ?_) hno, nofun⟩
      by_contra hne
      exact hvalid (hval.mpr ⟨i, hi, hne⟩)
  | srb1 =>
    simp only [processLcid, ProcessStops, hl, val_pure]
    cases hc : env.cellGroup
    · exact ⟨fun hno => absurd rfl hno, nofun⟩
    · exact ⟨fun _ => ⟨_, rfl⟩, fun heq => by cases heq; exact ⟨rfl, nofun⟩⟩
  | srb2 =>
    simp only [processLcid, ProcessStops, hl, val_pure]
    cases hc : env.cellGroup
    · exact ⟨fun hno => absurd rfl hno, nofun⟩
    · exact ⟨fun _ => ⟨_, rfl⟩, fun heq => by cases heq; exact ⟨rfl, nofun⟩⟩
  | singleEntryPhr =>
    simp only [processLcid, ProcessStops, hl]
    by_cases hpid : env.harqPid < 0
    · rw [if_pos hpid]
      exact ⟨fun hno => absurd hpid hno, nofun⟩
    · rw [if_neg hpid]
      exact ⟨fun _ => ⟨_, rfl⟩, fun heq => by cases heq; exact ⟨rfl, hpid⟩⟩
  | cRnti =>
    simp only [processLcid, ProcessStops, hl]
    cases hra : env.raIdle
    · exact ⟨fun _ => ⟨_, rfl⟩, fun heq => by cases heq; exact ⟨rfl, nofun⟩⟩
    · exact ⟨fun hno => absurd rfl hno, nofun⟩
  | padding =>
    simp only [processLcid, ProcessStops, hl, val_pure]
    exact ⟨fun hno => absurd trivial hno, nofun⟩
  | unhandled lcid =>
    simp only [processLcid, ProcessStops, hl, val_pure]
    exact ⟨fun hno => absurd trivial hno, nofun⟩
  | _ =>
    simp only [processLcid, ProcessStops, hl]
    exact ⟨fun _ => ⟨_, rfl⟩, fun heq => by cases heq; exact ⟨rfl, id⟩⟩

lemma within_processLcid (hfit : p + (ulSubheader mem p).size ≤ len) :
    Within len (processLcid env mem p (ulSubheader mem p) st) ↔
      ((ulSubheader mem p).lcid.isLongBsr = true →
        p + (ulSubheader mem p).macSubheaderLen + 1 +
          lcgCount (mem (p + (ulSubheader mem p).macSubheaderLen)).toNat ≤ len) := by
  have hfixed := fun n (hn : (ulSubheader mem p).lcid.fixedLength = some n) => ulSubheader_fixed hn
  rw [UlSubheader.size] at hfit
  generalize hh : ulSubheader mem p = h at *
  cases hl : h.lcid with
  | lTruncatedBsr =>
    simp only [processLcid, hl, within_bind, within_estimateUlBufferLongBsr, within_pure, and_true]
    exact ⟨fun hw _ => hw, fun hw => hw rfl⟩
  | lBsr =>
    simp only [processLcid, hl, within_bind, within_estimateUlBufferLongBsr, within_pure, and_true]
    exact ⟨fun hw _ => hw, fun hw => hw rfl⟩
  | ccch64Bits =>
    refine iff_of_true ?_ (absurd · Bool.false_ne_true)
    simp only [processLcid, hl, within_bind]
    refine ⟨within_anyNonZero mem _ fun i hi => ?_, ?_⟩
    · have := mem_range'_1.mp hi
      rw [UlSubheader.size] at this
      omega
    · split <;> exact within_pure _
  | singleEntryPhr =>
    refine iff_of_true ?_ (absurd · Bool.false_ne_true)
    obtain ⟨hlen, -⟩ := hfixed 2 (by rw [hl]; rfl)
    simp only [processLcid, hl]
    split
    · exact within_pure _
    · simp only [within_bind, within_read, within_pure, and_true]
      omega
  | cRnti =>
    refine iff_of_true ?_ (absurd · Bool.false_ne_true)
    obtain ⟨hlen, hone⟩ := hfixed 2 (by rw [hl]; rfl)
    simp only [processLcid, hl]
    split
    · simp only [within_bind, within_read, within_pure, and_true]
      omega
    · exact within_pure _
  | sTruncatedBsr =>
    refine iff_of_true ?_ (absurd · Bool.false_ne_true)
    obtain ⟨hlen, hone⟩ := hfixed 1 (by rw [hl]; rfl)
    simp only [processLcid, hl, estimateUlBufferShortBsr, within_bind, within_read, within_pure,
      and_true]
    omega
  | sBsr =>
    refine iff_of_true ?_ (absurd · Bool.false_ne_true)
    obtain ⟨hlen, hone⟩ := hfixed 1 (by rw [hl]; rfl)
    simp only [processLcid, hl, estimateUlBufferShortBsr, within_bind, within_read, within_pure,
      and_true]
    omega
  | _ =>
    refine iff_of_true ?_ (absurd · Bool.false_ne_true)
    simp [processLcid, hl]

/-- A sub-PDU that is processed starts at `p`. -/
def ProcessBoundary (env : GnbEnv) (mem : Nat → UInt8) (len p : Nat) : Prop :=
  Boundary 0 len (fun p => (ulSubheader mem p).size)
    (fun p => ProcessStops env mem p (ulSubheader mem p)) (fun _ _ => ()) () p ()

/-- A sub-PDU that is looked at starts at `p`. -/
def LookaheadBoundary (mem : Nat → UInt8) (len p : Nat) : Prop :=
  Boundary 0 len (fun p => (ulSubheader mem p).size) (LookaheadStops mem) (fun _ _ => ()) () p ()

lemma processSubPdu_follows (env : GnbEnv) (mem : Nat → UInt8) (len : Nat) :
    Follows (processSubPdu env mem) len (fun p => (ulSubheader mem p).size)
      (fun p => ProcessStops env mem p (ulSubheader mem p)) (fun _ _ => ()) (fun _ => ()) := by
  refine ⟨ulSubheader_size_pos mem, fun p s hp hgo hlt => ?_, fun p s n s' hp h => ?_⟩
  · rw [processSubPdu, val_bind, ← ulSubheader, processDecoded, if_neg (by omega)]
    exact processLcid_go.1 hgo
  · rw [processSubPdu, val_bind, ← ulSubheader, processDecoded] at h
    split at h
    · cases h
    · obtain ⟨rfl, hgo⟩ := processLcid_go.2 h
      exact ⟨rfl, fun _ => hgo, rfl⟩

lemma processSubPdu_progress (env : GnbEnv) (mem : Nat → UInt8) :
    Progress (processSubPdu env mem) := by
  intro pos rem s n s' h
  rw [processSubPdu, val_bind, ← ulSubheader, processDecoded] at h
  split at h
  · cases h
  · obtain ⟨rfl, -⟩ := processLcid_go.2 h
    exact ulSubheader_size_pos mem pos

/-- The subheader of a sub-PDU is there, and a long BSR has as many buffer sizes as it says. -/
def SubPduThere (mem : Nat → UInt8) (len p : Nat) : Prop :=
  p + (ulSubheader mem p).macSubheaderLen ≤ len ∧
    ((ulSubheader mem p).lcid.isLongBsr = true → p + (ulSubheader mem p).size ≤ len →
      p + (ulSubheader mem p).macSubheaderLen + 1 +
        lcgCount (mem (p + (ulSubheader mem p).macSubheaderLen)).toNat ≤ len)

lemma within_processSubPdu (env : GnbEnv) (mem : Nat → UInt8) (s : UlRx) (hp : p < len) :
    Within len (processSubPdu env mem p (len - p) s) ↔ SubPduThere mem len p := by
  rw [processSubPdu, within_bind, within_decode, ← ulSubheader, processDecoded, SubPduThere]
  refine and_congr_right fun hdr => ?_
  split
  · next hlong =>
    refine iff_of_true ?_ fun _ hfit => absurd hfit (by omega)
    rw [within_bind]
    exact ⟨within_printResidual mem hp, within_pure _⟩
  · next hfit =>
    rw [within_processLcid (by omega)]
    exact ⟨fun h hbsr _ => h hbsr, fun h hbsr => h hbsr (by omega)⟩

/-! ## What is handed to RLC, and what the two functions meet -/

/-- Where the `n`-th sub-PDU starts. -/
def ulStart (mem : Nat → UInt8) : Nat → Nat
  | 0 => 0
  | n + 1 => ulStart mem n + (ulSubheader mem (ulStart mem n)).size

/-- The first `n` sub-PDUs. -/
def ulSubPdus (mem : Nat → UInt8) (n : Nat) : List UlSubPdu :=
  (List.range n).map fun i => (ulStart mem i, ulSubheader mem (ulStart mem i))

lemma ulSubPdus_succ (mem : Nat → UInt8) (n : Nat) :
    ulSubPdus mem (n + 1) =
      ulSubPdus mem n ++ [(ulStart mem n, ulSubheader mem (ulStart mem n))] := by
  rw [ulSubPdus, range_succ, map_append]
  rfl

lemma ulSubPdus_grows (mem : Nat → UInt8) {m : Nat} (h : m ≤ n) :
    ulSubPdus mem m <+: ulSubPdus mem n := by
  obtain ⟨k, rfl⟩ := Nat.exists_eq_add_of_le h
  rw [ulSubPdus, ulSubPdus, range_add, map_append]
  exact prefix_append _ _

lemma processLcid_keeps (env : GnbEnv) (mem : Nat → UInt8) (p : Nat) (h : UlSubheader)
    (st : UlRx) :
    (processLcid env mem p h st).val.2.met = st.met ∧
      ∀ ind ∈ (processLcid env mem p h st).val.2.rlc, ind ∈ st.rlc ∨
        (ind.start = p + h.macSubheaderLen ∧ ind.len = h.length) := by
  have hmem : ∀ (lcid : Nat), ∀ ind ∈ (st.deliver lcid p h).rlc, ind ∈ st.rlc ∨
      (ind.start = p + h.macSubheaderLen ∧ ind.len = h.length) := by
    intro lcid ind hind
    rcases mem_append.mp hind with hold | hnew
    · exact .inl hold
    · rw [mem_singleton.mp hnew]
      exact .inr ⟨rfl, rfl⟩
  have hsame : ∀ ind ∈ st.rlc, ind ∈ st.rlc ∨
      (ind.start = p + h.macSubheaderLen ∧ ind.len = h.length) := fun ind => .inl
  rw [processLcid]
  split
  · rw [val_bind]
    split
    · rw [val_pure]
      split
      · exact ⟨rfl, hmem 0⟩
      · exact ⟨rfl, hsame⟩
    · exact ⟨rfl, hsame⟩
  · rw [val_pure]
    split
    · exact ⟨rfl, hmem 0⟩
    · exact ⟨rfl, hsame⟩
  · rw [val_pure]
    split
    · exact ⟨rfl, hmem 1⟩
    · exact ⟨rfl, hsame⟩
  · rw [val_pure]
    split
    · exact ⟨rfl, hmem 2⟩
    · exact ⟨rfl, hsame⟩
  · exact ⟨rfl, hmem _⟩
  · exact ⟨rfl, hsame⟩
  · exact ⟨rfl, hsame⟩
  · exact ⟨rfl, hsame⟩
  · exact ⟨rfl, hsame⟩
  · split
    · exact ⟨rfl, hsame⟩
    · exact ⟨rfl, hsame⟩
  · split
    · exact ⟨rfl, hsame⟩
    · exact ⟨rfl, hsame⟩
  all_goals exact ⟨rfl, hsame⟩

/-- Before each sub-PDU: the slices so far are inside the PDU, and the sub-PDUs met are the first ones.
-/
structure UlWalk (mem : Nat → UInt8) (len pos rem : Nat) (st : UlRx) : Prop where
  total : pos + rem = len
  inside : ∀ ind ∈ st.rlc, ind.start + ind.len ≤ len
  met : ∃ n, st.met = ulSubPdus mem n ∧ pos = ulStart mem n

theorem UlWalk.subPdu (env : GnbEnv) {pos rem : Nat} (hw : UlWalk mem len pos rem st) :
    (∀ ind ∈ (processSubPdu env mem pos rem st).val.2.rlc, ind.start + ind.len ≤ len) ∧
      ∃ n, (processSubPdu env mem pos rem st).val.2.met = ulSubPdus mem (n + 1) ∧
        pos = ulStart mem n := by
  obtain ⟨n, hmet, hpos⟩ := hw.met
  have hnext : st.met ++ [(pos, ulSubheader mem pos)] = ulSubPdus mem (n + 1) := by
    rw [ulSubPdus_succ, ← hmet, ← hpos]
  rw [processSubPdu, val_bind, ← ulSubheader, processDecoded]
  split
  · exact ⟨hw.inside, n, hnext, hpos⟩
  · next hfit =>
    obtain ⟨hkeep, hrlc⟩ := processLcid_keeps env mem pos (ulSubheader mem pos)
      { st with met := st.met ++ [(pos, ulSubheader mem pos)] }
    refine ⟨fun ind hind => ?_, n, hkeep.trans hnext, hpos⟩
    rcases hrlc ind hind with hold | ⟨hstart, hlen⟩
    · exact hw.inside ind hold
    · have := hw.total
      rw [UlSubheader.size] at hfit
      omega

/-- What goes to RLC lies in the PDU. -/
theorem nrProcessMacPdu_spec {ctrl : UlCtrl} {r : UlExit × UlRx}
    (h : (nrProcessMacPdu env mem len ctrl).val = some r) :
    (∀ ind ∈ r.2.rlc, ind.start + ind.len ≤ len) ∧ ∃ n, r.2.met = ulSubPdus mem n := by
  obtain ⟨r', hr, rfl⟩ := Option.map_eq_some_iff.mp h
  refine blocks_invariant (P := UlWalk mem len)
    (Q := fun st => (∀ ind ∈ st.rlc, ind.start + ind.len ≤ len) ∧ ∃ n, st.met = ulSubPdus mem n)
    (fun pos rem s n s' hrem hw hbody => ?_) (fun pos rem s e s' hrem hw hbody => ?_)
    (fun pos s hw => ⟨hw.inside, hw.met.imp fun n hn => hn.1⟩)
    (s := { toUlCtrl := ctrl }) ⟨Nat.zero_add len, nofun, 0, rfl, rfl⟩ hr
  · obtain ⟨hinside, k, hmet, hpos⟩ := hw.subPdu env
    rw [hbody] at hinside hmet
    rw [processSubPdu, val_bind, ← ulSubheader, processDecoded] at hbody
    split at hbody
    · cases hbody
    · next hfit =>
      obtain ⟨rfl, -⟩ := processLcid_go.2 hbody
      refine ⟨by have := hw.total; omega, hinside, k + 1, hmet, ?_⟩
      rw [ulStart, ← hpos]
  · obtain ⟨hinside, k, hmet, -⟩ := hw.subPdu env
    rw [hbody] at hinside hmet
    exact ⟨hinside, k + 1, hmet⟩

lemma lcidCrntiLookahead_spec {r : Nat × List UlSubPdu}
    (h : (lcidCrntiLookahead mem len).val = some r) : ∃ n, r.2 = ulSubPdus mem n := by
  obtain ⟨r', hr, rfl⟩ := Option.map_eq_some_iff.mp h
  refine blocks_invariant (P := fun pos _ met => ∃ n, met = ulSubPdus mem n ∧ pos = ulStart mem n)
    (fun pos rem s n s' _ hw hbody => ?_)
    (fun pos rem s e s' _ hw hbody => ?_) (fun pos s hw => hw.imp fun n hn => hn.1) ⟨0, rfl, rfl⟩ hr
  · obtain ⟨k, hmet, hpos⟩ := hw
    obtain ⟨rfl, rfl, -⟩ := lookaheadSubPdu_go.mp hbody
    exact ⟨k + 1, by rw [ulSubPdus_succ, ← hmet, ← hpos], by rw [ulStart, ← hpos]⟩
  · obtain ⟨k, hmet, hpos⟩ := hw
    refine ⟨k + 1, ?_⟩
    rw [lookaheadSubPdu, val_bind, ← ulSubheader, lookaheadLcid] at hbody
    rw [ulSubPdus_succ, ← hmet, ← hpos]
    split at hbody
    · cases hbody
      rfl
    split at hbody
    · cases hbody
      rfl
    split at hbody
    · cases hbody
      rfl
    · cases hbody

/-! ## Safety of the uplink parser -/

lemma within_lookahead (mem : Nat → UInt8) (len : Nat) :
    Within len (blocks (lookaheadSubPdu mem) len 0 len []) ↔
      ∀ p, LookaheadBoundary mem len p → p + (ulSubheader mem p).macSubheaderLen ≤ len := by
  have hiff := within_blocks_boundary (lookaheadSubPdu_follows mem len) (Nat.sub_le len 0)
    (lookaheadSubPdu_progress mem) [] (W := fun p _ => p + (ulSubheader mem p).macSubheaderLen ≤ len)
    fun p s hp => within_lookaheadSubPdu mem s hp
  exact hiff.trans ⟨fun h p hp => h p () hp, fun h p _ hp => h p hp⟩

lemma within_process (env : GnbEnv) (mem : Nat → UInt8) (len : Nat) (st : UlRx) :
    Within len (blocks (processSubPdu env mem) len 0 len st) ↔
      ∀ p, ProcessBoundary env mem len p → SubPduThere mem len p := by
  have hiff := within_blocks_boundary (processSubPdu_follows env mem len) (Nat.sub_le len 0)
    (processSubPdu_progress env mem) st (W := fun p _ => SubPduThere mem len p)
    fun p s hp => within_processSubPdu env mem s hp
  exact hiff.trans ⟨fun h p hp => h p () hp, fun h p _ hp => h p hp⟩

/-- **The uplink parser on any input.**  Both functions return, what is handed to RLC lies inside
the PDU and both meet the same sub-PDUs; and they read inside the PDU IF AND ONLY IF the PDU is not
empty, the subheader of every sub-PDU they come to is there with its length field, and every long
BSR has as many buffer sizes as it says. -/
theorem ul_parsing_safe_iff (env : GnbEnv) (mem : Nat → UInt8) (len : Nat) (ctrl : UlCtrl) :
    (∃ look proc, (lcidCrntiLookahead mem len).val = some look ∧
      (nrProcessMacPdu env mem len ctrl).val = some proc ∧
      (∀ ind ∈ proc.2.rlc, ind.start + ind.len ≤ len) ∧
      (look.2 <+: proc.2.met ∨ proc.2.met <+: look.2)) ∧
    (Within len (lcidCrntiLookahead mem len) ∧ Within len (nrProcessMacPdu env mem len ctrl) ↔
      0 < len ∧
      (∀ p, LookaheadBoundary mem len p → p + (ulSubheader mem p).macSubheaderLen ≤ len) ∧
      ∀ p, ProcessBoundary env mem len p → SubPduThere mem len p) := by
  constructor
  · have hlookSome : (blocks (lookaheadSubPdu mem) len 0 len []).val.isSome :=
      blocks_returns (lookaheadSubPdu_progress mem) (le_refl len)
    have hprocSome : (blocks (processSubPdu env mem) len 0 len { toUlCtrl := ctrl }).val.isSome :=
      blocks_returns (processSubPdu_progress env mem) (le_refl len)
    obtain ⟨look, hlook⟩ := Option.isSome_iff_exists.mp hlookSome
    obtain ⟨proc, hproc⟩ := Option.isSome_iff_exists.mp hprocSome
    have hlook' : (lcidCrntiLookahead mem len).val = some (look.1.getD 0, look.2) := by
      rw [lcidCrntiLookahead, val_bind, hlook]
      rfl
    have hproc' : (nrProcessMacPdu env mem len ctrl).val =
        some (proc.1.getD (.returned 0), proc.2) := by
      rw [nrProcessMacPdu, val_bind, val_bind, hproc]
      rfl
    obtain ⟨m, hm⟩ := lcidCrntiLookahead_spec hlook'
    obtain ⟨hinside, n, hn⟩ := nrProcessMacPdu_spec hproc'
    refine ⟨_, _, hlook', hproc', hinside, ?_⟩
    rw [hm, hn]
    exact (le_total m n).imp (ulSubPdus_grows mem) (ulSubPdus_grows mem)
  · rw [lcidCrntiLookahead, nrProcessMacPdu, within_bind, within_bind, within_bind, within_read,
      within_lookahead, within_process]
    simp only [within_pure, and_true]
    exact ⟨fun h => ⟨h.2.1, h.1, h.2.2⟩, fun h => ⟨h.2.1, h.1, h.2.2⟩⟩

theorem ul_parsing_reads_behind :
    let env : GnbEnv := ⟨0, true, false, fun _ => true, 0⟩
    ¬ Within 1 (lcidCrntiLookahead (fun _ => 1) 1) ∧
      ¬ Within 1 (nrProcessMacPdu env (fun _ => 1) 1 ⟨0, 0, 0, 0⟩) := by
  decide

end NrStack.Mac
