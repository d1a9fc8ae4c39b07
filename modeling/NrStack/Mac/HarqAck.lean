/-
  The UE's HARQ-ACK codebook (`get_downlink_ack`, `reverse_bits`).

  The ACKs due in a slot are collected by their cumulative DAI, what is missing below the highest one
  becomes a NACK, and the bits go through `o_ACK`, a number of eight bits that is REVERSED at the end.
  `Collected` is what the scan over the processes has gathered; `assembleAck_spec`: the folded DAI is
  unfolded to the position it came from.
-/
import NrStack.Mac.DlHarq
import Mathlib

namespace NrStack.Mac

/-! ## `reverse_bits` -/

/-- `bit_reverse_table_256` -/
def bitReverseTable256 : List Nat :=
  [0x00, 0x80, 0x40, 0xC0, 0x20, 0xA0, 0x60, 0xE0, 0x10, 0x90, 0x50, 0xD0, 0x30, 0xB0, 0x70, 0xF0,
    0x08, 0x88, 0x48, 0xC8, 0x28, 0xA8, 0x68, 0xE8, 0x18, 0x98, 0x58, 0xD8, 0x38, 0xB8, 0x78, 0xF8,
    0x04, 0x84, 0x44, 0xC4, 0x24, 0xA4, 0x64, 0xE4, 0x14, 0x94, 0x54, 0xD4, 0x34, 0xB4, 0x74, 0xF4,
    0x0C, 0x8C, 0x4C, 0xCC, 0x2C, 0xAC, 0x6C, 0xEC, 0x1C, 0x9C, 0x5C, 0xDC, 0x3C, 0xBC, 0x7C, 0xFC,
    0x02, 0x82, 0x42, 0xC2, 0x22, 0xA2, 0x62, 0xE2, 0x12, 0x92, 0x52, 0xD2, 0x32, 0xB2, 0x72, 0xF2,
    0x0A, 0x8A, 0x4A, 0xCA, 0x2A, 0xAA, 0x6A, 0xEA, 0x1A, 0x9A, 0x5A, 0xDA, 0x3A, 0xBA, 0x7A, 0xFA,
    0x06, 0x86, 0x46, 0xC6, 0x26, 0xA6, 0x66, 0xE6, 0x16, 0x96, 0x56, 0xD6, 0x36, 0xB6, 0x76, 0xF6,
    0x0E, 0x8E, 0x4E, 0xCE, 0x2E, 0xAE, 0x6E, 0xEE, 0x1E, 0x9E, 0x5E, 0xDE, 0x3E, 0xBE, 0x7E, 0xFE,
    0x01, 0x81, 0x41, 0xC1, 0x21, 0xA1, 0x61, 0xE1, 0x11, 0x91, 0x51, 0xD1, 0x31, 0xB1, 0x71, 0xF1,
    0x09, 0x89, 0x49, 0xC9, 0x29, 0xA9, 0x69, 0xE9, 0x19, 0x99, 0x59, 0xD9, 0x39, 0xB9, 0x79, 0xF9,
    0x05, 0x85, 0x45, 0xC5, 0x25, 0xA5, 0x65, 0xE5, 0x15, 0x95, 0x55, 0xD5, 0x35, 0xB5, 0x75, 0xF5,
    0x0D, 0x8D, 0x4D, 0xCD, 0x2D, 0xAD, 0x6D, 0xED, 0x1D, 0x9D, 0x5D, 0xDD, 0x3D, 0xBD, 0x7D, 0xFD,
    0x03, 0x83, 0x43, 0xC3, 0x23, 0xA3, 0x63, 0xE3, 0x13, 0x93, 0x53, 0xD3, 0x33, 0xB3, 0x73, 0xF3,
    0x0B, 0x8B, 0x4B, 0xCB, 0x2B, 0xAB, 0x6B, 0xEB, 0x1B, 0x9B, 0x5B, 0xDB, 0x3B, 0xBB, 0x7B, 0xFB,
    0x07, 0x87, 0x47, 0xC7, 0x27, 0xA7, 0x67, 0xE7, 0x17, 0x97, 0x57, 0xD7, 0x37, 0xB7, 0x77, 0xF7,
    0x0F, 0x8F, 0x4F, 0xCF, 0x2F, 0xAF, 0x6F, 0xEF, 0x1F, 0x9F, 0x5F, 0xDF, 0x3F, 0xBF, 0x7F, 0xFF]

/-- The loop over the whole bytes: byte `n` of `input`, reversed, is byte `nBytes - 1 - n`. -/
def reverseBytes (input nBytes : Nat) : Nat → Nat
  | 0 => 0
  | n + 1 =>
    reverseBytes input nBytes n |||
      ((bitReverseTable256[input / 2 ^ (8 * n) % 256]?).getD 0 <<< (8 * (nBytes - 1 - n)))

/-- The loop over the bits from `8 * n_bytes` on. -/
def reverseRest (input nBits : Nat) : List Nat → Nat → Nat
  | [], rev => rev
  | i :: is, rev => reverseRest input nBits is (rev ||| ((input >>> i &&& 1) <<< (nBits - i - 1)))

/-- `reverse_bits`, for `n_bits <= 64` -/
def reverseBits (input nBits : Nat) : Nat :=
  let nBytes := nBits / 8
  reverseRest input nBits (List.range' (nBytes * 8) (nBits - nBytes * 8))
    (reverseBytes input nBytes nBytes <<< (nBits % 8))

lemma bitReverseTable256_testBit : ∀ b : Fin 256, ∀ i : Fin 8,
    ((bitReverseTable256[(b : Nat)]?).getD 0).testBit i = (b : Nat).testBit (7 - i) := by
  decide +kernel

lemma bitReverseTable256_lt : ∀ b : Fin 256, (bitReverseTable256[(b : Nat)]?).getD 0 < 2 ^ 8 := by
  decide +kernel

lemma reversedByte_testBit (input n i : Nat) :
    ((bitReverseTable256[input / 2 ^ (8 * n) % 256]?).getD 0).testBit i =
      (decide (i < 8) && input.testBit (8 * n + (7 - i))) := by
  have hb : input / 2 ^ (8 * n) % 256 < 256 := Nat.mod_lt _ (by decide)
  by_cases hi : i < 8
  · have hmod := Nat.testBit_mod_two_pow (input / 2 ^ (8 * n)) 8 (7 - i)
    rw [decide_eq_true (by omega), Bool.true_and, Nat.testBit_div_two_pow, Nat.add_comm] at hmod
    rw [decide_eq_true hi, Bool.true_and, ← hmod]
    exact bitReverseTable256_testBit ⟨_, hb⟩ ⟨i, hi⟩
  · rw [decide_eq_false hi, Bool.false_and]
    exact Nat.testBit_lt_two_pow (lt_of_lt_of_le (bitReverseTable256_lt ⟨_, hb⟩)
      (Nat.pow_le_pow_right (by decide) (Nat.le_of_not_lt hi)))

lemma reverseBytes_testBit (input : Nat) {nBytes : Nat} : ∀ {n : Nat}, n ≤ nBytes → ∀ i : Nat,
    (reverseBytes input nBytes n).testBit i =
      (decide (8 * (nBytes - n) ≤ i ∧ i < 8 * nBytes) && input.testBit (8 * nBytes - 1 - i)) := by
  intro n
  induction n with
  | zero =>
    intro _ i
    rw [reverseBytes, Nat.zero_testBit, decide_eq_false (by omega), Bool.false_and]
  | succ n ih =>
    intro hn i
    rw [reverseBytes, Nat.testBit_or, ih (by omega), Nat.testBit_shiftLeft, reversedByte_testBit]
    by_cases hbyte : 8 * (nBytes - 1 - n) ≤ i ∧ i < 8 * (nBytes - n)
    · rw [show 8 * n + (7 - (i - 8 * (nBytes - 1 - n))) = 8 * nBytes - 1 - i by omega]
      simp only [← Bool.and_assoc, ← Bool.decide_and, ← Bool.and_or_distrib_right, ← Bool.decide_or]
      congr 2
      exact propext (by omega)
    · rw [← Bool.and_assoc, ← Bool.decide_and, decide_eq_false (p := _ ∧ i - _ < 8) (by omega),
        Bool.false_and, Bool.or_false]
      congr 2
      exact propext (by omega)

lemma reverseRest_testBit (input nBits k : Nat) : ∀ (is : List Nat) (rev : Nat),
    (∀ i ∈ is, i < nBits) →
    (reverseRest input nBits is rev).testBit k =
      (rev.testBit k || decide (k < nBits ∧ nBits - 1 - k ∈ is) && input.testBit (nBits - 1 - k)) := by
  intro is
  induction is with
  | nil => simp [reverseRest]
  | cons i is ih =>
    intro rev hlt
    have hi := hlt i List.mem_cons_self
    -- the bit written in this round
    have hone : ((input >>> i &&& 1) <<< (nBits - i - 1)).testBit k =
        (decide (k + i + 1 = nBits) && input.testBit (nBits - 1 - k)) := by
      rw [Nat.testBit_shiftLeft, Nat.testBit_and, Nat.testBit_shiftRight, Bool.eq_iff_iff]
      simp only [Bool.and_eq_true, decide_eq_true_eq, Nat.testBit_one_eq_true_iff_self_eq_zero]
      constructor
      · rintro ⟨hge, hbit, h0⟩
        rw [h0, Nat.add_zero] at hbit
        exact ⟨by omega, by rwa [show nBits - 1 - k = i by omega]⟩
      · rintro ⟨rfl, hbit⟩
        rw [show k + i + 1 - 1 - k = i by omega] at hbit
        exact ⟨by omega, by rwa [show i + (k - (k + i + 1 - i - 1)) = i by omega], by omega⟩
    rw [reverseRest, ih _ fun x hx => hlt x (List.mem_cons_of_mem i hx), Nat.testBit_or, hone,
      Bool.or_assoc, ← Bool.and_or_distrib_right, ← Bool.decide_or]
    congr 3
    grind

theorem reverseBits_testBit (input nBits i : Nat) :
    (reverseBits input nBits).testBit i =
      (decide (i < nBits) && input.testBit (nBits - 1 - i)) := by
  rw [reverseBits, reverseRest_testBit _ _ _ _ _ fun j hj => by
    have := List.mem_range'_1.mp hj
    omega, Nat.testBit_shiftLeft, reverseBytes_testBit _ (le_refl _)]
  by_cases hlow : i < nBits % 8
  · rw [decide_eq_false (show ¬i ≥ nBits % 8 by omega), Bool.false_and, Bool.false_or]
    congr 2
    rw [List.mem_range'_1]
    exact propext (by omega)
  · rw [decide_eq_true (show i ≥ nBits % 8 by omega), Bool.true_and,
      decide_eq_false (show ¬(i < nBits ∧ nBits - 1 - i ∈ List.range' _ _) by
        rw [List.mem_range'_1]
        omega), Bool.false_and, Bool.or_false]
    congr 2
    · exact propext (by omega)
    · omega

/-! ## `get_downlink_ack` -/

/-- `NR_UE_DL_HARQ_STATUS_t`; `ack` is the result of the decoding. -/
structure UeDlHarqStatus where
  active : Bool
  ackReceived : Bool
  pucchResourceIndicator : Nat
  ulFrame : Nat
  ulSlot : Nat
  ack : Bool
  nCce : Nat
  totalCce : Nat
  daiCumul : Nat
  deriving DecidableEq, Repr

/-- `NR_PUCCH_ResourceSet_t` -/
structure PucchResourceSet where
  pucchResourceSetId : Nat
  maxPayloadSize : Option Nat
  resourceList : List Nat

/-- `NR_PUCCH_Config_t` with a resource set: the sets and the ids of the resources. -/
structure PucchConfig where
  resourceSets : List PucchResourceSet
  nonempty : resourceSets ≠ []
  resources : List Nat

/-- What `get_downlink_ack` reads besides the processes; a `pucch_Config` without a resource set is
none. -/
structure AckEnv where
  frame : Nat
  slot : Nat
  numDlHarq : Nat
  twoTransportBlocks : Bool
  feedbackDisabled : Nat → Bool
  pucchConfig : Option PucchConfig

/-- `get_downlink_ack` returns false, an assertion fails, or it writes behind its arrays of
`NR_MAX_HARQ_PROCESSES` cells. -/
inductive AckExit
  | noAck (procs : Nat → UeDlHarqStatus)
  | assertFatal
  | outOfBounds

/-- The variables of the loops over code words and HARQ processes. -/
structure AckScan where
  procs : Nat → UeDlHarqStatus
  ackData : Nat → Nat → Nat
  dai : Nat → Nat → Nat
  numberHarqFeedback : Nat
  daiMax : Nat
  resInd : Option Nat
  nCce : Nat
  totalCce : Nat

/-- `a[cw][i] = v` -/
def setAt (a : Nat → Nat → Nat) (cw i v : Nat) : Nat → Nat → Nat :=
  Function.update a cw (Function.update (a cw) i v)

/-- The feedback of the process has been taken. -/
def UeDlHarqStatus.done (h : UeDlHarqStatus) : UeDlHarqStatus :=
  { h with active := false, ackReceived := false }

/-- A process with a valid DAI goes into the arrays. -/
def AckScan.report (st : AckScan) (cw pid : Nat) : Except AckExit AckScan :=
  let h := st.procs pid
  let daiIndex := h.daiCumul - 1
  if nrMaxHarqProcesses ≤ daiIndex then .error .outOfBounds
  else
    .ok {
      procs := if h.ackReceived then Function.update st.procs pid h.done else st.procs
      ackData := setAt st.ackData cw daiIndex (if h.ackReceived then h.ack.toNat else 0)
      dai := setAt st.dai cw daiIndex (daiIndex % 4 + 1)
      numberHarqFeedback := st.numberHarqFeedback + 1
      daiMax := max st.daiMax h.daiCumul
      resInd := some h.pucchResourceIndicator
      nCce := h.nCce
      totalCce := h.totalCce }

/-- Is the acknowledgement of this process due in this slot? -/
def AckEnv.due (env : AckEnv) (h : UeDlHarqStatus) : Bool :=
  h.active && h.ulFrame == env.frame && h.ulSlot == env.slot

/-- The body of the loops, for one code word and process. -/
def AckScan.step (env : AckEnv) (cw pid : Nat) (st : AckScan) : Except AckExit AckScan :=
  let h := st.procs pid
  if env.due h then
    -- possibly a false DCI
    if st.resInd ≠ none ∧ st.resInd ≠ some h.pucchResourceIndicator then .ok st
    else if env.feedbackDisabled pid then
      .ok { st with procs := Function.update st.procs pid h.done }
    else if h.daiCumul = 0 then .error (.noAck st.procs)
    else st.report cw pid
  else .ok st

/-- The loop over the HARQ processes. -/
def scanProcesses (env : AckEnv) (cw : Nat) : List Nat → AckScan → Except AckExit AckScan
  | [], st => .ok st
  | pid :: pids, st => (st.step env cw pid).bind (scanProcesses env cw pids)

/-- The loop over the code words. -/
def scanCodeWords (env : AckEnv) : List Nat → AckScan → Except AckExit AckScan
  | [], st => .ok st
  | cw :: cws, st =>
    (scanProcesses env cw (List.range env.numDlHarq) st).bind (scanCodeWords env cws)

/-- A DAI that is missing: its DCI was not decoded. -/
def fillMissing (cw : Nat) : List Nat → AckScan → AckScan
  | [], st => st
  | i :: is, st =>
    fillMissing cw is <|
      if st.dai cw i = 0 then
        { st with
          dai := setAt st.dai cw i (i % 4 + 1)
          ackData := setAt st.ackData cw i 0
          numberHarqFeedback := st.numberHarqFeedback + 1 }
      else st

/-- The variables of the loop that assembles the codebook. -/
structure AckWord where
  j : Nat
  vTemp : Nat
  vTemp2 : Nat
  oAck : Nat

/-- `o_ACK | (ack_data << bit)`, in the eight bits of `o_ACK` -/
def orAck (oAck ackData bit : Nat) : Nat := (oAck ||| ackData <<< bit) % 256

/-- One round of the assembly.  `dai_total` is not 0 when there are two transport blocks. -/
def AckWord.step (two : Bool) (st : AckScan) (w : AckWord) (m : Nat) : AckWord :=
  let v := st.dai 0 m
  let j := if v ≤ w.vTemp then w.j + 1 else w.j
  if two then
    let o := orAck w.oAck (st.ackData 1 m) (8 * j + 2 * (v - 1) + 1)
    ⟨j, v, st.dai 1 m, orAck o (st.ackData 0 m) (8 * j + 2 * (v - 1))⟩
  else ⟨j, v, v, orAck w.oAck (st.ackData 0 m) (4 * j + (v - 1))⟩

/-- The loop that assembles the codebook. -/
def assembleAck (two : Bool) (st : AckScan) (ms : List Nat) : AckWord :=
  ms.foldl (AckWord.step two st) ⟨0, 0, 0, 0⟩

/-- `O_ACK` -/
def AckWord.bits (two : Bool) (w : AckWord) : Nat :=
  let j := if w.vTemp2 < w.vTemp then w.j + 1 else w.j
  if two then 2 * (4 * j + w.vTemp2) else 4 * j + w.vTemp2

/-- The loop of `find_pucch_resource_set`: `N2` and `N3`. -/
def payloadLimits : List PucchResourceSet → Nat × Nat → Nat × Nat
  | [], ns => ns
  | s :: ss, ns =>
    payloadLimits ss
      (if s.pucchResourceSetId = 1 then s.maxPayloadSize.getD 1706 else ns.1,
        if s.pucchResourceSetId = 2 then s.maxPayloadSize.getD 1706 else ns.2)

/-- `find_pucch_resource_set` -/
def findPucchResourceSet (cfg : PucchConfig) (size : Nat) : Except AckExit Nat :=
  if size ≤ 1706 then
    if size ≤ 2 then .ok 0
    else
      let ns := payloadLimits cfg.resourceSets (1706, 1706)
      .ok (if size ≤ ns.1 then 1 else if size ≤ ns.2 then 2 else 3)
  else .error .assertFatal

/-- The PUCCH resource: the `r_PUCCH` of an initial one, or an id. -/
inductive PucchChoice
  | initial (rPucch : Nat)
  | resource (id : Nat)

/-- The PUCCH resource for `oAck` bits. -/
def choosePucch (env : AckEnv) (resInd nCce totalCce oAck : Nat) : Except AckExit PucchChoice :=
  match env.pucchConfig with
  | none =>
    -- `configure_initial_pucch`
    if totalCce = 0 then .error .assertFatal
    else .ok (.initial (2 * nCce / totalCce + 2 * resInd))
  | some cfg =>
    (findPucchResourceSet cfg oAck).bind fun setId =>
      match cfg.resourceSets[setId]? with
      | none => .error .assertFatal
      | some set =>
        match set.resourceList[resInd]? with
        | none => .error .assertFatal
        | some id => if id ∈ cfg.resources then .ok (.resource id) else .error .assertFatal

/-- What `get_downlink_ack` leaves when it returns true. -/
structure AckReport where
  procs : Nat → UeDlHarqStatus
  ackPayload : Nat
  nHarq : Nat
  pucch : PucchChoice

/-- `get_downlink_ack` from the bits on. -/
def finishAck (env : AckEnv) (st : AckScan) : Except AckExit AckReport :=
  let w := assembleAck env.twoTransportBlocks st (List.range st.daiMax)
  let oAckBits := w.bits env.twoTransportBlocks
  if st.numberHarqFeedback ≠ oAckBits then .error (.noAck st.procs)
  else
    (choosePucch env (st.resInd.getD 0) st.nCce st.totalCce oAckBits).map fun choice =>
      ⟨st.procs, reverseBits w.oAck st.numberHarqFeedback % 2 ^ 32, st.numberHarqFeedback, choice⟩

/-- `number_of_code_word` -/
def AckEnv.codeWords (env : AckEnv) : List Nat := if env.twoTransportBlocks then [0, 1] else [0]

/-- `get_downlink_ack`; a result is the return of true. -/
def getDownlinkAck (env : AckEnv) (procs : Nat → UeDlHarqStatus) : Except AckExit AckReport :=
  (scanCodeWords env env.codeWords
    { procs, ackData := fun _ _ => 0, dai := fun _ _ => 0, numberHarqFeedback := 0, daiMax := 0
      resInd := none, nCce := 0, totalCce := 0 }).bind fun st =>
    if st.numberHarqFeedback = 0 ∨ st.numberHarqFeedback > 32 then .error (.noAck st.procs)
    else
      finishAck env
        (env.codeWords.foldl (fun st cw => fillMissing cw (List.range st.daiMax) st) st)

/-! ## The scan -/

open List

variable {env : AckEnv} {st st' : AckScan} {ds : List UeDlHarqStatus}

/-- What the scan has gathered from the processes `ds`, for one code word. -/
structure Collected (ds : List UeDlHarqStatus) (st : AckScan) : Prop where
  number : st.numberHarqFeedback = ds.length
  le_daiMax : ∀ d ∈ ds, d.daiCumul ≤ st.daiMax
  ack : ∀ i, st.ackData 0 i = (ds.any fun d => d.daiCumul == i + 1 && d.ack).toNat
  dai : ∀ i, st.dai 0 i = if ds.any (fun d => d.daiCumul == i + 1) then i % 4 + 1 else 0
  last : st.resInd = ds.getLast?.map UeDlHarqStatus.pucchResourceIndicator
  lastCce : ∀ d, ds.getLast? = some d → st.nCce = d.nCce ∧ st.totalCce = d.totalCce
  daiMax_mem : st.daiMax = 0 ∨ ∃ d ∈ ds, d.daiCumul = st.daiMax

/-- What is asked of a process that is due: feedback enabled, decoded, a DAI the arrays have. -/
structure Reportable (env : AckEnv) (pid : Nat) (h : UeDlHarqStatus) : Prop where
  enabled : env.feedbackDisabled pid = false
  received : h.ackReceived = true
  pos : 1 ≤ h.daiCumul
  le : h.daiCumul ≤ 32

/-- Two processes that can be reported together. -/
def Compatible (d d' : UeDlHarqStatus) : Prop :=
  d.pucchResourceIndicator = d'.pucchResourceIndicator ∧ d.daiCumul ≠ d'.daiCumul

lemma Collected.resInd_ok {p : UeDlHarqStatus} (h : Collected ds st)
    (hall : ∀ d ∈ ds, Compatible d p) :
    ¬(st.resInd ≠ none ∧ st.resInd ≠ some p.pucchResourceIndicator) := by
  rintro ⟨hsome, hne⟩
  rw [h.last] at hsome hne
  obtain ⟨d, hd⟩ := Option.ne_none_iff_exists'.mp hsome
  obtain ⟨d', hlast, rfl⟩ := Option.map_eq_some_iff.mp hd
  rw [hlast, Option.map_some, (hall d' (mem_of_getLast? hlast)).1] at hne
  exact hne rfl

lemma setAt_self (a : Nat → Nat → Nat) (cw i v k : Nat) :
    setAt a cw i v cw k = if k = i then v else a cw k := by
  rw [setAt, Function.update_self, Function.update_apply]

variable {pid : Nat} {pids : List Nat}

lemma Collected.report (h : Collected ds st) (hdue : env.due (st.procs pid) = true)
    (hok : Reportable env pid (st.procs pid)) (hall : ∀ d ∈ ds, Compatible d (st.procs pid)) :
    ∃ st', st.step env 0 pid = .ok st' ∧ Collected (ds ++ [st.procs pid]) st' ∧
      st'.procs = Function.update st.procs pid (st.procs pid).done := by
  have hres := h.resInd_ok hall
  have hpos := hok.pos
  have hle := hok.le
  rw [AckScan.step, if_pos hdue, if_neg hres, hok.enabled, if_neg Bool.false_ne_true,
    if_neg (by omega), AckScan.report, if_neg (by rw [nrMaxHarqProcesses]; omega)]
  refine ⟨_, rfl, ?_, if_pos hok.received⟩
  generalize st.procs pid = p at *
  have hdai : ∀ i, (p.daiCumul == i + 1) = decide (i = p.daiCumul - 1) := fun i =>
    Bool.eq_iff_iff.mpr (by rw [beq_iff_eq, decide_eq_true_eq]; omega)
  constructor
  · rw [length_append, h.number]
    rfl
  · rw [forall_mem_append, forall_mem_singleton]
    exact ⟨fun d hd => (h.le_daiMax d hd).trans (le_max_left _ _), le_max_right _ _⟩
  · intro i
    simp only [any_append, any_cons, any_nil, Bool.or_false, setAt_self, hok.received, if_true, h.ack i,
      hdai]
    by_cases hi : i = p.daiCumul - 1
    · -- no earlier process had this DAI
      have hnone : (ds.any fun d => d.daiCumul == i + 1 && d.ack) = false := by
        rw [any_eq_false]
        intro d hd hboth
        exact (hall d hd).2 (by rw [Bool.and_eq_true, beq_iff_eq] at hboth; omega)
      simp [hi ▸ hnone, hi]
    · simp [hi]
  · intro i
    simp only [any_append, any_cons, any_nil, Bool.or_false, setAt_self, h.dai i, hdai]
    by_cases hi : i = p.daiCumul - 1
    · simp [hi]
    · simp [hi]
  · rw [getLast?_concat, Option.map_some]
  · intro d hd
    rw [getLast?_concat] at hd
    cases hd
    exact ⟨rfl, rfl⟩
  · refine .inr ?_
    rcases le_total st.daiMax p.daiCumul with hle | hle
    · exact ⟨p, mem_append_right _ mem_cons_self, (max_eq_right hle).symm⟩
    · rcases h.daiMax_mem with hzero | ⟨d, hd, heq⟩
      · omega
      · exact ⟨d, mem_append_left _ hd, heq.trans (max_eq_left hle).symm⟩

/-- The processes whose feedback is due. -/
def AckEnv.dueOf (env : AckEnv) (procs : Nat → UeDlHarqStatus) (pids : List Nat) :
    List UeDlHarqStatus :=
  (pids.filter fun pid => env.due (procs pid)).map procs

lemma dueOf_cons_pos (h : env.due (procs pid) = true) :
    env.dueOf procs (pid :: pids) = procs pid :: env.dueOf procs pids := by
  simp [AckEnv.dueOf, h]

lemma dueOf_cons_neg (h : ¬env.due (procs pid) = true) :
    env.dueOf procs (pid :: pids) = env.dueOf procs pids := by
  simp only [AckEnv.dueOf, filter_cons, if_neg h]

lemma mem_dueOf {d : UeDlHarqStatus} :
    d ∈ env.dueOf procs pids ↔ ∃ pid ∈ pids, env.due (procs pid) = true ∧ procs pid = d := by
  simp [AckEnv.dueOf, and_assoc]

lemma dueOf_congr {procs' : Nat → UeDlHarqStatus} (h : ∀ pid ∈ pids, procs' pid = procs pid) :
    env.dueOf procs' pids = env.dueOf procs pids := by
  have hfilter : (pids.filter fun pid => env.due (procs' pid)) =
      pids.filter fun pid => env.due (procs pid) :=
    filter_congr fun pid hpid => by rw [h pid hpid]
  rw [AckEnv.dueOf, AckEnv.dueOf, hfilter]
  exact map_congr_left fun pid hpid => h pid (mem_filter.mp hpid).1

/-- The scan collects the due processes, unless a DAI is out of range. -/
theorem scanProcesses_collected : ∀ {pids : List Nat} {ds : List UeDlHarqStatus} {st : AckScan},
    Collected ds st → pids.Nodup →
    (∀ pid ∈ pids, env.due (st.procs pid) = true →
      env.feedbackDisabled pid = false ∧ (st.procs pid).ackReceived = true) →
    (ds ++ env.dueOf st.procs pids).Pairwise Compatible →
    if ∀ pid ∈ pids, env.due (st.procs pid) = true →
        1 ≤ (st.procs pid).daiCumul ∧ (st.procs pid).daiCumul ≤ 32 then
      ∃ st', scanProcesses env 0 pids st = .ok st' ∧ Collected (ds ++ env.dueOf st.procs pids) st' ∧
        ∀ pid, st'.procs pid =
          if pid ∈ pids ∧ env.due (st.procs pid) = true then (st.procs pid).done else st.procs pid
    else ∃ e, scanProcesses env 0 pids st = .error e := by
  intro pids
  induction pids with
  | nil =>
    intro ds st h _ _ _
    refine ⟨st, rfl, ?_, fun pid => ?_⟩
    · rwa [show env.dueOf st.procs [] = [] from rfl, append_nil]
    · rw [if_neg fun hmem => absurd hmem.1 not_mem_nil]
  | cons pid pids ih =>
    intro ds st h hnodup hready hpair
    obtain ⟨hnotin, hnodup⟩ := nodup_cons.mp hnodup
    rw [forall_mem_cons] at hready
    rw [scanProcesses]
    simp only [forall_mem_cons]
    by_cases hdue : env.due (st.procs pid) = true
    · rw [dueOf_cons_pos hdue] at hpair ⊢
      have hbefore := fun d hd => (pairwise_append.mp hpair).2.2 d hd _ mem_cons_self
      obtain ⟨henabled, hreceived⟩ := hready.1 hdue
      by_cases hgood : 1 ≤ (st.procs pid).daiCumul ∧ (st.procs pid).daiCumul ≤ 32
      · obtain ⟨st₁, hstep, hcoll, hprocs⟩ :=
          h.report hdue ⟨henabled, hreceived, hgood.1, hgood.2⟩ hbefore
        have hsame : ∀ p ∈ pids, st₁.procs p = st.procs p := fun p hp => by
          rw [hprocs, Function.update_of_ne (ne_of_mem_of_not_mem hp hnotin)]
        have hscan := ih hcoll hnodup (fun p hp => by rw [hsame p hp]; exact hready.2 p hp)
          (by rwa [dueOf_congr hsame, append_assoc])
        rw [dueOf_congr hsame, append_assoc] at hscan
        simp only [hgood, implies_true, true_and, hstep]
        split
        · next hvalid =>
          rw [if_pos fun p hp => by rw [hsame p hp]; exact hvalid p hp] at hscan
          obtain ⟨st', hscan, hcoll', hprocs'⟩ := hscan
          refine ⟨st', hscan, hcoll', fun p => ?_⟩
          rw [hprocs' p, hprocs]
          by_cases hp : p = pid
          · subst hp
            rw [Function.update_self, if_neg fun hmem => hnotin hmem.1, if_pos ⟨mem_cons_self, hdue⟩]
          · simp [hp]
        · next hbad =>
          rwa [if_neg fun hall => hbad fun p hp => by rw [← hsame p hp]; exact hall p hp] at hscan
      · rw [if_neg fun hall => hgood (hall.1 hdue), AckScan.step, if_pos hdue,
          if_neg (h.resInd_ok hbefore), henabled, if_neg Bool.false_ne_true]
        by_cases hzero : (st.procs pid).daiCumul = 0
        · exact ⟨_, by rw [if_pos hzero]; rfl⟩
        · refine ⟨.outOfBounds, ?_⟩
          rw [if_neg hzero, AckScan.report, if_pos (by rw [nrMaxHarqProcesses]; omega)]
          rfl
    · rw [dueOf_cons_neg hdue] at hpair ⊢
      have hstep : st.step env 0 pid = .ok st := by
        exact if_neg hdue
      have hmem : ∀ p, (p ∈ pid :: pids ∧ env.due (st.procs p) = true) ↔
          p ∈ pids ∧ env.due (st.procs p) = true := by
        intro p
        by_cases hp : p = pid
        · simp [hp, hdue]
        · simp [hp]
      simp only [hstep, hdue, Bool.false_eq_true, false_implies, true_and, hmem]
      exact ih h hnodup hready.2 hpair

/-! ## The bits -/

/-- What the loop over the missing DAIs does. -/
structure MissingFilled (is : List Nat) (st st' : AckScan) : Prop where
  dai : ∀ i, st'.dai 0 i = if i ∈ is ∧ st.dai 0 i = 0 then i % 4 + 1 else st.dai 0 i
  ack : ∀ i, st'.ackData 0 i = if i ∈ is ∧ st.dai 0 i = 0 then 0 else st.ackData 0 i
  number : st'.numberHarqFeedback = st.numberHarqFeedback + is.countP fun i => st.dai 0 i = 0
  procs : st'.procs = st.procs
  daiMax : st'.daiMax = st.daiMax
  resInd : st'.resInd = st.resInd
  cce : st'.nCce = st.nCce ∧ st'.totalCce = st.totalCce

lemma fillMissing_spec : ∀ (is : List Nat) (st : AckScan), is.Nodup →
    MissingFilled is st (fillMissing 0 is st) := by
  intro is
  induction is with
  | nil =>
    intro st _
    exact ⟨by simp [fillMissing], by simp [fillMissing], rfl, rfl, rfl, rfl, rfl, rfl⟩
  | cons k is ih =>
    intro st hnodup
    obtain ⟨hnotin, hnodup⟩ := nodup_cons.mp hnodup
    rw [fillMissing]
    by_cases hzero : st.dai 0 k = 0
    · rw [if_pos hzero]
      have h := ih { st with
        dai := setAt st.dai 0 k (k % 4 + 1)
        ackData := setAt st.ackData 0 k 0
        numberHarqFeedback := st.numberHarqFeedback + 1 } hnodup
      refine ⟨fun i => ?_, fun i => ?_, ?_, h.procs, h.daiMax, h.resInd, h.cce⟩
      · rw [h.dai i]
        by_cases hi : i = k
        · simp [hi, setAt_self, hnotin, hzero]
        · simp [hi, setAt_self]
      · rw [h.ack i]
        by_cases hi : i = k
        · simp [hi, setAt_self, hnotin, hzero]
        · simp [hi, setAt_self]
      · have hcount : is.countP (fun i => setAt st.dai 0 k (k % 4 + 1) 0 i = 0) =
            is.countP fun i => st.dai 0 i = 0 :=
          countP_congr fun i hi => by rw [setAt_self, if_neg (ne_of_mem_of_not_mem hi hnotin)]
        rw [h.number, hcount, countP_cons_of_pos (by simpa using hzero)]
        exact Nat.add_right_comm _ _ _
    · rw [if_neg hzero]
      have h := ih st hnodup
      have hmem : ∀ i, (i ∈ k :: is ∧ st.dai 0 i = 0) ↔ i ∈ is ∧ st.dai 0 i = 0 := by
        intro i
        by_cases hi : i = k
        · simp [hi, hzero]
        · simp [hi]
      refine ⟨fun i => ?_, fun i => ?_, ?_, h.procs, h.daiMax, h.resInd, h.cce⟩
      · simp only [h.dai i, hmem i]
      · simp only [h.ack i, hmem i]
      · rw [h.number, countP_cons_of_neg (by simpa using hzero)]

lemma orAck_testBit (oAck : Nat) (b : Bool) (bit i : Nat) :
    (orAck oAck b.toNat bit).testBit i =
      (decide (i < 8) && (oAck.testBit i || decide (i = bit) && b)) := by
  rw [orAck, show (256 : Nat) = 2 ^ 8 from rfl, Nat.testBit_mod_two_pow, Nat.testBit_or,
    Nat.testBit_shiftLeft]
  congr 2
  by_cases hi : i = bit
  · subst hi
    rw [decide_eq_true (le_refl i), decide_eq_true rfl, Nat.sub_self]
    cases b <;> rfl
  · rw [decide_eq_false hi, Bool.false_and]
    by_cases hge : i ≥ bit
    · have hlt : b.toNat < 2 ^ (i - bit) :=
        lt_of_le_of_lt (Bool.toNat_le b) (Nat.one_lt_two_pow (by omega))
      rw [Nat.testBit_lt_two_pow hlt, Bool.and_false]
    · rw [decide_eq_false hge, Bool.false_and]

/-- Eight bits at most reach the codebook. -/
theorem assembleAck_spec {acks : Nat → Bool} (hdai : ∀ i < st.daiMax, st.dai 0 i = i % 4 + 1)
    (hack : ∀ i, st.ackData 0 i = (acks i).toNat) : ∀ k, k ≤ st.daiMax →
    (∀ i, (assembleAck false st (List.range k)).oAck.testBit i =
      (decide (i < 8 ∧ i < k) && acks i)) ∧
    (0 < k → (assembleAck false st (List.range k)).j = (k - 1) / 4 ∧
      (assembleAck false st (List.range k)).vTemp = (k - 1) % 4 + 1 ∧
      (assembleAck false st (List.range k)).vTemp2 = (k - 1) % 4 + 1) ∧
    (k = 0 → assembleAck false st (List.range k) = ⟨0, 0, 0, 0⟩) := by
  intro k
  induction k with
  | zero =>
    intro _
    refine ⟨fun i => ?_, fun h => absurd h (lt_irrefl 0), fun _ => rfl⟩
    rw [decide_eq_false (by omega), Bool.false_and]
    exact Nat.zero_testBit i
  | succ k ih =>
    intro hk
    obtain ⟨hbits, hpos, hzero⟩ := ih (by omega)
    -- the round for position `k` finds `j` and the DAI of position `k - 1`
    have hj : (if k % 4 + 1 ≤ (assembleAck false st (List.range k)).vTemp then
        (assembleAck false st (List.range k)).j + 1 else (assembleAck false st (List.range k)).j) =
        k / 4 := by
      by_cases h0 : k = 0
      · rw [hzero h0, h0]
        rfl
      · obtain ⟨hj, hv, -⟩ := hpos (by omega)
        split <;> omega
    have hround : assembleAck false st (List.range (k + 1)) =
        ⟨k / 4, k % 4 + 1, k % 4 + 1,
          orAck (assembleAck false st (List.range k)).oAck (acks k).toNat k⟩ := by
      rw [assembleAck, range_succ, foldl_append, foldl_cons, foldl_nil,
        ← assembleAck, AckWord.step, hdai k (by omega), hack k]
      rw [hj, if_neg Bool.false_ne_true, show 4 * (k / 4) + (k % 4 + 1 - 1) = k by omega]
    rw [hround]
    refine ⟨fun i => ?_, fun _ => ⟨rfl, rfl, rfl⟩, fun h => absurd h (Nat.succ_ne_zero k)⟩
    rw [orAck_testBit, hbits i]
    by_cases hi : i = k
    · subst hi
      rw [decide_eq_true rfl, decide_eq_false (show ¬(i < 8 ∧ i < i) by omega), Bool.false_and,
        Bool.false_or, Bool.true_and]
      congr 2
      exact propext (by omega)
    · rw [decide_eq_false hi, Bool.false_and, Bool.or_false, ← Bool.and_assoc,
        ← Bool.decide_and]
      congr 2
      exact propext (by omega)

lemma countP_missing {l : List Nat} (hnodup : l.Nodup) (hlt : ∀ x ∈ l, x < n) :
    l.length + (List.range n).countP (fun i => i ∉ l) = n := by
  have hperm : ((List.range n).filter fun i => i ∈ l).Perm l := by
    refine (perm_ext_iff_of_nodup (nodup_range.filter _) hnodup).mpr fun x => ?_
    rw [mem_filter, mem_range, decide_eq_true_iff]
    exact ⟨fun h => h.2, fun h => ⟨hlt x h, h⟩⟩
  have hsplit := length_eq_countP_add_countP (fun i => decide (i ∈ l)) (l := List.range n)
  rw [length_range, countP_eq_length_filter, hperm.length_eq] at hsplit
  simpa using hsplit.symm

/-! ## The codebook -/

/-- One code word, feedback enabled, one PUCCH resource indicator, decoding finished, and DAIs that
differ and have the maximum `n`. -/
structure AckCase (env : AckEnv) (procs : Nat → UeDlHarqStatus) (n : Nat) : Prop where
  numDlHarq_le : env.numDlHarq ≤ 32
  oneCodeWord : env.twoTransportBlocks = false
  enabled : ∀ pid < env.numDlHarq, env.due (procs pid) = true → env.feedbackDisabled pid = false
  received : ∀ pid < env.numDlHarq, env.due (procs pid) = true → (procs pid).ackReceived = true
  sameResource : ∀ pid < env.numDlHarq, ∀ pid' < env.numDlHarq, env.due (procs pid) = true →
    env.due (procs pid') = true →
    (procs pid).pucchResourceIndicator = (procs pid').pucchResourceIndicator
  distinct : ∀ pid < env.numDlHarq, ∀ pid' < env.numDlHarq, env.due (procs pid) = true →
    env.due (procs pid') = true → pid ≠ pid' → (procs pid).daiCumul ≠ (procs pid').daiCumul
  daiCumul_le : ∀ pid < env.numDlHarq, env.due (procs pid) = true → (procs pid).daiCumul ≤ n
  attained : ∃ pid < env.numDlHarq, env.due (procs pid) = true ∧ (procs pid).daiCumul = n

/-- **What the codebook is to be**: `n` bits, bit `n - k` the ACK of the process with DAI `k`, and no
process reported is active any more. -/
structure AckReported (env : AckEnv) (procs : Nat → UeDlHarqStatus) (n : Nat) (r : AckReport) :
    Prop where
  nHarq : r.nHarq = n
  bits : ∀ k, 1 ≤ k → k ≤ n → (r.ackPayload.testBit (n - k) = true ↔
    ∃ pid < env.numDlHarq, env.due (procs pid) = true ∧ (procs pid).daiCumul = k ∧
      (procs pid).ack = true)
  inactive : ∀ pid < env.numDlHarq, env.due (procs pid) = true → (r.procs pid).active = false

/-- Every DAI is valid, no ACK has a DAI above the eight bits of `o_ACK`, and there is a PUCCH resource.
-/
structure AckFits (env : AckEnv) (procs : Nat → UeDlHarqStatus) (n : Nat) : Prop where
  valid : ∀ pid < env.numDlHarq, env.due (procs pid) = true →
    1 ≤ (procs pid).daiCumul ∧ (procs pid).daiCumul ≤ 32
  eight : ∀ pid < env.numDlHarq, env.due (procs pid) = true → (procs pid).ack = true →
    (procs pid).daiCumul ≤ 8
  pucch : ∀ d, (env.dueOf procs (List.range env.numDlHarq)).getLast? = some d →
    ∃ choice, choosePucch env d.pucchResourceIndicator d.nCce d.totalCce n = .ok choice

variable {procs : Nat → UeDlHarqStatus} {n : Nat}

namespace AckCase

section

variable (h : AckCase env procs n)
include h

lemma pairwise :
    (env.dueOf procs (List.range env.numDlHarq)).Pairwise Compatible := by
  rw [AckEnv.dueOf, pairwise_map]
  refine (nodup_range.filter _).imp_of_mem fun {pid pid'} hpid hpid' hne => ?_
  obtain ⟨hlt, hdue⟩ := mem_filter.mp hpid
  obtain ⟨hlt', hdue'⟩ := mem_filter.mp hpid'
  rw [mem_range] at hlt hlt'
  exact ⟨h.sameResource pid hlt pid' hlt' hdue hdue', h.distinct pid hlt pid' hlt' hdue hdue' hne⟩

lemma length_le :
    (env.dueOf procs (List.range env.numDlHarq)).length ≤ 32 := by
  rw [AckEnv.dueOf, length_map]
  exact (length_filter_le _ _).trans (by rw [length_range]; exact h.numDlHarq_le)

lemma mem_le {d : UeDlHarqStatus}
    (hd : d ∈ env.dueOf procs (List.range env.numDlHarq)) : d.daiCumul ≤ n := by
  obtain ⟨pid, hpid, hdue, rfl⟩ := mem_dueOf.mp hd
  exact h.daiCumul_le pid (mem_range.mp hpid) hdue

lemma exists_mem :
    ∃ d ∈ env.dueOf procs (List.range env.numDlHarq), d.daiCumul = n := by
  obtain ⟨pid, hpid, hdue, heq⟩ := h.attained
  exact ⟨procs pid, mem_dueOf.mpr ⟨pid, mem_range.mpr hpid, hdue, rfl⟩, heq⟩

end

end AckCase

lemma Collected.filled (h : Collected ds st) (hn : st.daiMax = n)
    (hpos : ∀ d ∈ ds, 1 ≤ d.daiCumul) (hdistinct : ds.Pairwise fun d d' => d.daiCumul ≠ d'.daiCumul)
    (hfill : MissingFilled (List.range n) st st') :
    st'.numberHarqFeedback = n ∧ (∀ i < n, st'.dai 0 i = i % 4 + 1) ∧
      ∀ i, st'.ackData 0 i = (ds.any fun d => d.daiCumul == i + 1 && d.ack).toNat := by
  have hzero : ∀ i, st.dai 0 i = 0 ↔ ∀ d ∈ ds, d.daiCumul ≠ i + 1 := by
    intro i
    rw [h.dai i]
    by_cases hany : ds.any (fun d => d.daiCumul == i + 1) = true
    · rw [if_pos hany]
      obtain ⟨d, hd, heq⟩ := any_eq_true.mp hany
      exact ⟨fun h0 => absurd h0 (Nat.succ_ne_zero _),
        fun hall => absurd (beq_iff_eq.mp heq) (hall d hd)⟩
    · rw [if_neg hany]
      refine ⟨fun _ d hd heq => hany (any_eq_true.mpr ⟨d, hd, beq_iff_eq.mpr heq⟩), fun _ => rfl⟩
  refine ⟨?_, fun i hi => ?_, fun i => ?_⟩
  · -- the positions taken are the DAIs minus one, all different and below `n`
    have hcount := countP_missing (n := n) (l := ds.map fun d => d.daiCumul - 1)
      (by
        rw [List.Nodup, pairwise_map]
        refine hdistinct.imp_of_mem fun {a b} ha hb hne => ?_
        have := hpos a ha
        have := hpos b hb
        omega)
      (by
        intro x hx
        obtain ⟨d, hd, rfl⟩ := mem_map.mp hx
        have := h.le_daiMax d hd
        have := hpos d hd
        omega)
    have hsame : (List.range n).countP (fun i => st.dai 0 i = 0) =
        (List.range n).countP fun i => i ∉ ds.map fun d => d.daiCumul - 1 := by
      refine countP_congr fun i _ => ?_
      rw [decide_eq_true_iff, decide_eq_true_iff, hzero, mem_map]
      constructor
      · rintro hall ⟨d, hd, rfl⟩
        have := hpos d hd
        exact hall d hd (by omega)
      · intro hnot d hd heq
        exact hnot ⟨d, hd, by omega⟩
    rw [hfill.number, h.number, hsame]
    rwa [length_map] at hcount
  · rw [hfill.dai i]
    by_cases h0 : st.dai 0 i = 0
    · rw [if_pos ⟨mem_range.mpr hi, h0⟩]
    · rw [if_neg fun hmem => h0 hmem.2, h.dai i]
      rw [h.dai i] at h0
      split at h0
      · next hany => rw [if_pos hany]
      · exact absurd rfl h0
  · rw [hfill.ack i, h.ack i]
    split
    · next hmiss =>
      have hnone : (ds.any fun d => d.daiCumul == i + 1 && d.ack) = false := by
        rw [any_eq_false]
        intro d hd hboth
        rw [Bool.and_eq_true, beq_iff_eq] at hboth
        exact (hzero i).mp hmiss.2 d hd hboth.1
      rw [hnone]
      rfl
    · rfl

/-- The variables before the loops. -/
def AckScan.start (procs : Nat → UeDlHarqStatus) : AckScan :=
  { procs, ackData := fun _ _ => 0, dai := fun _ _ => 0, numberHarqFeedback := 0, daiMax := 0
    resInd := none, nCce := 0, totalCce := 0 }

lemma collected_start (procs : Nat → UeDlHarqStatus) : Collected [] (AckScan.start procs) :=
  ⟨rfl, fun _ h => absurd h not_mem_nil, fun _ => rfl, fun _ => rfl, rfl, nofun,
    .inl rfl⟩

lemma AckCase.scan (h : AckCase env procs n) :
    if ∀ pid < env.numDlHarq, env.due (procs pid) = true →
        1 ≤ (procs pid).daiCumul ∧ (procs pid).daiCumul ≤ 32 then
      ∃ st, scanProcesses env 0 (List.range env.numDlHarq) (AckScan.start procs) = .ok st ∧
        Collected (env.dueOf procs (List.range env.numDlHarq)) st ∧
        ∀ pid < env.numDlHarq, env.due (procs pid) = true → (st.procs pid).active = false
    else ∃ e, scanProcesses env 0 (List.range env.numDlHarq) (AckScan.start procs) = .error e := by
  have hscan := scanProcesses_collected (collected_start procs) nodup_range
    (fun pid hpid hdue => ⟨h.enabled pid (mem_range.mp hpid) hdue,
      h.received pid (mem_range.mp hpid) hdue⟩) h.pairwise
  simp only [mem_range, AckScan.start] at hscan
  split
  · next hvalid =>
    rw [if_pos hvalid] at hscan
    obtain ⟨st, hscan, hcoll, hprocs⟩ := hscan
    exact ⟨st, hscan, hcoll, fun pid hpid hdue => by rw [hprocs, if_pos ⟨hpid, hdue⟩]; rfl⟩
  · next hvalid => rwa [if_neg hvalid] at hscan

lemma getDownlinkAck_oneCodeWord (hone : env.twoTransportBlocks = false)
    (procs : Nat → UeDlHarqStatus) :
    getDownlinkAck env procs =
      (scanProcesses env 0 (List.range env.numDlHarq) (AckScan.start procs)).bind fun st =>
        if st.numberHarqFeedback = 0 ∨ st.numberHarqFeedback > 32 then .error (.noAck st.procs)
        else finishAck env (fillMissing 0 (List.range st.daiMax) st) := by
  rw [getDownlinkAck, AckEnv.codeWords, hone, if_neg Bool.false_ne_true, scanCodeWords,
    ← AckScan.start]
  cases scanProcesses env 0 (List.range env.numDlHarq) (AckScan.start procs) with
  | error e => rfl
  | ok st => rfl

lemma finishAck_spec {acks : Nat → Bool} (hone : env.twoTransportBlocks = false)
    (hn : 1 ≤ n) (hn' : n ≤ 32) (hmax : st.daiMax = n) (hnumber : st.numberHarqFeedback = n)
    (hdai : ∀ i < n, st.dai 0 i = i % 4 + 1) (hack : ∀ i, st.ackData 0 i = (acks i).toNat) :
    ∃ payload, finishAck env st =
        (choosePucch env (st.resInd.getD 0) st.nCce st.totalCce n).map
          (fun choice => ⟨st.procs, payload, n, choice⟩) ∧
      ∀ k, 1 ≤ k → k ≤ n → payload.testBit (n - k) = (decide (k ≤ 8) && acks (k - 1)) := by
  subst hmax
  obtain ⟨hbits, hpos, -⟩ := assembleAck_spec hdai hack st.daiMax (le_refl _)
  obtain ⟨hj, hv, hv2⟩ := hpos hn
  have hcount : (assembleAck false st (List.range st.daiMax)).bits false = st.daiMax := by
    rw [AckWord.bits, hj, hv, hv2, if_neg (lt_irrefl _), if_neg Bool.false_ne_true]
    omega
  refine ⟨reverseBits (assembleAck false st (List.range st.daiMax)).oAck st.daiMax % 2 ^ 32, ?_,
    fun k hk hk' => ?_⟩
  · rw [finishAck, hone, hcount, hnumber, if_neg fun h => h rfl]
  · rw [Nat.testBit_mod_two_pow, reverseBits_testBit, hbits,
      decide_eq_true (show st.daiMax - k < 32 by omega),
      decide_eq_true (show st.daiMax - k < st.daiMax by omega), Bool.true_and, Bool.true_and,
      show st.daiMax - 1 - (st.daiMax - k) = k - 1 by omega]
    congr 2
    exact propext (by omega)

theorem getDownlinkAck_of_valid (h : AckCase env procs n)
    (hvalid : ∀ pid < env.numDlHarq, env.due (procs pid) = true →
      1 ≤ (procs pid).daiCumul ∧ (procs pid).daiCumul ≤ 32) :
    ∃ d procs' payload, (env.dueOf procs (List.range env.numDlHarq)).getLast? = some d ∧
      getDownlinkAck env procs =
        (choosePucch env d.pucchResourceIndicator d.nCce d.totalCce n).map
          (fun choice => ⟨procs', payload, n, choice⟩) ∧
      (∀ pid < env.numDlHarq, env.due (procs pid) = true → (procs' pid).active = false) ∧
      ∀ k, 1 ≤ k → k ≤ n → (payload.testBit (n - k) = true ↔ k ≤ 8 ∧
        ∃ pid < env.numDlHarq, env.due (procs pid) = true ∧ (procs pid).daiCumul = k ∧
          (procs pid).ack = true) := by
  have hscan := h.scan
  rw [if_pos hvalid] at hscan
  obtain ⟨st, hscan, hcoll, hinactive⟩ := hscan
  obtain ⟨top, htop, hn⟩ := h.exists_mem
  have hrange : ∀ d ∈ env.dueOf procs (List.range env.numDlHarq), 1 ≤ d.daiCumul ∧ d.daiCumul ≤ 32 := by
    intro d hd
    obtain ⟨pid, hpid, hdue, rfl⟩ := mem_dueOf.mp hd
    exact hvalid pid (mem_range.mp hpid) hdue
  have hmax : st.daiMax = n := by
    have hle := hcoll.le_daiMax top htop
    rcases hcoll.daiMax_mem with hzero | ⟨d, hd, heq⟩
    · omega
    · have := h.mem_le hd
      omega
  obtain ⟨last, hlast⟩ : ∃ d, (env.dueOf procs (List.range env.numDlHarq)).getLast? = some d :=
    ⟨_, getLast?_eq_some_getLast (ne_nil_of_mem htop)⟩
  have hfill := fillMissing_spec (List.range st.daiMax) st nodup_range
  have hfilled := hfill
  rw [hmax] at hfilled
  obtain ⟨hnumber, hdai, hack⟩ := hcoll.filled hmax (fun d hd => (hrange d hd).1)
    (h.pairwise.imp fun hne => hne.2) hfilled
  rw [← hmax] at hnumber hdai hack
  obtain ⟨payload, hfinish, hbits⟩ := finishAck_spec h.oneCodeWord
    (by have := (hrange top htop).1; omega) (by have := (hrange top htop).2; omega)
    (hfill.daiMax.trans hmax) (hnumber.trans hmax) (fun i hi => hdai i (hmax ▸ hi)) hack
  refine ⟨last, st.procs, payload, hlast, ?_, hinactive, fun k hk hk' => ?_⟩
  · have hlen := h.length_le
    have hne := length_pos_iff.mpr (ne_nil_of_mem htop)
    rw [getDownlinkAck_oneCodeWord h.oneCodeWord, hscan, Except.bind,
      if_neg (by rw [hcoll.number]; omega), hfinish, hfill.resInd, hcoll.last, hlast,
      hfill.cce.1, hfill.cce.2, (hcoll.lastCce last hlast).1, (hcoll.lastCce last hlast).2, hfill.procs]
    rfl
  · rw [hbits k hk hk', Bool.and_eq_true, decide_eq_true_iff, any_eq_true]
    refine and_congr_right fun _ => ?_
    constructor
    · rintro ⟨d, hd, hboth⟩
      obtain ⟨pid, hpid, hdue, rfl⟩ := mem_dueOf.mp hd
      rw [Bool.and_eq_true, beq_iff_eq] at hboth
      exact ⟨pid, mem_range.mp hpid, hdue, by omega, hboth.2⟩
    · rintro ⟨pid, hpid, hdue, hk₁, hack⟩
      refine ⟨procs pid, mem_dueOf.mpr ⟨pid, mem_range.mpr hpid, hdue, rfl⟩, ?_⟩
      rw [Bool.and_eq_true, beq_iff_eq]
      exact ⟨by omega, hack⟩

/-- **The codebook is right exactly when it fits**: valid DAIs, a PUCCH resource, and no ACK whose
position is behind the eight bits of `o_ACK`. -/
theorem harq_ack_codebook_iff (h : AckCase env procs n) :
    (∃ r, getDownlinkAck env procs = .ok r ∧ AckReported env procs n r) ↔
      AckFits env procs n := by
  by_cases hvalid : ∀ pid < env.numDlHarq, env.due (procs pid) = true →
      1 ≤ (procs pid).daiCumul ∧ (procs pid).daiCumul ≤ 32
  · obtain ⟨d, procs', payload, hlast, hget, hinactive, hbits⟩ := getDownlinkAck_of_valid h hvalid
    constructor
    · rintro ⟨r, hr, hreported⟩
      rw [hget] at hr
      cases hchoose : choosePucch env d.pucchResourceIndicator d.nCce d.totalCce n with
      | error e =>
        rw [hchoose] at hr
        cases hr
      | ok choice =>
        rw [hchoose] at hr
        cases hr
        refine ⟨hvalid, fun pid hpid hdue hack => ?_, fun d' hd' => ?_⟩
        · have hle := h.daiCumul_le pid hpid hdue
          have hone := (hvalid pid hpid hdue).1
          exact ((hbits _ hone hle).mp
            ((hreported.bits _ hone hle).mpr ⟨pid, hpid, hdue, rfl, hack⟩)).1
        · cases hlast.symm.trans hd'
          exact ⟨choice, hchoose⟩
    · intro hfits
      obtain ⟨choice, hchoose⟩ := hfits.pucch d hlast
      refine ⟨_, by rw [hget, hchoose]; rfl, rfl, fun k hk hk' => ?_, hinactive⟩
      rw [hbits k hk hk']
      refine ⟨fun hboth => hboth.2, fun hex => ⟨?_, hex⟩⟩
      obtain ⟨pid, hpid, hdue, rfl, hack⟩ := hex
      exact hfits.eight pid hpid hdue hack
  · -- the scan does not come to its end
    refine iff_of_false (fun hex => ?_) fun hfits => hvalid hfits.valid
    obtain ⟨r, hr, -⟩ := hex
    have hscan := h.scan
    rw [if_neg hvalid] at hscan
    obtain ⟨e, he⟩ := hscan
    rw [getDownlinkAck_oneCodeWord h.oneCodeWord, he] at hr
    cases hr

/-- The first `m` processes have been acknowledged. -/
def allAcked (m pid : Nat) : UeDlHarqStatus where
  active := decide (pid < m)
  ackReceived := true
  pucchResourceIndicator := 0
  ulFrame := 0
  ulSlot := 0
  ack := true
  nCce := 0
  totalCce := 16
  daiCumul := pid + 1

/-- A UE without dedicated PUCCH configuration. -/
def initialUe : AckEnv := ⟨0, 0, 16, false, fun _ => false, none⟩

lemma allAcked_case {m : Nat} (hm : 1 ≤ m) (hm' : m ≤ 16) : AckCase initialUe (allAcked m) m where
  numDlHarq_le := by decide
  oneCodeWord := rfl
  enabled _ _ _ := rfl
  received _ _ _ := rfl
  sameResource _ _ _ _ _ _ := rfl
  distinct pid _ pid' _ _ _ hne := fun heq => hne (Nat.succ.inj heq)
  daiCumul_le pid _ hdue := by
    have hactive : pid < m := by simpa [AckEnv.due, allAcked, initialUe] using hdue
    exact hactive
  attained := by
    refine ⟨m - 1, lt_of_lt_of_le (Nat.sub_lt hm Nat.one_pos) hm', ?_, Nat.sub_add_cancel hm⟩
    simp only [AckEnv.due, allAcked, initialUe, beq_self_eq_true, Bool.and_true, decide_eq_true_iff]
    omega

theorem harq_ack_codebook_eight : AckCase initialUe (allAcked 8) 8 ∧
    ∃ r, getDownlinkAck initialUe (allAcked 8) = .ok r ∧ AckReported initialUe (allAcked 8) 8 r := by
  have hcase := @allAcked_case 8 (by decide) (by decide)
  refine ⟨hcase, (harq_ack_codebook_iff hcase).mpr ⟨by decide, by decide, fun d hd => ?_⟩⟩
  cases hd
  exact ⟨_, rfl⟩

/-- **The ninth ACK is lost**: nine processes, all decoded, and the last bit is a NACK. -/
theorem harq_ack_codebook_ninth_lost : AckCase initialUe (allAcked 9) 9 ∧
    (getDownlinkAck initialUe (allAcked 9)).toOption.map AckReport.ackPayload = some 0x1FE ∧
    ¬∃ r, getDownlinkAck initialUe (allAcked 9) = .ok r ∧
      AckReported initialUe (allAcked 9) 9 r := by
  have hpayload : (getDownlinkAck initialUe (allAcked 9)).toOption.map AckReport.ackPayload =
      some 0x1FE := by decide +kernel
  refine ⟨allAcked_case (by decide) (by decide), hpayload, ?_⟩
  rintro ⟨r, hr, hreported⟩
  rw [hr] at hpayload
  have hvalue : r.ackPayload = 0x1FE := Option.some.inj hpayload
  have hbit := (hreported.bits 9 (by decide) (by decide)).mpr
    ⟨8, by decide, by decide, by decide, by decide⟩
  rw [hvalue] at hbit
  exact absurd hbit (by decide)

end NrStack.Mac
