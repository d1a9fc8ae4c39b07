/-
  The UE's parser of downlink MAC PDUs (`nr_ue_process_mac_pdu` in `nr_ue_procedures.c`).

  The input is any bytes (see `UlPdu`).  While the UE waits for MsgB, MsgB subheaders come first
  (`nr_ue_validate_successrar`).  Bounds are enforced in `get_mac_len`, which compares the length field with
  what is left, NOT the length field and the subheader, and for MAC CEs of a fixed size and for MsgB in
  nothing but the loop condition.  `assertFatal` ends the program.
-/
import NrStack.Mac.UlPdu

namespace NrStack.Mac

open Probing List

/-! ## State -/

/-- `nrRA_UE_state_t` -/
inductive NrRaState
  | ueIdle
  | generatePreamble
  | waitRar
  | waitMsgB
  | waitContentionResolution
  | succeeded
  | failed
  deriving DecidableEq, Repr

/-- The random access: `ra_type == RA_2_STEP`, its state, and what MsgB fills in. -/
structure UeRa where
  raType2Step : Bool
  raState : NrRaState
  raActive : Bool
  cfra : Bool
  tCrnti : Nat
  raBackoffIndicator : Nat
  msgBChAcessCpext : Nat
  msgBTpc : Nat
  msgBHarqFti : Nat
  pucchRi : Nat
  timingAdvanceCommand : Nat
  deriving DecidableEq, Repr

/-- The TAG, the contention resolution identity, and the IQ player, for which the identity is not
compared. -/
structure UeEnv where
  tagId : Nat
  contResId : List Nat
  iqPlayer : Bool

/-- What receiving a PDU changes: random access, C-RNTI, timing advances, and RLC. -/
structure DlRx where
  ra : UeRa
  crnti : Nat
  ta : List Nat := []
  rlc : List RlcInd := []
  deriving DecidableEq, Repr

/-- How `nr_ue_process_mac_pdu` ends before the end of the PDU. -/
inductive DlExit
  | done
  | assertFatal
  deriving DecidableEq, Repr

/-- `check_ra_contention_resolution` -/
def UeEnv.checkRaContentionResolution (env : UeEnv) (pdu : List Nat) : Bool :=
  env.iqPlayer || pdu == env.contResId

/-- `nr_ra_succeeded` -/
def DlRx.nrRaSucceeded (st : DlRx) : DlRx :=
  if st.ra.cfra then { st with ra := { st.ra with raActive := false, raState := .succeeded } }
  else
    { st with
      crnti := st.ra.tCrnti
      ra := { st.ra with tCrnti := 0, raActive := false, raState := .succeeded } }

/-- What a contention resolution identity does. -/
def DlRx.contentionResolution (env : UeEnv) (pdu : List Nat) (st : DlRx) : DlRx :=
  let raSuccess := env.checkRaContentionResolution pdu
  if st.ra.raActive && raSuccess then st.nrRaSucceeded
  else if !raSuccess then { st with ra := { st.ra with raState := .ueIdle, raActive := false } }
  else st

/-! ## MsgB -/

/-- The fields of a success RAR, and the identity in front of them. -/
def DlRx.successRar (env : UeEnv) (octets : List Nat) (st : DlRx) : DlRx :=
  let oct := fun i => (octets[i - 1]?).getD 0
  let ra := { st.ra with
    msgBChAcessCpext := oct 7 / 32 % 4
    msgBTpc := oct 7 / 8 % 4
    msgBHarqFti := oct 7 % 8
    pucchRi := oct 8 / 16
    timingAdvanceCommand := oct 8 % 16 * 256 + oct 9
    tCrnti := oct 10 * 256 + oct 11 }
  { st with ra := ra }.contentionResolution env (octets.take 6)

/-- One MsgB subheader, after its first byte; the state is `n` and the UE. -/
def successRarSubheader (env : UeEnv) (mem : Nat → UInt8) (n : Nat) (st : DlRx) (b : Nat) :
    Probe (Next DlExit × (Nat × DlRx)) :=
  let next := fun len => if b / 128 % 2 = 1 then Next.go len else .stop .done
  if b / 64 % 2 = 0 then
    if b / 32 % 2 = 0 then
      -- backoff indicator
      pure (next 1, (n + 1, { st with ra := { st.ra with raBackoffIndicator := b % 16 } }))
    else do
      let octets ← readAll mem (List.range' (n + 1) 11)
      pure (next 12, (n + 12, st.successRar env octets))
  else
    -- fallbackRAR is not implemented
    pure (.stop .assertFatal, (n + 1, st))

/-- One turn of the loop of `nr_ue_validate_successrar`. -/
def successRarSubPdu (env : UeEnv) (mem : Nat → UInt8) (n _pduLen : Nat) (st : Nat × DlRx) :
    Probe (Next DlExit × (Nat × DlRx)) :=
  read mem n >>= successRarSubheader env mem n st.2

/-- `nr_ue_validate_successrar`, after the loop: the TA command is in the second byte of the PDU. -/
def successRarTa (mem : Nat → UInt8) (r : Option (Option DlExit × (Nat × DlRx))) :
    Probe (Option (Option (Nat × DlRx))) :=
  match r with
  | none => pure none
  | some (some .assertFatal, _) => pure (some none)
  | some (_, (n, st)) => do
    let b ← read mem 1
    pure (some (some (n, { st with ta := st.ta ++ [b % 64] })))

/-- `nr_ue_validate_successrar`: the bytes of MsgB; `none` inside is the failed assertion. -/
def nrUeValidateSuccessrar (env : UeEnv) (mem : Nat → UInt8) (pduLen : Nat) (st : DlRx) :
    Probe (Option (Option (Nat × DlRx))) :=
  blocks (successRarSubPdu env mem) pduLen 0 pduLen (0, st) >>= successRarTa mem

/-! ## Subheaders -/

/-- `DL_SCH_LCID_..` -/
inductive DlLcid
  | ccch
  | sdu (lcid : Nat)
  | recommendedBitrate
  | spZpCsiRsResSetAct
  | pucchSpatialRelationAct
  | spSrsActivation
  | spCsiRepPucchAct
  | tciStateIndUeSpecPdcch
  | tciStateActUeSpecPdsch
  | aperiodicCsiTriStateSubsel
  | spCsiRsCsiImResSetAct
  | duplicationAct
  | sCellAct4Oct
  | sCellAct1Oct
  | lDrx
  | drx
  | taCommand
  | conResId
  | padding
  | unknown (lcid : Nat)
  deriving DecidableEq, Repr

/-- The LCID with a code. -/
def DlLcid.ofCode (lcid : Nat) : DlLcid :=
  if lcid = 0x00 then .ccch
  else if lcid ≤ 32 then .sdu lcid
  else if lcid = 0x2F then .recommendedBitrate
  else if lcid = 0x30 then .spZpCsiRsResSetAct
  else if lcid = 0x31 then .pucchSpatialRelationAct
  else if lcid = 0x32 then .spSrsActivation
  else if lcid = 0x33 then .spCsiRepPucchAct
  else if lcid = 0x34 then .tciStateIndUeSpecPdcch
  else if lcid = 0x35 then .tciStateActUeSpecPdsch
  else if lcid = 0x36 then .aperiodicCsiTriStateSubsel
  else if lcid = 0x37 then .spCsiRsCsiImResSetAct
  else if lcid = 0x38 then .duplicationAct
  else if lcid = 0x39 then .sCellAct4Oct
  else if lcid = 0x3A then .sCellAct1Oct
  else if lcid = 0x3B then .lDrx
  else if lcid = 0x3C then .drx
  else if lcid = 0x3D then .taCommand
  else if lcid = 0x3E then .conResId
  else if lcid = 0x3F then .padding
  else .unknown lcid

/-- The length of a MAC CE of fixed size, `none` for a length field; an unknown LCID is skipped. -/
def DlLcid.fixedLength : DlLcid → Option Nat
  | .ccch | .sdu _ | .tciStateActUeSpecPdsch | .aperiodicCsiTriStateSubsel
  | .spCsiRsCsiImResSetAct | .spSrsActivation => none
  | .recommendedBitrate | .spZpCsiRsResSetAct | .spCsiRepPucchAct
  | .tciStateIndUeSpecPdcch => some 2
  | .pucchSpatialRelationAct => some 3
  | .duplicationAct | .sCellAct1Oct | .taCommand => some 1
  | .sCellAct4Oct => some 4
  | .conResId => some 6
  | .lDrx | .drx | .padding | .unknown _ => some 0

/-- The results of `get_mac_len`: the return value, `*mac_ce_len` and `*mac_subheader_len`. -/
structure MacLen where
  ok : Bool
  macLen : Nat := 0
  macSubheaderLen : Nat := 1
  deriving DecidableEq, Repr

/-- Subheader and payload. -/
def MacLen.size (m : MacLen) : Nat := m.macSubheaderLen + m.macLen

/-- `get_mac_len`, after the first byte. -/
def getMacLenField (mem : Nat → UInt8) (pdu pduLen b : Nat) : Probe MacLen :=
  if b / 64 % 2 = 1 then
    if pduLen < 3 then pure { ok := false }
    else do
      let hi ← read mem (pdu + 1)
      let lo ← read mem (pdu + 2)
      pure ⟨decide (hi * 256 + lo ≤ pduLen), hi * 256 + lo, 3⟩
  else do
    let lo ← read mem (pdu + 1)
    pure ⟨decide (lo ≤ pduLen), lo, 2⟩

/-- `get_mac_len` -/
def getMacLen (mem : Nat → UInt8) (pdu pduLen : Nat) : Probe MacLen :=
  if pduLen < 2 then pure { ok := false }
  else read mem pdu >>= getMacLenField mem pdu pduLen

/-! ## `nr_ue_process_mac_pdu` -/

/-- `mac_rlc_data_ind(.., lcid, pduP + mac_subheader_len, mac_len, ..)` -/
def DlRx.deliver (st : DlRx) (lcid pduP : Nat) (m : MacLen) : DlRx :=
  { st with rlc := st.rlc ++ [⟨lcid, pduP + m.macSubheaderLen, m.macLen⟩] }

/-- `case DL_SCH_LCID_CCCH` -/
def dlCcch (mem : Nat → UInt8) (pduP : Nat) (st : DlRx) (m : MacLen) :
    Probe (Next DlExit × DlRx) :=
  if m.ok then do
    -- all zeros is no message
    let valid ← anyNonZero mem (List.range' pduP m.size)
    pure (if valid then (.go m.size, if m.macLen > 0 then st.deliver 0 pduP m else st)
      else (.stop .done, st))
  else pure (.stop .assertFatal, st)

/-- The `switch` of `nr_ue_process_mac_pdu`. -/
def dlProcessLcid (env : UeEnv) (mem : Nat → UInt8) (pduP pduLen : Nat) (st : DlRx)
    (lcid : DlLcid) : Probe (Next DlExit × DlRx) :=
  match lcid with
  | .ccch => getMacLen mem pduP pduLen >>= dlCcch mem pduP st
  | .tciStateActUeSpecPdsch | .aperiodicCsiTriStateSubsel | .spCsiRsCsiImResSetAct
  | .spSrsActivation => do
    let m ← getMacLen mem pduP pduLen
    pure (.go m.size, st)
  | .taCommand => do
    let b ← read mem (pduP + 1)
    pure (if b / 64 = env.tagId then (.go 2, { st with ta := st.ta ++ [b % 64] })
      else (.stop .done, st))
  | .conResId =>
    if st.ra.raState = .waitContentionResolution then do
      let pdu ← readAll mem (List.range' (pduP + 1) 6)
      pure (.go 7, st.contentionResolution env pdu)
    else pure (.go 7, st)
  | .padding => pure (.stop .done, st)
  | .sdu lcid => do
    let m ← getMacLen mem pduP pduLen
    pure (if m.ok then (.go m.size, st.deliver lcid pduP m) else (.stop .done, st))
  | lcid => pure (.go (1 + lcid.fixedLength.getD 0), st)

/-- One turn of the loop of `nr_ue_process_mac_pdu`. -/
def dlSubPdu (env : UeEnv) (mem : Nat → UInt8) (pduP pduLen : Nat) (st : DlRx) :
    Probe (Next DlExit × DlRx) :=
  read mem pduP >>= fun b => dlProcessLcid env mem pduP pduLen st (DlLcid.ofCode (b % 64))

/-- The loop of `nr_ue_process_mac_pdu`, from `n` on. -/
def dlSubPdus (env : UeEnv) (mem : Nat → UInt8) (pduLen n : Nat) (st : DlRx) :
    Probe (Option (DlExit × DlRx)) := do
  let r ← blocks (dlSubPdu env mem) pduLen n (pduLen - n) st
  pure (r.map fun r => (r.1.getD .done, r.2))

/-- `nr_ue_process_mac_pdu` after MsgB. -/
def afterMsgB (env : UeEnv) (mem : Nat → UInt8) (pduLen : Nat) (st : DlRx)
    (r : Option (Option (Nat × DlRx))) : Probe (Option (DlExit × DlRx)) :=
  match r with
  | none => pure none
  | some none => pure (some (.assertFatal, st))
  | some (some (n, st)) => dlSubPdus env mem pduLen n st

/-- `nr_ue_process_mac_pdu`: how it ended and the UE after it. -/
def nrUeProcessMacPdu (env : UeEnv) (mem : Nat → UInt8) (pduLen : Nat) (ra : UeRa) (crnti : Nat) :
    Probe (Option (DlExit × DlRx)) :=
  let st : DlRx := { ra, crnti }
  if ra.raType2Step && ra.raState == .waitMsgB then
    nrUeValidateSuccessrar env mem pduLen st >>= afterMsgB env mem pduLen st
  else dlSubPdus env mem pduLen 0 st

/-! ## Where the sub-PDUs are -/

/-- The LCID of the sub-PDU at `p`. -/
def dlLcid (mem : Nat → UInt8) (p : Nat) : DlLcid := DlLcid.ofCode ((mem p).toNat % 64)

/-- What `get_mac_len` gives at `p`, with `rem` bytes left. -/
def macLenAt (mem : Nat → UInt8) (p rem : Nat) : MacLen := (getMacLen mem p rem).val

/-- The size of the sub-PDU at `p`, as the parser goes on. -/
def dlSize (mem : Nat → UInt8) (len p : Nat) : Nat :=
  match (dlLcid mem p).fixedLength with
  | some n => 1 + n
  | none => (macLenAt mem p (len - p)).size

/-- The sub-PDU at `p` ends the loop. -/
def DlStops (env : UeEnv) (mem : Nat → UInt8) (len p : Nat) : Prop :=
  match dlLcid mem p with
  | .ccch => (macLenAt mem p (len - p)).ok = false ∨
      ∀ i ∈ List.range' p (macLenAt mem p (len - p)).size, mem i = 0
  | .sdu _ => (macLenAt mem p (len - p)).ok = false
  | .taCommand => (mem (p + 1)).toNat / 64 ≠ env.tagId
  | .padding => True
  | _ => False

/-- What of the random access matters for the parser: `some active` while the UE waits for the
contention resolution. -/
def raPhase (st : DlRx) : Option Bool :=
  if st.ra.raState = .waitContentionResolution then some st.ra.raActive else none

/-- The contention resolution identity at `p`. -/
def conResIdAt (mem : Nat → UInt8) (p : Nat) : List Nat :=
  (List.range' (p + 1) 6).map fun i => (mem i).toNat

/-- The contention resolution at `p` ends the wait, unless it succeeds for no active procedure. -/
def nextPhase (env : UeEnv) (mem : Nat → UInt8) (p : Nat) (t : Option Bool) : Option Bool :=
  if dlLcid mem p = .conResId ∧
      ¬ (t = some false ∧ env.checkRaContentionResolution (conResIdAt mem p) = true) then none
  else t

variable {st : DlRx} {p len rem : Nat} {mem : Nat → UInt8} {env : UeEnv}

lemma raPhase_contentionResolution (env : UeEnv) (pdu : List Nat)
    (hwait : st.ra.raState = .waitContentionResolution) :
    raPhase (st.contentionResolution env pdu) =
      if st.ra.raActive = false ∧ env.checkRaContentionResolution pdu = true then some false
      else none := by
  rw [DlRx.contentionResolution]
  cases hactive : st.ra.raActive <;> cases hcheck : env.checkRaContentionResolution pdu
  · rfl
  · simp [raPhase, hwait, hactive]
  · rfl
  · simp only [Bool.and_self, if_true, DlRx.nrRaSucceeded]
    split <;> rfl

lemma getMacLen_subheader_pos (mem : Nat → UInt8) (p rem : Nat) :
    0 < (macLenAt mem p rem).macSubheaderLen := by
  rw [macLenAt, getMacLen]
  split
  · exact Nat.one_pos
  · rw [val_bind, getMacLenField]
    split
    · split
      · exact Nat.one_pos
      · exact Nat.succ_pos _
    · exact Nat.succ_pos _

lemma dlSize_pos (mem : Nat → UInt8) (len p : Nat) : 0 < dlSize mem len p := by
  rw [dlSize]
  split
  · omega
  · exact lt_of_lt_of_le (getMacLen_subheader_pos mem p _) (Nat.le_add_right _ _)

lemma within_getMacLen (mem : Nat → UInt8) (hp : p < len) :
    Within len (getMacLen mem p (len - p)) := by
  rw [getMacLen]
  split
  · exact within_pure _
  · rw [within_bind, within_read, getMacLenField]
    refine ⟨hp, ?_⟩
    split
    · split
      · exact within_pure _
      · simp only [within_bind, within_read, within_pure, and_true]
        omega
    · simp only [within_bind, within_read, within_pure, and_true]
      omega

lemma getMacLen_ok (hok : (macLenAt mem p rem).ok = true) :
    2 ≤ rem ∧ ((mem p).toNat / 64 % 2 = 1 ∨
      (macLenAt mem p rem).macLen = (mem (p + 1)).toNat ∧
        (macLenAt mem p rem).macSubheaderLen = 2) := by
  rw [macLenAt, getMacLen] at hok ⊢
  split at hok
  · cases hok
  · next hrem =>
    rw [if_neg hrem]
    refine ⟨Nat.le_of_not_lt hrem, ?_⟩
    by_cases hF : (mem p).toNat / 64 % 2 = 1
    · exact .inl hF
    · right
      rw [val_bind, val_read, getMacLenField, if_neg hF]
      exact ⟨rfl, rfl⟩

lemma within_ccch (mem : Nat → UInt8) (hok : (macLenAt mem p (len - p)).ok = true) :
    Within len (anyNonZero mem (List.range' p (macLenAt mem p (len - p)).size)) := by
  obtain ⟨hrem, hF⟩ := getMacLen_ok hok
  generalize macLenAt mem p (len - p) = m at hF
  cases hsize : m.size with
  | zero => exact within_pure _
  | succ k =>
    rw [List.range'_succ, anyNonZero, within_bind, within_read]
    refine ⟨by omega, ?_⟩
    split
    · exact within_pure _
    · next hzero =>
      rw [val_read, not_not] at hzero
      obtain ⟨hlen, hhdr⟩ := hF.resolve_left (by rw [hzero]; decide)
      rw [MacLen.size, hhdr] at hsize
      obtain ⟨j, rfl⟩ : ∃ j, k = j + 1 := ⟨k - 1, by omega⟩
      rw [List.range'_succ, anyNonZero, within_bind, within_read]
      refine ⟨by omega, ?_⟩
      split
      · exact within_pure _
      · next hzero' =>
        rw [val_read, not_not] at hzero'
        obtain rfl : j = 0 := by omega
        exact within_pure _

/-! ## One sub-PDU -/

/-- How the parser goes on: by the size of the sub-PDU, with the next phase, or it stops. -/
structure DlGoes (env : UeEnv) (mem : Nat → UInt8) (len p : Nat) (st : DlRx)
    (r : Next DlExit × DlRx) : Prop where
  goes : ¬ DlStops env mem len p → ∃ st', r = (.go (dlSize mem len p), st')
  only : ∀ n st', r = (.go n, st') →
    n = dlSize mem len p ∧ ¬ DlStops env mem len p ∧ raPhase st' = nextPhase env mem p (raPhase st)

lemma DlGoes.of_go {st' : DlRx} (hstops : ¬ DlStops env mem len p)
    (hne : dlLcid mem p ≠ .conResId) (hphase : raPhase st' = raPhase st) :
    DlGoes env mem len p st (.go (dlSize mem len p), st') := by
  refine ⟨fun _ => ⟨st', rfl⟩, fun n st'' heq => ?_⟩
  cases heq
  refine ⟨rfl, hstops, ?_⟩
  rw [hphase, nextPhase, if_neg fun h => hne h.1]

lemma DlGoes.of_stop {st' : DlRx} {e : DlExit} (hstops : DlStops env mem len p) :
    DlGoes env mem len p st (.stop e, st') :=
  ⟨fun h => absurd hstops h, nofun⟩

lemma dlSubPdu_goes (env : UeEnv) (mem : Nat → UInt8) (len p : Nat) (st : DlRx) :
    DlGoes env mem len p st (dlSubPdu env mem p (len - p) st).val := by
  rw [dlSubPdu, val_bind, val_read, ← dlLcid]
  cases hl : dlLcid mem p with
  | ccch =>
    have hsize : dlSize mem len p = (macLenAt mem p (len - p)).size := by
      simp only [dlSize, hl, DlLcid.fixedLength]
    have hval := anyNonZero_val mem (List.range' p (macLenAt mem p (len - p)).size)
    rw [dlProcessLcid, val_bind, ← macLenAt, dlCcch]
    by_cases hok : (macLenAt mem p (len - p)).ok = true
    · rw [if_pos hok, val_bind, val_pure]
      split
      · next hvalid =>
        obtain ⟨i, hi, hne⟩ := hval.mp hvalid
        rw [← hsize]
        refine DlGoes.of_go ?_ (by rw [hl]; decide) (by split <;> rfl)
        simp only [DlStops, hl, not_or]
        exact ⟨by rw [hok]; decide, fun hz => hne (hz i hi)⟩
      · next hinvalid =>
        apply DlGoes.of_stop
        simp only [DlStops, hl]
        refine .inr fun i hi => ?_
        by_contra hne
        exact hinvalid (hval.mpr ⟨i, hi, hne⟩)
    · rw [if_neg hok]
      apply DlGoes.of_stop
      simp only [DlStops, hl]
      exact .inl (Bool.eq_false_iff.mpr hok)
  | sdu lcid =>
    have hsize : dlSize mem len p = (macLenAt mem p (len - p)).size := by
      simp only [dlSize, hl, DlLcid.fixedLength]
    rw [dlProcessLcid, val_bind, val_pure, ← macLenAt]
    split
    · next hok =>
      rw [← hsize]
      refine DlGoes.of_go ?_ (by rw [hl]; exact DlLcid.noConfusion) rfl
      simp only [DlStops, hl, hok]
      decide
    · next hok =>
      apply DlGoes.of_stop
      simp only [DlStops, hl]
      exact Bool.eq_false_iff.mpr hok
  | taCommand =>
    have hsize : dlSize mem len p = 2 := by simp only [dlSize, hl, DlLcid.fixedLength]
    rw [dlProcessLcid, val_bind, val_pure, val_read]
    split
    · next htag =>
      rw [← hsize]
      refine DlGoes.of_go ?_ (by rw [hl]; decide) rfl
      simp only [DlStops, hl, not_not]
      exact htag
    · next htag =>
      apply DlGoes.of_stop
      simp only [DlStops, hl]
      exact htag
  | conResId =>
    have hsize : dlSize mem len p = 7 := by simp only [dlSize, hl, DlLcid.fixedLength]
    have hstops : ¬ DlStops env mem len p := by simp only [DlStops, hl, not_false_eq_true]
    rw [dlProcessLcid]
    by_cases hwait : st.ra.raState = .waitContentionResolution
    · rw [if_pos hwait, val_bind, val_pure, val_readAll, ← conResIdAt, ← hsize]
      refine ⟨fun _ => ⟨_, rfl⟩, fun n st' heq => ?_⟩
      cases heq
      refine ⟨rfl, hstops, ?_⟩
      rw [raPhase_contentionResolution env _ hwait, nextPhase, raPhase, if_pos hwait, hl]
      by_cases hend : st.ra.raActive = false ∧
          env.checkRaContentionResolution (conResIdAt mem p) = true
      · rw [if_pos hend, if_neg fun h => h.2 ⟨by rw [hend.1], hend.2⟩, hend.1]
      · rw [if_neg hend, if_pos ⟨rfl, fun h => hend ⟨Option.some.inj h.1, h.2⟩⟩]
    · rw [if_neg hwait, val_pure, ← hsize]
      refine ⟨fun _ => ⟨_, rfl⟩, fun n st' heq => ?_⟩
      cases heq
      refine ⟨rfl, hstops, ?_⟩
      rw [nextPhase, raPhase, if_neg hwait]
      split <;> rfl
  | padding =>
    apply DlGoes.of_stop
    simp only [DlStops, hl]
  | tciStateActUeSpecPdsch | aperiodicCsiTriStateSubsel | spCsiRsCsiImResSetAct | spSrsActivation =>
    have hsize : dlSize mem len p = (macLenAt mem p (len - p)).size := by
      simp only [dlSize, hl, DlLcid.fixedLength]
    rw [dlProcessLcid, val_bind, val_pure, ← macLenAt, ← hsize]
    exact DlGoes.of_go (by simp only [DlStops, hl, not_false_eq_true]) (by rw [hl]; decide) rfl
  | recommendedBitrate | spZpCsiRsResSetAct | pucchSpatialRelationAct | spCsiRepPucchAct
  | tciStateIndUeSpecPdcch | duplicationAct | sCellAct4Oct | sCellAct1Oct | lDrx | drx | unknown =>
    have hgo : DlGoes env mem len p st (.go (dlSize mem len p), st) :=
      DlGoes.of_go (by simp only [DlStops, hl, not_false_eq_true])
        (by rw [hl]; exact DlLcid.noConfusion) rfl
    simp only [dlSize, hl, DlLcid.fixedLength] at hgo
    exact hgo

lemma dlSubPdu_follows (env : UeEnv) (mem : Nat → UInt8) (len : Nat) :
    Follows (dlSubPdu env mem) len (dlSize mem len) (DlStops env mem len) (nextPhase env mem)
      raPhase := by
  refine ⟨dlSize_pos mem len, fun p s _ hgo _ => (dlSubPdu_goes env mem len p s).goes hgo,
    fun p s n s' _ h => ?_⟩
  obtain ⟨rfl, hgo, hphase⟩ := (dlSubPdu_goes env mem len p s).only n s' h
  exact ⟨rfl, fun _ => hgo, hphase⟩

lemma dlSubPdu_progress (env : UeEnv) (mem : Nat → UInt8) : Progress (dlSubPdu env mem) := by
  intro pos rem s n s' h
  have hgoes := dlSubPdu_goes env mem (pos + rem) pos s
  rw [Nat.add_sub_cancel_left] at hgoes
  rw [(hgoes.only n s' h).1]
  exact dlSize_pos mem _ pos

/-- What is read of the sub-PDU at `p` without a check. -/
def DlReads (mem : Nat → UInt8) (len p : Nat) (t : Option Bool) : Prop :=
  match dlLcid mem p with
  | .taCommand => p + 2 ≤ len
  | .conResId => t.isSome = true → p + 7 ≤ len
  | _ => True

lemma within_dlSubPdu (env : UeEnv) (mem : Nat → UInt8) (st : DlRx) (hp : p < len) :
    Within len (dlSubPdu env mem p (len - p) st) ↔ DlReads mem len p (raPhase st) := by
  rw [dlSubPdu, within_bind, within_read, val_read, ← dlLcid, DlReads, and_iff_right hp]
  cases dlLcid mem p with
  | ccch =>
    refine iff_of_true ?_ trivial
    rw [dlProcessLcid, within_bind, ← macLenAt, dlCcch]
    refine ⟨within_getMacLen mem hp, ?_⟩
    split
    · next hok =>
      rw [within_bind]
      exact ⟨within_ccch mem hok, within_pure _⟩
    · exact within_pure _
  | sdu lcid =>
    refine iff_of_true ?_ trivial
    rw [dlProcessLcid, within_bind]
    exact ⟨within_getMacLen mem hp, within_pure _⟩
  | taCommand =>
    rw [dlProcessLcid, within_bind, within_read]
    simp only [within_pure, and_true]
    omega
  | conResId =>
    rw [dlProcessLcid, raPhase]
    split
    · rw [within_bind, within_readAll]
      simp only [within_pure, and_true, Option.isSome_some, forall_true_left, mem_range'_1]
      exact ⟨fun h => h (p + 6) ⟨by omega, by omega⟩, fun h i hi => by omega⟩
    · exact iff_of_true (within_pure _) (by simp)
  | tciStateActUeSpecPdsch | aperiodicCsiTriStateSubsel | spCsiRsCsiImResSetAct | spSrsActivation =>
    refine iff_of_true ?_ trivial
    rw [dlProcessLcid, within_bind]
    exact ⟨within_getMacLen mem hp, within_pure _⟩
  | _ => exact iff_of_true (within_pure _) trivial

/-- What the sub-PDU at `p` hands to RLC. -/
def dlOut (mem : Nat → UInt8) (p rem : Nat) : List RlcInd :=
  let m := macLenAt mem p rem
  match dlLcid mem p with
  | .ccch => if m.ok = true ∧ 0 < m.macLen then [⟨0, p + m.macSubheaderLen, m.macLen⟩] else []
  | .sdu lcid => if m.ok = true then [⟨lcid, p + m.macSubheaderLen, m.macLen⟩] else []
  | _ => []

lemma ccch_valid (hok : (macLenAt mem p rem).ok = true) (hlen : 0 < (macLenAt mem p rem).macLen) :
    (anyNonZero mem (List.range' p (macLenAt mem p rem).size)).val = true := by
  rw [anyNonZero_val]
  rcases (getMacLen_ok hok).2 with hF | ⟨hL, htwo⟩
  · refine ⟨p, mem_range'_1.mpr ⟨le_refl p, by rw [MacLen.size]; omega⟩, fun hzero => ?_⟩
    rw [hzero] at hF
    exact absurd hF (by decide)
  · refine ⟨p + 1, mem_range'_1.mpr ⟨by omega, by rw [MacLen.size]; omega⟩, fun hzero => ?_⟩
    rw [hL, hzero] at hlen
    exact absurd hlen (by decide)

lemma contentionResolution_rlc (env : UeEnv) (pdu : List Nat) (st : DlRx) :
    (st.contentionResolution env pdu).rlc = st.rlc := by
  rw [DlRx.contentionResolution]
  split
  · rw [DlRx.nrRaSucceeded]
    split <;> rfl
  · split <;> rfl

lemma dlSubPdu_rlc (env : UeEnv) (mem : Nat → UInt8) (p rem : Nat) (st : DlRx) :
    (dlSubPdu env mem p rem st).val.2.rlc = st.rlc ++ dlOut mem p rem := by
  rw [dlSubPdu, val_bind, val_read, ← dlLcid, dlOut]
  cases dlLcid mem p with
  | ccch =>
    rw [dlProcessLcid, val_bind, ← macLenAt, dlCcch]
    by_cases hok : (macLenAt mem p rem).ok = true
    · rw [if_pos hok, val_bind, val_pure]
      by_cases hlen : 0 < (macLenAt mem p rem).macLen
      · rw [if_pos (ccch_valid hok hlen), if_pos hlen, if_pos ⟨hok, hlen⟩]
        rfl
      · have hnone : ¬ ((macLenAt mem p rem).ok = true ∧ 0 < (macLenAt mem p rem).macLen) :=
          fun h => hlen h.2
        rw [if_neg hlen, if_neg hnone, append_nil]
        split <;> rfl
    · rw [if_neg hok, if_neg fun h => hok h.1]
      exact (append_nil _).symm
  | sdu lcid =>
    rw [dlProcessLcid, val_bind, val_pure, ← macLenAt]
    dsimp only
    by_cases hok : (macLenAt mem p rem).ok = true
    · rw [if_pos hok, if_pos hok]
      rfl
    · rw [if_neg hok, if_neg hok]
      exact (append_nil _).symm
  | taCommand =>
    rw [dlProcessLcid, val_bind, val_pure]
    refine Eq.trans ?_ (append_nil _).symm
    split <;> rfl
  | conResId =>
    rw [dlProcessLcid]
    refine Eq.trans ?_ (append_nil _).symm
    split
    · exact contentionResolution_rlc env _ st
    · rfl
  | _ => exact (append_nil _).symm

/-- The parser may touch the sub-PDU: a TA command is there, so is a contention resolution that is
waited for, and an SDU accepted by `get_mac_len` WITH its subheader. -/
def DlSubPduThere (mem : Nat → UInt8) (len p : Nat) (t : Option Bool) : Prop :=
  match dlLcid mem p with
  | .taCommand => p + 2 ≤ len
  | .conResId => t.isSome = true → p + 7 ≤ len
  | .ccch | .sdu _ =>
    (macLenAt mem p (len - p)).ok = true → p + (macLenAt mem p (len - p)).size ≤ len
  | _ => True

lemma dlSubPduThere_iff {t : Option Bool} (hp : p < len) :
    DlSubPduThere mem len p t ↔ DlReads mem len p t ∧
      ∀ ind ∈ dlOut mem p (len - p), ind.start + ind.len ≤ len := by
  rw [DlSubPduThere, DlReads, dlOut]
  cases dlLcid mem p with
  | ccch =>
    rw [true_and]
    by_cases hok : (macLenAt mem p (len - p)).ok = true
    · by_cases hlen : 0 < (macLenAt mem p (len - p)).macLen
      · rw [if_pos ⟨hok, hlen⟩, forall_mem_singleton, MacLen.size]
        simp only [hok, forall_true_left]
        omega
      · -- no length: only the subheader, which has been checked
        have hhdr : (macLenAt mem p (len - p)).macSubheaderLen ≤ len - p := by
          have hok' := hok
          rw [macLenAt, getMacLen] at hok' ⊢
          split at hok'
          · cases hok'
          · next hrem =>
            rw [if_neg hrem]
            rw [val_bind, getMacLenField] at hok' ⊢
            split at hok'
            · next hF =>
              rw [if_pos hF]
              split at hok'
              · cases hok'
              · next hthree =>
                rw [if_neg hthree]
                exact Nat.le_of_not_lt hthree
            · next hF =>
              rw [if_neg hF]
              exact Nat.le_of_not_lt hrem
        rw [if_neg fun h => hlen h.2, MacLen.size]
        exact iff_of_true (fun _ => by omega) nofun
    · rw [if_neg fun h => hok h.1]
      exact iff_of_true (fun h => absurd h hok) nofun
  | sdu lcid =>
    dsimp only
    rw [true_and]
    by_cases hok : (macLenAt mem p (len - p)).ok = true
    · rw [if_pos hok, forall_mem_singleton, MacLen.size]
      simp only [hok, forall_true_left]
      omega
    · rw [if_neg hok]
      exact iff_of_true (fun h => absurd h hok) nofun
  | taCommand => exact ⟨fun h => ⟨h, nofun⟩, fun h => h.1⟩
  | conResId => exact ⟨fun h => ⟨h, nofun⟩, fun h => h.1⟩
  | _ => exact iff_of_true trivial ⟨trivial, nofun⟩

/-- The sub-PDUs from `start` on may all be touched. -/
def DlSubPdusThere (env : UeEnv) (mem : Nat → UInt8) (len start : Nat) (t₀ : Option Bool) : Prop :=
  ∀ p t, Boundary start len (dlSize mem len) (DlStops env mem len) (nextPhase env mem) t₀ p t →
    DlSubPduThere mem len p t

theorem dlSubPdus_safe (env : UeEnv) (mem : Nat → UInt8) (len n : Nat) (st : DlRx)
    (hst : st.rlc = []) :
    ∃ r, (dlSubPdus env mem len n st).val = some r ∧
      (Within len (dlSubPdus env mem len n st) ∧ (∀ ind ∈ r.2.rlc, ind.start + ind.len ≤ len) ↔
        DlSubPdusThere env mem len n (raPhase st)) := by
  have hfollows := dlSubPdu_follows env mem len
  have hprogress := dlSubPdu_progress env mem
  obtain ⟨r, hr⟩ := Option.isSome_iff_exists.mp
    (blocks_returns hprogress (Nat.sub_le len n) : (blocks _ _ n _ st).val.isSome = true)
  refine ⟨(r.1.getD .done, r.2), by rw [dlSubPdus, val_bind, hr]; rfl, ?_⟩
  have hreads := within_blocks_boundary hfollows (Nat.sub_le len n) hprogress st
    (fun p s hp => within_dlSubPdu env mem s hp)
  have hout := log_blocks_boundary hfollows (Nat.sub_le len n) hprogress hr
    (P := fun ind : RlcInd => ind.start + ind.len ≤ len)
    (fun p r s => dlSubPdu_rlc env mem p r s)
  rw [hst] at hout
  rw [dlSubPdus, within_bind, hreads, hout]
  simp only [within_pure, and_true]
  constructor
  · rintro ⟨h, -, h'⟩ p t hb
    exact (dlSubPduThere_iff (hb.reached hfollows).1).mpr ⟨h p t hb, h' p t hb⟩
  · intro h
    refine ⟨fun p t hb => ?_, by simp, fun p t hb => ?_⟩
    · exact ((dlSubPduThere_iff (hb.reached hfollows).1).mp (h p t hb)).1
    · exact ((dlSubPduThere_iff (hb.reached hfollows).1).mp (h p t hb)).2

/-! ## MsgB subheaders -/

/-- Another sub-PDU follows. -/
def msgBE (mem : Nat → UInt8) (n : Nat) : Prop := (mem n).toNat / 128 % 2 = 1
deriving Decidable

/-- The sub-PDU is a fallback RAR. -/
def msgBRapid (mem : Nat → UInt8) (n : Nat) : Prop := (mem n).toNat / 64 % 2 ≠ 0
deriving Decidable

/-- The sub-PDU is a success RAR. -/
def msgBSuccessRar (mem : Nat → UInt8) (n : Nat) : Prop := (mem n).toNat / 32 % 2 ≠ 0
deriving Decidable

/-- The bytes of the sub-PDU. -/
def msgBSize (mem : Nat → UInt8) (n : Nat) : Nat := if msgBSuccessRar mem n then 12 else 1

/-- The last subheader, or one that is not implemented. -/
def MsgBStops (mem : Nat → UInt8) (n : Nat) : Prop := ¬ msgBE mem n ∨ msgBRapid mem n

/-- The MsgB subheaders of the PDU. -/
def MsgBBoundary (mem : Nat → UInt8) (len n : Nat) : Prop :=
  Boundary 0 len (msgBSize mem) (MsgBStops mem) (fun _ _ => ()) () n ()

/-- Where MsgB ends, from the subheader at `n` on; `none` at one that is not implemented. -/
def msgBEnd (mem : Nat → UInt8) (len : Nat) : Nat → Nat → Option Nat
  | 0, n => some n
  | fuel + 1, n =>
    if n < len then
      if msgBRapid mem n then none
      else if msgBE mem n then msgBEnd mem len fuel (n + msgBSize mem n)
      else some (n + msgBSize mem n)
    else some n

lemma contentionResolution_raState (env : UeEnv) (pdu : List Nat)
    (h : st.ra.raState ≠ .waitContentionResolution) :
    (st.contentionResolution env pdu).ra.raState ≠ .waitContentionResolution := by
  rw [DlRx.contentionResolution]
  split
  · rw [DlRx.nrRaSucceeded]
    split <;> exact nofun
  · split
    · exact nofun
    · exact h

/-- What a MsgB subheader leaves as it is. -/
structure MsgBKeeps (st st' : DlRx) : Prop where
  rlc : st'.rlc = st.rlc
  raState : st.ra.raState ≠ .waitContentionResolution →
    st'.ra.raState ≠ .waitContentionResolution

theorem successRarSubPdu_val (env : UeEnv) (mem : Nat → UInt8) (n rem : Nat) (st : Nat × DlRx) :
    ∃ st', MsgBKeeps st.2 st' ∧ (successRarSubPdu env mem n rem st).val =
      if msgBRapid mem n then (.stop .assertFatal, (n + 1, st'))
      else if msgBE mem n then (.go (msgBSize mem n), (n + msgBSize mem n, st'))
      else (.stop .done, (n + msgBSize mem n, st')) := by
  rw [successRarSubPdu, val_bind, val_read, successRarSubheader]
  dsimp only
  by_cases hT1 : (mem n).toNat / 64 % 2 = 0
  · have hrapid : ¬ msgBRapid mem n := not_not.mpr hT1
    rw [if_pos hT1]
    by_cases hT2 : (mem n).toNat / 32 % 2 = 0
    · have hS : ¬ msgBSuccessRar mem n := not_not.mpr hT2
      rw [if_pos hT2, msgBSize, if_neg hS]
      refine ⟨{ st.2 with ra := { st.2.ra with raBackoffIndicator := (mem n).toNat % 16 } },
        ⟨rfl, fun h => h⟩, ?_⟩
      rw [if_neg hrapid]
      by_cases hE : (mem n).toNat / 128 % 2 = 1
      · rw [if_pos hE, if_pos (show msgBE mem n from hE)]
        rfl
      · rw [if_neg hE, if_neg (show ¬ msgBE mem n from hE)]
        rfl
    · have hS : msgBSuccessRar mem n := hT2
      rw [if_neg hT2, msgBSize, if_pos hS, val_bind, val_pure]
      refine ⟨st.2.successRar env (readAll mem (List.range' (n + 1) 11)).val,
        ⟨contentionResolution_rlc env _ _, fun h => contentionResolution_raState env _ h⟩, ?_⟩
      rw [if_neg hrapid]
      by_cases hE : (mem n).toNat / 128 % 2 = 1
      · rw [if_pos hE, if_pos (show msgBE mem n from hE)]
      · rw [if_neg hE, if_neg (show ¬ msgBE mem n from hE)]
  · have hrapid : msgBRapid mem n := hT1
    refine ⟨st.2, ⟨rfl, fun h => h⟩, ?_⟩
    rw [if_neg hT1, if_pos hrapid]
    rfl

lemma msgBSize_pos (mem : Nat → UInt8) (n : Nat) : 0 < msgBSize mem n := by
  rw [msgBSize]
  split <;> omega

lemma successRarSubPdu_go {n k : Nat} {st st' : Nat × DlRx}
    (h : (successRarSubPdu env mem n rem st).val = (.go k, st')) :
    k = msgBSize mem n ∧ ¬ MsgBStops mem n := by
  obtain ⟨st₁, -, hval⟩ := successRarSubPdu_val env mem n rem st
  rw [hval] at h
  split at h
  · cases h
  · next hrapid =>
    split at h
    · next hE =>
      cases h
      exact ⟨rfl, fun hstops => hstops.elim (fun h => h hE) hrapid⟩
    · cases h

lemma successRarSubPdu_follows (env : UeEnv) (mem : Nat → UInt8) (len : Nat) :
    Follows (successRarSubPdu env mem) len (msgBSize mem) (MsgBStops mem) (fun _ _ => ())
      (fun _ => ()) := by
  refine ⟨msgBSize_pos mem, fun n st _ hgo _ => ?_, fun n st k st' _ h => ?_⟩
  · rw [MsgBStops, not_or, not_not] at hgo
    obtain ⟨st', -, hval⟩ := successRarSubPdu_val env mem n (len - n) st
    rw [if_neg hgo.2, if_pos hgo.1] at hval
    exact ⟨_, hval⟩
  · obtain ⟨rfl, hgo⟩ := successRarSubPdu_go h
    exact ⟨rfl, fun _ => hgo, rfl⟩

lemma successRarSubPdu_progress (env : UeEnv) (mem : Nat → UInt8) :
    Progress (successRarSubPdu env mem) := by
  intro n rem st k st' h
  rw [(successRarSubPdu_go h).1]
  exact msgBSize_pos mem n

lemma within_successRarSubPdu (env : UeEnv) (mem : Nat → UInt8) {n : Nat} (st : Nat × DlRx)
    (hn : n < len) :
    Within len (successRarSubPdu env mem n (len - n) st) ↔
      (¬ msgBRapid mem n → msgBSuccessRar mem n → n + 12 ≤ len) := by
  rw [successRarSubPdu, within_bind, within_read, val_read, and_iff_right hn, successRarSubheader]
  by_cases hT1 : (mem n).toNat / 64 % 2 = 0
  · rw [if_pos hT1]
    have hrapid : ¬ msgBRapid mem n := not_not.mpr hT1
    by_cases hT2 : (mem n).toNat / 32 % 2 = 0
    · rw [if_pos hT2]
      exact iff_of_true (within_pure _) fun _ hS => absurd hT2 hS
    · rw [if_neg hT2, within_bind, within_readAll]
      simp only [within_pure, and_true, mem_range'_1]
      exact ⟨fun h _ _ => h (n + 11) ⟨by omega, by omega⟩, fun h i hi => by
        have := h hrapid hT2
        omega⟩
  · rw [if_neg hT1]
    exact iff_of_true (within_pure _) fun h => absurd hT1 h

theorem successRar_loop (env : UeEnv) (mem : Nat → UInt8) (len : Nat) :
    ∀ (fuel n : Nat) (st : DlRx), len - n ≤ fuel → ∃ r,
      (blocks (successRarSubPdu env mem) fuel n (len - n) (n, st)).val = some r ∧
      MsgBKeeps st r.2.2 ∧
      ((msgBEnd mem len fuel n = none ∧ r.1 = some .assertFatal) ∨
        (msgBEnd mem len fuel n = some r.2.1 ∧ r.1 ≠ some .assertFatal)) := by
  intro fuel
  induction fuel with
  | zero =>
    intro n st hfuel
    obtain hzero : len - n = 0 := by omega
    refine ⟨(none, (n, st)), ?_, ⟨rfl, fun h => h⟩, .inr ⟨rfl, by simp⟩⟩
    rw [hzero]
    rfl
  | succ fuel ih =>
    intro n st hfuel
    by_cases hlt : n < len
    · obtain ⟨st', hkeeps, hval⟩ := successRarSubPdu_val env mem n (len - n) (n, st)
      rw [blocks, if_neg (by omega), val_bind, hval, msgBEnd, if_pos hlt]
      by_cases hrapid : msgBRapid mem n
      · rw [if_pos hrapid, if_pos hrapid]
        exact ⟨_, rfl, hkeeps, .inl ⟨rfl, rfl⟩⟩
      · rw [if_neg hrapid, if_neg hrapid]
        by_cases hE : msgBE mem n
        · rw [if_pos hE, if_pos hE]
          have hpos := msgBSize_pos mem n
          obtain ⟨r, hr, hkeeps', hend⟩ := ih (n + msgBSize mem n) st' (by omega)
          rw [show len - (n + msgBSize mem n) = len - n - msgBSize mem n by omega] at hr
          exact ⟨r, hr, ⟨hkeeps'.rlc.trans hkeeps.rlc,
            fun h => hkeeps'.raState (hkeeps.raState h)⟩, hend⟩
        · rw [if_neg hE, if_neg hE]
          exact ⟨_, rfl, hkeeps, .inr ⟨rfl, by simp⟩⟩
    · rw [show len - n = 0 by omega, msgBEnd, if_neg hlt]
      exact ⟨(none, (n, st)), rfl, ⟨rfl, fun h => h⟩, .inr ⟨rfl, by simp⟩⟩

/-- Every successRAR is there, and, unless the program ends at a subheader that is not implemented, the
second byte of the PDU and the sub-PDUs after MsgB. -/
def MsgBThere (env : UeEnv) (mem : Nat → UInt8) (len : Nat) : Prop :=
  (∀ n, MsgBBoundary mem len n → ¬ msgBRapid mem n → msgBSuccessRar mem n → n + 12 ≤ len) ∧
    ∀ start, msgBEnd mem len len 0 = some start →
      1 < len ∧ DlSubPdusThere env mem len start none

/-! ## Safety of the downlink parser -/

/-- **The downlink parser on any input.**  It returns, or ends at a failed assertion.  It reads
inside the PDU and hands slices of the PDU to RLC IF AND ONLY IF every sub-PDU it comes to is there:
a TA command, a contention resolution that is waited for, a successRAR, and an SDU together with its
subheader. -/
theorem dl_parsing_safe_iff (env : UeEnv) (mem : Nat → UInt8) (len : Nat) (ra : UeRa)
    (crnti : Nat) :
    ∃ r, (nrUeProcessMacPdu env mem len ra crnti).val = some r ∧
      (Within len (nrUeProcessMacPdu env mem len ra crnti) ∧
          (∀ ind ∈ r.2.rlc, ind.start + ind.len ≤ len) ↔
        if ra.raType2Step && ra.raState == .waitMsgB then MsgBThere env mem len
        else DlSubPdusThere env mem len 0
          (if ra.raState = .waitContentionResolution then some ra.raActive else none)) := by
  rw [nrUeProcessMacPdu]
  split
  · next hmsgB =>
    have hstate : ra.raState ≠ .waitContentionResolution := by
      rw [Bool.and_eq_true, beq_iff_eq] at hmsgB
      rw [hmsgB.2]
      decide
    obtain ⟨⟨exit, n, st⟩, hr, hkeeps, hend⟩ :=
      successRar_loop env mem len len 0 { ra, crnti } (Nat.sub_le len 0)
    have hreads := within_blocks_boundary (successRarSubPdu_follows env mem len) (Nat.sub_le len 0)
      (successRarSubPdu_progress env mem) ((0 : Nat), ({ ra, crnti } : DlRx))
      (W := fun n _ => ¬ msgBRapid mem n → msgBSuccessRar mem n → n + 12 ≤ len)
      (fun n st hn => within_successRarSubPdu env mem st hn)
    rw [Nat.sub_zero] at hr hreads
    have hfirst : (∀ n t, Boundary 0 len (msgBSize mem) (MsgBStops mem) (fun _ _ => ()) () n t →
        ¬ msgBRapid mem n → msgBSuccessRar mem n → n + 12 ≤ len) ↔
        ∀ n, MsgBBoundary mem len n → ¬ msgBRapid mem n → msgBSuccessRar mem n → n + 12 ≤ len :=
      ⟨fun h n hn => h n () hn, fun h n _ hn => h n hn⟩
    rw [nrUeValidateSuccessrar, val_bind, val_bind, within_bind, within_bind, val_bind, hreads,
      hfirst, hr, MsgBThere]
    rcases hend with ⟨hnone, rfl⟩ | ⟨hsome, hne⟩
    · -- a subheader that is not implemented
      refine ⟨_, rfl, ?_⟩
      rw [hnone]
      simp only [successRarTa, val_pure, afterMsgB, within_pure, and_true]
      exact ⟨fun h => ⟨h.1, by simp⟩, fun h => ⟨h.1, by simp⟩⟩
    · have hta : successRarTa mem (some (exit, (n, st))) = (do
          let b ← read mem 1
          pure (some (some (n, { st with ta := st.ta ++ [b % 64] })))) := by
        cases exit with
        | none => rfl
        | some e =>
          cases e with
          | done => rfl
          | assertFatal => exact absurd rfl hne
      rw [hta, val_bind, val_pure, within_bind, within_read]
      simp only [afterMsgB, within_pure, and_true]
      obtain ⟨r, hval, hsafe⟩ := dlSubPdus_safe env mem len n
        { st with ta := st.ta ++ [(mem 1).toNat % 64] } hkeeps.rlc
      have hphase : raPhase { st with ta := st.ta ++ [(mem 1).toNat % 64] } = none :=
        if_neg (hkeeps.raState hstate)
      rw [hphase] at hsafe
      refine ⟨r, hval, ?_⟩
      rw [hsome, val_read]
      constructor
      · rintro ⟨⟨⟨h, hone⟩, hw⟩, hslices⟩
        refine ⟨h, fun start heq => ?_⟩
        cases heq
        exact ⟨hone, hsafe.mp ⟨hw, hslices⟩⟩
      · rintro ⟨h, hrest⟩
        obtain ⟨hone, hthere⟩ := hrest n rfl
        obtain ⟨hw, hslices⟩ := hsafe.mpr hthere
        exact ⟨⟨⟨h, hone⟩, hw⟩, hslices⟩
  · exact dlSubPdus_safe env mem len 0 _ rfl

theorem dl_parsing_slice_behind :
    let ra : UeRa := ⟨false, .succeeded, false, false, 0, 0, 0, 0, 0, 0, 0⟩
    let env : UeEnv := ⟨0, [], false⟩
    let sdu : Nat → UInt8 := fun i => if i = 0 then 4 else 5
    (nrUeProcessMacPdu env sdu 5 ra 0).val = some (.done, { ra, crnti := 0, rlc := [⟨4, 2, 5⟩] }) ∧
      ¬ Within 1 (nrUeProcessMacPdu env (fun _ => 0x3D) 1 ra 0) := by
  decide

end NrStack.Mac
