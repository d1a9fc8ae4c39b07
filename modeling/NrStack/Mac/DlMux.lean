/-
  The gNB's writer of downlink MAC PDUs (`nr_write_ce_dlsch_pdu`, `nr_schedule_ue_spec`), and the round
  trip through the UE's parser.

  The writer puts down the MAC CEs that are scheduled, the RLC PDUs of each logical channel behind 3-byte
  subheaders, and padding.  Writer and parser keep separate tables of the lengths of MAC CEs.  The SP CSI-RS
  / CSI-IM CE alone is written behind a subheader WITHOUT a length field, and parsed as one with it.
-/
import Mathlib
import NrStack.Mac.DlPdu
import NrStack.Mac.SubPdu

namespace NrStack.Mac

open List hiding Vector
open Probing

/-! ## MAC CEs -/

/-- `sp_zp_csirs_t` -/
structure SpZpCsirs where
  isScheduled : Bool
  actDeact : Bool
  servCellId : UInt8
  bwpid : UInt8
  rscId : UInt8

/-- `csi_rs_im_t`; `tciStateId` has the `nb_tci_resource_set_id` entries in use. -/
structure CsiRsIm where
  isScheduled : Bool
  actDeact : Bool
  servCellid : UInt8
  bwpId : UInt8
  im : Bool
  csiImRscId : UInt8
  nzpCsiRscId : UInt8
  tciStateId : List UInt8
  /-- `MAX_CSI_RESOURCE_SET` -/
  bounded : tciStateId.length ≤ 64

/-- `pdcchStateInd_t` -/
structure PdcchStateInd where
  isScheduled : Bool
  servingCellId : UInt8
  coresetId : UInt8
  tciStateId : UInt8

/-- `SPCSIReportingpucch_t` -/
structure SpCsiReportingPucch where
  isScheduled : Bool
  servingCellId : UInt8
  bwpId : UInt8
  s0tos3ActDeact : Fin 4 → Bool

/-- `pdschTciStatesActDeact_t` and `aperiodicCSI_triggerStateSelection_t`: a bit map and the highest
bit that is set. -/
structure BitmapCe where
  isScheduled : Bool
  servingCellId : UInt8
  bwpId : UInt8
  highest : UInt8
  selection : Nat → Bool

/-- What `nr_write_ce_dlsch_pdu` reads of `NR_UE_sched_ctrl_t`. -/
structure CeCtrl where
  taApply : Bool
  taUpdate : Int
  pdcchStateInd : PdcchStateInd
  spCsiReportingPucch : SpCsiReportingPucch
  pdschTciStatesActDeact : BitmapCe
  aperiCsiTrigger : BitmapCe
  spZpCsiRs : SpZpCsirs
  csiIm : CsiRsIm

/-- `DL_SCH_LCID_..` as a number. -/
def DlLcid.code : DlLcid → Nat
  | .ccch => 0x00
  | .sdu lcid => lcid
  | .recommendedBitrate => 0x2F
  | .spZpCsiRsResSetAct => 0x30
  | .pucchSpatialRelationAct => 0x31
  | .spSrsActivation => 0x32
  | .spCsiRepPucchAct => 0x33
  | .tciStateIndUeSpecPdcch => 0x34
  | .tciStateActUeSpecPdsch => 0x35
  | .aperiodicCsiTriStateSubsel => 0x36
  | .spCsiRsCsiImResSetAct => 0x37
  | .duplicationAct => 0x38
  | .sCellAct4Oct => 0x39
  | .sCellAct1Oct => 0x3A
  | .lDrx => 0x3B
  | .drx => 0x3C
  | .taCommand => 0x3D
  | .conResId => 0x3E
  | .padding => 0x3F
  | .unknown lcid => lcid

/-- `NR_MAC_CE_TA` behind its subheader. -/
def taCe (tagId : Nat) (taUpdate : Int) : List UInt8 :=
  [subheaderFixed DlLcid.taCommand.code, UInt8.ofNat (bits 6 0 (taUpdate % 64).toNat + bits 2 6 tagId)]

/-- The contention resolution identity, with its subheader. -/
def conResCe : Option (Vector UInt8 6) → List UInt8
  | some id => subheaderFixed DlLcid.conResId.code :: id.toList
  | none => []

/-- `NR_TCI_PDCCH` behind its subheader. -/
def PdcchStateInd.ce (c : PdcchStateInd) : List UInt8 :=
  [subheaderFixed DlLcid.tciStateIndUeSpecPdcch.code,
    UInt8.ofNat (bits 3 0 (c.coresetId.toNat % 16 / 2) + bits 5 3 c.servingCellId.toNat),
    UInt8.ofNat (bits 7 0 c.tciStateId.toNat + bits 1 7 c.coresetId.toNat)]

/-- `NR_PUCCH_CSI_REPORTING` behind its subheader; the reserved bit `R1` is whatever was on the
stack. -/
def SpCsiReportingPucch.ce (c : SpCsiReportingPucch) (r1 : Nat) : List UInt8 :=
  let s := c.s0tos3ActDeact
  [subheaderFixed DlLcid.spCsiRepPucchAct.code,
    UInt8.ofNat (bits 2 0 c.bwpId.toNat + bits 5 2 c.servingCellId.toNat + bits 1 7 r1),
    UInt8.ofNat (bits 1 0 (s 0).toNat + bits 1 1 (s 1).toNat + bits 1 2 (s 2).toNat +
      bits 1 3 (s 3).toNat)]

/-- The `i`-th octet of the bitmap. -/
def BitmapCe.octet (c : BitmapCe) (i : Nat) : UInt8 :=
  UInt8.ofNat (((List.range 8).map fun j => bits 1 j (c.selection (8 * i + j)).toNat).sum)

/-- `num_octects`: up to the highest index that is set. -/
def BitmapCe.numOctects (c : BitmapCe) : Nat := c.highest.toNat / 8 + 1

/-- `NR_TCI_PDSCH_APERIODIC_CSI` behind its subheader. -/
def BitmapCe.ce (c : BitmapCe) (lcid : DlLcid) : List UInt8 :=
  subheaderShort lcid.code (1 + c.numOctects) ++
    UInt8.ofNat (bits 2 0 c.bwpId.toNat + bits 5 2 c.servingCellId.toNat) ::
      (List.range c.numOctects).map c.octet

/-- `NR_MAC_CE_SP_ZP_CSI_RS_RES_SET` behind its subheader. -/
def SpZpCsirs.ce (c : SpZpCsirs) : List UInt8 :=
  [subheaderFixed DlLcid.spZpCsiRsResSetAct.code,
    UInt8.ofNat (bits 2 0 c.bwpid.toNat + bits 5 2 c.servCellId.toNat + bits 1 7 c.actDeact.toNat),
    UInt8.ofNat (bits 4 0 c.rscId.toNat)]

/-- The first octet of the CE. -/
def CsiRsIm.octet1 (c : CsiRsIm) : Nat :=
  bits 2 0 c.bwpId.toNat + bits 5 2 (c.servCellid.toNat % 64) + bits 1 7 c.actDeact.toNat

/-- The other octets: `SP_CSI_RSID` and `IM`; `SP_CSI_IMID` if `IM` is set; and, for an activation,
the TCI states. -/
def CsiRsIm.octets (c : CsiRsIm) : List UInt8 :=
  UInt8.ofNat (bits 6 0 c.nzpCsiRscId.toNat + bits 1 6 c.im.toNat) ::
    ((if c.im then [UInt8.ofNat (bits 6 0 c.csiImRscId.toNat)] else []) ++
      if c.actDeact then c.tciStateId.map fun t => UInt8.ofNat (bits 6 0 (t.toNat % 128)) else [])

/-- `CSI_RS_CSI_IM_ACT_DEACT_MAC_CE` behind a subheader without a length field. -/
def CsiRsIm.ce (c : CsiRsIm) : List UInt8 :=
  subheaderFixed DlLcid.spCsiRsCsiImResSetAct.code :: UInt8.ofNat c.octet1 :: c.octets

/-- The bytes written; `none` is the failed assertion on `ta_update`.  `drxCmd` is 255 for none, `r1` a
bit that is not initialised. -/
def nrWriteCeDlschPdu (tagId : Nat) (ctl : CeCtrl) (drxCmd : Nat)
    (ueContResId : Option (Vector UInt8 6)) (r1 : Nat) : Option (List UInt8) :=
  if ctl.taApply ∧ 64 ≤ ctl.taUpdate then none
  else some
    ((if drxCmd ≠ 255 then [subheaderFixed DlLcid.drx.code] else []) ++
    ((if ctl.taApply then taCe tagId ctl.taUpdate else []) ++
    (conResCe ueContResId ++
    ((if ctl.pdcchStateInd.isScheduled then ctl.pdcchStateInd.ce else []) ++
    ((if ctl.spCsiReportingPucch.isScheduled then ctl.spCsiReportingPucch.ce r1 else []) ++
    ((if ctl.pdschTciStatesActDeact.isScheduled then
      ctl.pdschTciStatesActDeact.ce .tciStateActUeSpecPdsch else []) ++
    ((if ctl.aperiCsiTrigger.isScheduled then
      ctl.aperiCsiTrigger.ce .aperiodicCsiTriStateSubsel else []) ++
    ((if ctl.spZpCsiRs.isScheduled then ctl.spZpCsiRs.ce else []) ++
    if ctl.csiIm.isScheduled then ctl.csiIm.ce else []))))))))

/-! ## The transport block -/

/-- The bytes written, the PDUs taken from each channel, and RLC. -/
structure TbState (ρ : Type) where
  out : List UInt8
  taken : List (Nat × List UInt8)
  rlc : ρ

/-- An entry of `lc_config`: a logical channel has an identity of at most 32. -/
structure NrLcConfig where
  lcid : Nat
  valid : lcid ≤ 32

/-- What of the scheduler and of the softmodem decides about the data; `random` is `lrand48`. -/
structure DlDataCfg where
  numTotalBytes : Nat
  bytesInBuffer : Nat → Nat
  lcConfig : List NrLcConfig
  phyTest : Bool
  random : Nat → UInt8

variable {ρ : Type}

/-- `while (bufEnd-buf > sizeof(NR_MAC_SUBHEADER_LONG) + 1)`; `none` when the fuel does not
suffice. -/
def dlSduLoop (src : RlcSource ρ) (tbs lcid bytesInBuffer : Nat) :
    Nat → TbState ρ → Option (TbState ρ)
  | 0, _ => none
  | fuel + 1, st =>
    if tbs - st.out.length > 3 + 1 then
      let ndata := min bytesInBuffer (tbs - st.out.length - 3)
      let req := src.dataReq st.rlc lcid ndata
      if req.1.length = 0 then some { st with rlc := req.2 }
      else dlSduLoop src tbs lcid bytesInBuffer fuel
        ⟨st.out ++ (subheaderLong lcid req.1.length ++ req.1), st.taken ++ [(lcid, req.1)], req.2⟩
    else some st

/-- The loop over the logical channels. -/
def dlLcLoop (src : RlcSource ρ) (tbs : Nat) (bytesInBuffer : Nat → Nat) :
    List NrLcConfig → TbState ρ → Option (TbState ρ)
  | [], st => some st
  | c :: lcs, st =>
    if bytesInBuffer c.lcid = 0 then dlLcLoop src tbs bytesInBuffer lcs st
    else (dlSduLoop src tbs c.lcid (bytesInBuffer c.lcid) (tbs + 1) st).bind
      (dlLcLoop src tbs bytesInBuffer lcs)

/-- Random data behind a padding subheader with a length (phy-test). -/
def dlRandom (random : Nat → UInt8) (tbs : Nat) (out : List UInt8) : List UInt8 :=
  if tbs - out.length > 3 then
    out ++ (subheaderLong DlLcid.padding.code (tbs - out.length - 3) ++
      slice random 0 (tbs - out.length - 3))
  else out

/-- The rest of the transport block. -/
def dlPadding (tbs : Nat) (out : List UInt8) : List UInt8 :=
  if tbs - out.length > 0 then
    out ++ subheaderFixed DlLcid.padding.code :: List.replicate (tbs - out.length - 1) 0
  else out

/-- The transport block, with the RLC PDUs in it and where MAC CEs and RLC PDUs end. -/
structure TransportBlock where
  bytes : List UInt8
  taken : List (Nat × List UInt8)
  written : Nat

/-- `nr_schedule_ue_spec`, initial transmission, behind the MAC CEs `ces`; `none` is `DevAssert(TBS >
written)`. -/
def fillTransportBlock (src : RlcSource ρ) (cfg : DlDataCfg) (tbs : Nat) (ces : List UInt8) (s : ρ) :
    Option TransportBlock :=
  if tbs > ces.length then
    if cfg.numTotalBytes > 0 then
      (dlLcLoop src tbs cfg.bytesInBuffer cfg.lcConfig ⟨ces, [], s⟩).map fun st =>
        ⟨dlPadding tbs st.out, st.taken, st.out.length⟩
    else if cfg.phyTest then some ⟨dlPadding tbs (dlRandom cfg.random tbs ces), [], ces.length⟩
    else some ⟨dlPadding tbs ces, [], ces.length⟩
  else none

/-! ## What the parser skips -/

/-- The length field of a subheader that begins with `b`, and the bytes it announces. -/
def lengthFieldSize (b : UInt8) (rest : List UInt8) : Nat :=
  if b.toNat / 64 % 2 = 1 then 2 + ((rest.getD 0 0).toNat * 256 + (rest.getD 1 0).toNat)
  else 1 + (rest.getD 0 0).toNat

/-- The UE's tables cut the bytes into MAC CEs that are skipped: none stops the parser or is an SDU, a
TA command or a contention resolution, and the last ends where the bytes end. -/
def dlSkips : Nat → List UInt8 → Bool
  | _, [] => true
  | 0, _ :: _ => false
  | fuel + 1, b :: rest =>
    match DlLcid.ofCode (b.toNat % 64) with
    | .ccch | .sdu _ | .taCommand | .conResId | .padding => false
    | lcid =>
      let size := lcid.fixedLength.getD (lengthFieldSize b rest)
      decide (size ≤ rest.length) && dlSkips fuel (rest.drop size)

/-- Bytes that the UE skips, CE by CE. -/
def DlSkipped (bs : List UInt8) : Prop := dlSkips bs.length bs = true
deriving Decidable

/-- What went to RLC, as bytes, and the TA commands. -/
def DlRx.decoded (mem : Nat → UInt8) (st : DlRx) : List (Nat × List UInt8) × List Nat :=
  (st.rlc.map fun ind => (ind.lcid, slice mem ind.start ind.len), st.ta)

/-- The parser goes through the bytes, and decodes the RLC PDUs `sdus` and the TA commands `tas`. -/
def DlRow (env : UeEnv) (bs : List UInt8) (sdus : List (Nat × List UInt8)) (tas : List Nat) : Prop :=
  TakesIn (dlSubPdu env) DlRx.decoded bs fun a => (a.1 ++ sdus, a.2 ++ tas)

namespace DlRow

variable {env : UeEnv} {bs bs' : List UInt8} {sdus sdus' : List (Nat × List UInt8)}
  {tas tas' : List Nat}

lemma nil : DlRow env [] [] [] := by
  have hid : (fun a : List (Nat × List UInt8) × List Nat => (a.1 ++ [], a.2 ++ [])) = id := by
    funext a
    rw [append_nil, append_nil]
    rfl
  rw [DlRow, hid]
  exact TakesIn.nil

lemma append (h : DlRow env bs sdus tas) (h' : DlRow env bs' sdus' tas') :
    DlRow env (bs ++ bs') (sdus ++ sdus') (tas ++ tas') := by
  have hcomp := TakesIn.append h h'
  have heq : (fun a : List (Nat × List UInt8) × List Nat =>
      (a.1 ++ (sdus ++ sdus'), a.2 ++ (tas ++ tas'))) =
      (fun a => (a.1 ++ sdus', a.2 ++ tas')) ∘ fun a => (a.1 ++ sdus, a.2 ++ tas) := by
    funext a
    rw [← append_assoc, ← append_assoc]
    rfl
  rw [DlRow, heq]
  exact hcomp

lemma append_skipped (h : DlRow env bs [] []) (h' : DlRow env bs' sdus tas) :
    DlRow env (bs ++ bs') sdus tas := h.append h'

lemma ite {c : Bool} (h : c = true → DlRow env bs [] []) :
    DlRow env (if c then bs else []) [] [] := by
  cases c with
  | false => exact nil
  | true => exact h rfl

end DlRow

lemma contentionResolution_ta (env : UeEnv) (pdu : List Nat) (st : DlRx) :
    (st.contentionResolution env pdu).ta = st.ta := by
  rw [DlRx.contentionResolution]
  split
  · rw [DlRx.nrRaSucceeded]
    split <;> rfl
  · split <;> rfl

variable {mem : Nat → UInt8} {p rem pos lcid tbs : Nat} {env : UeEnv}

lemma macLenAt_short (hF : (mem p).toNat / 64 % 2 ≠ 1) (hrem : 2 ≤ rem) : macLenAt mem p rem =
      ⟨decide ((mem (p + 1)).toNat ≤ rem), (mem (p + 1)).toNat, 2⟩ := by
  rw [macLenAt, getMacLen, if_neg (by omega), val_bind, val_read, getMacLenField, if_neg hF]
  rfl

lemma macLenAt_long (hF : (mem p).toNat / 64 % 2 = 1) (hrem : 3 ≤ rem) : macLenAt mem p rem =
      ⟨decide ((mem (p + 1)).toNat * 256 + (mem (p + 2)).toNat ≤ rem),
        (mem (p + 1)).toNat * 256 + (mem (p + 2)).toNat, 3⟩ := by
  rw [macLenAt, getMacLen, if_neg (by omega), val_bind, val_read, getMacLenField, if_pos hF,
    if_neg (by omega)]
  rfl

variable {b : UInt8} {rest : List UInt8}

lemma macLenAt_size (hmem : HasBytes mem pos (b :: rest))
    (hrem : rest.length + 1 ≤ rem) (hsize : lengthFieldSize b rest ≤ rest.length) :
    (macLenAt mem pos rem).size = 1 + lengthFieldSize b rest := by
  obtain ⟨hb, hrest⟩ := hasBytes_cons.mp hmem
  rw [lengthFieldSize] at hsize ⊢
  split at hsize
  · next hF =>
    have h₁ : mem (pos + 1) = rest.getD 0 0 := hrest.getD (i := 0) (by omega)
    have h₂ : mem (pos + 2) = rest.getD 1 0 := hrest.getD (i := 1) (by omega)
    rw [macLenAt_long (hb ▸ hF) (by omega), if_pos hF, ← h₁, ← h₂, MacLen.size]
    dsimp only
    omega
  · next hF =>
    have h₁ : mem (pos + 1) = rest.getD 0 0 := hrest.getD (i := 0) (by omega)
    rw [macLenAt_short (hb ▸ hF) (by omega), if_neg hF, ← h₁, MacLen.size]
    dsimp only
    omega

lemma dlSkips_cons {fuel : Nat}
    (h : dlSkips (fuel + 1) (b :: rest) = true) (hmem : HasBytes mem pos (b :: rest))
    (hrem : rest.length + 1 ≤ rem) (env : UeEnv) (st : DlRx) :
    ∃ size, (dlSubPdu env mem pos rem st).val = (.go (1 + size), st) ∧ size ≤ rest.length ∧
      dlSkips fuel (rest.drop size) = true := by
  obtain ⟨hb, -⟩ := hasBytes_cons.mp hmem
  rw [dlSkips] at h
  rw [dlSubPdu, val_bind, val_read, hb]
  cases hl : DlLcid.ofCode (b.toNat % 64) with
  | ccch | sdu | taCommand | conResId | padding =>
    rw [hl] at h
    cases h
  | tciStateActUeSpecPdsch | aperiodicCsiTriStateSubsel | spCsiRsCsiImResSetAct | spSrsActivation =>
    rw [hl] at h
    obtain ⟨hsize, hrest⟩ := (Bool.and_eq_true _ _).mp h
    have hle := of_decide_eq_true hsize
    refine ⟨_, ?_, hle, hrest⟩
    rw [dlProcessLcid, val_bind, val_pure, ← macLenAt, macLenAt_size hmem hrem hle]
    rfl
  | _ =>
    rw [hl] at h
    obtain ⟨hsize, hrest⟩ := (Bool.and_eq_true _ _).mp h
    exact ⟨_, rfl, of_decide_eq_true hsize, hrest⟩

theorem DlSkipped.row {bs : List UInt8} (h : DlSkipped bs) (env : UeEnv) : DlRow env bs [] [] := by
  suffices hfuel : ∀ (fuel : Nat) (bs : List UInt8), dlSkips fuel bs = true →
      ∀ (mem : Nat → UInt8) (pos rem : Nat) (st : DlRx), HasBytes mem pos bs → bs.length ≤ rem →
        Leads (dlSubPdu env mem) pos rem st (pos + bs.length) (rem - bs.length) st by
    intro mem pos rem st hmem hrem
    refine ⟨st, hfuel _ _ h mem pos rem st hmem hrem, ?_⟩
    dsimp only
    rw [append_nil, append_nil]
  intro fuel
  induction fuel with
  | zero =>
    intro bs h mem pos rem st hmem hrem
    cases bs with
    | nil => exact .refl
    | cons b rest => cases h
  | succ fuel ih =>
    intro bs h mem pos rem st hmem hrem
    cases bs with
    | nil => exact .refl
    | cons b rest =>
      rw [length_cons] at hrem ⊢
      obtain ⟨size, hgo, hle, hskips⟩ := dlSkips_cons h hmem hrem env st
      -- the rest of the memory behind the CE
      have hrest : HasBytes mem (pos + (1 + size)) (rest.drop size) := by
        have hsplit := (hasBytes_cons.mp hmem).2
        rw [← take_append_drop size rest, hasBytes_append, length_take,
          Nat.min_eq_left hle, Nat.add_assoc] at hsplit
        exact hsplit.2
      have hlen : (rest.drop size).length = rest.length - size := length_drop
      have hleads := ih _ hskips mem _ (rem - (1 + size)) st hrest (by omega)
      rw [hlen] at hleads
      refine .step (by omega) hgo ?_
      rwa [show pos + (1 + size) + (rest.length - size) = pos + (rest.length + 1) by omega,
        show rem - (1 + size) - (rest.length - size) = rem - (rest.length + 1) by omega] at hleads

/-! ## Each sub-PDU -/

lemma PdcchStateInd.skipped (c : PdcchStateInd) : DlSkipped c.ce := rfl

lemma SpCsiReportingPucch.skipped (c : SpCsiReportingPucch) (r1 : Nat) : DlSkipped (c.ce r1) := rfl

lemma SpZpCsirs.skipped (c : SpZpCsirs) : DlSkipped c.ce := rfl

lemma dlSkipped_short {lcid : DlLcid} {l : Nat} {tail : List UInt8}
    (hlcid : lcid = .tciStateActUeSpecPdsch ∨ lcid = .aperiodicCsiTriStateSubsel) (hl : l < 256)
    (hlen : tail.length = l) : DlSkipped (subheaderShort lcid.code l ++ tail) := by
  have hsize : ∀ b : UInt8, b.toNat / 64 % 2 ≠ 1 →
      lengthFieldSize b (UInt8.ofNat l :: tail) = 1 + l := by
    intro b hF
    rw [lengthFieldSize, if_neg hF, getD_cons_zero, UInt8.toNat_ofNat_of_lt' hl]
  have hdrop : (UInt8.ofNat l :: tail).drop (1 + l) = [] :=
    drop_eq_nil_of_le (by rw [length_cons]; omega)
  have hskips : ∀ b : UInt8, DlLcid.ofCode (b.toNat % 64) = lcid → b.toNat / 64 % 2 ≠ 1 →
      dlSkips (tail.length + 2) (b :: UInt8.ofNat l :: tail) = true := by
    intro b hb hF
    rw [dlSkips, hb]
    have hle : lengthFieldSize b (UInt8.ofNat l :: tail) ≤ (UInt8.ofNat l :: tail).length := by
      rw [hsize b hF, length_cons]
      omega
    have hrest : dlSkips (tail.length + 1)
        ((UInt8.ofNat l :: tail).drop (lengthFieldSize b (UInt8.ofNat l :: tail))) = true := by
      rw [hsize b hF, hdrop]
      rfl
    rcases hlcid with rfl | rfl <;>
      exact (Bool.and_eq_true _ _).mpr ⟨decide_eq_true hle, hrest⟩
  refine hskips _ ?_ ?_ <;> rcases hlcid with rfl | rfl <;> decide

lemma BitmapCe.skipped (c : BitmapCe) {lcid : DlLcid}
    (hlcid : lcid = .tciStateActUeSpecPdsch ∨ lcid = .aperiodicCsiTriStateSubsel) :
    DlSkipped (c.ce lcid) := by
  refine dlSkipped_short hlcid ?_ ?_
  · have := c.highest.toNat_lt
    rw [numOctects]
    omega
  · rw [length_cons, length_map, length_range, Nat.add_comm]

lemma taCe_row {tagId : Nat} (htag : env.tagId = tagId % 4) (taUpdate : Int) :
    DlRow env (taCe tagId taUpdate) [] [(taUpdate % 64).toNat] := by
  refine TakesIn.block (cons_ne_nil _ _) fun mem pos rem st hmem _ => ?_
  obtain ⟨hb, hrest⟩ := hasBytes_cons.mp hmem
  obtain ⟨hce, -⟩ := hasBytes_cons.mp hrest
  have hval : (mem (pos + 1)).toNat = (taUpdate % 64).toNat + 64 * (tagId % 4) := by
    rw [hce, bits, bits, UInt8.toNat_ofNat_of_lt' (by show _ < 256; omega)]
    omega
  rw [dlSubPdu, val_bind, val_read, hb]
  show ∃ s', (dlProcessLcid env mem pos rem st .taCommand).val = _ ∧ _
  rw [dlProcessLcid, val_bind, val_pure, val_read, if_pos (by rw [hval, htag]; omega)]
  refine ⟨_, rfl, ?_⟩
  rw [hval, show ((taUpdate % 64).toNat + 64 * (tagId % 4)) % 64 = (taUpdate % 64).toNat by omega]
  rw [append_nil]
  rfl

lemma conResCe_row (env : UeEnv) (id : Option (Vector UInt8 6)) :
    DlRow env (conResCe id) [] [] := by
  cases id with
  | none => exact .nil
  | some id =>
  refine TakesIn.block (cons_ne_nil _ _) fun mem pos rem st hmem _ => ?_
  have hb := (hasBytes_cons.mp hmem).1
  have hlen : (conResCe (some id)).length = 7 := by
    rw [conResCe, length_cons, Vector.length_toList]
  rw [dlSubPdu, val_bind, val_read, hb, hlen]
  show ∃ s', (dlProcessLcid env mem pos rem st .conResId).val = _ ∧ _
  rw [dlProcessLcid]
  split
  · refine ⟨_, rfl, ?_⟩
    show ((st.contentionResolution env _).rlc.map _, (st.contentionResolution env _).ta) = _
    rw [contentionResolution_rlc, contentionResolution_ta]
    simp only [append_nil]
    rfl
  · refine ⟨st, rfl, ?_⟩
    simp

lemma subheaderLong_macLen {pdu : List UInt8} (hlcid : lcid ≤ 32) (hshort : pdu.length < 2 ^ 16)
    (hmem : HasBytes mem pos (subheaderLong lcid pdu.length ++ pdu)) (hrem : 3 + pdu.length ≤ rem) :
    (mem pos).toNat % 64 = lcid ∧ macLenAt mem pos rem = ⟨true, pdu.length, 3⟩ ∧
      slice mem (pos + 3) pdu.length = pdu := by
  obtain ⟨hfirst, hlength, hpdu⟩ := subheaderLong_bytes (by omega) hshort hmem
  refine ⟨by omega, ?_, hpdu⟩
  rw [macLenAt_long (by omega) (by omega), hlength, decide_eq_true (by omega)]

theorem sdu_row (env : UeEnv) (hlcid : lcid ≤ 32) {pdu : List UInt8} (hpos : 0 < pdu.length)
    (hshort : pdu.length < 2 ^ 16) :
    DlRow env (subheaderLong lcid pdu.length ++ pdu) [(lcid, pdu)] [] := by
  refine TakesIn.block (cons_ne_nil _ _) fun mem pos rem st hmem hrem => ?_
  have hlen : (subheaderLong lcid pdu.length ++ pdu).length = 3 + pdu.length := length_append
  rw [hlen] at hrem ⊢
  obtain ⟨hcode, hmac, hpdu⟩ := subheaderLong_macLen hlcid hshort hmem hrem
  have hdecoded : (st.deliver lcid pos ⟨true, pdu.length, 3⟩).decoded mem =
      ((st.decoded mem).1 ++ [(lcid, pdu)], (st.decoded mem).2 ++ []) := by
    rw [DlRx.deliver, DlRx.decoded, map_append, map_singleton, hpdu, append_nil]
    rfl
  refine ⟨st.deliver lcid pos ⟨true, pdu.length, 3⟩, ?_, hdecoded⟩
  rw [dlSubPdu, val_bind, val_read, hcode, DlLcid.ofCode]
  by_cases hzero : lcid = 0
  · -- CCCH: the subheader is not all zeros
    have hvalid := @ccch_valid pos rem mem (by rw [hmac])
      (by rw [hmac]; exact hpos)
    rw [hmac] at hvalid
    rw [if_pos hzero, dlProcessLcid, val_bind, ← macLenAt, hmac, dlCcch, if_pos rfl, val_bind,
      hvalid, val_pure, if_pos rfl, if_pos hpos, hzero]
    rfl
  · rw [if_neg hzero, if_pos hlcid, dlProcessLcid, val_bind, val_pure, ← macLenAt, hmac]
    rfl

/-! ## The transport block is a row -/

/-- What the loops add to the transport block: RLC PDUs behind their subheaders. -/
structure Added (env : UeEnv) (tbs : Nat) (st st' : TbState ρ) : Prop where
  fits : st'.out.length ≤ tbs
  row : ∃ bs sdus, st'.out = st.out ++ bs ∧ st'.taken = st.taken ++ sdus ∧ DlRow env bs sdus []

lemma Added.refl (env : UeEnv) {st : TbState ρ} (hfits : st.out.length ≤ tbs) (rlc : ρ) :
    Added env tbs st { st with rlc } :=
  ⟨hfits, [], [], (append_nil _).symm, (append_nil _).symm, .nil⟩

lemma Added.trans {st st₁ st₂ : TbState ρ} (h : Added env tbs st st₁) (h' : Added env tbs st₁ st₂) :
    Added env tbs st st₂ := by
  obtain ⟨bs, sdus, hout, htaken, hrow⟩ := h.row
  obtain ⟨bs', sdus', hout', htaken', hrow'⟩ := h'.row
  exact ⟨h'.fits, bs ++ bs', sdus ++ sdus', by rw [hout', hout, append_assoc],
    by rw [htaken', htaken, append_assoc], hrow.append hrow'⟩

/-- The SDUs of one channel are added as subPDUs. -/
theorem dlSduLoop_added (env : UeEnv) (src : RlcSource ρ) (hlcid : lcid ≤ 32) (bytesInBuffer : Nat) :
    ∀ (fuel : Nat) (st : TbState ρ), st.out.length ≤ tbs →
      tbs - st.out.length < fuel →
      ∃ st', dlSduLoop src tbs lcid bytesInBuffer fuel st = some st' ∧ Added env tbs st st' := by
  intro fuel
  induction fuel with
  | zero => exact fun st _ hfuel => absurd hfuel (Nat.not_lt_zero _)
  | succ fuel ih =>
    intro st hfits hfuel
    rw [dlSduLoop]
    split
    · next hroom =>
      have hsize := src.fits st.rlc lcid (min bytesInBuffer (tbs - st.out.length - 3))
      have hshort := src.short st.rlc lcid (min bytesInBuffer (tbs - st.out.length - 3))
      dsimp only
      generalize src.dataReq st.rlc lcid (min bytesInBuffer (tbs - st.out.length - 3)) = req
        at hsize hshort ⊢
      obtain ⟨pdu, rlc⟩ := req
      dsimp only at hsize hshort ⊢
      split
      · exact ⟨_, rfl, .refl env hfits rlc⟩
      · next hne =>
        have hlen : (st.out ++ (subheaderLong lcid pdu.length ++ pdu)).length =
            st.out.length + (3 + pdu.length) := by
          rw [length_append, length_append]
          rfl
        have hle : st.out.length + (3 + pdu.length) ≤ tbs := by omega
        obtain ⟨st', heq, hadded⟩ := ih
          ⟨st.out ++ (subheaderLong lcid pdu.length ++ pdu), st.taken ++ [(lcid, pdu)], rlc⟩
          (by rw [hlen]; exact hle) (by rw [hlen]; omega)
        exact ⟨st', heq, Added.trans ⟨by rw [hlen]; exact hle, _, _, rfl, rfl,
          sdu_row env hlcid (Nat.pos_of_ne_zero hne) hshort⟩ hadded⟩
    · exact ⟨st, rfl, .refl env hfits st.rlc⟩

theorem dlLcLoop_added (env : UeEnv) (src : RlcSource ρ) (bytesInBuffer : Nat → Nat) :
    ∀ (lcs : List NrLcConfig) (st : TbState ρ), st.out.length ≤ tbs →
      ∃ st', dlLcLoop src tbs bytesInBuffer lcs st = some st' ∧ Added env tbs st st' := by
  intro lcs
  induction lcs with
  | nil => exact fun st hfits => ⟨st, rfl, .refl env hfits st.rlc⟩
  | cons c lcs ih =>
    intro st hfits
    rw [dlLcLoop]
    split
    · exact ih st hfits
    · obtain ⟨st₁, heq₁, hadded₁⟩ := dlSduLoop_added env src c.valid (bytesInBuffer c.lcid) (tbs + 1)
        st hfits (by omega)
      obtain ⟨st₂, heq₂, hadded₂⟩ := ih st₁ hadded₁.fits
      exact ⟨st₂, by rw [heq₁, Option.bind_some, heq₂], hadded₁.trans hadded₂⟩

/-- What is behind the row: nothing, or a padding subheader. -/
def IsPadding (pad : List UInt8) : Prop :=
  pad = [] ∨ ∃ b rest, pad = b :: rest ∧ DlLcid.ofCode (b.toNat % 64) = .padding

lemma dlPadding_spec {out : List UInt8} (hfits : out.length ≤ tbs) :
    ∃ pad, dlPadding tbs out = out ++ pad ∧ (out ++ pad).length = tbs ∧ IsPadding pad := by
  rw [dlPadding]
  split
  · refine ⟨_, rfl, ?_, .inr ⟨_, _, rfl, by decide⟩⟩
    rw [length_append, length_cons, length_replicate]
    omega
  · exact ⟨[], (append_nil _).symm, by rw [append_nil]; omega, .inl rfl⟩

lemma dlRandom_spec (random : Nat → UInt8) {out : List UInt8} (hfits : out.length ≤ tbs) :
    ∃ pad, dlPadding tbs (dlRandom random tbs out) = out ++ pad ∧ (out ++ pad).length = tbs ∧
      IsPadding pad := by
  rw [dlRandom]
  split
  · next hroom =>
    have hlen : (out ++ (subheaderLong DlLcid.padding.code (tbs - out.length - 3) ++
        slice random 0 (tbs - out.length - 3))).length = tbs := by
      rw [length_append, length_append, length_slice]
      show out.length + (3 + _) = tbs
      omega
    rw [dlPadding, hlen, if_neg (by omega)]
    exact ⟨_, rfl, hlen, .inr ⟨_, _, rfl, by decide⟩⟩
  · exact dlPadding_spec hfits

/-- The block is the CEs, the SDUs as subPDUs, and padding. -/
theorem fillTransportBlock_spec (env : UeEnv) (src : RlcSource ρ) (cfg : DlDataCfg)
    {ces : List UInt8} (s : ρ) (htbs : ces.length < tbs) :
    ∃ bs pad sdus, fillTransportBlock src cfg tbs ces s =
        some ⟨ces ++ bs ++ pad, sdus, (ces ++ bs).length⟩ ∧
      (ces ++ bs ++ pad).length = tbs ∧ DlRow env bs sdus [] ∧ IsPadding pad := by
  rw [fillTransportBlock, if_pos htbs]
  split
  · obtain ⟨⟨out, taken, rlc⟩, heq, hadded⟩ := dlLcLoop_added env src cfg.bytesInBuffer cfg.lcConfig
      (⟨ces, [], s⟩ : TbState ρ) htbs.le
    obtain ⟨bs, sdus, hout, htaken, hrow⟩ := hadded.row
    obtain ⟨pad, hpad, hlen, hpadding⟩ := dlPadding_spec hadded.fits
    subst hout htaken
    exact ⟨bs, pad, taken, by rw [heq, Option.map_some, hpad], hlen, hrow, hpadding⟩
  · split
    · obtain ⟨pad, hpad, hlen, hpadding⟩ := dlRandom_spec cfg.random htbs.le
      exact ⟨[], pad, [], by rw [hpad, append_nil], by rw [append_nil]; exact hlen, .nil,
        hpadding⟩
    · obtain ⟨pad, hpad, hlen, hpadding⟩ := dlPadding_spec htbs.le
      exact ⟨[], pad, [], by rw [hpad, append_nil], by rw [append_nil]; exact hlen, .nil,
        hpadding⟩

/-! ## The round trip -/

/-- **The round trip of a transport block.** From any memory that begins with it, the UE decodes exactly
the RLC PDUs that were put in and the TA commands `tas`, and stops at the padding sub-PDU. -/
def DlRoundTrip (env : UeEnv) (ra : UeRa) (crnti : Nat) (tas : List Nat) (tb : TransportBlock) :
    Prop :=
  ∀ mem, HasBytes mem 0 tb.bytes → ∃ st,
    (nrUeProcessMacPdu env mem tb.bytes.length ra crnti).val = some (.done, st) ∧
    st.decoded mem = (tb.taken, tas) ∧
    (tb.written < tb.bytes.length → dlLcid mem tb.written = .padding ∧
      Reached (dlSubPdu env mem) 0 tb.bytes.length { ra, crnti } tb.written
        (tb.bytes.length - tb.written) st)

/-- The UE does not wait for a MsgB. -/
def UeRa.ParsesDlSch (ra : UeRa) : Prop := (ra.raType2Step && ra.raState == .waitMsgB) = false

lemma nrUeProcessMacPdu_blocks (env : UeEnv) (mem : Nat → UInt8) (len : Nat) {ra : UeRa}
    (hra : ra.ParsesDlSch) (crnti : Nat) :
    (nrUeProcessMacPdu env mem len ra crnti).val =
      (blocks (dlSubPdu env mem) len 0 len { ra, crnti }).val.map fun r => (r.1.getD .done, r.2) := by
  rw [nrUeProcessMacPdu, hra, if_neg Bool.false_ne_true, dlSubPdus, val_bind, val_pure, Nat.sub_zero]

lemma dlSubPdu_padding {st : DlRx} (h : dlLcid mem p = .padding) :
    (dlSubPdu env mem p rem st).val = (.stop .done, st) := by
  rw [dlSubPdu, val_bind, val_read, ← dlLcid, h]
  rfl

/-- The UE reads a row of subPDUs back. -/
theorem DlRow.roundTrip {ra : UeRa} (hra : ra.ParsesDlSch) (crnti : Nat) {row pad : List UInt8}
    {sdus : List (Nat × List UInt8)} {tas : List Nat} (hrow : DlRow env row sdus tas)
    (hpad : IsPadding pad) : DlRoundTrip env ra crnti tas ⟨row ++ pad, sdus, row.length⟩ := by
  intro mem hmem
  obtain ⟨hholds, hrest⟩ := hasBytes_append.mp hmem
  have hlen : (row ++ pad).length = row.length + pad.length := length_append
  obtain ⟨st, hleads, hdecoded⟩ := hrow mem 0 (row.length + pad.length) { ra, crnti } hholds
    (Nat.le_add_right _ _)
  rw [Nat.add_sub_cancel_left, Nat.zero_add] at hleads
  rw [Nat.zero_add] at hrest
  obtain ⟨fuel, hfuel, hblocks⟩ := hleads.blocks (dlSubPdu_progress env mem) (le_refl _)
  refine ⟨st, ?_, hdecoded, fun hlt => ?_⟩
  · rw [nrUeProcessMacPdu_blocks env mem _ hra, hlen, hblocks]
    rcases hpad with rfl | ⟨b, rest, rfl, hb⟩
    · rw [length_nil, blocks_zero]
      rfl
    · rw [← (hasBytes_cons.mp hrest).1] at hb
      obtain ⟨fuel, rfl⟩ : ∃ k, fuel = k + 1 :=
        ⟨fuel - 1, by rw [length_cons] at hfuel; omega⟩
      rw [blocks, if_neg (by rw [length_cons]; omega), val_bind, dlSubPdu_padding hb]
      rfl
  · dsimp only at hlt ⊢
    rw [hlen] at hlt ⊢
    rcases hpad with rfl | ⟨b, rest, rfl, hb⟩
    · exact absurd hlt (lt_irrefl _)
    · rw [← (hasBytes_cons.mp hrest).1] at hb
      rw [Nat.add_sub_cancel_left]
      exact ⟨hb, hleads.reached (by rw [length_cons]; omega)⟩

/-- The timing advance that is sent. -/
def CeCtrl.tas (ctl : CeCtrl) : List Nat :=
  if ctl.taApply then [(ctl.taUpdate % 64).toNat] else []

/-- The CE for CSI-RS and CSI-IM, if it is scheduled. -/
def CeCtrl.csiImCe (ctl : CeCtrl) : List UInt8 := if ctl.csiIm.isScheduled then ctl.csiIm.ce else []

theorem nrWriteCeDlschPdu_row {tagId : Nat} (htag : env.tagId = tagId % 4) {ctl : CeCtrl}
    {drxCmd : Nat} {id : Option (Vector UInt8 6)} {r1 : Nat} {ces : List UInt8}
    (h : nrWriteCeDlschPdu tagId ctl drxCmd id r1 = some ces) :
    ∃ bs, ces = bs ++ ctl.csiImCe ∧ DlRow env bs [] ctl.tas := by
  rw [nrWriteCeDlschPdu] at h
  split at h
  · cases h
  obtain rfl := Option.some.inj h
  simp only [← append_assoc]
  refine ⟨_, rfl, ?_⟩
  simp only [append_assoc]
  have hdrx : DlRow env (if drxCmd ≠ 255 then [subheaderFixed DlLcid.drx.code] else []) [] [] := by
    split
    · exact DlSkipped.row (by decide) env
    · exact .nil
  have hta : DlRow env (if ctl.taApply then taCe tagId ctl.taUpdate else []) [] ctl.tas := by
    rw [CeCtrl.tas]
    split
    · exact taCe_row htag ctl.taUpdate
    · exact .nil
  apply hdrx.append_skipped
  rw [← append_nil ctl.tas]
  refine hta.append ((conResCe_row env id).append_skipped (.append_skipped (.ite fun _ => ?_) (.append_skipped
    (.ite fun _ => ?_) (.append_skipped (.ite fun _ => ?_) (.append_skipped (.ite fun _ => ?_)
      (.ite fun _ => ?_))))))
  · exact ctl.pdcchStateInd.skipped.row env
  · exact (ctl.spCsiReportingPucch.skipped r1).row env
  · exact (ctl.pdschTciStatesActDeact.skipped (.inl rfl)).row env
  · exact (ctl.aperiCsiTrigger.skipped (.inr rfl)).row env
  · exact ctl.spZpCsiRs.skipped.row env

end NrStack.Mac
