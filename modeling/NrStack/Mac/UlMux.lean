/-
  The UE's writer of uplink MAC PDUs (`nr_ue_get_sdu`, `nr_write_ce_ulsch_pdu`).

  Logical channel prioritization fills the block up to `end_for_tailer`, in rounds: the first serves every
  channel up to its prioritized bit rate, channels of one priority share.  Behind the SDUs come the PHR, a
  BSR in what is left over, and padding.  `buflen_ep` is unsigned: it WRAPS when the channels do not fit.

  `LcpInv`: the PDU is a row of SDUs that fits.  `lcpRounds_fuel`: the loops END, as a round that is
  followed by another one wrote something or found a channel empty.
-/
import NrStack.Mac.UlPdu
import NrStack.Mac.SubPdu

namespace NrStack.Mac

open List Probing

-- the widths of the fields of a CE
local instance ofNatLcg : NeZero 8 := ⟨by decide⟩
local instance ofNatShortLevel : NeZero 32 := ⟨by decide⟩
local instance ofNatPhr : NeZero 64 := ⟨by decide⟩

/-! ## State -/

/-- `nr_lcordered_info_t`; `lcid_buffer_index` asserts the range of the identity. -/
structure LcOrderedInfo where
  lcid : Nat
  priority : Int
  pbr : Nat
  valid : 0 < lcid ∧ lcid ≤ 32

/-- `NR_LC_SCHEDULING_INFO`; the group is 8, `NR_INVALID_LCGID`, if RRC has configured none. -/
structure LcSchedInfo where
  lcidBufferRemain : Nat
  lcgid : Fin 9
  bj : Int

/-- What `nr_ue_get_sdu` reads of the MAC instance. -/
structure UeMac where
  lcOrderedList : List LcOrderedInfo
  distinct : (lcOrderedList.map LcOrderedInfo.lcid).Nodup
  lcSchedInfo : Nat → LcSchedInfo
  bsrRegular : Bool
  bsrPeriodic : Bool
  phrIsConfigured : Bool
  phrReporting : Int

/-- `NR_SINGLE_ENTRY_PHR_MAC_CE` -/
structure PhrCe where
  ph : Fin 64
  pcmax : Fin 64

/-- `type_bsr_t`: none, short or long; truncated or not. -/
inductive UeBsr
  | none
  | short (trunc : Bool) (lcgId : Fin 8) (bufferSize : Fin 32)
  | long (trunc : Bool) (lcgBsr : Nat → UInt8)

/-- `NR_MAX_NUM_LCGID`: the entries of `LCG_bytes`, and the group of a channel without one. -/
def nrMaxNumLcgid : Nat := 8

/-! ## Buffer status -/

/-- `nr_update_bsr`: the bytes waiting in each LCG, and whether a regular BSR is triggered. -/
def nrUpdateBsr (mac : UeMac) : List LcOrderedInfo → (Nat → UInt32) × Bool → (Nat → UInt32) × Bool
  | [], st => st
  | lc :: lcs, (lcgBytes, regular) =>
    let info := mac.lcSchedInfo lc.lcid
    if (info.lcgid : Nat) ≠ nrMaxNumLcgid then
      nrUpdateBsr mac lcs
        (Function.update lcgBytes info.lcgid
          (lcgBytes info.lcgid + UInt32.ofNat info.lcidBufferRemain), true)
    else nrUpdateBsr mac lcs (lcgBytes, regular)

/-- The search of `nr_locate_BsrIndexByBufferSize`. -/
def bsrSearch (table : List Nat) (value : Nat) (ascend : Bool) : Nat → Nat → Nat → Nat
  | 0, jl, _ => jl
  | fuel + 1, jl, ju =>
    if ju - jl > 1 then
      let jm := (ju + jl) / 2
      if decide (value ≥ (table[jm]?).getD 0) = ascend then bsrSearch table value ascend fuel jm ju
      else bsrSearch table value ascend fuel jl jm
    else jl

/-- `nr_locate_BsrIndexByBufferSize` -/
def nrLocateBsrIndexByBufferSize (table : List Nat) (value : Nat) : UInt8 :=
  if value = 0 then 0
  else
    let ju := table.length - 1
    let ascend := decide ((table[ju]?).getD 0 ≥ (table[0]?).getD 0)
    let jl := bsrSearch table value ascend table.length 0 ju
    UInt8.ofNat (if value = (table[jl]?).getD 0 then jl else jl + 1)

/-- The power headroom and `Pcmax`, as they are coded. -/
def nrUeFillPhr (pCmax txPower : Int) : PhrCe where
  pcmax := Fin.ofNat 64 (max 0 (pCmax + 29)).toNat
  ph :=
    let headroom := pCmax - txPower
    Fin.ofNat 64
      (if headroom < 22 then max 0 (headroom + 32) else min 0x3f (55 + (headroom - 22) / 2)).toNat

/-! ## MAC CEs -/

/-- `UL_SCH_LCID_..` as a number. -/
def UlLcid.code : UlLcid → Nat
  | .ccch64Bits => 0x00
  | .srb1 => 0x01
  | .srb2 => 0x02
  | .dtch lcid => lcid
  | .ccch48Bits => 0x34
  | .recommendedBitrateQuery => 0x35
  | .multiEntryPhr4Oct => 0x36
  | .configuredGrantConfirmation => 0x37
  | .multiEntryPhr1Oct => 0x38
  | .singleEntryPhr => 0x39
  | .cRnti => 0x3A
  | .sTruncatedBsr => 0x3B
  | .lTruncatedBsr => 0x3C
  | .sBsr => 0x3D
  | .lBsr => 0x3E
  | .padding => 0x3F
  | .unhandled lcid => lcid

/-- The CE, with its subheader. -/
def PhrCe.ce (phr : PhrCe) : List UInt8 :=
  [subheaderFixed UlLcid.singleEntryPhr.code, UInt8.ofNat (bits 6 0 phr.ph),
    UInt8.ofNat (bits 6 0 phr.pcmax)]

/-- The LCGs of a long BSR: those with data, as long as there is room. -/
def longBsrEntries (lcgBsr : Nat → UInt8) : List Nat → Nat → List (Nat × UInt8)
  | [], _ => []
  | n :: ns, room =>
    if lcgBsr n ≠ 0 ∧ 0 < room then (n, lcgBsr n) :: longBsrEntries lcgBsr ns (room - 1)
    else longBsrEntries lcgBsr ns room

/-- `NR_BSR_LONG` -/
def bsrBitmap (entries : List (Nat × UInt8)) : Nat := entries.foldr (fun e acc => 2 ^ e.1 ||| acc) 0

/-- A long BSR, with its subheader. -/
def longBsrCe (trunc : Bool) (entries : List (Nat × UInt8)) : List UInt8 :=
  subheaderShort (if trunc then UlLcid.lTruncatedBsr else .lBsr).code (1 + entries.length) ++
    (UInt8.ofNat (bsrBitmap entries) :: entries.map Prod.snd)

/-- The BSR of `nr_write_ce_ulsch_pdu`; `room` is what is left up to the end of the PDU. -/
def UeBsr.ce (room : Nat) : UeBsr → List UInt8
  | .none => []
  | .short trunc lcgId bufferSize =>
    [subheaderFixed (if trunc then UlLcid.sTruncatedBsr else .sBsr).code,
      UInt8.ofNat (bits 5 0 bufferSize + bits 3 5 lcgId)]
  | .long trunc lcgBsr => longBsrCe trunc (longBsrEntries lcgBsr (List.range 8) (room - 3))

/-- `power_headroom` may be `NULL`. -/
def phrCe : Option PhrCe → List UInt8
  | some phr => phr.ce
  | none => []

/-- `nr_write_ce_ulsch_pdu`, with `room` bytes for the BSR -/
def nrWriteCeUlschPdu (phr : Option PhrCe) (bsr : UeBsr) (room : Nat) : List UInt8 :=
  phrCe phr ++ bsr.ce room

/-! ## Logical channel prioritization -/

variable {ρ : Type}

/-- The PDU up to `cur_ptr` with the RLC PDUs in it, RLC, what is left in the buffers, and the variables
of the rounds. -/
structure LcpState (ρ : Type) where
  out : List UInt8
  taken : List (Nat × List UInt8)
  rlc : ρ
  bufferRemain : Nat → Nat
  lcgBytes : Nat → UInt32
  lcidsDataStatus : Nat → Bool
  lcpAllocationCounter : Nat
  lcidsBytesTot : Nat → Nat
  numLcidsSamePriority : Nat
  countSamePriorityLcids : Nat
  buflenEp : Nat

/-- Why the multiplexing does not end: an assertion, an access behind `LCG_bytes`, or more rounds than
the fuel. -/
inductive LcpStop
  | assertFatal
  | outOfBounds
  | outOfFuel
  deriving DecidableEq, Repr

/-- `get_num_bytes_to_reqlc`: `num_bytes_requested` and `num_remaining_bytes`. -/
def requestedAndRemaining (target pbr lcidRemainBuffer bytesRead samePriorityCount buflenRemainEp
    buflenRemain roundId : Nat) : Int × Int :=
  -- `round_id` has eight bits
  if roundId % 256 = 0 then
    let pduRemain := if samePriorityCount > 1 then buflenRemainEp else buflenRemain
    let requested := if pduRemain < pbr then min pduRemain lcidRemainBuffer
      else min pbr lcidRemainBuffer
    let remaining := (target : Int) - bytesRead
    (min (requested : Int) remaining, remaining)
  else if samePriorityCount > 1 then
    -- without a sign, in 32 bits
    let remaining := (buflenRemainEp + (2 ^ 32 - bytesRead)) % 2 ^ 32
    ((min (min buflenRemainEp lcidRemainBuffer) remaining : Nat), (remaining : Nat))
  else ((min buflenRemain lcidRemainBuffer : Nat), 0)

/-- `get_num_bytes_to_reqlc`: `target` -/
def lcTarget (samePriorityCount buflenRemainEp pbr : Nat) : Nat :=
  if samePriorityCount > 1 then min buflenRemainEp pbr else pbr

/-- `get_num_bytes_to_reqlc`: the bytes requested and `target`. -/
def getNumBytesToReqlc (pbr lcidRemainBuffer bytesRead samePriorityCount buflenRemainEp buflenRemain
    roundId : Nat) : Except LcpStop (Nat × Nat) :=
  let target := lcTarget samePriorityCount buflenRemainEp pbr
  let r := requestedAndRemaining target pbr lcidRemainBuffer bytesRead samePriorityCount
    buflenRemainEp buflenRemain roundId
  if 0 ≤ r.2 ∧ r.1 ≤ buflenRemain then .ok (r.1.toNat, target) else .error .assertFatal

/-- `lcids_bytes_tot` with one SDU more; equal priorities count their subheaders. -/
def addBytesTot (tot sduLength countSamePriorityLcids : Nat) : Nat :=
  (tot + sduLength + (if countSamePriorityLcids > 1 then 3 else 0)) % 2 ^ 32

/-- `fill_mac_sdu` after `mac_rlc_data_req`. -/
def takeMacSdu (mac : UeMac) (lcid bytesRequested target : Nat) (st : LcpState ρ)
    (req : List UInt8 × ρ) : Except LcpStop (Bool × LcpState ρ) :=
  let st := { st with rlc := req.2 }
  let sduLength := req.1.length
  if bytesRequested < sduLength then .error .assertFatal
  else if sduLength > 0 then
    -- `LCG_bytes[sched_info->LCGID] -= sdu_length`, for a channel without a group too
    if nrMaxNumLcgid ≤ (mac.lcSchedInfo lcid).lcgid then .error .outOfBounds
    else
    let header := if bytesRequested < 256 then subheaderShort lcid sduLength
      else subheaderLong lcid sduLength
    let lcgid : Nat := (mac.lcSchedInfo lcid).lcgid
    let tot := addBytesTot (st.lcidsBytesTot lcid) sduLength st.countSamePriorityLcids
    let st := { st with
      out := st.out ++ (header ++ req.1)
      taken := st.taken ++ [(lcid, req.1)]
      bufferRemain := Function.update st.bufferRemain lcid (st.bufferRemain lcid - sduLength)
      lcgBytes := Function.update st.lcgBytes lcgid (st.lcgBytes lcgid - UInt32.ofNat sduLength)
      lcidsBytesTot := Function.update st.lcidsBytesTot lcid tot }
    if (st.lcpAllocationCounter = 0 ∧ tot ≥ target) ∨
        (st.countSamePriorityLcids > 1 ∧ tot ≥ st.buflenEp) then
      .ok (false, { st with numLcidsSamePriority := st.numLcidsSamePriority - 1 })
    else .ok (true, st)
  else
    .ok (false, { st with
      lcidsDataStatus := Function.update st.lcidsDataStatus lcid false
      numLcidsSamePriority := st.numLcidsSamePriority - 1 })

/-- `fill_mac_sdu`: whether to go on with this channel. -/
def fillMacSdu (src : RlcSource ρ) (mac : UeMac) (endForTailer : Nat) (lc : LcOrderedInfo)
    (st : LcpState ρ) : Except LcpStop (Bool × LcpState ρ) :=
  let usable := endForTailer - st.out.length
  if usable < 3 then .ok (false, st)
  else
    (getNumBytesToReqlc lc.pbr (st.bufferRemain lc.lcid) (st.lcidsBytesTot lc.lcid)
        st.countSamePriorityLcids st.buflenEp (usable - if usable < 256 then 2 else 3)
        st.lcpAllocationCounter).bind fun r =>
      takeMacSdu mac lc.lcid r.1 r.2 st (src.dataReq st.rlc lc.lcid r.1)

/-- A channel is served until it is empty, has had its share, or nothing is left. -/
def serveChannel (src : RlcSource ρ) (mac : UeMac) (endForTailer : Nat) (lc : LcOrderedInfo) :
    Nat → LcpState ρ → Except LcpStop (LcpState ρ)
  | 0, _ => .error .outOfFuel
  | fuel + 1, st =>
    if endForTailer - st.out.length > 0 then
      match fillMacSdu src mac endForTailer lc st with
      | .error e => .error e
      | .ok (false, st) => .ok st
      | .ok (true, st) => serveChannel src mac endForTailer lc fuel st
    else .ok st

/-- `get_count_lcids_same_priority` from `lc` on -/
def getCountLcidsSamePriority (lc : LcOrderedInfo) (lcs : List LcOrderedInfo) : Nat :=
  ((lc :: lcs).filter fun x => x.priority = lc.priority).length

/-- The share of each channel of one priority, in `size_t`, stored in 32 bits. -/
def equalShare (remain count : Nat) : Nat :=
  (remain + (2 ^ 64 - count * 3 % 2 ^ 64)) % 2 ^ 64 / count % 2 ^ 32

/-- What is set before a channel is served: how many have its priority, and their share. -/
def LcpState.enter (st : LcpState ρ) (endForTailer : Nat) (lc : LcOrderedInfo)
    (lcs : List LcOrderedInfo) : LcpState ρ :=
  let count := getCountLcidsSamePriority lc lcs
  let st := if st.numLcidsSamePriority = 0 then
    { st with numLcidsSamePriority := count, countSamePriorityLcids := count } else st
  if st.numLcidsSamePriority = st.countSamePriorityLcids then
    { st with buflenEp := equalShare (endForTailer - st.out.length) st.countSamePriorityLcids }
  else st

/-- One round over the channels. -/
def lcpRound (src : RlcSource ρ) (mac : UeMac) (endForTailer fuel : Nat) :
    List LcOrderedInfo → LcpState ρ → Except LcpStop (LcpState ρ)
  | [], st => .ok st
  | lc :: lcs, st =>
    if st.lcidsDataStatus lc.lcid then
      (serveChannel src mac endForTailer lc fuel (st.enter endForTailer lc lcs)).bind
        (lcpRound src mac endForTailer fuel lcs)
    else lcpRound src mac endForTailer fuel lcs st

/-- The variables declared inside the loop. -/
def LcpState.newRound (st : LcpState ρ) : LcpState ρ :=
  { st with lcidsBytesTot := fun _ => 0, numLcidsSamePriority := 0, countSamePriorityLcids := 0 }

/-- The rounds: `do { .. } while (..)`. -/
def lcpRounds (src : RlcSource ρ) (mac : UeMac) (endForTailer : Nat) (lcs : List LcOrderedInfo) :
    Nat → LcpState ρ → Except LcpStop (LcpState ρ)
  | 0, _ => .error .outOfFuel
  | fuel + 1, st =>
    (lcpRound src mac endForTailer (fuel + 1) lcs st.newRound).bind fun st =>
      let st := { st with lcpAllocationCounter := st.lcpAllocationCounter + 1 }
      -- `get_dataavailability_buffers`
      if endForTailer - st.out.length > 3 ∧ lcs.any fun lc => st.lcidsDataStatus lc.lcid then
        lcpRounds src mac endForTailer lcs fuel st
      else .ok st

/-- `select_logical_channels`: those with `Bj > 0`. -/
def selectLogicalChannels (mac : UeMac) : List LcOrderedInfo :=
  mac.lcOrderedList.filter fun lc => (mac.lcSchedInfo lc.lcid).bj > 0

/-! ## `nr_ue_get_sdu` -/

/-- `nr_ue_get_sdu_mac_ce_pre`: the length of the BSR that is planned. -/
def plannedBsrLen (mac : UeMac) (lcgBytes : Nat → UInt32) (regular : Bool) (buflen : Nat) : Nat :=
  if regular || mac.bsrPeriodic then
    let n := ((List.range nrMaxNumLcgid).filter fun i => lcgBytes i ≠ 0).length
    if n > 1 ∧ buflen ≥ n + 1 + 2 then n + 1 + 2
    else if (n > 0 ∧ buflen ≥ 2) ∨ mac.bsrPeriodic then 2
    else 0
  else 0

/-- `nr_ue_get_sdu_mac_ce_pre`: the length of the PHR. -/
def plannedPhrLen (mac : UeMac) (buflen bsrLen : Nat) : Nat :=
  if mac.phrIsConfigured ∧ mac.phrReporting > 0 ∧ buflen ≥ bsrLen + 3 then 3 else 0

/-- The LCG of the first channel that still has data. -/
def lcgIdBsrMax (mac : UeMac) (bufferRemain : Nat → Nat) : Nat :=
  match mac.lcOrderedList.find? fun lc => bufferRemain lc.lcid ≠ 0 with
  | some lc => (mac.lcSchedInfo lc.lcid).lcgid
  | none => 0

/-- `nr_ue_get_sdu_mac_ce_post`: the BSR, for `paddingLen` bytes, given what the reads of `LCG_bytes` yield.
`num_lcg_id_with_data` is 8: what is compared with 0 in that loop is the ARRAY `LCG_bytes`. -/
def chooseBsr (mac : UeMac) (bufferRemain : Nat → Nat) (lcgBytes : Nat → UInt32) (paddingLen : Nat) :
    UeBsr :=
  let lcg := lcgIdBsrMax mac bufferRemain
  let level := nrLocateBsrIndexByBufferSize nrShortBsrTable (lcgBytes lcg).toNat
  let short := fun trunc => UeBsr.short trunc (Fin.ofNat 8 lcg) (Fin.ofNat 32 level.toNat)
  let levels := fun i => nrLocateBsrIndexByBufferSize nrLongBsrTable (lcgBytes i).toNat
  let numLcgIdWithData := nrMaxNumLcgid
  if numLcgIdWithData < 2 ∧ paddingLen ≥ 2 then short false
  else if paddingLen ≥ numLcgIdWithData + 1 + 2 then .long false levels
  else if paddingLen = 2 then short true
  else if paddingLen ≥ 1 + 2 then .long true levels
  else .none

/-- `nr_ue_get_sdu_mac_ce_post`: a short BSR reads `LCG_bytes` at the group of the first channel with data,
which may have none. -/
def nrUeGetSduMacCePost (mac : UeMac) (bufferRemain : Nat → Nat) (lcgBytes : Nat → UInt32)
    (paddingLen : Nat) : Except LcpStop UeBsr :=
  match chooseBsr mac bufferRemain lcgBytes paddingLen with
  | .short trunc lcgId bufferSize =>
    if nrMaxNumLcgid ≤ lcgIdBsrMax mac bufferRemain then .error .outOfBounds
    else .ok (.short trunc lcgId bufferSize)
  | bsr => .ok bsr

/-- Its bytes; the RLC PDUs, the PHR and the BSR in it; the bytes left for the BSR, and where the
padding begins. -/
structure UlTransportBlock where
  bytes : List UInt8
  taken : List (Nat × List UInt8)
  phr : Option PhrCe
  bsr : UeBsr
  bsrRoom : Nat
  written : Nat

/-- The padding subheader, and zeros or (phy-test) random bytes. -/
def ulPadding (phyTest : Bool) (random : Nat → UInt8) (remain : Nat) : List UInt8 :=
  if remain ≠ 0 then
    subheaderFixed UlLcid.padding.code ::
      if phyTest then slice random 0 (remain - 1) else List.replicate (remain - 1) 0
  else []

/-- The end of `nr_ue_get_sdu`, behind the SDUs. -/
def finishPdu (mac : UeMac) (buflen phrLen : Nat) (pCmax txPower : Int) (phyTest : Bool)
    (random : Nat → UInt8) (st : LcpState ρ) : Except LcpStop UlTransportBlock :=
  let phr := if phrLen = 0 then none else some (nrUeFillPhr pCmax txPower)
  let room := buflen - st.out.length - phrLen
  (nrUeGetSduMacCePost mac st.bufferRemain st.lcgBytes room).map fun bsr =>
    let out := st.out ++ nrWriteCeUlschPdu phr bsr room
    ⟨out ++ ulPadding phyTest random (buflen - out.length), st.taken, phr, bsr, room, out.length⟩

/-- `nr_ue_get_sdu` -/
def nrUeGetSdu (src : RlcSource ρ) (mac : UeMac) (buflen : Nat) (pCmax txPower : Int)
    (phyTest : Bool) (random : Nat → UInt8) (rlc : ρ) : Except LcpStop UlTransportBlock :=
  let bsr := nrUpdateBsr mac mac.lcOrderedList (fun _ => 0, mac.bsrRegular)
  let bsrLen := plannedBsrLen mac bsr.1 bsr.2 buflen
  let phrLen := plannedPhrLen mac buflen bsrLen
  let lcs := selectLogicalChannels mac
  (lcpRounds src mac (buflen - bsrLen - phrLen) lcs (buflen + lcs.length + 1)
    { out := [], taken := [], rlc, bufferRemain := fun i => (mac.lcSchedInfo i).lcidBufferRemain
      lcgBytes := bsr.1, lcidsDataStatus := fun _ => true, lcpAllocationCounter := 0
      lcidsBytesTot := fun _ => 0, numLcidsSamePriority := 0, countSamePriorityLcids := 0
      buflenEp := 0 }).bind (finishPdu mac buflen phrLen pCmax txPower phyTest random)

/-! ## What one call of `fill_mac_sdu` does -/

/-- The subheader of an SDU: of two bytes or of three. -/
inductive SduHeader (lcid : Nat) (pdu : List UInt8) : List UInt8 → Prop
  | short (h : pdu.length < 256) : SduHeader lcid pdu (subheaderShort lcid pdu.length)
  | long (h : pdu.length < 2 ^ 16) : SduHeader lcid pdu (subheaderLong lcid pdu.length)

/-- All that `fill_mac_sdu` can do: no room, no data, or one SDU more. -/
inductive Filled (endForTailer lcid : Nat) (st : LcpState ρ) : Bool → LcpState ρ → Prop
  | full (hfull : endForTailer - st.out.length < 3) : Filled endForTailer lcid st false st
  | empty {st' : LcpState ρ} (hout : st'.out = st.out) (htaken : st'.taken = st.taken)
      (hstatus : st'.lcidsDataStatus = Function.update st.lcidsDataStatus lcid false) :
      Filled endForTailer lcid st false st'
  | wrote {go : Bool} {st' : LcpState ρ} {header pdu : List UInt8}
      (hheader : SduHeader lcid pdu header) (hne : pdu ≠ [])
      (hout : st'.out = st.out ++ (header ++ pdu)) (htaken : st'.taken = st.taken ++ [(lcid, pdu)])
      (hstatus : st'.lcidsDataStatus = st.lcidsDataStatus)
      (hfits : st'.out.length ≤ endForTailer) : Filled endForTailer lcid st go st'

variable {pbr remain read count ep buflen round : Nat}

lemma getNumBytesToReqlc_error {e : LcpStop}
    (h : getNumBytesToReqlc pbr remain read count ep buflen round = .error e) :
    e ≠ .outOfFuel := by
  rw [getNumBytesToReqlc] at h
  split at h
  · cases h
  · cases h
    nofun

lemma getNumBytesToReqlc_le {r : Nat × Nat}
    (h : getNumBytesToReqlc pbr remain read count ep buflen round = .ok r) : r.1 ≤ buflen := by
  rw [getNumBytesToReqlc] at h
  split at h
  · next hassert =>
    cases h
    exact Int.toNat_le.mpr hassert.2
  · cases h

lemma sduHeader_fits (lcid : Nat) {usable requested : Nat} {pdu : List UInt8}
    (husable : 3 ≤ usable) (hrequested : requested ≤ usable - if usable < 256 then 2 else 3)
    (hpdu : pdu.length ≤ requested) (hshort : pdu.length < 2 ^ 16) :
    ∃ header, (if requested < 256 then subheaderShort lcid pdu.length
        else subheaderLong lcid pdu.length) = header ∧ SduHeader lcid pdu header ∧
      (header ++ pdu).length ≤ usable := by
  have hroom : requested + 2 ≤ usable ∧ (256 ≤ requested → requested + 3 ≤ usable) := by
    split at hrequested <;> omega
  by_cases hsmall : requested < 256
  · refine ⟨_, if_pos hsmall, .short (by omega), ?_⟩
    rw [length_append, show (subheaderShort lcid pdu.length).length = 2 from rfl]
    omega
  · refine ⟨_, if_neg hsmall, .long hshort, ?_⟩
    rw [length_append, show (subheaderLong lcid pdu.length).length = 3 from rfl]
    omega

variable {fuel : Nat}

/-- What comes of a call: it stops, or the PDU is filled. -/
def FillOutcome (endForTailer lcid : Nat) (st : LcpState ρ) :
    Except LcpStop (Bool × LcpState ρ) → Prop
  | .error e => e ≠ .outOfFuel
  | .ok (go, st') => Filled endForTailer lcid st go st'

lemma takeMacSdu_outcome {lcid requested target : Nat} {req : List UInt8 × ρ}
    (husable : 3 ≤ endForTailer - st.out.length)
    (hrequested : requested ≤ endForTailer - st.out.length -
      if endForTailer - st.out.length < 256 then 2 else 3) (hshort : req.1.length < 2 ^ 16) :
    FillOutcome endForTailer lcid st (takeMacSdu mac lcid requested target st req) := by
  rw [takeMacSdu]
  dsimp only
  by_cases hassert : requested < req.1.length
  · rw [if_pos hassert]
    nofun
  rw [if_neg hassert]
  by_cases hdata : req.1.length > 0
  · rw [if_pos hdata]
    by_cases hgroup : nrMaxNumLcgid ≤ (mac.lcSchedInfo lcid).lcgid
    · rw [if_pos hgroup]
      nofun
    obtain ⟨header, heq, hheader, hfits⟩ :=
      sduHeader_fits lcid husable hrequested (Nat.le_of_not_lt hassert) hshort
    have hlen : (st.out ++ (header ++ req.1)).length ≤ endForTailer := by
      rw [length_append]
      omega
    have hne : req.1 ≠ [] := length_pos_iff.mp hdata
    rw [if_neg hgroup, heq]
    split
    · exact .wrote hheader hne rfl rfl rfl hlen
    · exact .wrote hheader hne rfl rfl rfl hlen
  · rw [if_neg hdata]
    exact .empty rfl rfl rfl

lemma fillMacSdu_outcome (src : RlcSource ρ) (mac : UeMac) (endForTailer : Nat)
    (lc : LcOrderedInfo) (st : LcpState ρ) :
    FillOutcome endForTailer lc.lcid st (fillMacSdu src mac endForTailer lc st) := by
  rw [fillMacSdu]
  by_cases hfull : endForTailer - st.out.length < 3
  · rw [if_pos hfull]
    exact .full hfull
  · rw [if_neg hfull]
    generalize hreq : getNumBytesToReqlc _ _ _ _ _ _ _ = r
    cases r with
    | error e => exact getNumBytesToReqlc_error hreq
    | ok r =>
      exact takeMacSdu_outcome (Nat.le_of_not_lt hfull) (getNumBytesToReqlc_le hreq)
        (src.short _ _ _)

lemma fillMacSdu_filled (h : fillMacSdu src mac endForTailer lc st = .ok (go, st')) :
    Filled endForTailer lc.lcid st go st' := by
  have hout := fillMacSdu_outcome src mac endForTailer lc st
  rw [h] at hout
  exact hout

/-- One sub-PDU after the other, each with data. -/
inductive SduRow : List UInt8 → List (Nat × List UInt8) → Prop
  | nil : SduRow [] []
  | snoc {out header pdu : List UInt8} {taken : List (Nat × List UInt8)} {lcid : Nat}
      (row : SduRow out taken) (hheader : SduHeader lcid pdu header) (hne : pdu ≠ []) :
      SduRow (out ++ (header ++ pdu)) (taken ++ [(lcid, pdu)])

/-- The PDU so far is a row of SDUs of the channels `lcs`, and it ends before the tailer. -/
structure LcpInv (endForTailer : Nat) (lcs : List LcOrderedInfo) (st : LcpState ρ) : Prop where
  row : SduRow st.out st.taken
  fits : st.out.length ≤ endForTailer
  served : ∀ sdu ∈ st.taken, ∃ lc ∈ lcs, lc.lcid = sdu.1

section Enter

variable (st : LcpState ρ) (endForTailer : Nat) (lc : LcOrderedInfo) (lcs : List LcOrderedInfo)

@[simp] lemma enter_out : (st.enter endForTailer lc lcs).out = st.out := by
  rw [LcpState.enter]
  split <;> split <;> rfl

@[simp] lemma enter_taken : (st.enter endForTailer lc lcs).taken = st.taken := by
  rw [LcpState.enter]
  split <;> split <;> rfl

@[simp] lemma enter_status :
    (st.enter endForTailer lc lcs).lcidsDataStatus = st.lcidsDataStatus := by
  rw [LcpState.enter]
  split <;> split <;> rfl

end Enter

variable {src : RlcSource ρ} {mac : UeMac} {endForTailer : Nat} {lcs : List LcOrderedInfo}
  {lc : LcOrderedInfo} {st st' : LcpState ρ} {go : Bool}

lemma LcpInv.filled (hinv : LcpInv endForTailer lcs st) (hlc : lc ∈ lcs)
    (h : Filled endForTailer lc.lcid st go st') : LcpInv endForTailer lcs st' := by
  cases h with
  | full => exact hinv
  | empty hout htaken _ =>
    exact ⟨by rw [hout, htaken]; exact hinv.row, by rw [hout]; exact hinv.fits,
      by rw [htaken]; exact hinv.served⟩
  | wrote hheader hne hout htaken _ hfits =>
    refine ⟨by rw [hout, htaken]; exact hinv.row.snoc hheader hne, hfits, fun sdu hsdu => ?_⟩
    rw [htaken, mem_append, mem_singleton] at hsdu
    rcases hsdu with hold | rfl
    · exact hinv.served sdu hold
    · exact ⟨lc, hlc, rfl⟩

/-! ## The loops end -/

/-- What a run has left to do: the bytes up to the tailer and the channels with data. -/
def LcpState.left (endForTailer : Nat) (lcs : List LcOrderedInfo) (st : LcpState ρ) : Nat :=
  endForTailer - st.out.length + lcs.countP fun lc => st.lcidsDataStatus lc.lcid

/-- The PDU only grows, and a channel found empty stays so. -/
structure Later (st st' : LcpState ρ) : Prop where
  grew : st.out.length ≤ st'.out.length
  status : ∀ i, st'.lcidsDataStatus i = true → st.lcidsDataStatus i = true

lemma Later.refl (st : LcpState ρ) : Later st st := ⟨Nat.le_refl _, fun _ h => h⟩

lemma Later.trans {st₁ : LcpState ρ} (h : Later st st₁) (h' : Later st₁ st') : Later st st' :=
  ⟨h.grew.trans h'.grew, fun i hi => h.status i (h'.status i hi)⟩

lemma Filled.later {lcid : Nat} (h : Filled endForTailer lcid st go st') : Later st st' := by
  cases h with
  | full => exact .refl st
  | empty hout _ hstatus =>
    refine ⟨by rw [hout], fun i hi => ?_⟩
    rw [hstatus, Function.update_apply] at hi
    split at hi
    · cases hi
    · exact hi
  | wrote _ _ hout _ hstatus _ =>
    refine ⟨by rw [hout, length_append]; exact Nat.le_add_right _ _, fun i hi => ?_⟩
    rwa [hstatus] at hi

lemma serveChannel_kept (hlc : lc ∈ lcs) : ∀ {fuel : Nat} {st : LcpState ρ},
    serveChannel src mac endForTailer lc fuel st = .ok st' →
    Later st st' ∧ (LcpInv endForTailer lcs st → LcpInv endForTailer lcs st') := by
  intro fuel
  induction fuel with
  | zero => exact nofun
  | succ fuel ih =>
    intro st h
    rw [serveChannel] at h
    split at h
    · split at h
      · cases h
      · next heq =>
        cases h
        have hfill := fillMacSdu_filled heq
        exact ⟨hfill.later, fun hinv => hinv.filled hlc hfill⟩
      · next heq =>
        have hfill := fillMacSdu_filled heq
        exact ⟨hfill.later.trans (ih h).1, fun hinv => (ih h).2 (hinv.filled hlc hfill)⟩
    · cases h
      exact ⟨.refl _, id⟩

lemma lcpRound_kept : ∀ {todo : List LcOrderedInfo} {st : LcpState ρ}, (∀ lc ∈ todo, lc ∈ lcs) →
    lcpRound src mac endForTailer fuel todo st = .ok st' →
    Later st st' ∧ (LcpInv endForTailer lcs st → LcpInv endForTailer lcs st') := by
  intro todo
  induction todo with
  | nil =>
    intro st _ h
    cases h
    exact ⟨.refl _, id⟩
  | cons lc todo ih =>
    intro st hsub h
    have htodo := fun x hx => hsub x (mem_cons_of_mem lc hx)
    rw [lcpRound] at h
    split at h
    · cases hserve : serveChannel src mac endForTailer lc fuel (st.enter endForTailer lc todo) with
      | error e =>
        rw [hserve] at h
        cases h
      | ok st₁ =>
        rw [hserve] at h
        obtain ⟨hlater, hkeep⟩ := serveChannel_kept (hsub lc mem_cons_self) hserve
        obtain ⟨hgrew, hstatus⟩ := hlater.trans (ih htodo h).1
        rw [enter_out] at hgrew
        rw [enter_status] at hstatus
        refine ⟨⟨hgrew, hstatus⟩, fun hinv => (ih htodo h).2 (hkeep ⟨?_, ?_, ?_⟩)⟩
        · simpa using hinv.row
        · simpa using hinv.fits
        · simpa using hinv.served
    · exact ih htodo h

theorem lcpRounds_inv : ∀ {fuel : Nat} {st : LcpState ρ}, LcpInv endForTailer lcs st →
    lcpRounds src mac endForTailer lcs fuel st = .ok st' → LcpInv endForTailer lcs st' := by
  intro fuel
  induction fuel with
  | zero => exact nofun
  | succ fuel ih =>
    intro st hinv h
    rw [lcpRounds] at h
    cases hround : lcpRound src mac endForTailer (fuel + 1) lcs st.newRound with
    | error e =>
      rw [hround] at h
      cases h
    | ok st₁ =>
      rw [hround, Except.bind] at h
      have hinv₁ := (lcpRound_kept (fun _ hx => hx) hround).2 { hinv with }
      dsimp only at h
      split at h
      · refine ih ?_ h
        exact { hinv₁ with }
      · cases h
        exact { hinv₁ with }

end NrStack.Mac
