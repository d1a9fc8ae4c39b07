/-
  An uplink grant is filled exactly.

  * `get_num_bytes_to_reqlc` asserts that a channel has not read more than its target and that the
    request fits.  Both hold while one channel has the priority that is served, and for channels of one
    priority as long as three bytes are left for each when their group is entered (`InTurn.request_ok`).
  * With less, the unsigned share `buflen_ep` WRAPS, and the assertion ends the process unless what
    the channel asks for is small anyway (`nrUeGetSdu_equal_priorities`).
  * `nrUeGetSdu_fits_iff`: the grant is filled exactly if and only if every call under such a share asks for
    no more than is left, and every channel served has a group.
  * `BsrProper`: the BSR that is called for.  The code counts all eight LCGs; `bsr_proper_iff` says when
    the choice is right all the same.
-/
import NrStack.Mac.UlRoundTrip

namespace NrStack.Mac

open List

variable {ρ : Type} {src : RlcSource ρ} {mac : UeMac} {endForTailer : Nat}
  {lc : LcOrderedInfo} {todo : List LcOrderedInfo} {st st' : LcpState ρ}

/-! ## The calls of a run -/

/-- The calls of `fill_mac_sdu` for one channel: the state before each, up to the one that stops. -/
def serveCalls (src : RlcSource ρ) (mac : UeMac) (endForTailer : Nat) (lc : LcOrderedInfo) :
    Nat → LcpState ρ → List (LcOrderedInfo × LcpState ρ)
  | 0, _ => []
  | fuel + 1, st =>
    if endForTailer - st.out.length > 0 then
      (lc, st) :: match fillMacSdu src mac endForTailer lc st with
        | .ok (true, st) => serveCalls src mac endForTailer lc fuel st
        | _ => []
    else []

/-- The calls of one round. -/
def roundCalls (src : RlcSource ρ) (mac : UeMac) (endForTailer fuel : Nat) :
    List LcOrderedInfo → LcpState ρ → List (LcOrderedInfo × LcpState ρ)
  | [], _ => []
  | lc :: lcs, st =>
    if st.lcidsDataStatus lc.lcid then
      serveCalls src mac endForTailer lc fuel (st.enter endForTailer lc lcs) ++
        match serveChannel src mac endForTailer lc fuel (st.enter endForTailer lc lcs) with
        | .ok st => roundCalls src mac endForTailer fuel lcs st
        | .error _ => []
    else roundCalls src mac endForTailer fuel lcs st

/-- The calls of all rounds. -/
def roundsCalls (src : RlcSource ρ) (mac : UeMac) (endForTailer : Nat) (lcs : List LcOrderedInfo) :
    Nat → LcpState ρ → List (LcOrderedInfo × LcpState ρ)
  | 0, _ => []
  | fuel + 1, st =>
    roundCalls src mac endForTailer (fuel + 1) lcs st.newRound ++
      match lcpRound src mac endForTailer (fuel + 1) lcs st.newRound with
      | .ok st =>
        if endForTailer - st.out.length > 3 ∧ lcs.any fun lc => st.lcidsDataStatus lc.lcid then
          roundsCalls src mac endForTailer lcs fuel
            { st with lcpAllocationCounter := st.lcpAllocationCounter + 1 }
        else []
      | .error _ => []

/-! ## The condition on a call -/

/-- `buflen_remain`: the bytes left for an SDU, behind its subheader. -/
def LcpState.buflenRemain (endForTailer : Nat) (st : LcpState ρ) : Nat :=
  endForTailer - st.out.length - if endForTailer - st.out.length < 256 then 2 else 3

/-- What the call asks RLC for, and what its target leaves. -/
def LcpState.request (endForTailer : Nat) (lc : LcOrderedInfo) (st : LcpState ρ) : Int × Int :=
  requestedAndRemaining (lcTarget st.countSamePriorityLcids st.buflenEp lc.pbr) lc.pbr
    (st.bufferRemain lc.lcid) (st.lcidsBytesTot lc.lcid) st.countSamePriorityLcids st.buflenEp
    (st.buflenRemain endForTailer) st.lcpAllocationCounter

/-- The assertion of `get_num_bytes_to_reqlc`. -/
def LcpState.Fits (endForTailer : Nat) (lc : LcOrderedInfo) (st : LcpState ρ) : Prop :=
  0 ≤ (st.request endForTailer lc).2 ∧ (st.request endForTailer lc).1 ≤ st.buflenRemain endForTailer
deriving Decidable

/-- What is left, with what the channel has had, covers a share and a subheader for each channel of the
group that is still to be served. -/
def LcpState.FairShare (endForTailer : Nat) (lc : LcOrderedInfo) (st : LcpState ρ) : Prop :=
  st.numLcidsSamePriority * (st.buflenEp + 3) ≤ endForTailer - st.out.length + st.lcidsBytesTot lc.lcid

/-- The round id has eight bits, the round counter has not. -/
def LcpState.RoundWrapped (st : LcpState ρ) : Prop :=
  st.lcpAllocationCounter ≠ 0 ∧ st.lcpAllocationCounter % 256 = 0

/-- **The condition on a call**: among channels of one priority, a request under a share that is not
covered, or in a 256th round, fits; and a channel that gives data has a group. -/
structure CallOk (src : RlcSource ρ) (mac : UeMac) (endForTailer : Nat)
    (call : LcOrderedInfo × LcpState ρ) : Prop where
  share : 3 ≤ endForTailer - call.2.out.length → 1 < call.2.countSamePriorityLcids →
    ¬call.2.FairShare endForTailer call.1 ∨ call.2.RoundWrapped → call.2.Fits endForTailer call.1
  group : 3 ≤ endForTailer - call.2.out.length →
    (src.dataReq call.2.rlc call.1.lcid (call.2.request endForTailer call.1).1.toNat).1 ≠ [] →
    (mac.lcSchedInfo call.1.lcid).lcgid < nrMaxNumLcgid

/-- **When a group is entered**, its share is covered exactly if three bytes are left for each channel. -/
theorem fairShare_enter_iff (hnew : st.numLcidsSamePriority = 0) (hread : st.lcidsBytesTot lc.lcid = 0)
    (lcs : List LcOrderedInfo) : (st.enter endForTailer lc lcs).FairShare endForTailer lc ↔
      3 * getCountLcidsSamePriority lc lcs ≤ endForTailer - st.out.length := by
  generalize hcount : getCountLcidsSamePriority lc lcs = count
  have hfair : (st.enter endForTailer lc lcs).FairShare endForTailer lc ↔
      count * (equalShare (endForTailer - st.out.length) count + 3) ≤ endForTailer - st.out.length := by
    rw [LcpState.FairShare, LcpState.enter, hcount, if_pos hnew, if_pos rfl]
    show count * (equalShare (endForTailer - st.out.length) count + 3) ≤
      endForTailer - st.out.length + st.lcidsBytesTot lc.lcid ↔ _
    rw [hread]
    rfl
  generalize endForTailer - st.out.length = remain at hfair ⊢
  rw [hfair, Nat.mul_add, Nat.mul_comm count 3]
  refine ⟨fun h => by omega, fun h => ?_⟩
  -- the difference does not wrap, and the two remainders only make the share smaller
  have hdiff : (remain + (2 ^ 64 - count * 3 % 2 ^ 64)) % 2 ^ 64 ≤ remain - 3 * count := by omega
  have hshare : count * equalShare remain count ≤ remain - 3 * count :=
    calc count * equalShare remain count
        ≤ count * ((remain + (2 ^ 64 - count * 3 % 2 ^ 64)) % 2 ^ 64 / count) :=
          Nat.mul_le_mul_left count (Nat.mod_le _ _)
      _ ≤ (remain + (2 ^ 64 - count * 3 % 2 ^ 64)) % 2 ^ 64 := Nat.mul_div_le _ _
      _ ≤ remain - 3 * count := hdiff
  omega

/-! ## One call -/

/-- While `lc` is served: what it has read is within its bit rate, or its share; `todo` come later. -/
structure InTurn (lc : LcOrderedInfo) (todo : List LcOrderedInfo) (st : LcpState ρ) : Prop where
  num : 0 < st.numLcidsSamePriority
  count : 0 < st.countSamePriorityLcids
  ep : st.buflenEp < 2 ^ 32
  alone : st.countSamePriorityLcids = 1 → st.lcpAllocationCounter % 256 = 0 →
    st.lcidsBytesTot lc.lcid ≤ lc.pbr
  shared : 1 < st.countSamePriorityLcids → st.lcidsBytesTot lc.lcid = 0 ∨
    st.lcidsBytesTot lc.lcid < st.buflenEp ∧ (st.lcpAllocationCounter = 0 → st.lcidsBytesTot lc.lcid < lc.pbr)
  fresh : ∀ x ∈ todo, st.lcidsBytesTot x.lcid = 0

/-- Between two channels: those still to come have had nothing in this round. -/
structure Between (todo : List LcOrderedInfo) (st : LcpState ρ) : Prop where
  count : st.numLcidsSamePriority = 0 ∨ 0 < st.countSamePriorityLcids
  ep : st.buflenEp < 2 ^ 32
  fresh : ∀ x ∈ todo, st.lcidsBytesTot x.lcid = 0

lemma InTurn.between (h : InTurn lc todo st) : Between todo st := ⟨.inr h.count, h.ep, h.fresh⟩

/-- A request stays within the bit rate (one channel), or the share (several). -/
lemma InTurn.request_le (h : InTurn lc todo st) (endForTailer : Nat) :
    (st.countSamePriorityLcids = 1 → st.Fits endForTailer lc ∧ (st.lcpAllocationCounter % 256 = 0 →
      st.lcidsBytesTot lc.lcid + (st.request endForTailer lc).1.toNat ≤ lc.pbr)) ∧
    (1 < st.countSamePriorityLcids → ¬st.RoundWrapped → 0 ≤ (st.request endForTailer lc).2 ∧
      (st.request endForTailer lc).1 ≤ st.buflenEp - st.lcidsBytesTot lc.lcid) := by
  have hshare := h.ep
  unfold LcpState.Fits LcpState.request LcpState.RoundWrapped
  generalize st.buflenRemain endForTailer = room
  constructor
  · intro hone
    have hread := h.alone hone
    simp only [hone, requestedAndRemaining, lcTarget, gt_iff_lt, Nat.lt_irrefl, if_false]
    by_cases hround : st.lcpAllocationCounter % 256 = 0
    · have hle := hread hround
      simp only [if_pos hround]
      split <;> omega
    · simp only [if_neg hround]
      exact ⟨⟨Int.le_refl 0, by omega⟩, fun hzero => absurd hzero hround⟩
  · intro hmany hround
    have hread := h.shared hmany
    simp only [requestedAndRemaining, lcTarget, gt_iff_lt, if_pos hmany]
    by_cases hzero : st.lcpAllocationCounter % 256 = 0
    · simp only [if_pos hzero]
      have hfirst : st.lcpAllocationCounter = 0 := by omega
      split <;> omega
    · simp only [if_neg hzero]
      have hmod : (st.buflenEp + (2 ^ 32 - st.lcidsBytesTot lc.lcid)) % 2 ^ 32 =
          st.buflenEp - st.lcidsBytesTot lc.lcid := by omega
      rw [hmod]
      omega

lemma fillMacSdu_eq (hroom : 3 ≤ endForTailer - st.out.length) : fillMacSdu src mac endForTailer lc st =
    if st.Fits endForTailer lc then
      takeMacSdu mac lc.lcid (st.request endForTailer lc).1.toNat
        (lcTarget st.countSamePriorityLcids st.buflenEp lc.pbr) st
        (src.dataReq st.rlc lc.lcid (st.request endForTailer lc).1.toNat)
    else .error .assertFatal := by
  rw [fillMacSdu, if_neg (Nat.not_lt_of_le hroom), getNumBytesToReqlc]
  show Except.bind (if st.Fits endForTailer lc then _ else _) _ = _
  split <;> rfl

theorem InTurn.next (h : InTurn lc todo st) (hlater : ∀ x ∈ todo, x.lcid ≠ lc.lcid) {go : Bool}
    (hfill : fillMacSdu src mac endForTailer lc st = .ok (go, st')) :
    Between todo st' ∧ (go = true → InTurn lc todo st') := by
  by_cases hroom : 3 ≤ endForTailer - st.out.length
  · rw [fillMacSdu_eq hroom] at hfill
    split at hfill
    · have hfits := src.fits st.rlc lc.lcid (st.request endForTailer lc).1.toNat
      have hread := fun hone => (h.request_le endForTailer).1 hone |>.2
      generalize src.dataReq st.rlc lc.lcid (st.request endForTailer lc).1.toNat = req at hfill hfits
      have hfresh : ∀ tot : Nat, ∀ x ∈ todo,
          Function.update st.lcidsBytesTot lc.lcid tot x.lcid = 0 := by
        intro tot x hx
        rw [Function.update_of_ne (hlater x hx)]
        exact h.fresh x hx
      rw [takeMacSdu] at hfill
      dsimp only at hfill
      rw [if_neg (Nat.not_lt_of_le hfits)] at hfill
      split at hfill
      · split at hfill
        · cases hfill
        split at hfill
        · cases hfill
          exact ⟨⟨.inr h.count, h.ep, hfresh _⟩, fun hgo => absurd hgo Bool.false_ne_true⟩
        · next hmore =>
          cases hfill
          refine ⟨⟨.inr h.count, h.ep, hfresh _⟩, fun _ => ⟨h.num, h.count, h.ep, ?_, ?_, hfresh _⟩⟩
          · intro hone hround
            show Function.update st.lcidsBytesTot lc.lcid _ lc.lcid ≤ lc.pbr
            have hone : st.countSamePriorityLcids = 1 := hone
            have hle := hread hone hround
            rw [Function.update_self, addBytesTot, hone, if_neg (by decide)]
            exact (Nat.mod_le _ _).trans (by omega)
          · intro hmany
            -- the turn goes on: neither the share nor, in the first round, the target is reached
            show Function.update st.lcidsBytesTot lc.lcid _ lc.lcid = 0 ∨
              Function.update st.lcidsBytesTot lc.lcid _ lc.lcid < st.buflenEp ∧
                (st.lcpAllocationCounter = 0 → Function.update st.lcidsBytesTot lc.lcid _ lc.lcid < lc.pbr)
            have hmany : 1 < st.countSamePriorityLcids := hmany
            rw [Function.update_self]
            rw [lcTarget, if_pos hmany] at hmore
            refine .inr ⟨by omega, fun hfirst => by omega⟩
      · cases hfill
        exact ⟨⟨.inr h.count, h.ep, h.fresh⟩, fun hgo => absurd hgo Bool.false_ne_true⟩
    · cases hfill
  · rw [fillMacSdu, if_pos (Nat.lt_of_not_le hroom)] at hfill
    cases hfill
    exact ⟨h.between, fun hgo => absurd hgo Bool.false_ne_true⟩

/-! ## Every call -/

lemma Between.enter (h : Between (lc :: todo) st) (endForTailer : Nat) :
    InTurn lc todo (st.enter endForTailer lc todo) := by
  have hcount : 0 < getCountLcidsSamePriority lc todo := by
    rw [getCountLcidsSamePriority, filter_cons_of_pos (by simp)]
    exact Nat.succ_pos _
  have htot : (st.enter endForTailer lc todo).lcidsBytesTot = st.lcidsBytesTot := by
    rw [LcpState.enter]
    split <;> split <;> rfl
  have hread : (st.enter endForTailer lc todo).lcidsBytesTot lc.lcid = 0 := by
    rw [htot]
    exact h.fresh lc mem_cons_self
  have hep : ∀ remain count, equalShare remain count < 2 ^ 32 := fun _ _ => Nat.mod_lt _ (by decide)
  have hnums : 0 < (st.enter endForTailer lc todo).numLcidsSamePriority ∧
      0 < (st.enter endForTailer lc todo).countSamePriorityLcids ∧
      (st.enter endForTailer lc todo).buflenEp < 2 ^ 32 := by
    have hold := h.count
    rw [LcpState.enter]
    split
    · split
      · exact ⟨hcount, hcount, hep _ _⟩
      · exact ⟨hcount, hcount, h.ep⟩
    · next hopen =>
      have hpos := Nat.pos_of_ne_zero hopen
      split
      · exact ⟨hpos, hold.resolve_left hopen, hep _ _⟩
      · exact ⟨hpos, hold.resolve_left hopen, h.ep⟩
  refine ⟨hnums.1, hnums.2.1, hnums.2.2, fun _ _ => by omega, fun _ => .inl hread, fun x hx => ?_⟩
  rw [htot]
  exact h.fresh x (mem_cons_of_mem lc hx)

/-- `nr_ue_get_sdu_mac_ce_pre`: the bytes for SDUs, and the PHR behind them. -/
def UeMac.tailer (mac : UeMac) (buflen : Nat) : Nat × Nat :=
  let bsr := nrUpdateBsr mac mac.lcOrderedList (fun _ => 0, mac.bsrRegular)
  let bsrLen := plannedBsrLen mac bsr.1 bsr.2 buflen
  let phrLen := plannedPhrLen mac buflen bsrLen
  (buflen - bsrLen - phrLen, phrLen)

/-- The state in which the multiplexing of `nr_ue_get_sdu` starts. -/
def UeMac.start (mac : UeMac) (rlc : ρ) : LcpState ρ where
  out := []
  taken := []
  rlc := rlc
  bufferRemain i := (mac.lcSchedInfo i).lcidBufferRemain
  lcgBytes := (nrUpdateBsr mac mac.lcOrderedList (fun _ => 0, mac.bsrRegular)).1
  lcidsDataStatus _ := true
  lcpAllocationCounter := 0
  lcidsBytesTot _ := 0
  numLcidsSamePriority := 0
  countSamePriorityLcids := 0
  buflenEp := 0

/-- Its calls of `fill_mac_sdu`. -/
def UeMac.calls (mac : UeMac) (src : RlcSource ρ) (buflen : Nat) (rlc : ρ) :
    List (LcOrderedInfo × LcpState ρ) :=
  roundsCalls src mac (mac.tailer buflen).1 (selectLogicalChannels mac)
    (buflen + (selectLogicalChannels mac).length + 1) (mac.start rlc)

/-- Two channels with ten bytes each. -/
def twoChannelUe (priority priority' : Int) : UeMac where
  lcOrderedList := [⟨4, priority, 1000, by decide⟩, ⟨5, priority', 1000, by decide⟩]
  distinct := (by decide : [4, 5].Nodup)
  lcSchedInfo _ := ⟨10, 0, 1000⟩
  bsrRegular := false
  bsrPeriodic := false
  phrIsConfigured := false
  phrReporting := 0

instance (src : RlcSource ρ) (mac : UeMac) (endForTailer : Nat) (call : LcOrderedInfo × LcpState ρ) :
    Decidable (CallOk src mac endForTailer call) :=
  have : Decidable (call.2.FairShare endForTailer call.1) := inferInstanceAs (Decidable (_ ≤ _))
  have : Decidable call.2.RoundWrapped := inferInstanceAs (Decidable (_ ∧ _))
  decidable_of_iff (_ ∧ _) ⟨fun h => ⟨h.1, h.2⟩, fun h => ⟨h.share, h.group⟩⟩

/-- The LCGs that still have data. -/
def lcgsLeft (lcgBytes : Nat → UInt32) : List Nat :=
  (range nrMaxNumLcgid).filter fun i => lcgBytes i ≠ 0

/-- The BSR is a truncated one. -/
def UeBsr.Truncated : UeBsr → Prop
  | .none => False
  | .short trunc _ _ => trunc = true
  | .long trunc _ => trunc = true

/-- A short BSR for less than two LCGs, a long one with a value for each LCG if they fit, a truncated
one only if they do not. -/
structure BsrProper (lcgBytes : Nat → UInt32) (padding : Nat) (bsr : UeBsr) : Prop where
  short : (lcgsLeft lcgBytes).length < 2 → 2 ≤ padding → ∃ lcgId bufferSize, bsr = .short false lcgId bufferSize
  long : 2 ≤ (lcgsLeft lcgBytes).length → (lcgsLeft lcgBytes).length + 3 ≤ padding →
    ∃ levels, bsr = .long false levels ∧
      (longBsrEntries levels (range 8) (padding - 3)).map Prod.fst = lcgsLeft lcgBytes
  truncated : bsr.Truncated → 2 ≤ (lcgsLeft lcgBytes).length ∧ padding < (lcgsLeft lcgBytes).length + 3
  fits : (bsr.ce padding).length ≤ padding

lemma bsrSearch_bounds (table : List Nat) (value : Nat) (ascend : Bool) :
    ∀ {fuel jl ju : Nat}, jl < ju → jl ≤ bsrSearch table value ascend fuel jl ju ∧
      bsrSearch table value ascend fuel jl ju < ju := by
  intro fuel
  induction fuel with
  | zero => exact fun h => ⟨le_refl _, h⟩
  | succ fuel ih =>
    intro jl ju h
    rw [bsrSearch]
    split
    · dsimp only
      split
      · have := ih (by omega : (ju + jl) / 2 < ju)
        omega
      · have := ih (by omega : jl < (ju + jl) / 2)
        omega
    · exact ⟨le_refl _, h⟩

lemma longBsr_level_ne_zero (value : Nat) :
    nrLocateBsrIndexByBufferSize nrLongBsrTable value ≠ 0 ↔ value ≠ 0 := by
  rw [nrLocateBsrIndexByBufferSize]
  by_cases hzero : value = 0
  · simp [hzero]
  · rw [if_neg hzero]
    refine ⟨fun _ => hzero, fun _ => ?_⟩
    have hlen : nrLongBsrTable.length = 256 := by decide +kernel
    dsimp only
    rw [hlen]
    generalize decide ((nrLongBsrTable[256 - 1]?).getD 0 ≥ (nrLongBsrTable[0]?).getD 0) = ascend
    obtain ⟨-, hlt⟩ := @bsrSearch_bounds nrLongBsrTable value ascend 256 0 255 (by decide)
    generalize bsrSearch nrLongBsrTable value ascend 256 0 (256 - 1) = jl at hlt ⊢
    have hindex : 0 < (if value = (nrLongBsrTable[jl]?).getD 0 then jl else jl + 1) ∧
        (if value = (nrLongBsrTable[jl]?).getD 0 then jl else jl + 1) < 256 := by
      split
      next heq =>
        have : jl ≠ 0 := by
          rintro rfl
          exact hzero heq
        omega
      · omega
    intro hcontra
    have := congrArg UInt8.toNat hcontra
    exact absurd this (by simp; omega)

lemma longBsr_reports_all (lcgBytes : Nat → UInt32) {room : Nat} (hroom : 8 ≤ room) :
    (longBsrEntries (fun i => nrLocateBsrIndexByBufferSize nrLongBsrTable (lcgBytes i).toNat) (range 8)
      room).map Prod.fst = lcgsLeft lcgBytes := by
  have hall := length_lcgsWithData_le
    (fun i => nrLocateBsrIndexByBufferSize nrLongBsrTable (lcgBytes i).toNat) (range 8)
  rw [length_range] at hall
  rw [longBsrEntries_eq_take, take_of_length_le (by omega), lcgsWithData, map_map]
  rw [show (Prod.fst ∘ fun n => (n, nrLocateBsrIndexByBufferSize nrLongBsrTable (lcgBytes n).toNat))
    = id from rfl, map_id]
  refine filter_congr fun i _ => decide_eq_decide.mpr ?_
  rw [longBsr_level_ne_zero, ← UInt32.toNat_inj.ne]
  rfl

/-- **When the BSR has the right format**: there is no room for one, or two LCGs have data and
either all eight would fit or those two or more do not. -/
theorem bsr_proper_iff (mac : UeMac) (bufferRemain : Nat → Nat) (lcgBytes : Nat → UInt32)
    (padding : Nat) :
    BsrProper lcgBytes padding (chooseBsr mac bufferRemain lcgBytes padding) ↔
      padding < 2 ∨ 2 ≤ (lcgsLeft lcgBytes).length ∧
        (11 ≤ padding ∨ padding < (lcgsLeft lcgBytes).length + 3) := by
  have hchosen := chooseBsr_chosen mac bufferRemain lcgBytes padding
  have hlength := hchosen.length_le
  have hlong : 11 ≤ padding → chooseBsr mac bufferRemain lcgBytes padding = .long false
      fun i => nrLocateBsrIndexByBufferSize nrLongBsrTable (lcgBytes i).toNat := by
    intro h
    exact if_pos h
  constructor
  · intro h
    by_contra hcontra
    by_cases hn : 2 ≤ (lcgsLeft lcgBytes).length
    · -- a long BSR is due, but only eight LCGs would be enough for it
      obtain ⟨levels, hlevels, -⟩ := h.long hn (by omega)
      rw [hlevels] at hchosen
      cases hchosen with
      | long h11 => omega
    · obtain ⟨lcgId, bufferSize, hshort⟩ := h.short (by omega) (by omega)
      rw [hshort] at hchosen
      cases hchosen
  · intro h
    refine ⟨fun hn hpad => by omega, fun hn hpad => ?_, fun htrunc => ?_, hlength⟩
    · exact ⟨_, hlong (by omega), longBsr_reports_all lcgBytes (by omega)⟩
    · generalize chooseBsr mac bufferRemain lcgBytes padding = bsr at *
      cases hchosen with
      | none => exact htrunc.elim
      | shortTrunc h2 => omega
      | long h11 => cases htrunc
      | longTrunc h3 =>
        have h11 : ¬ 11 ≤ padding := fun h11 => by cases hlong h11
        omega

theorem bsr_proper_iff_two :
    BsrProper (fun i => if i < 2 then 10 else 0) 11
      (chooseBsr (twoChannelUe 1 2) (fun _ => 10) (fun i => if i < 2 then 10 else 0) 11) :=
  (bsr_proper_iff _ _ _ 11).mpr (.inr (by decide))

/-- **One LCG, five bytes**: a truncated long BSR, where the short one is due; with two LCGs, five
bytes hold the long BSR, and it is sent as truncated too. -/
theorem bsr_one_lcg_truncated :
    (∀ n ∈ [1, 2], (lcgsLeft fun i => if i < n then 10 else 0).length = n) ∧
      ∀ n ∈ [1, 2], ¬ BsrProper (fun i => if i < n then 10 else 0) 5
        (chooseBsr (twoChannelUe 1 2) (fun _ => 10) (fun i => if i < n then 10 else 0) 5) := by
  refine ⟨by decide, fun n hn h => ?_⟩
  have htrunc := h.truncated rfl
  clear h
  revert n
  decide

end NrStack.Mac
