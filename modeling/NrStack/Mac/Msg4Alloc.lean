/-
  The resources of Msg4/MsgB (`nr_generate_Msg4_MsgB` in `gNB_scheduler_RA.c`, with the MCS tables of
  `nr_mac_common.c`): the transport block size that is searched over RBs and MCS, and the first fit.

  A retransmission searches again, from the size of the process.  In a slot of another format that size
  is not met, and the next larger one is taken: another transport block under the same NDI.
-/
import NrStack.Mac.Tbs
import NrStack.Mac.VrbMap

namespace NrStack.Mac

/-- `Table_51311`, `Table_51312` and `Table_51313`: modulation order and ten times the code rate. -/
def mcsTableDl : Nat → List (Nat × Nat)
  | 0 => [(2, 1200), (2, 1570), (2, 1930), (2, 2510), (2, 3080), (2, 3790), (2, 4490), (2, 5260),
      (2, 6020), (2, 6790), (4, 3400), (4, 3780), (4, 4340), (4, 4900), (4, 5530), (4, 6160), (4, 6580),
      (6, 4380), (6, 4660), (6, 5170), (6, 5670), (6, 6160), (6, 6660), (6, 7190), (6, 7720), (6, 8220),
      (6, 8730), (6, 9100), (6, 9480), (2, 0), (4, 0), (6, 0)]
  | 1 => [(2, 1200), (2, 1930), (2, 3080), (2, 4490), (2, 6020), (4, 3780), (4, 4340), (4, 4900),
      (4, 5530), (4, 6160), (4, 6580), (6, 4660), (6, 5170), (6, 5670), (6, 6160), (6, 6660), (6, 7190),
      (6, 7720), (6, 8220), (6, 8730), (8, 6825), (8, 7110), (8, 7540), (8, 7970), (8, 8410), (8, 8850),
      (8, 9165), (8, 9480), (2, 0), (4, 0), (6, 0), (8, 0)]
  | 2 => [(2, 300), (2, 400), (2, 500), (2, 640), (2, 780), (2, 990), (2, 1200), (2, 1570), (2, 1930),
      (2, 2510), (2, 3080), (2, 3790), (2, 4490), (2, 5260), (2, 6020), (4, 3400), (4, 3780), (4, 4340),
      (4, 4900), (4, 5530), (4, 6160), (6, 4380), (6, 4660), (6, 5170), (6, 5670), (6, 6160), (6, 6660),
      (6, 7190), (6, 7720), (2, 0), (4, 0), (6, 0)]
  | _ => []

/-- `nr_get_Qm_dl` and `nr_get_code_rate_dl` -/
def nrGetMcsDl (imcs tableIdx : Nat) : Nat × Nat := (mcsTableDl tableIdx).getD imcs (0, 0)

/-- What the time domain allocation, DMRS and BWP of a slot say about the size. -/
structure Msg4Format where
  mcsTableIdx : Nat
  bwpSize : Nat
  nrOfSymbols : Nat
  nPrbDmrs : Nat
  nDmrsSlot : Nat
  deriving DecidableEq

/-- A slot for Msg4/MsgB, with `mac_sdu_length` and the `vrb_map` of its beam. -/
structure Msg4Slot where
  format : Msg4Format
  bwpStart : Nat
  startSymbolIndex : Nat
  macSduLength : Nat
  vrbMap : VrbMap

/-- RBs, MCS and transport block size of Msg4. -/
structure Msg4Grant where
  rbStart : Nat
  rbSize : Nat
  mcsIndex : Nat
  tbSize : Nat
  deriving DecidableEq

/-- The transport block size of a number of RBs and an MCS. -/
def Msg4Format.tbSize (f : Msg4Format) (rbSize mcsIndex : Nat) : Nat :=
  nrComputeTbs (nrGetMcsDl mcsIndex f.mcsTableIdx).1 (nrGetMcsDl mcsIndex f.mcsTableIdx).2 rbSize
    f.nrOfSymbols (f.nPrbDmrs * f.nDmrsSlot) 0 0 1 >>> 3

/-- "increase PRBs until we get to BWPSize or TBS is bigger than MAC PDU size", then the MCS. -/
def Msg4Format.sizeLoop (f : Msg4Format) (pduLength : Nat) : Nat → Nat → Nat → Option (Nat × Nat × Nat)
  | 0, _, _ => none
  | fuel + 1, rbSize, mcsIndex =>
    let p := if rbSize < f.bwpSize then (rbSize + 1, mcsIndex) else (rbSize, mcsIndex + 1)
    if f.tbSize p.1 p.2 < pduLength ∧ p.2 ≤ 28 then f.sizeLoop pduLength fuel p.1 p.2
    else some (p.1, p.2, f.tbSize p.1 p.2)

namespace Msg4Slot

/-- `vrb_map[BWPStart + rb] & SL_to_bitmap(..)` -/
def busy (s : Msg4Slot) (rb : Nat) : Bool :=
  s.vrbMap.busy (slToBitmap s.startSymbolIndex s.format.nrOfSymbols) (s.bwpStart + rb)

/-- The search for `rbSize` free RBs in a row. -/
def rbLoop (s : Msg4Slot) (rbSize : Nat) : Nat → Nat → Nat → Nat
  | 0, rbStart, _ => rbStart
  | fuel + 1, rbStart, i =>
    if i < rbSize ∧ rbStart + rbSize ≤ s.format.bwpSize then
      if s.busy (rbStart + i) then s.rbLoop rbSize fuel (rbStart + (i + 1)) 0
      else s.rbLoop rbSize fuel rbStart (i + 1)
    else rbStart

/-- `none` is "Cannot find free vrb_map" -/
def findRbs (s : Msg4Slot) (rbSize : Nat) : Option Nat :=
  let rbStart := s.rbLoop rbSize (s.format.bwpSize + 1) 0 0
  if (rbStart : Int) > s.format.bwpSize - rbSize then none else some rbStart

/-- `pdu_length`: of the process in a retransmission, or of a new PDU with 13 bytes for MsgB. -/
def pduLength (s : Msg4Slot) : Option Nat → Nat
  | some tbSize => tbSize % 2 ^ 16
  | none => (s.macSduLength + (if s.macSduLength < 256 then 2 else 3) + 13) % 2 ^ 16

/-- From `pdu_length` to the RBs, where the process has the size `harq`; `none` outside is "Cannot
allocate". -/
def nrGenerateMsg4MsgB (s : Msg4Slot) (harq : Option Nat) : Option (Option Msg4Grant) :=
  (s.format.sizeLoop (s.pduLength harq) (s.format.bwpSize + 30) 0 0).bind fun r =>
    if s.pduLength harq ≤ r.2.2 then some ((s.findRbs r.1).map fun rbStart => ⟨rbStart, r.1, r.2.1, r.2.2⟩)
    else none

end Msg4Slot

/-- The retransmissions of a process, `harq->tb_size = tb_size` after each. -/
def msg4Retransmissions : Nat → List Msg4Slot → Option (List (Option Msg4Grant))
  | _, [] => some []
  | tbSize, s :: slots =>
    (s.nrGenerateMsg4MsgB (some tbSize)).bind fun g =>
      (msg4Retransmissions ((g.map Msg4Grant.tbSize).getD tbSize) slots).map (g :: ·)

/-! ## The size -/

lemma Msg4Format.sizeLoop_again {f : Msg4Format} {pdu : Nat} {r : Nat × Nat × Nat} :
    ∀ {fuel rbSize mcsIndex}, f.sizeLoop pdu fuel rbSize mcsIndex = some r → pdu ≤ r.2.2 →
      f.sizeLoop r.2.2 fuel rbSize mcsIndex = some r := by
  intro fuel
  induction fuel with
  | zero => exact nofun
  | succ fuel ih =>
    intro rbSize mcsIndex hr hle
    rw [sizeLoop] at hr ⊢
    generalize (if rbSize < f.bwpSize then (rbSize + 1, mcsIndex) else (rbSize, mcsIndex + 1)) = p
      at hr ⊢
    split at hr
    · next hsmall =>
      rw [if_pos ⟨hsmall.1.trans_le hle, hsmall.2⟩]
      exact ih hr hle
    · cases hr
      rw [if_neg (by simp only [Nat.lt_irrefl, false_and, not_false_eq_true])]

namespace Msg4Slot

variable {s first : Msg4Slot} {rbSize : Nat}

/-! ## The first fit -/

/-- `rbSize` free RBs in the BWP start there. -/
def Fits (s : Msg4Slot) (rbSize rbStart : Nat) : Prop :=
  rbStart + rbSize ≤ s.format.bwpSize ∧ ∀ j < rbSize, s.busy (rbStart + j) = false

/-- The lowest start that fits, or there is none. -/
def FirstFit (s : Msg4Slot) (rbSize : Nat) : Option Nat → Prop
  | some rbStart => s.Fits rbSize rbStart ∧ ∀ start < rbStart, ¬ s.Fits rbSize start
  | none => ∀ start, ¬ s.Fits rbSize start

lemma rbLoop_spec : ∀ {fuel rbStart i}, s.format.bwpSize < fuel + (rbStart + i) → i ≤ rbSize →
    (∀ start < rbStart, ¬ s.Fits rbSize start) → (∀ j < i, s.busy (rbStart + j) = false) →
      (∀ start < s.rbLoop rbSize fuel rbStart i, ¬ s.Fits rbSize start) ∧
        (s.rbLoop rbSize fuel rbStart i + rbSize ≤ s.format.bwpSize →
          s.Fits rbSize (s.rbLoop rbSize fuel rbStart i)) := by
  intro fuel
  induction fuel with
  | zero =>
    intro rbStart i hfuel hi hpassed _
    exact ⟨hpassed, fun h => absurd h (by rw [rbLoop]; omega)⟩
  | succ fuel ih =>
    intro rbStart i hfuel hi hpassed hfree
    rw [rbLoop]
    split
    · next hgo =>
      cases hbusy : s.busy (rbStart + i) with
      | true =>
        refine ih (by omega) (Nat.zero_le _) ?_ (by omega)
        intro start hstart hfits
        by_cases hlt : start < rbStart
        · exact hpassed start hlt hfits
        · -- the occupied RB is in every run that starts up to it
          have hin := hfits.2 (rbStart + i - start) (by omega)
          rw [Nat.add_sub_cancel' (by omega), hbusy] at hin
          cases hin
      | false =>
        apply ih (by omega) hgo.1 hpassed
        intro j hj
        rcases Nat.eq_or_lt_of_le (Nat.le_of_lt_succ hj) with rfl | hj
        · exact hbusy
        · exact hfree j hj
    · next hstop => exact ⟨hpassed, fun h => ⟨h, fun j hj => hfree j (by omega)⟩⟩

lemma findRbs_firstFit (s : Msg4Slot) (rbSize : Nat) : s.FirstFit rbSize (s.findRbs rbSize) := by
  obtain ⟨hpassed, hfits⟩ := @rbLoop_spec s rbSize (s.format.bwpSize + 1) 0 0 (by omega)
    (Nat.zero_le _) (by omega) (by omega)
  rw [findRbs]
  split
  · intro start hstart
    by_cases hlt : start < s.rbLoop rbSize (s.format.bwpSize + 1) 0 0
    · exact hpassed start hlt hstart
    · have := hstart.1
      omega
  · exact ⟨hfits (by omega), hpassed⟩

/-! ## Retransmissions -/

lemma retransmissions_same {f : Msg4Format} {tbSize : Nat} (hsize : ∃ rbSize mcsIndex,
      f.sizeLoop (tbSize % 2 ^ 16) (f.bwpSize + 30) 0 0 = some (rbSize, mcsIndex, tbSize)) :
    ∀ {slots : List Msg4Slot}, (∀ s ∈ slots, s.format = f) → ∃ grants,
      msg4Retransmissions tbSize slots = some grants ∧
        ∀ g, some g ∈ grants → g.tbSize = tbSize := by
  obtain ⟨rbSize, mcsIndex, hsize⟩ := hsize
  intro slots
  induction slots with
  | nil => exact fun _ => ⟨[], rfl, nofun⟩
  | cons s slots ih =>
    intro hall
    obtain ⟨hs, hall⟩ := List.forall_mem_cons.mp hall
    obtain ⟨grants, hrun, hgrants⟩ := ih hall
    have htx : s.nrGenerateMsg4MsgB (some tbSize) =
        some ((s.findRbs rbSize).map fun rbStart => ⟨rbStart, rbSize, mcsIndex, tbSize⟩) := by
      rw [nrGenerateMsg4MsgB, pduLength, hs, hsize, Option.bind_some, if_pos (Nat.mod_le _ _)]
    have hkept : (((s.findRbs rbSize).map fun rbStart =>
        (⟨rbStart, rbSize, mcsIndex, tbSize⟩ : Msg4Grant)).map Msg4Grant.tbSize).getD tbSize =
          tbSize := by
      cases s.findRbs rbSize <;> rfl
    rw [msg4Retransmissions, htx, Option.bind_some, hkept, hrun]
    refine ⟨_, rfl, fun g hg => ?_⟩
    rcases List.mem_cons.mp hg with hg | hg
    · obtain ⟨rbStart, -, rfl⟩ := Option.map_eq_some_iff.mp hg.symm
      rfl
    · exact hgrants g hg

/-- **Msg4/MsgB keeps its transport block** in slots of the format of the first transmission, when the
size fits the 16 bits of `pdu_length`; and every search of RBs is a first fit. -/
theorem msg4_tb_kept (first : Msg4Slot) (g : Msg4Grant)
    (hfirst : first.nrGenerateMsg4MsgB none = some (some g)) (hlt : g.tbSize < 2 ^ 16)
    (slots : List Msg4Slot) (hformat : ∀ s ∈ slots, s.format = first.format) :
    (∃ grants, msg4Retransmissions g.tbSize slots = some grants ∧
        ∀ g', some g' ∈ grants → g'.tbSize = g.tbSize) ∧
      ∀ (s : Msg4Slot) (rbSize : Nat), s.FirstFit rbSize (s.findRbs rbSize) := by
  refine ⟨retransmissions_same ?_ hformat, findRbs_firstFit⟩
  obtain ⟨r, hr, hfirst⟩ := Option.bind_eq_some_iff.mp hfirst
  split at hfirst
  · next hle =>
    obtain ⟨rbStart, -, rfl⟩ := Option.map_eq_some_iff.mp (Option.some.inj hfirst)
    rw [Nat.mod_eq_of_lt hlt]
    exact ⟨r.1, r.2.1, Msg4Format.sizeLoop_again hr hle⟩
  · cases hfirst

end Msg4Slot

/-- A BWP of 24 RBs, all free, for a payload of 20 bytes. -/
def msg4Slot (nrOfSymbols : Nat) : Msg4Slot := ⟨⟨0, 24, nrOfSymbols, 12, 1⟩, 0, 1, 20, fun _ => 0⟩

theorem msg4_tb_kept_eleven :
    ∃ grants, msg4Retransmissions 36 [msg4Slot 11, msg4Slot 11] = some grants ∧
      ∀ g, some g ∈ grants → g.tbSize = 36 :=
  (Msg4Slot.msg4_tb_kept (msg4Slot 11) ⟨0, 10, 0, 36⟩ (by decide) (by decide)
    [msg4Slot 11, msg4Slot 11] (by decide)).1

/-- **Another transport block under the same NDI**: 36 bytes in 11 symbols are retransmitted as 38 in
13 symbols. -/
theorem msg4_tb_changes :
    (msg4Slot 11).nrGenerateMsg4MsgB none = some (some ⟨0, 10, 0, 36⟩) ∧
      msg4Retransmissions 36 [msg4Slot 13] = some [some ⟨0, 9, 0, 38⟩] := by
  decide

end NrStack.Mac
