/-
  The reservation of a due CSI report on PUCCH (`nr_csi_meas_reporting` in `gNB_scheduler_uci.c`).

  One loop over the PRBs of the resource checks AND marks: at an occupied PRB it gives the report up by
  clearing the PUCCH entry, and goes on marking the others.
-/
import NrStack.Mac.VrbMap

namespace NrStack.Mac

/-- The fields of `NR_sched_pucch_t` that a CSI report reads or writes. -/
structure CsiPucch where
  active : Bool := false
  frame : Nat := 0
  ulSlot : Nat := 0
  csiBits : Nat := 0
  simultaneousHarqcsi : Bool := false
  resourceIndicator : Nat := 0
  rPucch : Int := 0

/-- `format.choice`; formats 0 and 1 are not for CSI. -/
inductive PucchFormat
  | format2 (nrofPRBs startingSymbolIndex nrofSymbols : Nat)
  | format3 (nrofPRBs startingSymbolIndex nrofSymbols : Nat)
  | format4 (startingSymbolIndex nrofSymbols : Nat)
  | other

/-- `len` and `mask`; `none` is the failed assertion on the format. -/
def PucchFormat.extent : PucchFormat → Option (Nat × Nat)
  | format2 len start n => some (len, slToBitmap start n)
  | format3 len start n => some (len, slToBitmap start n)
  | format4 start n => some (1, slToBitmap start n)
  | other => none

/-- `NR_PUCCH_Resource_t` -/
structure PucchResource where
  pucchResourceId : Nat
  startingPRB : Nat
  format : PucchFormat

/-- A report that is due: where it goes, its size and its resource, with `simultaneousHARQ_ACK_CSI` of
the formats. -/
structure CsiReport where
  schedFrame : Nat
  schedSlot : Nat
  resIndex : Nat
  csiBitlen : Nat
  bwpStart : Nat
  pucchResource : Nat
  simultaneousHarqAckCsi : PucchFormat → Bool

/-- The RBs `start + bwp_start`, .. -/
def PucchResource.rbs (res : PucchResource) (bwpStart len : Nat) : List Nat :=
  List.range' (res.startingPRB + bwpStart) len

/-- "verify resources are free" -/
def reserveRbs (mask : Nat) (rbs : List Nat) (st : VrbMap × CsiPucch) : VrbMap × CsiPucch :=
  rbs.foldl (fun st rb => if st.1.busy mask rb then (st.1, {}) else (st.1.mark mask rb, st.2)) st

/-- `nr_csi_meas_reporting`, from the PUCCH entry of a due report on; `none` is a failed assertion. -/
def nrCsiMeasReporting (rep : CsiReport) (resources : List PucchResource) (vrbMapUl : VrbMap)
    (curr : CsiPucch) : Option (VrbMap × CsiPucch) :=
  if curr.active then none
  else
    let curr :=
      { curr with
        rPucch := -1
        frame := rep.schedFrame
        ulSlot := rep.schedSlot
        resourceIndicator := rep.resIndex
        csiBits := curr.csiBits + rep.csiBitlen
        active := true }
    (resources.filter fun res => res.pucchResourceId = rep.pucchResource).foldlM (fun st res =>
      res.format.extent.map fun e =>
        reserveRbs e.2 (res.rbs rep.bwpStart e.1)
          (st.1, { st.2 with simultaneousHarqcsi := rep.simultaneousHarqAckCsi res.format }))
      (vrbMapUl, curr)

/-- **All or nothing**: an active entry with every PRB newly marked, or nothing changed. -/
def AllOrNothing (mask : Nat) (rbs : List Nat) (before after : VrbMap) (pucch : CsiPucch) : Prop :=
  (pucch.active = true ∧
      ∀ rb ∈ rbs, before.busy mask rb = false ∧ after rb = before rb ||| mask) ∨
    (pucch.active = false ∧ after = before)

lemma reserveRbs_spec (mask : Nat) :
    ∀ {rbs : List Nat}, rbs.Nodup → ∀ (map : VrbMap) (pucch : CsiPucch),
      reserveRbs mask rbs (map, pucch) =
        (fun rb => if rb ∈ rbs ∧ map.busy mask rb = false then map rb ||| mask else map rb,
          if rbs.any (map.busy mask) then {} else pucch) := by
  intro rbs
  induction rbs with
  | nil =>
    intro _ map pucch
    simp [reserveRbs]
  | cons r rbs ih =>
    intro hnodup map pucch
    obtain ⟨hr, hnodup⟩ := List.nodup_cons.mp hnodup
    rw [reserveRbs, List.foldl_cons, ← reserveRbs]
    cases hbusy : map.busy mask r with
    | true =>
      rw [if_pos rfl, ih hnodup, List.any_cons, hbusy, Bool.true_or, if_pos rfl, ite_self]
      congr 1
      funext rb
      refine if_congr (and_congr_left fun hfree => ?_) rfl rfl
      rw [List.mem_cons, or_iff_right]
      rintro rfl
      rw [hbusy] at hfree
      cases hfree
    | false =>
      -- the RBs behind it are other RBs
      have hother : ∀ rb, rb ≠ r → (map.mark mask r) rb = map rb :=
        fun rb hne => Function.update_of_ne hne _ _
      have hsame : ∀ rb ∈ rbs, (map.mark mask r).busy mask rb = map.busy mask rb := by
        intro rb hrb
        rw [VrbMap.busy, VrbMap.busy, hother rb (fun h => hr (h ▸ hrb))]
      have hany : rbs.any ((map.mark mask r).busy mask) = rbs.any (map.busy mask) := by
        rw [Bool.eq_iff_iff, List.any_eq_true, List.any_eq_true]
        exact exists_congr fun rb => and_congr_right fun hrb => by rw [hsame rb hrb]
      rw [if_neg Bool.false_ne_true, ih hnodup, List.any_cons, hbusy, Bool.false_or, hany]
      congr 1
      funext rb
      by_cases heq : rb = r
      · subst heq
        rw [if_neg fun h => hr h.1, if_pos ⟨List.mem_cons_self, hbusy⟩]
        exact Function.update_self _ _ _
      · rw [hother rb heq]
        refine if_congr ?_ rfl rfl
        rw [List.mem_cons, or_iff_right heq]
        exact and_congr_right fun hrb => by rw [hsame rb hrb]

lemma marked_ne {map : VrbMap} {mask rb : Nat} (hfree : map.busy mask rb = false) (hmask : mask ≠ 0) :
    map rb ||| mask ≠ map rb := by
  intro heq
  rw [VrbMap.busy, bne_eq_false_iff_eq] at hfree
  have h := congrArg (· &&& mask) heq
  simp only [Nat.and_or_distrib_right, Nat.and_self, hfree, Nat.zero_or] at h
  exact hmask h

/-- **The reservation of a CSI report** is all or nothing exactly when the RBs of the resource are all
free or all occupied. -/
theorem csi_reservation_iff (rep : CsiReport) (resources : List PucchResource) (res : PucchResource)
    (map : VrbMap) (curr : CsiPucch) (len mask : Nat)
    (hres : resources.filter (fun r => r.pucchResourceId = rep.pucchResource) = [res])
    (hformat : res.format.extent = some (len, mask)) (hcurr : curr.active = false) :
    ∃ after pucch, nrCsiMeasReporting rep resources map curr = some (after, pucch) ∧
      (AllOrNothing mask (res.rbs rep.bwpStart len) map after pucch ↔
        (∀ rb ∈ res.rbs rep.bwpStart len, map.busy mask rb = false) ∨
          ∀ rb ∈ res.rbs rep.bwpStart len, map.busy mask rb = true) := by
  generalize hrbs : res.rbs rep.bwpStart len = rbs
  have hnodup : rbs.Nodup := hrbs ▸ List.nodup_range'
  obtain ⟨pucch, hreport, hactive⟩ : ∃ pucch, nrCsiMeasReporting rep resources map curr =
      some (reserveRbs mask rbs (map, pucch)) ∧ pucch.active = true := by
    rw [nrCsiMeasReporting, hcurr, if_neg Bool.false_ne_true, hres, List.foldlM_cons, hformat,
      Option.map_some, hrbs]
    refine ⟨_, rfl, ?_⟩
    rfl
  rw [reserveRbs_spec mask hnodup] at hreport
  refine ⟨_, _, hreport, ?_⟩
  cases hany : rbs.any (map.busy mask) with
  | false =>
    have hfree : ∀ rb ∈ rbs, map.busy mask rb = false :=
      fun rb hrb => Bool.eq_false_iff.mpr (List.any_eq_false.mp hany rb hrb)
    exact iff_of_true (.inl ⟨hactive, fun rb hrb => ⟨hfree rb hrb, if_pos ⟨hrb, hfree rb hrb⟩⟩⟩)
      (.inl hfree)
  | true =>
    obtain ⟨r, hr, hbusy⟩ := List.any_eq_true.mp hany
    have hmask : mask ≠ 0 := by
      rintro rfl
      rw [VrbMap.busy, Nat.and_zero] at hbusy
      cases hbusy
    constructor
    · rintro (⟨h, -⟩ | ⟨-, hsame⟩)
      · cases h
      · refine .inr fun rb hrb => ?_
        by_contra hfree
        rw [Bool.not_eq_true] at hfree
        have heq := congrFun hsame rb
        rw [if_pos ⟨hrb, hfree⟩] at heq
        exact marked_ne hfree hmask heq
    · rintro (hfree | hall)
      · rw [hfree r hr] at hbusy
        cases hbusy
      · refine .inr ⟨rfl, funext fun rb => if_neg ?_⟩
        rintro ⟨hrb, hfree⟩
        rw [hall rb hrb] at hfree
        cases hfree

/-- A report of four bits on PUCCH resource 7, due in slot 8 of frame 1. -/
def twoPrbs : CsiReport := ⟨1, 8, 0, 4, 0, 7, fun _ => false⟩

theorem csi_reservation_iff_free :
    ∃ after pucch, nrCsiMeasReporting twoPrbs [⟨7, 3, .format2 2 12 2⟩] (fun _ => 0) {} =
        some (after, pucch) ∧ AllOrNothing 0x3000 [3, 4] (fun _ => 0) after pucch := by
  obtain ⟨after, pucch, hreport, hiff⟩ := csi_reservation_iff twoPrbs [⟨7, 3, .format2 2 12 2⟩]
    ⟨7, 3, .format2 2 12 2⟩ (fun _ => 0) {} 2 0x3000 rfl rfl rfl
  exact ⟨after, pucch, hreport, hiff.mpr (.inl (by decide))⟩

/-- **A report that is half reserved**: PRB 4 is occupied, and PRB 3 is marked for a report that is
given up. -/
theorem csi_reservation_half :
    (nrCsiMeasReporting twoPrbs [⟨7, 3, .format2 2 12 2⟩] (Function.update (fun _ => 0) 4 0x3000)
      {}).map (fun r => (r.2.active, r.1 3, r.1 4)) = some (false, 0x3000, 0x3000) := by
  decide

end NrStack.Mac
