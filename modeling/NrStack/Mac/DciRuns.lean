/-
  Non-fallback DCIs over a whole run of the UE, through changes of the RRC configuration.

  `config_dci_pdu` sizes the PDU of each format, `nr_extract_dci_info` fills the one the first bit names,
  and `nr_ue_dl_processing` zeroes the PDU of 1_1 once it is handled; that of 0_1 is never zeroed.
  `nr_dci_size` writes no width for a field the configuration does not have, so an earlier
  configuration's may still be there, and the walk steps over its bits.  The crux is that these widths
  depend on the configurations alone and on no word received (`optional_reach`).
-/
import NrStack.Lib.Machine
import NrStack.Mac.DciNonFallback

namespace NrStack.Dci

open Machine

/-! ## The run -/

/-- The widths that `nr_dci_size` does not write for every configuration, and the value of the hopping
flag, which the UE never writes. -/
def NonFallback.optional : NonFallback → DciPdu → List Nat
  | .ul01, d =>
    [d.carrierIndicator.nbits, d.ulSulIndicator.nbits, d.frequencyHoppingFlag.nbits,
      d.frequencyHoppingFlag.val, d.dai1.nbits, d.csiRequest.nbits, d.cbgti.nbits,
      d.betaOffsetIndicator.nbits, d.dmrsSequenceInitialization.nbits]
  | .dl11, d =>
    [d.carrierIndicator.nbits, d.vrbToPrbMapping.nbits, d.prbBundlingSizeIndicator.nbits,
      d.rateMatchingIndicator.nbits, d.zpCsiRsTrigger.nbits, d.mcs2.nbits, d.ndi2.nbits, d.rv2.nbits,
      d.dai0.nbits, d.transmissionConfigurationIndication.nbits, d.cbgti.nbits, d.cbgfi.nbits]

/-- A zeroed PDU that the configurations, the latest first, have sized.  What the helpers of
`nr_dci_size` answer has no part in the optional widths. -/
def NonFallback.leftover (f : NonFallback) : List DciConfig → DciPdu
  | [] => .zero
  | c :: cs =>
    match f with
    | .ul01 => (sized01 c (f.leftover cs) 0 0 0 0).2
    | .dl11 => (sized11 c (f.leftover cs) 0 0).2

/-- The PDUs of the UE, and for each the configurations that sized it since it was zeroed. -/
structure UeDci where
  pdus : UePdus
  sizedBy : NonFallback → List DciConfig

/-- What the UE does, each under the configuration of the moment. -/
inductive DciOp
  | configure (c : DciConfig) (f : NonFallback)
  /-- any word, found at the length of format `f` -/
  | receive (c : DciConfig) (f : NonFallback) (size word : Nat)
  | handled11

/-- A PDU that was sized by a configuration. -/
def UeDci.size (u : UeDci) (c : DciConfig) (f : NonFallback) (d : DciPdu) : UeDci where
  pdus := u.pdus.set f d
  sizedBy := Function.update u.sizedBy f (c :: u.sizedBy f)

/-- One step of the UE; `none` is a failed assertion. -/
def UeDci.step (u : UeDci) : DciOp → Option UeDci
  | .configure c f => (f.nrDciSize c (u.pdus.get f)).map fun sized => u.size c f sized.2
  | .receive c f size word =>
    (f.nrDciSize c (u.pdus.get f)).bind fun sized =>
      (ueReceiveDci c f u.pdus size word).map fun x =>
        { u.size c f sized.2 with pdus := (u.pdus.set f sized.2).set x.1 x.2.1 }
  | .handled11 => some ⟨u.pdus.set .dl11 .zero, Function.update u.sizedBy .dl11 []⟩

/-- Any steps, from zeroed PDUs. -/
def dciMachine : Spec UeDci DciOp where
  init u := u = ⟨⟨.zero, .zero⟩, fun _ => []⟩
  guard _ _ := True
  step := UeDci.step

instance (u : UeDci) (op : DciOp) : Decidable (dciMachine.guard u op) := .isTrue trivial

/-! ## The optional widths -/

variable {f g : NonFallback} {c : DciConfig} {d d' r : DciPdu} {e : UePdus} {u u' : UeDci}
  {sized : Nat × DciPdu} {s : Filled}

@[simp] lemma UePdus.get_set (e : UePdus) (f : NonFallback) (d : DciPdu) : (e.set f d).get f = d := by
  cases f <;> rfl

lemma UePdus.get_set_of_ne (h : g ≠ f) (e : UePdus) (d : DciPdu) : (e.set f d).get g = e.get g := by
  cases f <;> cases g <;> first | rfl | exact absurd rfl h

lemma nbits_sized_congr {a b : DciField} (h : a.nbits = b.nbits) (present : Bool) (w : Nat) :
    (a.sized present w).nbits = (b.sized present w).nbits := by
  cases present with
  | false => exact h
  | true => rfl

lemma val_sized (a : DciField) (present : Bool) (w : Nat) : (a.sized present w).val = a.val := by
  cases present <;> rfl

/-- Sizing reads no optional width but those it leaves. -/
theorem optional_sized (h : f.optional d = f.optional d') (hsized : f.nrDciSize c d = some sized) :
    f.optional sized.2 = f.optional (match f with
      | .ul01 => (sized01 c d' 0 0 0 0).2
      | .dl11 => (sized11 c d' 0 0).2) := by
  cases f with
  | ul01 =>
    obtain ⟨harq, -, hsized⟩ := Option.bind_eq_some_iff.mp hsized
    obtain ⟨sri, -, hsized⟩ := Option.bind_eq_some_iff.mp hsized
    obtain ⟨precoding, -, hsized⟩ := Option.bind_eq_some_iff.mp hsized
    obtain ⟨antenna, -, rfl⟩ := Option.map_eq_some_iff.mp hsized
    simp only [NonFallback.optional, List.cons.injEq, and_true] at h
    obtain ⟨hcarrier, hsul, hhop, hval, hdai, hcsi, hcbgti, hbeta, hdmrs⟩ := h
    simp only [NonFallback.optional, sized01, nbits_sized_congr (nbits_sized_congr hcarrier _ _), hsul,
      nbits_sized_congr hhop, val_sized, hval, nbits_sized_congr hdai, nbits_sized_congr hcsi,
      nbits_sized_congr hcbgti, nbits_sized_congr hbeta, nbits_sized_congr hdmrs]
  | dl11 =>
    obtain ⟨harq, antenna, rfl⟩ : ∃ harq antenna, sized = sized11 c d harq antenna := by
      change nrDciSize11 c d = some sized at hsized
      unfold nrDciSize11 at hsized
      dsimp only at hsized
      split at hsized
      · cases hsized
      · obtain ⟨harq, -, rfl⟩ := Option.map_eq_some_iff.mp hsized
        exact ⟨harq, _, rfl⟩
    simp only [NonFallback.optional, List.cons.injEq, and_true] at h
    obtain ⟨hcarrier, hvrb, hbundling, hrate, hzp, hmcs, hndi, hrv, hdai, htci, hcbgti, hcbgfi⟩ := h
    simp only [NonFallback.optional, sized11, nbits_sized_congr hcarrier, nbits_sized_congr hvrb,
      nbits_sized_congr hbundling, nbits_sized_congr (nbits_sized_congr hrate _ _),
      nbits_sized_congr hzp, hmcs, hndi, hrv, nbits_sized_congr hdai, nbits_sized_congr htci,
      nbits_sized_congr hcbgti, nbits_sized_congr hcbgfi]

/-- Whatever the word, the walk changes no width: the PDU read has the widths of the sized one. -/
theorem optional_received {size word : Nat} {pos : Int}
    (hsized : f.nrDciSize c (e.get f) = some sized)
    (hreceived : ueReceiveDci c f e size word = some (g, r, pos)) :
    g.optional r = g.optional ((e.set f sized.2).get g) := by
  obtain ⟨sized', hsized', hreceived⟩ := Option.bind_eq_some_iff.mp hreceived
  obtain rfl := Option.some.inj (hsized.symm.trans hsized')
  split at hreceived
  · unfold nrExtractDciInfo at hreceived
    dsimp only at hreceived
    split at hreceived
    all_goals
      obtain ⟨rfl, hwalk⟩ := Prod.ext_iff.mp (Option.some.inj hreceived)
      obtain rfl : _ = r := congrArg Prod.fst hwalk
      rfl
  · cases hreceived

/-- The optional widths are those that the configurations left. -/
def UeDci.Tracked (u : UeDci) : Prop :=
  ∀ g : NonFallback, g.optional (u.pdus.get g) = g.optional (g.leftover (u.sizedBy g))

lemma UeDci.Tracked.size (h : u.Tracked) (hsized : f.nrDciSize c (u.pdus.get f) = some sized) :
    (u.size c f sized.2).Tracked := by
  intro g
  by_cases hg : g = f
  · subst hg
    show g.optional ((u.pdus.set g sized.2).get g) =
      g.optional (g.leftover (Function.update u.sizedBy g (c :: u.sizedBy g) g))
    rw [UePdus.get_set, Function.update_self, optional_sized (h g) hsized]
    cases g <;> rfl
  · show g.optional ((u.pdus.set f sized.2).get g) =
      g.optional (g.leftover (Function.update u.sizedBy f (c :: u.sizedBy f) g))
    rw [UePdus.get_set_of_ne hg, Function.update_of_ne hg]
    exact h g

theorem UeDci.Tracked.step {op : DciOp} (h : u.Tracked) (hstep : u.step op = some u') : u'.Tracked := by
  cases op with
  | configure c f =>
    obtain ⟨sized, hsized, rfl⟩ := Option.map_eq_some_iff.mp hstep
    exact h.size hsized
  | receive c f size word =>
    obtain ⟨sized, hsized, hstep⟩ := Option.bind_eq_some_iff.mp hstep
    obtain ⟨⟨f', r, pos⟩, hreceived, rfl⟩ := Option.map_eq_some_iff.mp hstep
    intro g
    by_cases hg : g = f'
    · subst hg
      rw [UePdus.get_set, optional_received hsized hreceived]
      exact h.size hsized g
    · rw [UePdus.get_set_of_ne hg]
      exact h.size hsized g
  | handled11 =>
    cases hstep
    intro g
    cases g with
    | ul01 => exact h .ul01
    | dl11 => rfl

theorem optional_reach (h : Reach dciMachine u) : u.Tracked := by
  refine h.invariant ?_ fun u op u' _ hinv _ hstep => hinv.step hstep
  rintro u rfl g
  cases g <;> rfl

/-! ## What the widths left over do -/

lemma clear_congr (h : f.optional d = f.optional d') : f.Clear c d ↔ f.Clear c d' := by
  cases f with
  | ul01 =>
    simp only [NonFallback.optional, List.cons.injEq, and_true] at h
    obtain ⟨hcarrier, hsul, hhop, hval, hdai, hcsi, hcbgti, hbeta, hdmrs⟩ := h
    have hflag : d.frequencyHoppingFlag = d'.frequencyHoppingFlag := by
      cases hd : d.frequencyHoppingFlag
      cases hd' : d'.frequencyHoppingFlag
      simp_all
    simp only [NonFallback.Clear, clear01_iff, hcarrier, hsul, hflag, hdai, hcsi, hcbgti, hbeta, hdmrs]
  | dl11 =>
    simp only [NonFallback.optional, List.cons.injEq, and_true] at h
    obtain ⟨hcarrier, hvrb, hbundling, hrate, hzp, hmcs, hndi, hrv, hdai, htci, hcbgti, hcbgfi⟩ := h
    simp only [NonFallback.Clear, clear11_iff, hcarrier, hvrb, hbundling, hrate, hzp, hmcs, hndi, hrv,
      hdai, htci, hcbgti, hcbgfi]

/-- Sizing gives no width to a field that the configuration does not have, and takes none away. -/
lemma clear_sized_iff (hsized : f.nrDciSize c d = some sized) : f.Clear c sized.2 ↔ f.Clear c d := by
  rw [clear_congr (optional_sized rfl hsized)]
  cases f with
  | ul01 =>
    simp +contextual only [NonFallback.Clear, clear01_iff, sized01, DciField.sized, ne_eq, decide_false,
      Bool.false_eq_true, if_false]
  | dl11 =>
    simp +contextual only [NonFallback.Clear, clear11_iff, sized11, DciField.sized, Bool.and_false,
      bne_self_eq_false, Bool.false_eq_true, if_false]

/-- The gNB's `prepare_dci` writes values only. -/
lemma clear_fill (hd : f.Clear c d) (hfill : f.fill c d = some s) : f.Clear c s.pdu := by
  obtain ⟨sized, hsized, hfill⟩ := Option.bind_eq_some_iff.mp hfill
  split at hfill
  · cases hfill
  obtain ⟨pdu, hpdu, rfl⟩ := Option.map_eq_some_iff.mp hfill
  have hclear := (clear_sized_iff hsized).mpr hd
  refine (clear_congr ?_).mp hclear
  cases f with
  | ul01 =>
    change (if _ then none else some _) = some pdu at hpdu
    split at hpdu
    · cases hpdu
    · cases hpdu
      rfl
  | dl11 =>
    obtain ⟨p, -, hpdu⟩ := Option.bind_eq_some_iff.mp hpdu
    split at hpdu
    · cases hpdu
    · cases hpdu
      rfl

/-- The optional widths are among the fields of the format. -/
lemma optional_eq_of_fields (h : f.fields d = f.fields d') : f.optional d = f.optional d' := by
  cases f with
  | ul01 =>
    simp only [NonFallback.fields, fields01, List.cons.injEq, Prod.mk.injEq] at h
    simp only [NonFallback.optional, h]
  | dl11 =>
    simp only [NonFallback.fields, fields11, List.cons.injEq, Prod.mk.injEq] at h
    simp only [NonFallback.optional, h]

/-- A DCI that comes back finds no width of a field that the configuration does not have. -/
lemma clear_of_roundTrip (hd : f.Clear c d) (hfill : f.fill c d = some s) (h : f.RoundTrip c e s) :
    f.Clear c (e.get f) := by
  obtain ⟨-, r, hreceived, hfields⟩ := h
  obtain ⟨sized, hsized, -⟩ := Option.bind_eq_some_iff.mp hreceived
  have hr : f.Clear c r := (clear_congr (optional_eq_of_fields hfields)).mpr (clear_fill hd hfill)
  rw [clear_congr (optional_received hsized hreceived), UePdus.get_set, clear_sized_iff hsized] at hr
  exact hr

/-- **Every DCI of a run.**  Through any sequence of configurations and of words taken for DCIs, the
next DCI comes back with every field, width and value, exactly where writer and reader agree and the
configurations since the PDU was zeroed have left no width that the present one does not write. -/
theorem dci_run_round_trip_iff (f : NonFallback) (c : DciConfig) (d : DciPdu) (h : Reach dciMachine u)
    (hd : f.Clear c d) (hfill : f.fill c d = some s) (hfit : f.Assigned c d) :
    f.RoundTrip c u.pdus s ↔ f.Agrees c d u.pdus ∧ f.Clear c (f.leftover (u.sizedBy f)) := by
  rw [← clear_congr (optional_reach h f)]
  constructor
  · intro htrip
    have hclear := clear_of_roundTrip hd hfill htrip
    refine ⟨?_, hclear⟩
    cases f with
    | ul01 => exact (roundTrip01_iff hd hclear hfill hfit).mp htrip
    | dl11 => exact (roundTrip11_iff hd hclear hfill hfit).mp htrip
  · rintro ⟨hagrees, hclear⟩
    cases f with
    | ul01 => exact (roundTrip01_iff hd hclear hfill hfit).mpr hagrees
    | dl11 => exact (roundTrip11_iff hd hclear hfill hfit).mpr hagrees

/-- The carrier with nothing special configured. -/
def plainCarrier106 : DciConfig := carrier106 plainPusch plainPdsch none

/-- The same cell with a CSI request of six bits. -/
def csiCarrier106 : DciConfig :=
  { plainCarrier106 with sc := { plainCarrier106.sc with reportTriggerSize := some 6 } }

/-- The CSI request goes: the next 1_1 comes back, its PDU was zeroed; the next 0_1 does not. -/
theorem dci_run_round_trip_reconfigured : ∃ u sDl sUl, Reach dciMachine u ∧ u.pdus.ul01.mcs = 9 ∧
    NonFallback.dl11.RoundTrip plainCarrier106 u.pdus sDl ∧
    NonFallback.ul01.fill plainCarrier106 .zero = some sUl ∧
    NonFallback.ul01.Agrees plainCarrier106 .zero u.pdus ∧
    ¬NonFallback.ul01.RoundTrip plainCarrier106 u.pdus sUl := by
  obtain ⟨u, hu, hmcs, hpre, hdl, hul⟩ := Reach.exists_of_run (s := ⟨⟨.zero, .zero⟩, fun _ => []⟩)
    (P := fun u => u.pdus.ul01.mcs = 9 ∧
      precodingWidth plainCarrier106 u.pdus.ul01 = precodingWidth plainCarrier106 .zero ∧
      NonFallback.dl11.optional (NonFallback.dl11.leftover (u.sizedBy .dl11)) =
        NonFallback.dl11.optional .zero ∧
      NonFallback.ul01.optional (NonFallback.ul01.leftover (u.sizedBy .ul01)) =
        [0, 0, 0, 0, 0, 6, 0, 0, 1])
    (m := dciMachine) (.start rfl)
    [.configure csiCarrier106 .dl11, .receive csiCarrier106 .ul01 46 150994945, .handled11]
    (by decide +kernel)
  obtain ⟨sDl, hsDl⟩ : ∃ s, NonFallback.dl11.fill plainCarrier106 .zero = some s :=
    Option.isSome_iff_exists.mp (by decide +kernel)
  obtain ⟨sUl, hsUl⟩ : ∃ s, NonFallback.ul01.fill plainCarrier106 .zero = some s :=
    Option.isSome_iff_exists.mp (by decide +kernel)
  refine ⟨u, sDl, sUl, hu, hmcs, ?_, hsUl, ⟨by decide, by decide +kernel, hpre⟩, fun htrip => ?_⟩
  · exact (dci_run_round_trip_iff .dl11 plainCarrier106 .zero hu (NonFallback.clear_zero _ _) hsDl
      (assigned_of_all (by decide +kernel))).mpr
      ⟨⟨by decide, by decide⟩, (clear_congr hdl).mpr (NonFallback.clear_zero _ _)⟩
  · obtain ⟨-, hclear⟩ := (dci_run_round_trip_iff .ul01 plainCarrier106 .zero hu
      (NonFallback.clear_zero _ _) hsUl (assigned_of_all (by decide +kernel))).mp htrip
    have hcsi : (NonFallback.ul01.leftover (u.sizedBy .ul01)).csiRequest.nbits = 0 := hclear.csi rfl
    simp only [NonFallback.optional, List.cons.injEq] at hul
    omega

end NrStack.Dci
