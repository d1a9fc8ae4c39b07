/-
  The downlink round trip, for every configuration of MAC CEs.

  When the UE's tables cut the CSI-RS / CSI-IM CE the way it was written, every transport block comes back
  (`DlMux`).  The converse is by ONE block, the trap: behind the MAC CEs an RLC PDU of 0x3F3F bytes 0x3F,
  padding subheaders all but the first.  A parser that comes to it elsewhere stops there, and what it takes
  for an SDU before that has another length (`Misses`).
-/
import NrStack.Mac.DlMux

namespace NrStack.Mac

open List hiding Vector
open Probing

/-! ## A transport block with one RLC PDU -/

/-- `n` bytes wait in logical channel 4. -/
def oneChannel (n : Nat) : DlDataCfg where
  numTotalBytes := n
  bytesInBuffer := fun _ => n
  lcConfig := [⟨4, by decide⟩]
  phyTest := false
  random := fun _ => 0

lemma fillTransportBlock_onePdu (ces : List UInt8) {pdu : List UInt8} (htwo : 1 < pdu.length)
    (hshort : pdu.length < 2 ^ 16) :
    fillTransportBlock (onePdu pdu hshort) (oneChannel pdu.length) (ces.length + (3 + pdu.length))
        ces true =
      some ⟨ces ++ (subheaderLong 4 pdu.length ++ pdu), [(4, pdu)],
        (ces ++ (subheaderLong 4 pdu.length ++ pdu)).length⟩ := by
  have hpos : 0 < pdu.length := by omega
  generalize htbs : ces.length + (3 + pdu.length) = tbs
  have hlen : (ces ++ (subheaderLong 4 pdu.length ++ pdu)).length = tbs := by
    rw [length_append, length_append, ← htbs]
    rfl
  have hreq : (onePdu pdu hshort).dataReq true 4 pdu.length = (pdu, false) :=
    if_pos ⟨rfl, le_refl _⟩
  have hmin : min pdu.length (tbs - ces.length - 3) = pdu.length := by omega
  have hloop : dlSduLoop (onePdu pdu hshort) tbs 4 pdu.length (tbs + 1) ⟨ces, [], true⟩ =
      some ⟨ces ++ (subheaderLong 4 pdu.length ++ pdu), [(4, pdu)], false⟩ := by
    obtain ⟨k, rfl⟩ : ∃ k, tbs = k + 1 := ⟨tbs - 1, by omega⟩
    rw [dlSduLoop]
    dsimp only
    rw [if_pos (by omega), hmin, hreq, if_neg hpos.ne', dlSduLoop]
    rw [if_neg (by rw [hlen]; omega)]
    rfl
  have hchannels : dlLcLoop (onePdu pdu hshort) tbs (fun _ => pdu.length) [⟨4, by decide⟩]
      ⟨ces, [], true⟩ = some ⟨ces ++ (subheaderLong 4 pdu.length ++ pdu), [(4, pdu)], false⟩ := by
    rw [dlLcLoop, if_neg hpos.ne', hloop]
    rfl
  rw [fillTransportBlock, if_pos (by omega), if_pos (show (oneChannel pdu.length).numTotalBytes > 0
    from hpos)]
  show Option.map _ (dlLcLoop (onePdu pdu hshort) tbs (fun _ => pdu.length) [⟨4, by decide⟩]
    ⟨ces, [], true⟩) = _
  rw [hchannels, Option.map_some, dlPadding, hlen, if_neg (by omega)]

/-! ## The trap -/

/-- The length field reads as two padding subheaders. -/
def trapSize : Nat := 0x3F3F

/-- An RLC PDU whose sub-PDU is padding from its second byte on. -/
def trap : List UInt8 := subheaderLong 4 trapSize ++ List.replicate trapSize 0x3F

lemma length_trap : trap.length = 3 + trapSize := by
  rw [trap, length_append, length_replicate]
  rfl

lemma trap_eq : trap = 0x44 :: List.replicate (2 + trapSize) 0x3F := by
  rfl

lemma trap_bytes {mem : Nat → UInt8} {q : Nat} (h : HasBytes mem q trap) :
    mem q = 0x44 ∧ ∀ p, q < p → p < q + (3 + trapSize) → mem p = 0x3F := by
  rw [trap_eq] at h
  obtain ⟨hq, hrest⟩ := hasBytes_cons.mp h
  refine ⟨hq, fun p hlt hle => ?_⟩
  obtain ⟨i, rfl⟩ : ∃ i, p = q + 1 + i := ⟨p - (q + 1), by omega⟩
  rw [hrest.getD (by rw [length_replicate]; omega), getD_eq_getElem?_getD,
    getElem?_replicate, if_pos (by omega), Option.getD_some]

/-! ## A parser that misses the trap -/

/-- From `p` on the parser does not decode one RLC PDU of the size of the trap and no TA command. -/
def Misses (env : UeEnv) (mem : Nat → UInt8) (stop p : Nat) : Prop :=
  ∀ (fuel : Nat) (st : DlRx) (r : Option DlExit × DlRx), st.rlc = [] →
    (blocks (dlSubPdu env mem) fuel p (stop - p) st).val = some r →
    ¬ ∃ ind, r.2.rlc = [ind] ∧ ind.len = trapSize ∧ r.2.ta = st.ta

lemma dlSubPdu_ta (env : UeEnv) (mem : Nat → UInt8) (p rem : Nat) (st : DlRx) :
    st.ta <+: (dlSubPdu env mem p rem st).val.2.ta := by
  rw [dlSubPdu, val_bind, val_read]
  cases DlLcid.ofCode ((mem p).toNat % 64) with
  | ccch =>
    rw [dlProcessLcid, val_bind, dlCcch]
    split
    · rw [val_bind, val_pure]
      split
      · split <;> exact prefix_rfl
      · exact prefix_rfl
    · exact prefix_rfl
  | taCommand =>
    rw [dlProcessLcid, val_bind, val_pure]
    split
    · exact prefix_append _ _
    · exact prefix_rfl
  | conResId =>
    rw [dlProcessLcid]
    split
    · exact contentionResolution_ta env _ st ▸ prefix_rfl
    · exact prefix_rfl
  | sdu lcid =>
    rw [dlProcessLcid, val_bind, val_pure]
    split <;> exact prefix_rfl
  | _ => exact prefix_rfl

lemma dlSubPdus_grow {env : UeEnv} {mem : Nat → UInt8} {fuel p rem : Nat} {st : DlRx}
    {r : Option DlExit × DlRx} (h : (blocks (dlSubPdu env mem) fuel p rem st).val = some r) :
    st.rlc <+: r.2.rlc ∧ st.ta <+: r.2.ta := by
  have hstep : ∀ p rem s, st.rlc <+: s.rlc ∧ st.ta <+: s.ta →
      st.rlc <+: (dlSubPdu env mem p rem s).val.2.rlc ∧
        st.ta <+: (dlSubPdu env mem p rem s).val.2.ta := by
    intro p rem s hs
    rw [dlSubPdu_rlc]
    exact ⟨hs.1.trans (prefix_append _ _), hs.2.trans (dlSubPdu_ta env mem p rem s)⟩
  refine blocks_invariant (P := fun _ _ s => st.rlc <+: s.rlc ∧ st.ta <+: s.ta)
    ?_ ?_ (fun _ _ hs => hs)
    ⟨prefix_rfl, prefix_rfl⟩ h
  · intro p rem s len s' _ hs hgo
    have := hstep p rem s hs
    rwa [hgo] at this
  · intro p rem s e s' _ hs hgo
    have := hstep p rem s hs
    rwa [hgo] at this

section Misses

variable {env : UeEnv} {mem : Nat → UInt8} {stop p n : Nat}

lemma rlc_nil_misses {r : Option DlExit × DlRx} {st : DlRx} (h : r.2.rlc = []) :
    ¬ ∃ ind, r.2.rlc = [ind] ∧ ind.len = trapSize ∧ r.2.ta = st.ta := by
  rintro ⟨ind, hrlc, -⟩
  rw [h] at hrlc
  cases hrlc

lemma misses_step
    (h : ∀ st : DlRx, ∃ st', st'.rlc = st.rlc ∧ st'.ta = st.ta ∧
      ((∃ e, (dlSubPdu env mem p (stop - p) st).val = (.stop e, st')) ∨
        (dlSubPdu env mem p (stop - p) st).val = (.go n, st') ∧ Misses env mem stop (p + n))) :
    Misses env mem stop p := by
  intro fuel st r hst hr
  obtain ⟨st', hrlc, hta, hcase⟩ := h st
  rcases blocks_cases hr with ⟨-, heq⟩ | ⟨e, s', hbody, heq⟩ | ⟨len, s', fuel', hbody, hrest⟩
  · exact rlc_nil_misses (by rw [heq, hst])
  · rcases hcase with ⟨e', hstop⟩ | ⟨hgo, -⟩
    · rw [hstop] at hbody
      cases hbody
      exact rlc_nil_misses (by rw [heq, hrlc, hst])
    · rw [hgo] at hbody
      cases hbody
  · rcases hcase with ⟨e', hstop⟩ | ⟨hgo, hmisses⟩
    · rw [hstop] at hbody
      cases hbody
    · rw [hgo] at hbody
      cases hbody
      rw [Nat.sub_sub] at hrest
      rw [← hta]
      exact hmisses fuel' st' r (hrlc.trans hst) hrest

lemma misses_sdu (lcid start : Nat) {len : Nat} (hlen : len ≠ trapSize)
    (h : ∀ st : DlRx, ∃ e st', (dlSubPdu env mem p (stop - p) st).val = (e, st') ∧
      (st'.rlc = st.rlc ++ [⟨lcid, start, len⟩] ∨ (∃ x, e = .stop x) ∧ st'.rlc = st.rlc)) :
    Misses env mem stop p := by
  intro fuel st r hst hr
  have hdone : ∀ st' : DlRx, st'.rlc <+: r.2.rlc → st'.rlc = st.rlc ++ [⟨lcid, start, len⟩] →
      ¬ ∃ ind, r.2.rlc = [ind] ∧ ind.len = trapSize ∧ r.2.ta = st.ta := by
    rintro st' hprefix hrlc ⟨ind, heq, hind, -⟩
    rw [hrlc, hst, nil_append, heq] at hprefix
    obtain ⟨t, ht⟩ := hprefix
    obtain ⟨rfl, -⟩ := List.cons.inj ht
    exact hlen hind
  obtain ⟨next, st', hbody, hcase⟩ := h st
  rcases blocks_cases hr with ⟨-, heq⟩ | ⟨e, s', hbody', heq⟩ | ⟨n, s', fuel', hbody', hrest⟩
  · exact rlc_nil_misses (by rw [heq, hst])
  · rw [hbody] at hbody'
    cases hbody'
    rcases hcase with hrlc | ⟨-, hrlc⟩
    · exact hdone st' (heq ▸ prefix_rfl) hrlc
    · exact rlc_nil_misses (by rw [heq, hrlc, hst])
  · rw [hbody] at hbody'
    cases hbody'
    rcases hcase with hrlc | ⟨⟨x, hx⟩, -⟩
    · exact hdone st' (dlSubPdus_grow hrest).1 hrlc
    · cases hx

lemma misses_ta (hl : dlLcid mem p = .taCommand) : Misses env mem stop p := by
  intro fuel st r hst hr
  have hval : (dlSubPdu env mem p (stop - p) st).val =
      if (mem (p + 1)).toNat / 64 = env.tagId then
        (.go 2, { st with ta := st.ta ++ [(mem (p + 1)).toNat % 64] })
      else (.stop .done, st) := by
    rw [dlSubPdu, val_bind, val_read, ← dlLcid, hl]
    rfl
  rcases blocks_cases hr with ⟨-, heq⟩ | ⟨e, s', hbody, heq⟩ | ⟨n, s', fuel', hbody, hrest⟩
  · exact rlc_nil_misses (by rw [heq, hst])
  · rw [hval] at hbody
    split at hbody
    · cases hbody
    · cases hbody
      exact rlc_nil_misses (by rw [heq, hst])
  · rw [hval] at hbody
    split at hbody
    · cases hbody
      rintro ⟨ind, -, -, hta⟩
      have hle := (dlSubPdus_grow hrest).2.length_le
      rw [hta, length_append, length_singleton] at hle
      omega
    · cases hbody

variable {q : Nat}

theorem misses_behind (htrap : HasBytes mem q trap) (hlt : q < p) :
    Misses env mem (q + (3 + trapSize)) p := by
  by_cases hp : p < q + (3 + trapSize)
  · refine misses_step (n := 0) fun st => ⟨st, rfl, rfl, .inl ⟨.done, dlSubPdu_padding ?_⟩⟩
    rw [dlLcid, (trap_bytes htrap).2 p hlt hp]
    decide
  · intro fuel st r hst hr
    rw [Nat.sub_eq_zero_of_le (Nat.le_of_not_lt hp), blocks_zero] at hr
    cases hr
    exact rlc_nil_misses hst

variable {fuel : Nat} {b : UInt8}

theorem misses_cons (rest : List UInt8) (htrap : HasBytes mem q trap)
    (hb : mem p = b) (hq : p + (1 + rest.length) = q) (hrest : rest.length ≤ 1)
    (hfield : 0 < (macLenAt mem p (q + (3 + trapSize) - p)).macLen ∧
      (macLenAt mem p (q + (3 + trapSize) - p)).macLen ≠ trapSize ∧
      q < p + (macLenAt mem p (q + (3 + trapSize) - p)).size)
    (hnot : dlSkips (fuel + 1) (b :: rest) = false)
    (hnext : ∀ k ≤ rest.length, dlSkips fuel (rest.drop k) = false →
      Misses env mem (q + (3 + trapSize)) (p + (1 + k))) :
    Misses env mem (q + (3 + trapSize)) p := by
  have hlcid : dlLcid mem p = DlLcid.ofCode (b.toNat % 64) := by rw [dlLcid, hb]
  have hval : ∀ st, dlSubPdu env mem p (q + (3 + trapSize) - p) st =
      read mem p >>= fun _ => dlProcessLcid env mem p (q + (3 + trapSize) - p) st (dlLcid mem p) :=
    fun _ => rfl
  -- a CE of a fixed size: on to the rest, or behind the first byte of the trap
  have hfixed : ∀ k, (k ≤ rest.length → dlSkips fuel (rest.drop k) = false) →
      (∀ st, ∃ st' : DlRx, st'.rlc = st.rlc ∧ st'.ta = st.ta ∧
        (dlSubPdu env mem p (q + (3 + trapSize) - p) st).val = (.go (1 + k), st')) →
      Misses env mem (q + (3 + trapSize)) p := by
    intro k hk hgo
    refine misses_step (n := 1 + k) fun st => ?_
    obtain ⟨st', hrlc, hta, heq⟩ := hgo st
    refine ⟨st', hrlc, hta, .inr ⟨heq, ?_⟩⟩
    by_cases hle : k ≤ rest.length
    · exact hnext k hle (hk hle)
    · exact misses_behind htrap (by omega)
  have hskips : ∀ {k : Nat}, (decide (k ≤ rest.length) && dlSkips fuel (rest.drop k)) = false →
      k ≤ rest.length → dlSkips fuel (rest.drop k) = false := by
    intro k h hle
    rwa [decide_eq_true hle, Bool.true_and] at h
  rw [dlSkips] at hnot
  cases hl : DlLcid.ofCode (b.toNat % 64) with
  | padding =>
    exact misses_step (n := 0) fun st =>
      ⟨st, rfl, rfl, .inl ⟨.done, dlSubPdu_padding (hlcid.trans hl)⟩⟩
  | taCommand => exact misses_ta (hlcid.trans hl)
  | conResId =>
    refine hfixed 6 (fun h => by omega) fun st => ?_
    rw [hval, val_bind, hlcid, hl, dlProcessLcid]
    split
    · exact ⟨_, contentionResolution_rlc env _ st, contentionResolution_ta env _ st, rfl⟩
    · exact ⟨st, rfl, rfl, rfl⟩
  | ccch =>
    refine misses_sdu 0 (p + (macLenAt mem p (q + (3 + trapSize) - p)).macSubheaderLen) hfield.2.1
      fun st => ?_
    rw [hval, val_bind, hlcid, hl, dlProcessLcid, val_bind, ← macLenAt, dlCcch]
    by_cases hok : (macLenAt mem p (q + (3 + trapSize) - p)).ok = true
    · rw [if_pos hok, val_bind, ccch_valid hok hfield.1, val_pure, if_pos rfl, if_pos hfield.1]
      exact ⟨_, _, rfl, .inl rfl⟩
    · rw [if_neg hok]
      exact ⟨_, _, rfl, .inr ⟨⟨_, rfl⟩, rfl⟩⟩
  | sdu lcid =>
    refine misses_sdu lcid (p + (macLenAt mem p (q + (3 + trapSize) - p)).macSubheaderLen)
      hfield.2.1 fun st => ?_
    rw [hval, val_bind, hlcid, hl, dlProcessLcid, val_bind, val_pure, ← macLenAt]
    split
    · exact ⟨_, _, rfl, .inl rfl⟩
    · exact ⟨_, _, rfl, .inr ⟨⟨_, rfl⟩, rfl⟩⟩
  | tciStateActUeSpecPdsch | aperiodicCsiTriStateSubsel | spCsiRsCsiImResSetAct | spSrsActivation =>
    refine misses_step fun st =>
      ⟨st, rfl, rfl, .inr ⟨?_, misses_behind htrap hfield.2.2⟩⟩
    rw [hval, val_bind, hlcid, hl]
    rfl
  | _ =>
    rw [hl] at hnot
    refine hfixed _ (hskips hnot) fun st => ⟨st, rfl, rfl, ?_⟩
    rw [hval, val_bind, hlcid, hl]
    rfl

lemma dlSkips_nil (fuel : Nat) : dlSkips fuel [] = true := by
  cases fuel <;> rfl

lemma misses_one (htrap : HasBytes mem q trap) (hb : mem p = b)
    (hq : p + 1 = q) (hF : b.toNat < 64) (hnot : dlSkips (fuel + 1) [b] = false) :
    Misses env mem (q + (3 + trapSize)) p := by
  have hfirst : (mem (p + 1)).toNat = 68 := by rw [hq, (trap_bytes htrap).1]; rfl
  have hmac := @macLenAt_short mem p (q + (3 + trapSize) - p)
    (show (mem p).toNat / 64 % 2 ≠ 1 by rw [hb]; omega) (by omega)
  refine misses_cons [] htrap hb hq (Nat.zero_le _) ?_ hnot fun k hk hfalse => ?_
  · have hsize : trapSize = 63 * 256 + 63 := rfl
    rw [hmac, MacLen.size]
    dsimp only
    omega
  · rw [drop_nil, dlSkips_nil] at hfalse
    cases hfalse

lemma misses_two {c : UInt8} (htrap : HasBytes mem q trap) (hb : mem p = b)
    (hc : mem (p + 1) = c) (hq : p + 2 = q) (hF : b.toNat / 64 % 2 = 1) (hlow : c.toNat < 64)
    (hnot : dlSkips (fuel + 2) [b, c] = false) : Misses env mem (q + (3 + trapSize)) p := by
  have hlast : (mem (p + 2)).toNat = 68 := by rw [hq, (trap_bytes htrap).1]; rfl
  have hmac := @macLenAt_long mem p (q + (3 + trapSize) - p)
    (show (mem p).toNat / 64 % 2 = 1 by rw [hb]; exact hF) (by omega)
  refine misses_cons [c] htrap hb hq (le_refl 1) ?_ hnot fun k hk hfalse => ?_
  · have hsize : trapSize = 63 * 256 + 63 := rfl
    rw [hmac, MacLen.size]
    dsimp only
    omega
  · rcases Nat.le_one_iff_eq_zero_or_eq_one.mp hk with rfl | rfl
    · exact misses_one htrap hc hq hlow hfalse
    · rw [drop_one, tail_cons, dlSkips_nil] at hfalse
      cases hfalse

lemma CsiRsIm.octet1_lt (c : CsiRsIm) : c.octet1 < 256 := by
  rw [octet1, bits, bits, bits]
  omega

lemma CsiRsIm.dlSkips_ce (c : CsiRsIm) : dlSkips c.ce.length c.ce =
    (decide (c.octet1 ≤ c.octets.length) &&
      dlSkips (c.octets.length + 1) (c.octets.drop c.octet1)) := by
  have hsize : lengthFieldSize (subheaderFixed DlLcid.spCsiRsCsiImResSetAct.code)
      (UInt8.ofNat c.octet1 :: c.octets) = 1 + c.octet1 := by
    rw [lengthFieldSize, if_neg (by decide), getD_cons_zero,
      UInt8.toNat_ofNat_of_lt' c.octet1_lt]
  show (decide (lengthFieldSize (subheaderFixed DlLcid.spCsiRsCsiImResSetAct.code)
      (UInt8.ofNat c.octet1 :: c.octets) ≤ c.octets.length + 1) &&
    dlSkips (c.octets.length + 1) ((UInt8.ofNat c.octet1 :: c.octets).drop (lengthFieldSize
      (subheaderFixed DlLcid.spCsiRsCsiImResSetAct.code) (UInt8.ofNat c.octet1 :: c.octets)))) = _
  rw [hsize, Nat.add_comm 1, drop_succ_cons, decide_eq_decide.mpr Nat.add_le_add_iff_right]

lemma CsiRsIm.actDeact_false {c : CsiRsIm} (h : c.octet1 < c.octets.length) :
    c.actDeact = false := by
  by_contra hne
  have hact : c.actDeact = true := Bool.not_eq_false _ ▸ hne
  have hbig : 128 ≤ c.octet1 := by
    rw [octet1, hact, bits, bits, bits]
    show 128 ≤ _ + 1 % 2 ^ 1 * 2 ^ 7
    omega
  have hlen : c.octets.length ≤ 66 := by
    have := c.bounded
    rw [octets, if_pos hact, length_cons, length_append, length_map]
    split
    · rw [length_singleton]; omega
    · rw [length_nil]; omega
  omega

theorem misses_csiIm {c : CsiRsIm} (htrap : HasBytes mem q trap) (hmem : HasBytes mem p c.ce)
    (hq : p + c.ce.length = q) (hnot : ¬ DlSkipped c.ce) :
    Misses env mem (q + (3 + trapSize)) p := by
  rw [DlSkipped, Bool.not_eq_true, c.dlSkips_ce] at hnot
  obtain ⟨hb, hrest⟩ := hasBytes_cons.mp hmem
  obtain ⟨ho, hoctets⟩ := hasBytes_cons.mp hrest
  have hlen : c.ce.length = c.octets.length + 2 := rfl
  have hone : (mem (p + 1)).toNat = c.octet1 := by
    rw [ho, UInt8.toNat_ofNat_of_lt' c.octet1_lt]
  -- the parser goes on behind the bytes that the first octet announces
  refine misses_step (n := 2 + c.octet1) fun st => ⟨st, rfl, rfl, .inr ⟨?_, ?_⟩⟩
  · have hsize : (macLenAt mem p (q + (3 + trapSize) - p)).size = 2 + c.octet1 := by
      rw [macLenAt_short (by rw [hb]; decide) (by omega), hone]
      rfl
    rw [dlSubPdu, val_bind, val_read, hb]
    show (Next.go (macLenAt mem p (q + (3 + trapSize) - p)).size, st) = _
    rw [hsize]
  · rcases Nat.lt_trichotomy c.octet1 c.octets.length with hlt | heq | hgt
    · -- inside the CE, which is no activation
      have hact := c.actDeact_false hlt
      have hocts : c.octets = UInt8.ofNat (bits 6 0 c.nzpCsiRscId.toNat + bits 1 6 c.im.toNat) ::
          if c.im then [UInt8.ofNat (bits 6 0 c.csiImRscId.toNat)] else [] := by
        rw [CsiRsIm.octets, hact, if_neg Bool.false_ne_true, append_nil]
      have hlow : ∀ x : Nat, (UInt8.ofNat (bits 6 0 x)).toNat < 64 := by
        intro x
        rw [bits, UInt8.toNat_ofNat_of_lt' (by show _ < 256; omega)]
        omega
      cases him : c.im with
      | false =>
        rw [him, if_neg Bool.false_ne_true] at hocts
        rw [hocts] at hnot hlt hlen hoctets
        obtain hzero : c.octet1 = 0 := by
          rw [length_singleton] at hlt
          omega
        rw [hzero] at hnot ⊢
        refine misses_one htrap (hasBytes_cons.mp hoctets).1 ?_ (hlow _) hnot
        rw [← hq, hlen]
        rfl
      | true =>
        rw [him, if_pos rfl] at hocts
        rw [hocts] at hnot hlt hlen hoctets
        obtain ⟨h₁, h₂⟩ := hasBytes_cons.mp hoctets
        have hF : (UInt8.ofNat (bits 6 0 c.nzpCsiRscId.toNat + bits 1 6 true.toNat)).toNat / 64 % 2
            = 1 := by
          rw [bits, bits, UInt8.toNat_ofNat_of_lt' (by
            show _ + 1 % 2 ^ 1 * 2 ^ 6 < 256; omega)]
          show (_ + 1 % 2 ^ 1 * 2 ^ 6) / 64 % 2 = 1
          omega
        rcases Nat.le_one_iff_eq_zero_or_eq_one.mp (Nat.le_of_lt_succ hlt) with hzero | hone
        · rw [hzero] at hnot ⊢
          refine misses_two htrap h₁ (hasBytes_cons.mp h₂).1 ?_ hF (hlow _) hnot
          rw [← hq, hlen]
          rfl
        · rw [hone] at hnot ⊢
          refine misses_one htrap (hasBytes_cons.mp h₂).1 ?_ (hlow _) hnot
          rw [← hq, hlen]
          rfl
    · rw [heq, decide_eq_true (le_refl _), Bool.true_and,
        drop_eq_nil_of_le (le_refl _), dlSkips_nil] at hnot
      cases hnot
    · exact misses_behind htrap (by omega)

end Misses

/-! ## The round trip -/

lemma trap_lost {env : UeEnv} {ra : UeRa} (hra : ra.ParsesDlSch) {crnti : Nat}
    {ces : List UInt8} {c : CsiRsIm} {tas : List Nat} (hrow : DlRow env ces [] tas)
    (hnot : ¬ DlSkipped c.ce) (n : Nat) :
    ¬ DlRoundTrip env ra crnti tas ⟨ces ++ c.ce ++ trap, [(4, List.replicate trapSize 0x3F)], n⟩ := by
  intro h
  obtain ⟨st, hval, hdecoded, -⟩ := h _ (hasBytes_getD _)
  generalize hmem : (fun i => (ces ++ c.ce ++ trap).getD i 0) = mem at hval hdecoded
  have hholds : HasBytes mem 0 (ces ++ c.ce ++ trap) := hmem ▸ hasBytes_getD _
  obtain ⟨hbefore, htrap⟩ := hasBytes_append.mp hholds
  obtain ⟨hces, hce⟩ := hasBytes_append.mp hbefore
  rw [Nat.zero_add] at htrap hce
  -- up to the CE, and from there it misses the trap
  have hlen : (ces ++ c.ce ++ trap).length = (ces ++ c.ce).length + (3 + trapSize) := by
    rw [length_append, length_trap]
  obtain ⟨st₀, hleads, hdecoded₀⟩ := hrow mem 0 _ ({ ra, crnti } : DlRx) hces
    (show ces.length ≤ (ces ++ c.ce ++ trap).length by
      rw [length_append, length_append]; omega)
  obtain ⟨fuel, -, hblocks⟩ := hleads.blocks (dlSubPdu_progress env mem) (le_refl _)
  rw [nrUeProcessMacPdu_blocks env mem _ hra, hblocks, Nat.zero_add, hlen, Option.map_eq_some_iff]
    at hval
  obtain ⟨r, hr, hst⟩ := hval
  have hrlc₀ : st₀.rlc = [] := map_eq_nil_iff.mp (congrArg Prod.fst hdecoded₀)
  have hta₀ : st₀.ta = tas := congrArg Prod.snd hdecoded₀
  apply misses_csiIm htrap hce length_append.symm hnot fuel st₀ r hrlc₀ hr
  rw [congrArg Prod.snd hst, hta₀]
  have hrlc := congrArg Prod.fst hdecoded
  obtain ⟨ind, rest, heq, hind, hnil⟩ := map_eq_cons_iff.mp hrlc
  refine ⟨ind, by rw [heq, map_eq_nil_iff.mp hnil], ?_, congrArg Prod.snd hdecoded⟩
  have hlength := congrArg (fun x => x.2.length) hind
  rwa [length_slice, length_replicate] at hlength

/-- **Downlink round trip.**  For every configuration of MAC CEs: ALL transport blocks, whatever the
logical channels, the data, the padding and the size, make the round trip IF AND ONLY IF the UE cuts
the CSI-RS / CSI-IM CE, when it is scheduled, the way it was written. -/
theorem dl_mac_pdu_round_trip_iff {env : UeEnv} {tagId : Nat} (htag : env.tagId = tagId % 4)
    {ra : UeRa} (hra : ra.ParsesDlSch) (crnti : Nat) {ctl : CeCtrl} {drxCmd : Nat}
    {id : Option (Vector UInt8 6)} {r1 : Nat} {ces : List UInt8}
    (hces : nrWriteCeDlschPdu tagId ctl drxCmd id r1 = some ces) :
    (∀ (ρ : Type) (src : RlcSource ρ) (cfg : DlDataCfg) (s : ρ) (tbs : Nat), ces.length < tbs →
      ∃ tb, fillTransportBlock src cfg tbs ces s = some tb ∧ tb.bytes.length = tbs ∧
        DlRoundTrip env ra crnti ctl.tas tb) ↔
      (ctl.csiIm.isScheduled = true → DlSkipped ctl.csiIm.ce) := by
  obtain ⟨bs, rfl, hrow⟩ := nrWriteCeDlschPdu_row htag hces
  constructor
  · intro h hscheduled
    by_contra hnot
    rw [CeCtrl.csiImCe, if_pos hscheduled] at h
    have hsize : (List.replicate trapSize (0x3F : UInt8)).length = trapSize := length_replicate
    obtain ⟨tb, hfill, -, htrip⟩ := h Bool
      (onePdu (List.replicate trapSize 0x3F) (by rw [hsize]; decide))
      (oneChannel (List.replicate trapSize (0x3F : UInt8)).length) true
      ((bs ++ ctl.csiIm.ce).length + (3 + (List.replicate trapSize (0x3F : UInt8)).length))
      (Nat.lt_add_of_pos_right (Nat.add_pos_left (by decide) _))
    rw [fillTransportBlock_onePdu _ (by rw [hsize]; decide)] at hfill
    obtain rfl := Option.some.inj hfill
    rw [hsize, ← trap] at htrip
    exact trap_lost hra hrow hnot _ htrip
  · intro hskipped ρ src cfg s tbs htbs
    have hcsi : DlRow env ctl.csiImCe [] [] := .ite fun h => (hskipped h).row env
    obtain ⟨row, pad, sdus, hfill, hlen, hadded, hpad⟩ :=
      fillTransportBlock_spec env src cfg s htbs
    refine ⟨_, hfill, hlen, DlRow.roundTrip hra crnti ?_ hpad⟩
    have hall := (hrow.append hcsi).append hadded
    simp only [append_nil, nil_append] at hall
    exact hall

/-- A timing advance, and no other CE. -/
def onlyTa : CeCtrl where
  taApply := true
  taUpdate := 31
  pdcchStateInd := ⟨false, 0, 0, 0⟩
  spCsiReportingPucch := ⟨false, 0, 0, fun _ => false⟩
  pdschTciStatesActDeact := ⟨false, 0, 0, 0, fun _ => false⟩
  aperiCsiTrigger := ⟨false, 0, 0, 0, fun _ => false⟩
  spZpCsiRs := ⟨false, false, 0, 0, 0⟩
  csiIm := ⟨false, false, 0, 0, false, 0, 0, [], by decide⟩

/-- A UE whose random access has succeeded. -/
def raIdle : UeRa := ⟨false, .succeeded, false, false, 0, 0, 0, 0, 0, 0, 0⟩

theorem dl_mac_pdu_round_trip_ta : ∃ tb,
    fillTransportBlock (onePdu [1, 2, 3] (by decide)) (oneChannel 3) 20 [0x3D, 31] true = some tb ∧
      tb.taken = [(4, [1, 2, 3])] ∧ tb.written = 8 ∧
      DlRoundTrip ⟨0, [], false⟩ raIdle 1 [31] tb := by
  obtain ⟨tb, hfill, -, htrip⟩ := (dl_mac_pdu_round_trip_iff
    (show (⟨0, [], false⟩ : UeEnv).tagId = 0 % 4 from rfl) (show raIdle.ParsesDlSch from rfl) 1
    (show nrWriteCeDlschPdu 0 onlyTa 255 none 0 = some [0x3D, 31] from rfl)).mpr nofun Bool
    (onePdu [1, 2, 3] (by decide)) (oneChannel 3) true 20 (by decide)
  refine ⟨tb, hfill, ?_, ?_, htrip⟩
  · obtain rfl := Option.some.inj hfill
    rfl
  · obtain rfl := Option.some.inj hfill
    rfl

/-- The CE for CSI-RS and CSI-IM, and no other. -/
def onlyCsiIm : CeCtrl :=
  { onlyTa with
    taApply := false
    csiIm := ⟨true, true, 0, 1, false, 0, 1, [0], by decide⟩ }

theorem dl_mac_pdu_csi_im_lost : ∃ tb,
    nrWriteCeDlschPdu 0 onlyCsiIm 255 none 0 = some [0x37, 0x81, 1, 0] ∧
      fillTransportBlock (onePdu [1, 2, 3] (by decide)) (oneChannel 3) 20 [0x37, 0x81, 1, 0] true =
        some tb ∧
      tb.taken = [(4, [1, 2, 3])] ∧
      (nrUeProcessMacPdu ⟨0, [], false⟩ (fun i => tb.bytes.getD i 0) 20 raIdle 1).val =
        some (.done, ⟨raIdle, 1, [], []⟩) ∧
      ¬ DlRoundTrip ⟨0, [], false⟩ raIdle 1 [] tb := by
  have hval : (nrUeProcessMacPdu ⟨0, [], false⟩ (fun i => [0x37, 0x81, 1, 0, 0x44, 0, 3, 1, 2, 3,
      0x3F, 0, 0, 0, 0, 0, 0, 0, 0, 0].getD i 0) 20 raIdle 1).val =
      some (.done, ⟨raIdle, 1, [], []⟩) := by
    decide
  refine ⟨⟨[0x37, 0x81, 1, 0, 0x44, 0, 3, 1, 2, 3, 0x3F, 0, 0, 0, 0, 0, 0, 0, 0, 0],
    [(4, [1, 2, 3])], 10⟩, rfl, rfl, rfl, hval, fun h => ?_⟩
  obtain ⟨st, hst, hdecoded, -⟩ := h _ (hasBytes_getD _)
  obtain rfl := congrArg Prod.snd (Option.some.inj (hval.symm.trans hst))
  cases congrArg Prod.fst hdecoded

end NrStack.Mac
