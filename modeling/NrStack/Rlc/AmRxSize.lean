/-
  What `rx_size` counts (`recv_pdu`, `reassemble_and_deliver`, the clean-up of `reception_actions`).

  `rx_size` is meant to be the size of the segments in `rx_list` that were not delivered.  The clean-up of
  delivered SDUs at the head of the list subtracts nothing.  But a segment with a byte that none of the
  delivered ones had is still accepted: stored behind the first entry of its SN, it is never delivered, and
  when the clean-up reaches its SN its size stays in `rx_size` (`Leak`).
-/
import NrStack.Rlc.AmReceive
import NrStack.Rlc.Stretches

namespace NrStack.Rlc.Am

open List Circular

/-! ## The sum -/

/-- What an entry adds to the sum: nothing when its data was delivered. -/
def heldSize (l : RxPdu) : Nat := if l.data = none then 0 else l.size

/-- The size of the entries whose data has not yet been delivered. -/
def undelivered (list : List RxPdu) : Nat := (list.map heldSize).sum

lemma undelivered_cons (l : RxPdu) (list : List RxPdu) :
    undelivered (l :: list) = heldSize l + undelivered list := rfl

lemma undelivered_append (xs ys : List RxPdu) :
    undelivered (xs ++ ys) = undelivered xs + undelivered ys := by
  rw [undelivered, map_append, sum_append, undelivered, undelivered]

lemma undelivered_pduListAdd (snCompare : Nat → Nat → Int) (list : List RxPdu) (pdu : RxPdu) :
    undelivered (pduListAdd snCompare list pdu) = undelivered list + heldSize pdu := by
  rw [undelivered, ((pduListAdd_perm snCompare list pdu).map heldSize).sum_nat, Nat.add_comm]
  rfl

lemma undelivered_freed (list : List RxPdu) : undelivered (list.map freed) = 0 := by
  induction list with
  | nil => rfl
  | cons l rest ih => rw [map_cons, undelivered_cons, ih]; rfl

variable {list : List RxPdu} {e : Entity}

lemma undelivered_of_data (h : ∀ l ∈ list, l.data ≠ none) :
    undelivered list = (list.map (·.size)).sum := by
  rw [undelivered]
  congr 1
  refine map_congr_left fun l hl => ?_
  rw [heldSize, if_neg (h l hl)]

theorem undelivered_freeSegments {sn : Nat} (h : ∀ l ∈ segmentsOf list sn, l.data ≠ none) :
    undelivered (freeSegments freed list sn) + segmentsSize list sn = undelivered list := by
  conv_rhs => rw [split_segmentsOf list sn]
  rw [freeSegments, undelivered_append, undelivered_append, undelivered_freed, undelivered_append,
    undelivered_append, undelivered_of_data h, segmentsSize]
  omega

lemma undelivered_eq_zero (hpos : ∀ l ∈ list, l.data ≠ none → 0 < l.size) :
    undelivered list = 0 ↔ ∀ l ∈ list, l.data = none := by
  induction list with
  | nil => exact ⟨nofun, fun _ => rfl⟩
  | cons l rest ih =>
    have hrest := ih fun x hx => hpos x (mem_cons_of_mem _ hx)
    rw [undelivered_cons, forall_mem_cons, ← hrest, heldSize]
    split
    · next hnone => exact ⟨fun hsum => ⟨hnone, by omega⟩, fun hall => by omega⟩
    · next hdata =>
      have hl := hpos l mem_cons_self hdata
      exact ⟨fun hsum => by omega, fun hall => absurd hall.1 hdata⟩

/-! ## The first entry of an SN -/

section First

variable {M base h : Nat} {list : List RxPdu}

variable {sn : Nat} {snCompare : Nat → Nat → Int} {pdu : RxPdu}

lemma find_pduListAdd {l : RxPdu}
    (hcmp : ∀ a b, snCompare a b = (dist M base a : Int) - dist M base b)
    (hord : Ordered M base h list) (hfind : list.find? (hasSn sn) = some l) (hso : l.so = 0) :
    (pduListAdd snCompare list pdu).find? (hasSn sn) = some l := by
  have hl : l.sn = sn := hasSn_iff.mp (find?_some hfind)
  obtain ⟨-, hsorted⟩ := hord
  induction list with
  | nil => cases hfind
  | cons cur rest ih =>
    obtain ⟨hhead, htail⟩ := pairwise_cons.mp hsorted
    by_cases hcur : cur.sn = sn
    · rw [find?_cons_of_pos (hasSn_iff.mpr hcur)] at hfind
      obtain rfl := Option.some.inj hfind
      rw [pduListAdd]
      split
      · next hgt =>
        rw [hcmp] at hgt
        by_cases hpdu : pdu.sn = sn
        · -- the new PDU cannot stand in front of offset 0
          rw [hcur, hpdu] at hgt
          omega
        · rw [find?_cons_of_neg (fun hd => hpdu (hasSn_iff.mp hd)),
            find?_cons_of_pos (hasSn_iff.mpr hcur)]
      · rw [find?_cons_of_pos (hasSn_iff.mpr hcur)]
    · rw [find?_cons_of_neg (fun hd => hcur (hasSn_iff.mp hd))] at hfind
      rw [pduListAdd]
      split
      · next hgt =>
        have hpdu : pdu.sn ≠ sn := by
          -- cur stands in front of an entry of sn
          intro hpdu
          have hbefore := (hhead l (mem_of_find?_eq_some hfind)).dist_le
          rw [hcmp, hpdu] at hgt
          rw [hl] at hbefore
          omega
        rw [find?_cons_of_neg (fun hd => hpdu (hasSn_iff.mp hd)),
          find?_cons_of_neg (fun hd => hcur (hasSn_iff.mp hd)), hfind]
      · rw [find?_cons_of_neg (fun hd => hcur (hasSn_iff.mp hd))]
        exact ih hfind htail

lemma find_of_segmentsOf {l : RxPdu} {rest : List RxPdu} (hseg : segmentsOf list sn = l :: rest) :
    list.find? (hasSn sn) = some l := by
  have hl : l.sn = sn := mem_segmentsOf (hseg ▸ mem_cons_self)
  rw [split_segmentsOf list sn, hseg, append_assoc, find?_append,
    find_hasSn_none (before_segmentsOf list sn), Option.none_or, cons_append,
    find?_cons_of_pos (hasSn_iff.mpr hl)]

lemma find_freeSn (sn x : Nat) :
    (list.map (freeSn x)).find? (hasSn sn) = (list.find? (hasSn sn)).map (freeSn x) := by
  have hsame : hasSn sn ∘ freeSn x = hasSn sn := by
    funext l
    show hasSn sn (freeSn x l) = hasSn sn l
    rw [freeSn]
    split <;> rfl
  rw [find?_map, hsame]

lemma delivered_pduListAdd
    (hcmp : ∀ a b, snCompare a b = (dist M base a : Int) - dist M base b)
    (hord : Ordered M base h list) (hm : Stretches list) (hdel : sduDelivered list sn = true) :
    sduDelivered (NrStack.Rlc.pduListAdd snCompare list pdu) sn = true := by
  rw [sduDelivered] at hdel ⊢
  cases hfind : list.find? (hasSn sn) with
  | none =>
    rw [hfind] at hdel
    cases hdel
  | some first =>
    rw [hfind] at hdel
    have hso := hm.runs.front (by simp) hfind (of_decide_eq_true hdel)
    rw [find_pduListAdd hcmp hord hfind hso]
    exact hdel

end First

/-! ## The clean-up -/

section CleanUp

variable {M base h k : Nat} {list dropped kept : List RxPdu}

section

variable (hf : Freed M base h list k dropped kept) (hbase : base < M) (hM : h < M)
include hf hbase hM

lemma Freed.kept_ge :
    ∀ l ∈ kept, k ≤ dist M base l.sn := by
  intro l hl
  obtain ⟨hlM, hlt⟩ := hf.ordered.within l hl
  by_contra hbehind
  rw [dist_add_left_behind hlM hbase (Nat.lt_of_not_le hbehind) (by omega)] at hlt
  omega

lemma Freed.apart :
    ∀ x ∈ dropped, ∀ y ∈ kept, x.sn ≠ y.sn := by
  intro x hx y hy heq
  have hlow := hf.below x hx
  have hge := hf.kept_ge hbase hM y hy
  rw [heq] at hlow
  omega

theorem Freed.mem_dropped {l : RxPdu} (hl : l ∈ list) (hlM : l.sn < M) :
    l ∈ dropped ↔ ∀ n ≤ dist M base l.sn, sduDelivered list ((base + n) % M) = true := by
  have hlt := dist_lt hlM hbase
  constructor
  · intro hdrop n hn
    have hbelow := hf.below l hdrop
    apply hf.delivered _ (Nat.mod_lt _ (by omega))
    rw [dist_add_right hbase (by omega)]
    omega
  · intro hall
    have hl' := hl
    rw [hf.split] at hl'
    refine (mem_append.mp hl').resolve_right fun hkept => ?_
    -- the SDU at which the clean-up stopped is not delivered
    have hge := hf.kept_ge hbase hM l hkept
    have hdel := hall k hge
    rw [hf.split, sduDelivered_skip, hf.pending] at hdel
    · cases hdel
    · intro x hx heq
      have hbelow := hf.below x hx
      rw [heq, dist_add_right hbase (by omega)] at hbelow
      omega

end

end CleanUp

/-! ## What a data PDU does to `rx_size` -/

/-- A segment completes the SDU at `rx_next`, and in the delivered SDUs that follow it without a gap
there is an entry with data. -/
def Leak (cfg : Config) (rx : Rx) (pdu : RxPdu) : Prop :=
  Accepted cfg rx pdu ∧ pdu.sn = rx.rxNext ∧
    sduFull (pduListAdd (snCompareRx cfg rx) rx.rxList pdu) pdu.sn = true ∧
    ∃ l ∈ rx.rxList, l.data ≠ none ∧ l.sn ≠ rx.rxNext ∧ ∀ n ≤ modulusRx cfg rx l.sn, 0 < n →
      sduDelivered rx.rxList ((rx.rxNext + n) % cfg.snModulus) = true

section Reception

variable {cfg : Config} {rx rx' : Rx} {pdu : RxPdu}

lemma stored_list (cfg : Config) (rx : Rx) (pdu : RxPdu) :
    (stored cfg rx pdu).rxList = pduListAdd (snCompareRx cfg rx) rx.rxList pdu := by
  rw [stored_eq]

theorem leak_iff (hcfg : cfg.Legal) (hinv : RxInv cfg rx) (hm : Stretches rx.rxList)
    (hdata : pdu.data ≠ none) (hsn : pdu.sn < cfg.snModulus) (hacc : Accepted cfg rx pdu)
    (hfull : sduFull (pduListAdd (snCompareRx cfg rx) rx.rxList pdu) pdu.sn = true) {k : Nat}
    {dropped kept : List RxPdu}
    (hf : Freed cfg.snModulus rx.rxNext (modulusRx cfg rx (stored cfg rx pdu).rxNextHighest)
      (freeSegments freed (pduListAdd (snCompareRx cfg rx) rx.rxList pdu) pdu.sn) k dropped kept) :
    Leak cfg rx pdu ↔ ∃ l ∈ dropped, l.data ≠ none := by
  have hMW := hcfg.window
  have hinv' := hinv.stored hcfg hsn hacc.window hdata
  have hhigh := hinv'.highest_le
  have hord := hinv'.ordered
  rw [modulusRx, stored_next] at hhigh
  rw [stored_next, stored_list] at hord
  have hbase := hinv.next_lt
  have hM : modulusRx cfg rx (stored cfg rx pdu).rxNextHighest < cfg.snModulus := by
    rw [modulusRx]
    omega
  generalize hadd : pduListAdd (snCompareRx cfg rx) rx.rxList pdu = list at *
  -- other SDUs are delivered behind the delivery when they were before
  have hother : ∀ sn, sn ≠ pdu.sn →
      (sduDelivered (freeSegments freed list pdu.sn) sn = true ↔ sduDelivered rx.rxList sn = true) := by
    intro sn hne
    rw [sduDelivered_freeSegments hne, ← hadd]
    exact ⟨sduDelivered_pduListAdd hdata,
      delivered_pduListAdd (fun a b => rfl) hinv.ordered hm⟩
  obtain ⟨first, rest, hseg, -, -⟩ := front_of_sduFull hfull
  have hown : sduDelivered (freeSegments freed list pdu.sn) pdu.sn = true := by
    have hfirst := find_of_segmentsOf hseg
    rw [hord.freeSegments_eq hbase, sduDelivered, find_freeSn, hfirst, Option.map_some, freeSn,
      if_pos (hasSn_iff.mp (find?_some hfirst))]
    rfl
  have hmem : ∀ l : RxPdu, l.data ≠ none →
      (l ∈ freeSegments freed list pdu.sn ↔ l ∈ rx.rxList ∧ l.sn ≠ pdu.sn) := by
    intro l hl
    rw [hord.freeSegments_eq hbase, mem_map]
    constructor
    · rintro ⟨l₀, hl₀, rfl⟩
      rw [freeSn] at hl ⊢
      split at hl
      · exact absurd rfl hl
      · next hne =>
        rw [if_neg hne]
        rw [← hadd] at hl₀
        refine ⟨(mem_pduListAdd.mp hl₀).resolve_left fun heq => hne (heq ▸ rfl), hne⟩
    · rintro ⟨hin, hne⟩
      refine ⟨l, ?_, by rw [freeSn, if_neg hne]⟩
      rw [← hadd]
      exact mem_pduListAdd.mpr (.inr hin)
  constructor
  · rintro ⟨-, hnext, -, l, hl, hld, hlne, hrun⟩
    have hin := (hmem l hld).mpr ⟨hl, hnext ▸ hlne⟩
    have hlM := (hinv.ordered.within l hl).1
    refine ⟨l, (hf.mem_dropped hbase hM hin hlM).mpr ?_, hld⟩
    intro n hn
    rcases Nat.eq_zero_or_pos n with rfl | hpos
    · rw [Nat.add_zero, Nat.mod_eq_of_lt hbase, ← hnext]
      exact hown
    · refine (hother _ ?_).mpr (hrun n hn hpos)
      intro heq
      have hdist := dist_add_right hbase (lt_of_le_of_lt hn (dist_lt hlM hbase))
      rw [heq, hnext, dist_self] at hdist
      omega
  · rintro ⟨l, hdrop, hld⟩
    have hin : l ∈ freeSegments freed list pdu.sn := by
      rw [hf.split]
      exact mem_append_left _ hdrop
    obtain ⟨hl, hlne⟩ := (hmem l hld).mp hin
    have hlM := (hinv.ordered.within l hl).1
    have hrun := (hf.mem_dropped hbase hM hin hlM).mp hdrop
    have hnext : pdu.sn = rx.rxNext := by
      by_contra hne
      have hzero := hrun 0 (Nat.zero_le _)
      rw [Nat.add_zero, Nat.mod_eq_of_lt hbase, hother _ (fun heq => hne heq.symm),
        hinv.next_pending] at hzero
      cases hzero
    refine ⟨hacc, hnext, hadd ▸ hfull, l, hl, hld, hnext ▸ hlne, ?_⟩
    intro n hn hpos
    refine (hother _ ?_).mp (hrun n hn)
    intro heq
    have hdist := dist_add_right hbase (lt_of_le_of_lt hn (dist_lt hlM hbase))
    rw [heq, hnext, dist_self] at hdist
    omega

lemma stored_stretches (hacc : Accepted cfg rx pdu) (hwhole : pdu.Whole) (h : Stretches rx.rxList) :
    Stretches (stored cfg rx pdu).rxList := by
  rw [stored_list]
  refine h.pduListAdd (fun a => ?_) hwhole hacc.size
  rw [snCompareRx]
  omega

theorem Reception.stretches (hcfg : cfg.Legal) (hinv : RxInv cfg rx) (hsn : pdu.sn < cfg.snModulus)
    (hwhole : pdu.Whole) (h : Stretches rx.rxList) (hrec : Reception cfg rx pdu rx') :
    Stretches rx'.rxList := by
  cases hrec with
  | discarded => exact h
  | kept hacc => exact stored_stretches hacc hwhole h
  | full hacc hfull hf =>
    have hMW := hcfg.window
    have hhigh := (hinv.stored hcfg hsn hacc.window hwhole.ne_none).highest_le
    rw [modulusRx, stored_next] at hhigh
    have hfreed := (stored_stretches hacc hwhole h).freeSegments freed (fun _ => rfl) (fun _ => rfl)
      (fun _ => rfl) hfull
    rw [hf.split] at hfreed
    refine hfreed.drop fun x hx y hy => hf.apart hinv.next_lt ?_ x hx y (mem_of_mem_head? hy)
    rw [modulusRx]
    omega

theorem Reception.size (hcfg : cfg.Legal) (hinv : RxInv cfg rx) (hm : Stretches rx.rxList)
    (hwhole : pdu.Whole) (hsn : pdu.sn < cfg.snModulus) (hsize : rx.rxSize = undelivered rx.rxList)
    (hrec : Reception cfg rx pdu rx') : rx'.rxSize = undelivered rx'.rxList ↔ ¬ Leak cfg rx pdu := by
  have hheld : heldSize pdu = pdu.size := if_neg hwhole.ne_none
  have hadd : undelivered (stored cfg rx pdu).rxList = undelivered rx.rxList + pdu.size := by
    rw [stored_list, undelivered_pduListAdd, hheld]
  cases hrec with
  | discarded hnot => exact ⟨fun _ hleak => hnot hleak.1, fun _ => hsize⟩
  | @kept start trigger hacc hpart =>
    refine ⟨fun _ hleak => ?_, fun _ => ?_⟩
    · rw [stored_list, hleak.2.2.1] at hpart
      cases hpart
    · show (stored cfg rx pdu).rxSize = undelivered (stored cfg rx pdu).rxList
      rw [hadd, stored_eq, hsize]
      rfl
  | @full status k dropped left start trigger hacc hfull hf =>
    have hstored := stored_stretches hacc hwhole hm
    have hsum := undelivered_freeSegments fun l hl => (hstored.whole_of_full hfull l hl).ne_none
    have hsplit := congrArg undelivered hf.split
    rw [undelivered_append] at hsplit
    have hrx : ((afterFull cfg (stored cfg rx pdu) pdu.sn status k left).timed start trigger).rxSize =
        rx.rxSize + pdu.size - segmentsSize (stored cfg rx pdu).rxList pdu.sn := by
      show (stored cfg rx pdu).rxSize - _ = _
      rw [stored_eq]
    have hgap : ((afterFull cfg (stored cfg rx pdu) pdu.sn status k left).timed start trigger).rxSize =
        undelivered left + undelivered dropped := by
      omega
    have hpos : ∀ l ∈ dropped, l.data ≠ none → 0 < l.size := by
      intro l hl hdata
      have hfreed := hstored.freeSegments freed (fun _ => rfl) (fun _ => rfl) (fun _ => rfl) hfull
      rw [hf.split] at hfreed
      obtain ⟨data, hsome⟩ := Option.ne_none_iff_exists'.mp hdata
      exact (hfreed.sized l (mem_append_left _ hl) data hsome).2
    rw [stored_list] at hfull hf
    rw [hgap, leak_iff hcfg hinv hm hwhole.ne_none hsn hacc hfull hf]
    show (undelivered left + undelivered dropped : Int) = undelivered left ↔ _
    have hzero := undelivered_eq_zero hpos
    constructor
    · rintro heq ⟨l, hl, hld⟩
      exact hld (hzero.mp (by omega) l hl)
    · intro hno
      have hnone : ∀ l ∈ dropped, l.data = none := by
        intro l hl
        by_contra hld
        exact hno ⟨l, hl, hld⟩
      rw [hzero.mpr hnone]
      rfl

lemma Reception.room (hroom : rx.rxSize ≤ max cfg.rxMaxsize 0) (hrec : Reception cfg rx pdu rx') :
    rx'.rxSize ≤ max cfg.rxMaxsize 0 := by
  have hstored : (stored cfg rx pdu).rxSize = rx.rxSize + pdu.size := by rw [stored_eq]
  cases hrec with
  | discarded => exact hroom
  | kept hacc =>
    have := hacc.room
    show (stored cfg rx pdu).rxSize ≤ _
    omega
  | full hacc =>
    have := hacc.room
    show (stored cfg rx pdu).rxSize - (segmentsSize _ _ : Nat) ≤ _
    omega

end Reception

/-! ## Runs -/

/-- The segment of a data PDU that reaches the last four discards of `recv_pdu`. -/
def dataPdu (cfg : Config) (buffer : List UInt8) : Option RxPdu :=
  match (PduDecoder.init buffer buffer.length).read 1 with
  | .error _ => none
  | .ok (dc, d) =>
    if dc = 0 then none
    else match d.read 1 with
      | .error _ => none
      | .ok (_, d) =>
        match readDataHeader cfg d with
        | .error _ => none
        | .ok (si, sn, so, d) =>
          if !(si &&& 2 == 0) && so == 0 then none
          else some (newPdu sn so (si &&& 2 == 0) (si &&& 1 == 0) (buffer.drop d.byte))

lemma dataPdu_whole {cfg : Config} {buffer : List UInt8} {pdu : RxPdu}
    (h : dataPdu cfg buffer = some pdu) : pdu.Whole := by
  simp only [dataPdu] at h
  split at h
  · cases h
  split at h
  · cases h
  split at h
  · cases h
  split at h
  · cases h
  split at h
  · cases h
  · rw [← Option.some.inj h]
    exact newPdu_whole ..

theorem recvPdu_reception (h : ReceiverInv e) (buffer : List UInt8) :
    ∃ e', recvPdu e buffer = some e' ∧ e'.cfg = e.cfg ∧ ∃ rx' p, e'.rx = triggerStatus rx' p ∧
      match dataPdu e.cfg buffer with
      | none => rx' = e.rx
      | some pdu => pdu.Whole ∧ pdu.sn < e.cfg.snModulus ∧ Reception e.cfg e.rx pdu rx' := by
  have hsame : ∀ rx : Rx, rx = triggerStatus rx false := by
    intro rx
    rw [triggerStatus, Bool.or_false]
  rw [recvPdu, dataPdu]
  rcases PduDecoder.read_cases (PduDecoder.At.init buffer) (w := 1) (by omega) with
    herr | ⟨dc, d, hread, -, hd, -⟩
  · simp only [herr]
    exact ⟨e, rfl, rfl, e.rx, false, hsame _, rfl⟩
  simp only [hread]
  split
  · rw [processControlPdu]
    rcases readStatus_cases h.legal buffer with herr | ⟨s, hs, -⟩
    · simp only [herr]
      exact ⟨e, rfl, rfl, e.rx, false, hsame _, rfl⟩
    · simp only [hs]
      exact ⟨_, rfl, rfl, e.rx, false, hsame _, rfl⟩
  rw [recvDataPdu]
  rcases PduDecoder.read_cases hd (w := 1) (by omega) with herr | ⟨p, d₁, hread₁, -, h₁, -⟩
  · simp only [herr]
    exact ⟨_, rfl, rfl, e.rx, true, rfl, rfl⟩
  simp only [hread₁]
  rcases readDataHeader_cases h.legal h₁ with herr | ⟨si, sn, so, d₂, hread₂, hsn⟩
  · simp only [herr]
    exact ⟨_, rfl, rfl, e.rx, p != 0, rfl, rfl⟩
  simp only [hread₂]
  split
  · exact ⟨_, rfl, rfl, e.rx, p != 0, rfl, rfl⟩
  · obtain ⟨rx', hrec, hreception, -, -⟩ := recvSegment_spec h.legal h.rx h.timer e.tCurrent hsn so
      (si &&& 2 == 0) (si &&& 1 == 0) (buffer.drop d₂.byte)
    rw [hrec]
    exact ⟨_, rfl, rfl, rx', p != 0, rfl, newPdu_whole .., hsn, hreception⟩

lemma setTime_reception {e' : Entity} (h : ReceiverInv e) {now : UInt64}
    (hstep : setTime e now = some e') : e'.cfg = e.cfg ∧ e'.rx.rxList = e.rx.rxList ∧
      e'.rx.rxSize = e.rx.rxSize ∧ e'.rx.delivered = e.rx.delivered := by
  have hpoll : checkTPollRetransmit e.cfg now e.tx = some e.tx := by
    exact if_pos (.inl h.idle.timer)
  obtain ⟨status, triggered, start, trigger, hcheck, -, -⟩ :=
    checkTReassembly_spec h.legal h.rx h.timer now
  rw [setTime, hpoll, Option.bind_some, hcheck, Option.map_some] at hstep
  obtain rfl := Option.some.inj hstep
  exact ⟨rfl, rfl, rfl, rfl⟩

/-- What happens to the receiving side. -/
inductive RxEvent
  | recvPdu (buffer : List UInt8)
  | setTime (now : UInt64)
  | reestablishment

/-- One event; `none`: the process ends. -/
def Entity.rxEvent (e : Entity) : RxEvent → Option Entity
  | .recvPdu buffer => recvPdu e buffer
  | .setTime now => setTime e now
  | .reestablishment => some (reestablishment e)

/-- Any events, from a new entity. -/
def rxEventMachine : Machine.Spec Entity RxEvent where
  init := Entity.Fresh
  guard := fun _ _ => True
  step := Entity.rxEvent

/-- `rx_size` is the size of what is not delivered; so it fits, and it is 0 when nothing is there. -/
structure Accounted (e : Entity) : Prop where
  size : e.rx.rxSize = undelivered e.rx.rxList
  room : e.rx.rxSize ≤ max e.cfg.rxMaxsize 0
  empty : e.rx.rxList = [] → e.rx.rxSize = 0

/-- The event leaves bytes counted that the list no longer has. -/
def Entity.Leaks (e : Entity) : RxEvent → Prop
  | .recvPdu buffer => ∃ pdu ∈ dataPdu e.cfg buffer, Leak e.cfg e.rx pdu
  | _ => False

/-- The invariant of the count. -/
structure CountInv (e : Entity) : Prop where
  receiver : ReceiverInv e
  stretches : Stretches e.rx.rxList
  accounted : Accounted e

lemma Accounted.of_size (hsize : e.rx.rxSize = undelivered e.rx.rxList)
    (hroom : e.rx.rxSize ≤ max e.cfg.rxMaxsize 0) : Accounted e := by
  refine ⟨hsize, hroom, fun hnil => ?_⟩
  rw [hsize, hnil]
  rfl

lemma Entity.Fresh.countInv (h : e.Fresh) : CountInv e := by
  refine ⟨h.receiverInv, ?_, ?_⟩ <;> obtain ⟨rm, tm, a, b, c, d, f, g, L, hnew⟩ := h <;>
    rw [newNrRlcEntityAm] at hnew <;> split at hnew
  · cases hnew
    exact Stretches.nil
  · cases hnew
  · cases hnew
    exact Accounted.of_size rfl (Int.le_max_right _ _)
  · cases hnew

lemma CountInv.reestablishment (h : CountInv e) : CountInv (reestablishment e) := by
  have hM : 0 < e.cfg.snModulus := Nat.zero_lt_of_lt h.receiver.rx.next_lt
  refine ⟨⟨h.receiver.legal, ?_, fun hne => absurd rfl hne, rfl, rfl, rfl⟩, Stretches.nil,
    Accounted.of_size rfl (Int.le_max_right _ _)⟩
  exact ⟨hM, hM, hM, le_refl _, Nat.zero_le _, ⟨nofun, List.Pairwise.nil⟩,
    rfl, rfl, .inl rfl⟩

theorem CountInv.event (h : CountInv e) (op : RxEvent) :
    ∃ e', e.rxEvent op = some e' ∧ (Accounted e' ↔ ¬ e.Leaks op) ∧ (Accounted e' → CountInv e') := by
  cases op with
  | recvPdu buffer =>
    obtain ⟨e', hstep, hcfg, rx', p, hrx, hwhat⟩ := recvPdu_reception h.receiver buffer
    obtain ⟨e'', hstep', hinv⟩ := h.receiver.step (.recvPdu buffer)
    obtain rfl : e' = e'' := Option.some.inj (hstep.symm.trans hstep')
    refine ⟨e', hstep, ?_⟩
    have hlist : e'.rx.rxList = rx'.rxList := by rw [hrx]; rfl
    have hsize : e'.rx.rxSize = rx'.rxSize := by rw [hrx]; rfl
    show (_ ↔ ¬ ∃ pdu ∈ dataPdu e.cfg buffer, Leak e.cfg e.rx pdu) ∧ _
    cases hdata : dataPdu e.cfg buffer with
    | none =>
      rw [hdata] at hwhat
      have hsame : rx' = e.rx := hwhat
      rw [hsame] at hlist hsize
      have hacc : Accounted e' := Accounted.of_size
        (by rw [hlist, hsize]; exact h.accounted.size) (by rw [hsize, hcfg]; exact h.accounted.room)
      exact ⟨⟨fun _ ⟨pdu, hpdu, _⟩ => (nomatch hpdu), fun _ => hacc⟩,
        fun _ => ⟨hinv, hlist ▸ h.stretches, hacc⟩⟩
    | some pdu =>
      rw [hdata] at hwhat
      obtain ⟨hpdu, hsn, hrec⟩ := hwhat
      have hstretches := hrec.stretches h.receiver.legal h.receiver.rx hsn hpdu h.stretches
      have hiff := hrec.size h.receiver.legal h.receiver.rx h.stretches hpdu hsn h.accounted.size
      have hroom := hrec.room h.accounted.room
      refine ⟨?_, fun hacc => ⟨hinv, hlist ▸ hstretches, hacc⟩⟩
      constructor
      · rintro hacc ⟨pdu', hpdu', hleak⟩
        obtain rfl := Option.some.inj hpdu'
        exact hiff.mp (by rw [← hsize, ← hlist]; exact hacc.size) hleak
      · intro hno
        refine Accounted.of_size ?_ (by rw [hsize, hcfg]; exact hroom)
        rw [hsize, hlist]
        exact hiff.mpr fun hleak => hno ⟨pdu, rfl, hleak⟩
  | setTime now =>
    obtain ⟨e', hstep, hinv⟩ := h.receiver.step (.setTime now)
    obtain ⟨hcfg, hlist, hsize, -⟩ := setTime_reception h.receiver hstep
    have hacc : Accounted e' := Accounted.of_size
      (by rw [hlist, hsize]; exact h.accounted.size)
      (by rw [hcfg, hsize]; exact h.accounted.room)
    exact ⟨e', hstep, ⟨fun _ hleak => hleak, fun _ => hacc⟩,
      fun _ => ⟨hinv, hlist ▸ h.stretches, hacc⟩⟩
  | reestablishment =>
    have hinv := h.reestablishment
    exact ⟨_, rfl, ⟨fun _ hleak => hleak, fun _ => hinv.accounted⟩, fun _ => hinv⟩

/-- **The accounting of `rx_size`**: for every sequence of PDUs of arbitrary bytes, times and
reestablishments, every call returns and `rx_size` is the size of what is not delivered throughout,
exactly when no event leaks. -/
theorem rx_size_accounted_iff {e : Entity} (h : e.Fresh) (ops : List RxEvent) :
    (Accounted e ∧ rxEventMachine.Along
      (fun e op => ∃ e', e.rxEvent op = some e' ∧ Accounted e') e ops) ↔
      rxEventMachine.Along (fun e op => ¬ e.Leaks op) e ops := by
  have hiff : ∀ e op, CountInv e → ((∃ e', e.rxEvent op = some e' ∧ Accounted e') ↔ ¬ e.Leaks op) := by
    intro e op hinv
    obtain ⟨e', hstep, hacc, -⟩ := hinv.event op
    rw [← hacc, hstep]
    exact ⟨fun ⟨_, heq, h'⟩ => Option.some.inj heq ▸ h', fun h' => ⟨e', rfl, h'⟩⟩
  have hkeep : ∀ e op e', CountInv e → (∃ e', e.rxEvent op = some e' ∧ Accounted e') →
      rxEventMachine.step e op = some e' → CountInv e' := by
    rintro e op e' hinv ⟨e₁, hstep₁, hacc⟩ hstep
    obtain ⟨e₂, hstep₂, -, hinv'⟩ := hinv.event op
    obtain rfl : e₁ = e₂ := Option.some.inj (hstep₁.symm.trans hstep₂)
    obtain rfl : e₁ = e' := Option.some.inj (hstep₁.symm.trans hstep)
    exact hinv' hacc
  have hrun := Machine.Spec.along_iff hiff hkeep ops h.countInv
  exact ⟨fun hall => hrun.mp hall.2, fun hno => ⟨h.countInv.accounted, hrun.mpr hno⟩⟩

instance (cfg : Config) (rx : Rx) (pdu : RxPdu) : Decidable (Accepted cfg rx pdu) :=
  decidable_of_iff (0 < pdu.size ∧ rx.rxSize + pdu.size ≤ cfg.rxMaxsize ∧
      modulusRx cfg rx pdu.sn < cfg.windowSize ∧
      segmentAlreadyReceived rx.rxList pdu.sn pdu.so pdu.size = false)
    ⟨fun h => ⟨h.1, h.2.1, h.2.2.1, h.2.2.2⟩, fun h => ⟨h.size, h.room, h.window, h.fresh⟩⟩

instance (cfg : Config) (rx : Rx) (pdu : RxPdu) : Decidable (Leak cfg rx pdu) :=
  inferInstanceAs (Decidable (_ ∧ _))

instance (e : Entity) : ∀ op, Decidable (e.Leaks op)
  | .recvPdu buffer => inferInstanceAs (Decidable (∃ pdu ∈ dataPdu e.cfg buffer, _))
  | .setTime _ => inferInstanceAs (Decidable False)
  | .reestablishment => inferInstanceAs (Decidable False)

theorem rx_size_accounted_out_of_order :
    Accounted freshAm ∧ rxEventMachine.Along (fun e op => ∃ e', e.rxEvent op = some e' ∧ Accounted e')
      freshAm [.recvPdu [0x80, 1, 7], .recvPdu [0x90, 0, 5], .setTime 40, .recvPdu [0x80, 1, 7],
        .recvPdu [0xa0, 0, 0, 1, 6], .reestablishment] :=
  (rx_size_accounted_iff fresh_freshAm _).mpr (by decide)

instance (e : Entity) (op : RxEvent) : Decidable (rxEventMachine.guard e op) := .isTrue trivial

theorem rx_size_accounted_late_segment :
    ∃ e, Machine.Reach rxEventMachine e ∧ e.rx.rxList = [] ∧ e.rx.rxSize = 2 ∧ ¬ Accounted e := by
  obtain ⟨e, he, hp⟩ := Machine.Reach.exists_of_run (m := rxEventMachine)
    (P := fun e : Entity => e.rx.rxList = [] ∧ e.rx.rxSize = 2)
    (Machine.Reach.start fresh_freshAm)
    [.recvPdu [0x80, 1, 7], .recvPdu [0xb0, 1, 0, 1, 9, 9], .recvPdu [0x80, 0, 5]] (by decide)
  refine ⟨e, he, hp.1, hp.2, fun hacc => ?_⟩
  have hzero := hacc.empty hp.1
  rw [hp.2] at hzero
  exact absurd hzero (by decide)

end NrStack.Rlc.Am
