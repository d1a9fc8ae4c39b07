/-
  What becomes of the segments when a status report is processed.

  `Settled` is what the two loops "finish with ack" keep, `Conserved` what the processing is FOR.  Without
  loss the processing ends `Settled`, and a `Settled` state is `Conserved`; with loss a segment is in neither
  list and not freed.  The report and the lists alone decide which (`Lossy`).
-/
import NrStack.Rlc.AmMerge
import NrStack.Rlc.AmDecode

namespace NrStack.Rlc.Am

open List

/-! ## The specification -/

/-- The NACK asks for a byte of the segment. -/
def Overlaps (tx : Tx) (k : CurNack) (x : Seg) : Prop :=
  snOf tx x = k.sn ∧ ∃ b : Nat, x.so ≤ b ∧ b < x.so + x.size ∧ k.soStart ≤ b ∧
    (k.soEnd = -1 ∨ (b : Int) ≤ k.soEnd)

/-- A report with strictly increasing NACKs, none above ACK_SN, which is not above `tx_next`. -/
structure ReportOk (cfg : Config) (tx : Tx) (s : StatusPdu) : Prop where
  sorted : (s.expanded cfg.snModulus).Pairwise (NackSnBefore cfg tx)
  order : ∀ k ∈ s.expanded cfg.snModulus, k.soEnd = -1 ∨ (k.soStart : Int) ≤ k.soEnd
  nack_le : ∀ k ∈ s.expanded cfg.snModulus, nackSn cfg tx k ≤ modulusTx cfg tx s.ackSn
  ack_le : modulusTx cfg tx s.ackSn ≤ modulusTx cfg tx tx.txNext

/-- No segment is lost or doubled, none is freed that a NACK reports or that is not acknowledged,
and the lists are in order. -/
structure Conserved (cfg : Config) (tx : Tx) (ackSn : Nat) (ks : List CurNack) (tx' : Tx) :
    Prop where
  freed : ∃ fs, tx'.freed = tx.freed ++ fs ∧
    (tx'.waitList ++ (tx'.retransmitList ++ fs)).Nodup ∧
    (tx'.waitList ++ (tx'.retransmitList ++ fs)).Perm (tx.waitList ++ tx.retransmitList) ∧
    ∀ x ∈ fs, segSn cfg tx x < modulusTx cfg tx ackSn ∧ ∀ k ∈ ks, ¬ Overlaps tx k x
  overlapped : ∀ x ∈ tx.waitList ++ tx.retransmitList, (∃ k ∈ ks, Overlaps tx k x) →
    x ∈ tx'.retransmitList
  wait : tx'.waitList.Pairwise (SegBefore cfg tx')
  retransmit : tx'.retransmitList.Pairwise (SegBefore cfg tx')
  waitEnd : tx'.waitEnd = tx'.waitList.getLast?

lemma Overlaps.hit {tx : Tx} {k : CurNack} {x : Seg} (h : Overlaps tx k x) : Hit tx k x := by
  obtain ⟨hsn, b, hlow, hhigh, hstart, hend⟩ := h
  refine hit_iff.mpr ⟨hsn, ?_⟩
  split <;> omega

/-! ## Finishing with ACK -/

/-- What the processing of the NACKs leaves of the lists. -/
structure Settled (cfg : Config) (tx : Tx) (ackSn : Nat) (ks : List CurNack) (fs : List Seg)
    (m : Merge) : Prop where
  acked : Acked tx fs m.tx
  perm : ((m.waitDone ++ m.waitNext) ++ ((m.newRetransmit ++ m.curRetransmit) ++ fs)).Perm
    (tx.waitList ++ tx.retransmitList)
  wait : (m.waitDone ++ m.waitNext).Sublist tx.waitList
  sorted : (m.newRetransmit ++ m.curRetransmit).Pairwise (SegBefore cfg tx)
  unhitWait : ∀ x ∈ m.waitDone ++ m.waitNext, ∀ k ∈ ks, ¬ Hit tx k x
  unhitCur : ∀ x ∈ m.curRetransmit, ∀ k ∈ ks, ¬ Hit tx k x
  freed : ∀ x ∈ fs, segSn cfg tx x < modulusTx cfg tx ackSn ∧ ∀ k ∈ ks, ¬ Hit tx k x
  endWait : m.endWait.getD tx.waitEnd = (m.waitDone ++ m.waitNext).getLast?
  endSet : m.endWait ≠ none → m.waitNext = []

section Finish

variable {cfg : Config} {tx : Tx} {ackSn : Nat} {ks : List CurNack} {fs : List Seg} {m : Merge}

lemma Merging.settled (hok : ListsOk cfg tx) (hks : NacksOk cfg tx ackSn ks)
    (h : Merging cfg tx ackSn ks ks fs m) : Settled cfg tx ackSn ks fs m := by
  have hleft : ∀ x ∈ m.left, ∀ k ∈ ks, ¬ Hit tx k x := fun x hx k hk =>
    hok.not_hit_of_beyond (hks.sn_lt k hk) (h.left_mem hx) (hks.order k hk)
      (h.passing.beyond x hx k hk)
  refine { h with
    sorted := pairwise_append.mpr ⟨h.sorted, hok.retransmit.sublist h.cur, fun x hx y hy => ?_⟩
    unhitWait := forall_mem_append.mpr ⟨h.skipped, fun x hx => hleft x (mem_append_left _ hx)⟩
    unhitCur := fun x hx => hleft x (mem_append_right _ hx) }
  exact h.passing.front x hx y (mem_append_right _ hy)

lemma Settled.freeWait (hok : ListsOk cfg tx) (h : Settled cfg tx ackSn ks fs m) {w : Seg}
    {ws : List Seg} (hnext : m.waitNext = w :: ws)
    (hack : segSn cfg tx w < modulusTx cfg tx ackSn) :
    Settled cfg tx ackSn ks (fs ++ [w]) (m.freeWait w ws) := by
  have hw : w ∈ m.waitDone ++ m.waitNext :=
    mem_append_right _ (hnext ▸ mem_cons_self)
  have hsub : (m.waitDone ++ ws).Sublist (m.waitDone ++ m.waitNext) := by
    rw [hnext]
    exact Sublist.append_left (sublist_cons_self w ws) m.waitDone
  obtain ⟨hend, hset⟩ := unlink_end hok h.acked h.wait h.endWait h.endSet hnext
  refine { h with
    acked := h.acked.freeAcked w
    perm := (perm_iff_count.mpr fun a => ?_).trans h.perm
    wait := hsub.trans h.wait
    unhitWait := fun x hx => h.unhitWait x (hsub.subset hx)
    freed := forall_mem_append.mpr ⟨h.freed, forall_mem_singleton.mpr ⟨hack, h.unhitWait w hw⟩⟩
    endWait := hend, endSet := hset }
  simp only [Merge.freeWait, Merge.unlinkWait, hnext, count_append, count_cons, count_nil]
  omega

lemma Settled.freeRetransmit (h : Settled cfg tx ackSn ks fs m) {r : Seg} {rs : List Seg}
    (hcur : m.curRetransmit = r :: rs) (hack : segSn cfg tx r < modulusTx cfg tx ackSn) :
    Settled cfg tx ackSn ks (fs ++ [r]) (m.freeRetransmit cfg r rs) := by
  have hr : r ∈ m.curRetransmit := hcur ▸ mem_cons_self
  have hsub : rs.Sublist m.curRetransmit := hcur ▸ sublist_cons_self r rs
  refine { h with
    acked := (h.acked.subRetx r).freeAcked r
    perm := (perm_iff_count.mpr fun a => ?_).trans h.perm
    sorted := h.sorted.sublist (Sublist.append_left hsub _)
    unhitCur := fun x hx => h.unhitCur x (hsub.subset hx)
    freed := forall_mem_append.mpr ⟨h.freed, forall_mem_singleton.mpr ⟨hack, h.unhitCur r hr⟩⟩ }
  simp only [Merge.freeRetransmit, hcur, count_append, count_cons, count_nil]
  omega

lemma Acked.segSn_lt {t : Tx} {x : Seg} (h : Acked tx fs t) (hlt : snCompareTx cfg t (snOf t x) ackSn < 0) :
    segSn cfg tx x < modulusTx cfg tx ackSn := by
  rw [h.snCompareTx_eq, h.snOf_eq] at hlt
  rw [segSn]
  omega

theorem Settled.finishAck (hok : ListsOk cfg tx) (h : Settled cfg tx ackSn ks fs m) :
    ∃ fs', Settled cfg tx ackSn ks fs' (finishAck cfg ackSn m) := by
  refine finishAck_invariant (I := fun m => ∃ fs, Settled cfg tx ackSn ks fs m) ?_ ?_ ⟨fs, h⟩
  · exact fun m w ws ⟨fs, h⟩ hnext hlt => ⟨_, h.freeWait hok hnext (h.acked.segSn_lt hlt)⟩
  · exact fun m r rs ⟨fs, h⟩ hcur hlt => ⟨_, h.freeRetransmit hcur (h.acked.segSn_lt hlt)⟩

lemma Lost.finishAck (h : Lost tx m) : finishAck cfg ackSn m = m := by
  obtain ⟨hwait, hcur⟩ := append_eq_nil_iff.mp h.1
  rw [Am.finishAck, hwait, ite_self]
  show ackRetransmitList cfg ackSn m m.curRetransmit = m
  rw [hcur, ackRetransmitList]

end Finish

/-! ## The update of `tx_next_ack` -/

section Update

variable {cfg : Config} {tx : Tx}

/-- A sequence number. -/
def SnOk (cfg : Config) (a : Int) : Prop := 0 ≤ a ∧ a < cfg.snModulus

lemma lowerSn_ok (tx : Tx) {a b : Int} (ha : SnOk cfg a) (hb : SnOk cfg b) :
    SnOk cfg (lowerSn cfg tx a b) := by
  rw [lowerSn]
  split
  · exact ha
  · exact hb

lemma lowerSn_le (cfg : Config) (tx : Tx) (a b : Int) :
    modulusTx cfg tx (lowerSn cfg tx a b) ≤ modulusTx cfg tx a ∧
    modulusTx cfg tx (lowerSn cfg tx a b) ≤ modulusTx cfg tx b := by
  rw [lowerSn]
  split
  · next h =>
    rw [snCompareTx] at h
    omega
  · next h =>
    rw [snCompareTx] at h
    omega

/-- The order of the segments in the lists. -/
def SnLe (cfg : Config) (tx : Tx) (x y : Seg) : Prop := segSn cfg tx x ≤ segSn cfg tx y

lemma SegBefore.snLe {x y : Seg} (h : SegBefore cfg tx x y) : SnLe cfg tx x y := by
  rw [SegBefore] at h
  rw [SnLe]
  omega

lemma lowerHeadSn_spec {list : List Seg} {b : Int} (hb : SnOk cfg b)
    (hlist : ∀ x ∈ list, SnOk cfg (snOf tx x)) (hsort : list.Pairwise (SnLe cfg tx)) :
    SnOk cfg (lowerHeadSn cfg tx list b) ∧
      modulusTx cfg tx (lowerHeadSn cfg tx list b) ≤ modulusTx cfg tx b ∧
      ∀ x ∈ list, modulusTx cfg tx (lowerHeadSn cfg tx list b) ≤ segSn cfg tx x := by
  cases list with
  | nil => exact ⟨hb, Int.le_refl _, nofun⟩
  | cons seg rest =>
    have hle := lowerSn_le cfg tx (snOf tx seg) b
    refine ⟨lowerSn_ok tx (hlist seg mem_cons_self) hb, hle.2, ?_⟩
    exact forall_mem_cons.mpr ⟨hle.1, fun x hx => hle.1.trans (rel_of_pairwise_cons hsort hx)⟩

theorem updateTxNextAck_spec {ackSn : Nat} (hnext : tx.txNext < cfg.snModulus) (hack : ackSn < cfg.snModulus)
    (hok : ∀ x ∈ tx.waitList ++ tx.retransmitList, SnOk cfg (snOf tx x))
    (hwait : tx.waitList.Pairwise (SnLe cfg tx)) (hretx : tx.retransmitList.Pairwise (SnLe cfg tx)) :
    ∃ base, updateTxNextAck cfg tx ackSn = { tx with txNextAck := base } ∧ SnOk cfg (base : Nat) ∧
      modulusTx cfg tx base ≤ modulusTx cfg tx ackSn ∧ modulusTx cfg tx base ≤ modulusTx cfg tx tx.txNext ∧
      ∀ x ∈ tx.waitList ++ tx.retransmitList, modulusTx cfg tx base ≤ segSn cfg tx x := by
  obtain ⟨hok₁, hle₁, hall₁⟩ := lowerHeadSn_spec ⟨Int.natCast_nonneg _, Int.ofNat_lt.mpr hnext⟩
    (fun x hx => hok x (mem_append_left _ hx)) hwait
  obtain ⟨hok₂, hle₂, hall₂⟩ := lowerHeadSn_spec hok₁ (fun x hx => hok x (mem_append_right _ hx)) hretx
  have hok₃ := lowerSn_ok tx ⟨Int.natCast_nonneg _, Int.ofNat_lt.mpr hack⟩ hok₂
  obtain ⟨hle₃, hle₄⟩ := lowerSn_le cfg tx ackSn
    (lowerHeadSn cfg tx tx.retransmitList (lowerHeadSn cfg tx tx.waitList tx.txNext))
  refine ⟨_, rfl, ?_⟩
  rw [Int.toNat_of_nonneg hok₃.1]
  exact ⟨hok₃, hle₃, (hle₄.trans hle₂).trans hle₁, forall_mem_append.mpr
    ⟨fun x hx => (hle₄.trans hle₂).trans (hall₁ x hx), fun x hx => hle₄.trans (hall₂ x hx)⟩⟩

lemma modulusTx_rebase {tx' : Tx} {a : Int} (ha : SnOk cfg a)
    (hle : modulusTx cfg tx tx'.txNextAck ≤ modulusTx cfg tx a) :
    modulusTx cfg tx' a = modulusTx cfg tx a - modulusTx cfg tx tx'.txNextAck := by
  obtain ⟨ha, ha'⟩ := ha
  simp only [modulusTx] at *
  split at hle <;> split at hle <;> split <;> omega

lemma SegBefore.rebase {tx' : Tx}
    (hsn : ∀ x, snOf tx' x = snOf tx x) {list : List Seg} (hlist : ∀ x ∈ list, SnOk cfg (snOf tx x))
    (hle : ∀ x ∈ list, modulusTx cfg tx tx'.txNextAck ≤ segSn cfg tx x)
    (hsort : list.Pairwise (SegBefore cfg tx)) : list.Pairwise (SegBefore cfg tx') := by
  have hseg : ∀ x ∈ list, segSn cfg tx' x = segSn cfg tx x - modulusTx cfg tx tx'.txNextAck := by
    intro x hx
    rw [segSn, hsn]
    exact modulusTx_rebase (hlist x hx) (hle x hx)
  refine hsort.imp_of_mem fun {x y} hx hy hbefore => ?_
  rw [SegBefore, hseg x hx, hseg y hy]
  rw [SegBefore] at hbefore
  omega

end Update

/-! ## From the state before to the state after -/

section Processing

variable {cfg : Config} {tx : Tx} {ackSn : Nat} {ks : List CurNack} {fs : List Seg} {m : Merge}

lemma ListsOk.snOk (h : ListsOk cfg tx) {x : Seg} (hx : x ∈ tx.waitList ++ tx.retransmitList) :
    SnOk cfg (snOf tx x) := ⟨h.sn_nonneg x hx, h.sn_lt x hx⟩

lemma Acked.modulusTx_eq {t : Tx} (h : Acked tx fs t) (a : Int) :
    modulusTx cfg t a = modulusTx cfg tx a := by
  rw [modulusTx, modulusTx, h.txNextAck]

lemma Acked.finish {t : Tx} (h : Acked tx fs m.tx) (ht : t = m.finish) (x : Seg) :
    segSn cfg t x = segSn cfg tx x := by
  rw [ht, segSn, segSn, ← h.modulusTx_eq, ← h.snOf_eq]
  rfl

section

variable (hok : ListsOk cfg tx) (hnext : tx.txNext < cfg.snModulus) (hack : ackSn < cfg.snModulus)
  (h : Settled cfg tx ackSn ks fs m)
include hok hnext hack h

lemma Settled.updateTxNextAck : ∀ x ∈ m.finish.waitList ++ m.finish.retransmitList,
    modulusTx cfg tx (updateTxNextAck cfg m.finish ackSn).txNextAck ≤ segSn cfg tx x := by
  have hsn : ∀ x, snOf m.finish x = snOf tx x := h.acked.snOf_eq
  have hseg : ∀ x, segSn cfg m.finish x = segSn cfg tx x := h.acked.finish rfl
  have hmod : ∀ a, modulusTx cfg m.finish a = modulusTx cfg tx a := h.acked.modulusTx_eq
  have hle : ∀ {x y : Seg}, SegBefore cfg tx x y → SnLe cfg m.finish x y := by
    intro x y hxy
    rw [SnLe, hseg, hseg]
    exact hxy.snLe
  have hlists : ∀ x ∈ m.finish.waitList ++ m.finish.retransmitList, SnOk cfg (snOf m.finish x) := by
    intro x hx
    rw [hsn]
    rcases mem_append.mp hx with hx | hx
    · exact hok.snOk (mem_append_left _ (h.wait.subset hx))
    · exact hok.snOk (h.perm.subset (mem_append_right _ (mem_append_left _ hx)))
  have htop : m.finish.txNext < cfg.snModulus := h.acked.txNext ▸ hnext
  obtain ⟨base, hbase, -, -, -, hall⟩ := updateTxNextAck_spec htop hack hlists
    ((hok.wait.sublist h.wait).imp hle) (h.sorted.imp hle)
  rw [hbase]
  intro x hx
  rw [← hmod, ← hseg]
  exact hall x hx

theorem Settled.conserved :
    Conserved cfg tx ackSn ks (Am.updateTxNextAck cfg m.finish ackSn) := by
  have hle := h.updateTxNextAck hok hnext hack
  have hsn : ∀ x, snOf (Am.updateTxNextAck cfg m.finish ackSn) x = snOf tx x := h.acked.snOf_eq
  have hretx : ∀ x ∈ m.newRetransmit ++ m.curRetransmit, x ∈ tx.waitList ++ tx.retransmitList :=
    fun x hx => h.perm.subset (mem_append_right _ (mem_append_left _ hx))
  refine ⟨⟨fs, h.acked.freed, h.perm.nodup_iff.mpr hok.nodup, h.perm, ?_⟩, ?_, ?_, ?_, ?_⟩
  · intro x hx
    exact ⟨(h.freed x hx).1, fun k hk hover => (h.freed x hx).2 k hk hover.hit⟩
  · rintro x hx ⟨k, hk, hover⟩
    rcases mem_append.mp (h.perm.mem_iff.mpr hx) with hin | hin
    · exact absurd hover.hit (h.unhitWait x hin k hk)
    rcases mem_append.mp hin with hin | hin
    · exact hin
    · exact absurd hover.hit ((h.freed x hin).2 k hk)
  · refine SegBefore.rebase hsn ?_ ?_ (hok.wait.sublist h.wait)
    · exact fun x hx => hok.snOk (mem_append_left _ (h.wait.subset hx))
    · exact fun x hx => hle x (mem_append_left _ hx)
  · refine SegBefore.rebase hsn (fun x hx => hok.snOk (hretx x hx)) ?_ h.sorted
    exact fun x hx => hle x (mem_append_right _ hx)
  · show m.endWait.getD m.tx.waitEnd = _
    rw [h.acked.waitEnd]
    exact h.endWait

end

lemma Lost.not_conserved (h : Lost tx m) :
    ¬ Conserved cfg tx ackSn ks (updateTxNextAck cfg m.finish ackSn) := by
  obtain ⟨hleft, r, hr, fs, hfreed, hwait, hnew, hfs⟩ := h
  obtain ⟨hwaitNext, hcur⟩ := append_eq_nil_iff.mp hleft
  intro hcon
  obtain ⟨fs', hfreed', -, hperm, -⟩ := hcon.freed
  have hsame : fs = fs' := append_cancel_left (hfreed.symm.trans hfreed')
  have hin := hperm.mem_iff.mpr (mem_append_right _ hr)
  have hlists : (Am.updateTxNextAck cfg m.finish ackSn).waitList = m.waitDone ∧
      (Am.updateTxNextAck cfg m.finish ackSn).retransmitList = m.newRetransmit := by
    constructor
    · show m.waitDone ++ m.waitNext = _
      rw [hwaitNext, append_nil]
    · show m.newRetransmit ++ m.curRetransmit = _
      rw [hcur, append_nil]
  rw [hlists.1, hlists.2, ← hsame] at hin
  rcases mem_append.mp hin with hin | hin
  · exact hwait hin
  · exact (mem_append.mp hin).elim hnew hfs

lemma Merging.start {t : Tx} (hok : ListsOk cfg tx) (ht : Acked tx [] t)
    (hwait : t.waitList = tx.waitList) (hretx : t.retransmitList = tx.retransmitList) :
    Merging cfg tx ackSn ks [] [] (Merge.start t) := by
  have hleft : (Merge.start t).waitNext = tx.waitList := hwait
  have hcur : (Merge.start t).curRetransmit = tx.retransmitList := hretx
  refine ⟨ht, ?_, rfl, ?_, ?_, .nil, ⟨nofun, fun x hx => ?_, nofun⟩, nofun, nofun, nofun, ?_, ?_⟩
  · show ([] ++ t.waitList ++ ([] ++ t.retransmitList ++ [])).Perm _
    rw [hwait, hretx, nil_append, nil_append, append_nil]
  · exact (hwait ▸ Sublist.refl _ : t.waitList <+ tx.waitList)
  · rw [hcur]
  · rw [hleft]
    exact .inl hx
  · show tx.waitEnd = ([] ++ t.waitList).getLast?
    rw [hwait, hok.waitEnd]
    rfl
  · exact fun hnone => absurd rfl hnone

/-- A status conserves the segments iff it is not lossy. -/
theorem processStatus_spec {s : StatusPdu} (hok : ListsOk cfg tx) (hnext : tx.txNext < cfg.snModulus)
    (hack : s.ackSn < cfg.snModulus)
    (hks : NacksOk cfg tx s.ackSn (s.expanded cfg.snModulus)) :
    Conserved cfg tx s.ackSn (s.expanded cfg.snModulus) (processStatus cfg tx s) ↔
      ¬ Lossy cfg tx s.ackSn (s.expanded cfg.snModulus) := by
  have hstart : Merging cfg tx s.ackSn (s.expanded cfg.snModulus) [] []
      (Merge.start (if snCompareTx cfg tx tx.pollSn s.ackSn < 0 then stopPoll tx else tx)) := by
    split
    · exact Merging.start hok Acked.refl.stopPoll rfl rfl
    · exact Merging.start hok Acked.refl rfl rfl
  rw [processStatus]
  rcases processNacks_spec hok hks hack s.nacks _ [] rfl (.inl ⟨[], hstart⟩) with
    ⟨fs, h⟩ | ⟨hlost, hlossy⟩
  · obtain ⟨fs', hsettled⟩ := (h.settled hok hks).finishAck hok
    exact ⟨fun _ => h.not_lossy hok hks, fun _ => hsettled.conserved hok hnext hack⟩
  · rw [hlost.finishAck]
    exact ⟨fun hcon => absurd hcon hlost.not_conserved, fun hnot => absurd hlossy hnot⟩

instance (x y : Seg) : Decidable (SegBefore cfg tx x y) := inferInstanceAs (Decidable (_ ∨ _))

instance (j k : CurNack) : Decidable (NackSnBefore cfg tx j k) := inferInstanceAs (Decidable (_ ∨ _))

lemma expanded_sn_lt {snModulus : Nat} (hpos : 0 < snModulus) (s : StatusPdu) :
    ∀ k ∈ s.expanded snModulus, k.sn < snModulus := by
  intro k hk
  obtain ⟨n, -, hk⟩ := mem_flatMap.mp hk
  obtain ⟨i, -, rfl⟩ := mem_map.mp hk
  exact Nat.mod_lt _ hpos

lemma ReportOk.valid {s : StatusPdu} (h : ReportOk cfg tx s) : validStatus cfg tx s = true := by
  rw [validStatus, Bool.and_eq_true, decide_eq_true_eq, all_eq_true]
  constructor
  · have := h.ack_le
    rw [snCompareTx]
    omega
  · intro k hk
    have hle := h.nack_le k hk
    rw [nackSn] at hle
    rw [badNack, Bool.false_or, Bool.not_eq_true', decide_eq_false_iff_not, snCompareTx]
    omega

/-- **`process_control_pdu` conserves the segments**, unless the report is lossy: then it does
not.  A report in order is never discarded and never ends the process. -/
theorem process_control_pdu_conserves (hcfg : cfg.Legal) (hok : ListsOk cfg tx)
    (hnext : tx.txNext < cfg.snModulus) {buffer : List UInt8} {s : StatusPdu}
    (hread : readStatus cfg buffer = .ok s) (hs : ReportOk cfg tx s) :
    ∃ tx', processControlPdu cfg tx buffer = some tx' ∧
      (Conserved cfg tx s.ackSn (s.expanded cfg.snModulus) tx' ↔
        ¬ Lossy cfg tx s.ackSn (s.expanded cfg.snModulus)) := by
  have hack := readStatus_ackSn_lt hcfg hread
  have hks : NacksOk cfg tx s.ackSn (s.expanded cfg.snModulus) :=
    ⟨hs.sorted, hs.order, expanded_sn_lt (Nat.zero_lt_of_lt hnext) s, hs.nack_le⟩
  refine ⟨processStatus cfg tx s, ?_, processStatus_spec hok hnext hack hks⟩
  rw [processControlPdu, hread]
  show some (if validStatus cfg tx s = true then _ else _) = _
  rw [if_pos hs.valid]

end Processing

/-- 12-bit sequence numbers. -/
def sn12Config : Config := ⟨45, 35, 0, -1, -1, 8, 12, 4096, 2048, 100000, 100000⟩

lemma sn12Config_legal : sn12Config.Legal := ⟨.inl rfl, rfl, rfl⟩

/-- SDU 0 has been sent in two segments, SDU 1 whole; a segment in neither list is acknowledged. -/
def holding (wait retransmit : List Seg) : Tx :=
  let held := fun i => (wait ++ retransmit).countP (·.sdu = i)
  let segments := fun i => if i = 0 then 2 else 1
  ⟨2, 0, 0, 0, 0, false, 0,
    ⟨fun i => ⟨i, 0, List.replicate 30 0, 0, segments i, segments i - held i⟩, 2⟩, [], none, 60, wait,
    wait.getLast?, retransmit, 0, 0, [], [], 0⟩

theorem process_control_pdu_conserves_segments :
    ∃ tx', processControlPdu sn12Config
      (holding [⟨0, 20, 10, false, true⟩, ⟨1, 30, 0, true, true⟩] [⟨0, 10, 0, true, false⟩])
      [0, 2, 0x80, 0, 4, 0, 20, 0, 29] = some tx' ∧
      (Conserved sn12Config
        (holding [⟨0, 20, 10, false, true⟩, ⟨1, 30, 0, true, true⟩] [⟨0, 10, 0, true, false⟩]) 2
        (StatusPdu.expanded 4096 ⟨2, [⟨0, 20, 29, 1⟩]⟩) tx' ↔
        ¬ Lossy sn12Config
          (holding [⟨0, 20, 10, false, true⟩, ⟨1, 30, 0, true, true⟩] [⟨0, 10, 0, true, false⟩]) 2
          (StatusPdu.expanded 4096 ⟨2, [⟨0, 20, 29, 1⟩]⟩)) :=
  process_control_pdu_conserves sn12Config_legal
    ⟨by decide, by decide, by decide, by decide, by decide, by decide, rfl⟩ (by decide)
    (s := ⟨2, [⟨0, 20, 29, 1⟩]⟩) (by rfl) ⟨by decide, by decide, by decide, by decide⟩

theorem process_control_pdu_loses_segment :
    ListsOk sn12Config (holding [] [⟨0, 10, 0, true, false⟩]) ∧
    readStatus sn12Config [0, 0, 0x80, 0, 4, 0, 20, 0, 29] = .ok ⟨0, [⟨0, 20, 29, 1⟩]⟩ ∧
    ReportOk sn12Config (holding [] [⟨0, 10, 0, true, false⟩]) ⟨0, [⟨0, 20, 29, 1⟩]⟩ ∧
    ∃ tx', processControlPdu sn12Config (holding [] [⟨0, 10, 0, true, false⟩])
      [0, 0, 0x80, 0, 4, 0, 20, 0, 29] = some tx' ∧
      tx'.waitList = [] ∧ tx'.retransmitList = [] ∧ tx'.freed = [] ∧
      ¬ Conserved sn12Config (holding [] [⟨0, 10, 0, true, false⟩]) 0
        (StatusPdu.expanded 4096 ⟨0, [⟨0, 20, 29, 1⟩]⟩) tx' := by
  refine ⟨⟨by decide, by decide, by decide, by decide, by decide, by decide, rfl⟩, by rfl,
    ⟨by decide, by decide, by decide, by decide⟩, _, rfl, by decide, by decide, by decide, ?_⟩
  intro hcon
  obtain ⟨fs, hfreed, -, hperm, -⟩ := hcon.freed
  have hnil : fs = [] := hfreed.symm
  subst hnil
  exact absurd hperm.length_eq (by decide)

end NrStack.Rlc.Am
