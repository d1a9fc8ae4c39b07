/-
  Which status reports get past the validation of `process_control_pdu`.

  "checks not needed now, previous steps validated everything": the second pass relies on ACK_SN <= tx_next,
  on no NACK above ACK_SN, and on NACKs in increasing order.  The third check compares with `prev_nack_sn`,
  which nothing sets in the first pass.

      `Checked`      what the first pass tests,
      `Increasing`   what it is also meant to test,
      `Disordered`   a report with the first and without the second; it is obeyed (`Disordered.obeyed`).
-/
import NrStack.Rlc.AmConserve

namespace NrStack.Rlc.Am

open List

/-! ## The specification -/

/-- The NACKs come in strictly increasing order: each starts behind the end of the one before. -/
def Increasing (cfg : Config) (tx : Tx) (ks : List CurNack) : Prop := ks.IsChain (NackSnBefore cfg tx)
deriving Decidable

/-- ACK_SN is not above `tx_next`, no NACK is above ACK_SN. -/
structure Checked (cfg : Config) (tx : Tx) (s : StatusPdu) : Prop where
  ack_le : modulusTx cfg tx s.ackSn ≤ modulusTx cfg tx tx.txNext
  nack_le : ∀ k ∈ s.expanded cfg.snModulus, nackSn cfg tx k ≤ modulusTx cfg tx s.ackSn

/-- Lists and counts are as before. -/
structure Untouched (tx tx' : Tx) : Prop where
  txNextAck : tx'.txNextAck = tx.txNextAck
  waitList : tx'.waitList = tx.waitList
  retransmitList : tx'.retransmitList = tx.retransmitList
  txSize : tx'.txSize = tx.txSize
  bstatusTxSize : tx'.bstatusTxSize = tx.bstatusTxSize
  bstatusRetxSize : tx'.bstatusRetxSize = tx.bstatusRetxSize
  tPollRetransmitStart : tx'.tPollRetransmitStart = tx.tPollRetransmitStart

/-- What the validation is for: a report that changes something decodes, has an ACK_SN and NACKs that
were checked, and the NACKs are in order. -/
def Validates (cfg : Config) (tx : Tx) (buffer : List UInt8) : Prop :=
  ∃ tx', processControlPdu cfg tx buffer = some tx' ∧
    (Untouched tx tx' ∨ ∃ s, readStatus cfg buffer = .ok s ∧ Checked cfg tx s ∧
      Increasing cfg tx (s.expanded cfg.snModulus))

/-- A report that decodes and passes the checks of ACK_SN and of each NACK, with NACKs out of order. -/
def Disordered (cfg : Config) (tx : Tx) (buffer : List UInt8) : Prop :=
  ∃ s, readStatus cfg buffer = .ok s ∧ Checked cfg tx s ∧
    ¬ Increasing cfg tx (s.expanded cfg.snModulus)

/-! ## Fields the processing leaves alone -/

/-- A field that is neither a list, nor counted, nor in the heap. -/
structure Steady {α : Type} (cfg : Config) (p : Tx → α) : Prop where
  freeAcked : ∀ tx x, p (freeAcked tx x) = p tx
  subRetx : ∀ tx x, p (subRetx cfg tx x) = p tx
  addRetx : ∀ tx x, p (addRetx cfg tx x) = p tx
  countRetx : ∀ tx x, p (countRetx cfg tx x) = p tx

section Steady

variable {α : Type} {cfg : Config} {p : Tx → α} (ackSn : Nat)

lemma Steady.processNextPdu (h : Steady cfg p) (nack : CurNack) (m : Merge) :
    p (processNextPdu cfg ackSn nack m).1.tx = p m.tx := by
  have hwait : ∀ cur rest, p (processWaitListHead cfg ackSn nack m cur rest).1.tx = p m.tx := by
    intro cur rest
    rw [processWaitListHead]
    split
    · exact (h.addRetx _ _).trans (h.countRetx _ _)
    split
    · rfl
    split
    · exact h.freeAcked _ _
    split <;> rfl
  have hretx : ∀ cur rest, p (processRetransmitListHead cfg ackSn nack m cur rest).1.tx = p m.tx := by
    intro cur rest
    simp only [processRetransmitListHead]
    split
    · rfl
    split
    · rfl
    split
    · exact (h.freeAcked _ _).trans (h.subRetx _ _)
    split <;> rfl
  rw [Am.processNextPdu]
  split
  · rfl
  · exact hretx _ _
  · exact hwait _ _
  · simp only
    split
    · exact hwait _ _
    · exact hretx _ _

lemma Steady.processRange (h : Steady cfg p) (range : List CurNack) (m : Merge) :
    p (processRange cfg ackSn range m).tx = p m.tx :=
  processRange_invariant (I := fun m' => p m'.tx = p m.tx)
    (fun k _ m' hm => (h.processNextPdu ackSn k m').trans hm) m rfl

lemma Steady.finishAck (h : Steady cfg p) (m : Merge) : p (finishAck cfg ackSn m).tx = p m.tx :=
  finishAck_invariant (I := fun m' => p m'.tx = p m.tx)
    (fun m' x _ hm _ _ => (h.freeAcked m'.tx x).trans hm)
    (fun m' x _ hm _ _ => ((h.freeAcked _ x).trans (h.subRetx m'.tx x)).trans hm) rfl

lemma steady_txNextAck : Steady cfg Tx.txNextAck :=
  ⟨fun _ _ => rfl, fun _ _ => rfl, fun _ _ => rfl, fun _ _ => rfl⟩

lemma steady_pollSn : Steady cfg Tx.pollSn :=
  ⟨fun _ _ => rfl, fun _ _ => rfl, fun _ _ => rfl, fun _ _ => rfl⟩

lemma steady_tPollRetransmitStart : Steady cfg Tx.tPollRetransmitStart :=
  ⟨fun _ _ => rfl, fun _ _ => rfl, fun _ _ => rfl, fun _ _ => rfl⟩

end Steady

/-! ## t_poll_retransmit -/

/-- The status PDU reports on the polled PDU. -/
def PollReported (cfg : Config) (tx : Tx) (s : StatusPdu) : Prop :=
  snCompareTx cfg tx tx.pollSn s.ackSn < 0 ∨ ∃ n ∈ s.nacks,
    snCompareTx cfg tx n.nackSn tx.pollSn ≤ 0 ∧
      snCompareTx cfg tx tx.pollSn (((n.nackSn + n.range) % cfg.snModulus : Nat)) < 0

section Timer

variable {cfg : Config} {tx : Tx}

lemma processNackEntry_timer (ackSn : Nat) (n : Nack) {m : Merge}
    (hbase : m.tx.txNextAck = tx.txNextAck) (hpoll : m.tx.pollSn = tx.pollSn) :
    (processNackEntry cfg ackSn m n).tx.txNextAck = tx.txNextAck ∧
    (processNackEntry cfg ackSn m n).tx.pollSn = tx.pollSn ∧
    (processNackEntry cfg ackSn m n).tx.tPollRetransmitStart =
      if snCompareTx cfg tx n.nackSn tx.pollSn ≤ 0 ∧
        snCompareTx cfg tx tx.pollSn (((n.nackSn + n.range) % cfg.snModulus : Nat)) < 0 then 0
      else m.tx.tPollRetransmitStart := by
  have hrange : ∀ {α : Type} {p : Tx → α}, Steady cfg p →
      p (processRange cfg ackSn (n.expand cfg.snModulus) m).tx = p m.tx :=
    fun h => h.processRange ackSn _ m
  have hbase' := (hrange steady_txNextAck).trans hbase
  have hpoll' := (hrange steady_pollSn).trans hpoll
  have hcmp : ∀ a b, snCompareTx cfg (processRange cfg ackSn (n.expand cfg.snModulus) m).tx a b =
      snCompareTx cfg tx a b := by
    intro a b
    rw [snCompareTx, snCompareTx, modulusTx, modulusTx, hbase']
    rfl
  simp only [processNackEntry, hcmp, hpoll']
  split
  · exact ⟨hbase', hpoll', rfl⟩
  · exact ⟨hbase', hpoll', hrange steady_tPollRetransmitStart⟩

lemma processNacks_timer (cfg : Config) (tx : Tx) (ackSn : Nat) (nacks : List Nack) :
    ∀ m : Merge, m.tx.txNextAck = tx.txNextAck → m.tx.pollSn = tx.pollSn →
      (nacks.foldl (processNackEntry cfg ackSn) m).tx.tPollRetransmitStart =
        if ∃ n ∈ nacks, snCompareTx cfg tx n.nackSn tx.pollSn ≤ 0 ∧
          snCompareTx cfg tx tx.pollSn (((n.nackSn + n.range) % cfg.snModulus : Nat)) < 0 then 0
        else m.tx.tPollRetransmitStart := by
  induction nacks with
  | nil =>
    intro m _ _
    rfl
  | cons n nacks ih =>
    intro m hbase hpoll
    obtain ⟨hbase', hpoll', htimer⟩ := processNackEntry_timer ackSn n hbase hpoll
    rw [foldl_cons, ih _ hbase' hpoll', htimer]
    by_cases hhead : snCompareTx cfg tx n.nackSn tx.pollSn ≤ 0 ∧
        snCompareTx cfg tx tx.pollSn (((n.nackSn + n.range) % cfg.snModulus : Nat)) < 0
    · rw [if_pos hhead, ite_self, if_pos ⟨n, mem_cons_self, hhead⟩]
    · rw [if_neg hhead]
      refine if_congr ⟨?_, ?_⟩ rfl rfl
      · rintro ⟨n', hn', hrep⟩
        exact ⟨n', mem_cons_of_mem _ hn', hrep⟩
      · rintro ⟨n', hn', hrep⟩
        rcases mem_cons.mp hn' with rfl | hn'
        · exact absurd hrep hhead
        · exact ⟨n', hn', hrep⟩

theorem processStatus_timer (cfg : Config) (tx : Tx) (s : StatusPdu) :
    (PollReported cfg tx s → (processStatus cfg tx s).tPollRetransmitStart = 0) ∧
      (¬ PollReported cfg tx s →
        (processStatus cfg tx s).tPollRetransmitStart = tx.tPollRetransmitStart) := by
  have hfinish : (processStatus cfg tx s).tPollRetransmitStart =
      (s.nacks.foldl (processNackEntry cfg s.ackSn) (Merge.start
        (if snCompareTx cfg tx tx.pollSn s.ackSn < 0 then stopPoll tx else tx))).tx.tPollRetransmitStart :=
    steady_tPollRetransmitStart.finishAck s.ackSn _
  have hnacks := processNacks_timer cfg tx s.ackSn s.nacks (Merge.start
    (if snCompareTx cfg tx tx.pollSn s.ackSn < 0 then stopPoll tx else tx))
    (by split <;> rfl) (by split <;> rfl)
  rw [hfinish, hnacks]
  constructor
  · rintro (hack | hnack)
    · rw [if_pos hack]
      exact ite_self _
    · rw [if_pos hnack]
  · intro hnot
    rw [if_neg (fun h => hnot (.inr h)), if_neg (fun h => hnot (.inl h))]
    rfl

end Timer

/-! ## The validation -/

section Validation

variable {cfg : Config} {tx : Tx} {buffer : List UInt8} {s : StatusPdu}

theorem validStatus_iff : validStatus cfg tx s = true ↔ Checked cfg tx s := by
  rw [validStatus, Bool.and_eq_true, decide_eq_true_eq, all_eq_true, snCompareTx]
  have hnack : ∀ k : CurNack, (!badNack cfg tx s.ackSn none k) = true ↔
      nackSn cfg tx k ≤ modulusTx cfg tx s.ackSn := by
    intro k
    rw [badNack, Bool.false_or, Bool.not_eq_true', decide_eq_false_iff_not, snCompareTx, nackSn]
    omega
  constructor
  · rintro ⟨hack, hall⟩
    exact ⟨by omega, fun k hk => (hnack k).mp (hall k hk)⟩
  · rintro ⟨hack, hall⟩
    exact ⟨by omega, fun k hk => (hnack k).mpr (hall k hk)⟩

lemma processControlPdu_checked (hread : readStatus cfg buffer = .ok s) (hs : Checked cfg tx s) :
    processControlPdu cfg tx buffer = some (processStatus cfg tx s) := by
  rw [processControlPdu, hread]
  simp only
  rw [if_pos (validStatus_iff.mpr hs)]

lemma validates_of_not_disordered (hcfg : cfg.Legal) (h : ¬ Disordered cfg tx buffer) :
    Validates cfg tx buffer := by
  have hsame : Untouched tx tx := ⟨rfl, rfl, rfl, rfl, rfl, rfl, rfl⟩
  rcases readStatus_cases hcfg buffer with herr | ⟨s, hread, -, -⟩
  · exact ⟨tx, by rw [processControlPdu, herr], .inl hsame⟩
  · by_cases hs : Checked cfg tx s
    · refine ⟨_, processControlPdu_checked hread hs, .inr ⟨s, hread, hs, ?_⟩⟩
      by_contra hnot
      exact h ⟨s, hread, hs, hnot⟩
    · refine ⟨tx, ?_, .inl hsame⟩
      rw [processControlPdu, hread]
      simp only
      rw [if_neg (fun hvalid => hs (validStatus_iff.mp hvalid))]

section

variable (hcfg : cfg.Legal) (hbase : tx.txNextAck < cfg.snModulus)
  (hpoll : tx.pollSn = tx.txNextAck)
include hcfg hbase hpoll

lemma Checked.reports_base (hnacks : ∀ n ∈ s.nacks, n.InRange cfg.snModulus)
    (hs : Checked cfg tx s)
    (hsome : s.expanded cfg.snModulus ≠ []) : PollReported cfg tx s := by
  have hM : 4096 ≤ cfg.snModulus := by
    have := hcfg.windowSize_ge
    have := hcfg.window
    omega
  have hzero : modulusTx cfg tx tx.txNextAck = 0 := by simp [modulusTx]
  have hbelow : ∀ a : Nat, a < cfg.snModulus → modulusTx cfg tx a ≤ 0 → a = tx.txNextAck := by
    intro a ha hle
    simp only [modulusTx] at hle
    split at hle <;> omega
  by_cases habove : 0 < modulusTx cfg tx s.ackSn
  · refine .inl ?_
    rw [snCompareTx, hpoll, hzero]
    omega
  · -- all NACKs are at tx_next_ack: the first SN of one, and its only one
    obtain ⟨k, hk⟩ := exists_mem_of_ne_nil _ hsome
    obtain ⟨n, hn, hkn⟩ := mem_flatMap.mp hk
    obtain ⟨i, hi, -⟩ := mem_map.mp hkn
    rw [mem_range] at hi
    have hat : ∀ i < n.range, (n.nackSn + i) % cfg.snModulus = tx.txNextAck := by
      intro i hi
      apply hbelow _ (Nat.mod_lt _ (by omega))
      have hle := hs.nack_le ⟨(n.nackSn + i) % cfg.snModulus, if i = 0 then n.soStart else 0,
        if i = n.range - 1 then n.soEnd else -1⟩
        (mem_flatMap.mpr ⟨n, hn, mem_map.mpr ⟨i, mem_range.mpr hi, rfl⟩⟩)
      exact hle.trans (Int.not_lt.mp habove)
    have hfirst : n.nackSn = tx.txNextAck := by
      have := hat 0 (by omega)
      rwa [Nat.add_zero, Nat.mod_eq_of_lt (hnacks n hn).sn_lt] at this
    have hrange : n.range = 1 := by
      by_contra hne
      have := hat 1 (by omega)
      rw [hfirst] at this
      rcases lt_or_ge (tx.txNextAck + 1) cfg.snModulus with hlt | hge
      · rw [Nat.mod_eq_of_lt hlt] at this
        omega
      · rw [show tx.txNextAck + 1 = cfg.snModulus by omega, Nat.mod_self] at this
        omega
    refine .inr ⟨n, hn, ?_, ?_⟩
    · rw [snCompareTx, hpoll, hfirst]
      omega
    · rw [snCompareTx, hpoll, hzero, hfirst, hrange]
      have hpos : 0 < modulusTx cfg tx (((tx.txNextAck + 1) % cfg.snModulus : Nat)) := by
        by_contra hle
        have := hbelow _ (Nat.mod_lt (tx.txNextAck + 1) (by omega)) (by omega)
        rcases lt_or_ge (tx.txNextAck + 1) cfg.snModulus with hlt | hge
        · rw [Nat.mod_eq_of_lt hlt] at this
          omega
        · rw [show tx.txNextAck + 1 = cfg.snModulus by omega, Nat.mod_self] at this
          omega
      omega

theorem Disordered.obeyed (hruns : tx.tPollRetransmitStart ≠ 0)
    (h : Disordered cfg tx buffer) : ¬ Validates cfg tx buffer := by
  obtain ⟨s, hread, hs, hnot⟩ := h
  have hnacks : ∀ n ∈ s.nacks, n.InRange cfg.snModulus := by
    rcases readStatus_cases hcfg buffer with herr | ⟨s', hread', -, hok⟩
    · rw [hread] at herr
      cases herr
    · rw [hread] at hread'
      cases hread'
      exact hok
  have hsome : s.expanded cfg.snModulus ≠ [] := by
    intro hnil
    rw [hnil] at hnot
    exact hnot List.IsChain.nil
  have hstops := (processStatus_timer cfg tx s).1
    (hs.reports_base hcfg hbase hpoll hnacks hsome)
  rintro ⟨tx', hrun, hsame | ⟨s', hread', -, hinc⟩⟩
  · rw [processControlPdu_checked hread hs] at hrun
    cases hrun
    exact hruns (hsame.tPollRetransmitStart.symm.trans hstops)
  · rw [hread] at hread'
    cases hread'
    exact hnot hinc

end

lemma Disordered.congr {tx' : Tx} (hbase : tx'.txNextAck = tx.txNextAck)
    (hnext : tx'.txNext = tx.txNext) (h : Disordered cfg tx buffer) : Disordered cfg tx' buffer := by
  obtain ⟨s, hread, hs, hnot⟩ := h
  have hmod : modulusTx cfg tx' = modulusTx cfg tx := by
    funext a
    rw [modulusTx, modulusTx, hbase]
  have hnack : nackSn cfg tx' = nackSn cfg tx := by
    funext k
    rw [nackSn, nackSn, hmod]
  have horder : NackSnBefore cfg tx' = NackSnBefore cfg tx := by
    funext j k
    rw [NackSnBefore, NackSnBefore, hnack]
  refine ⟨s, hread, ⟨?_, ?_⟩, ?_⟩
  · rw [hmod, hnext]
    exact hs.ack_le
  · rw [hmod, hnack]
    exact hs.nack_le
  · rw [Increasing, horder]
    exact hnot

/-- **The validation of a control PDU**: a byte string is discarded, or decoded, checked and in order,
in every state of the entity with this `tx_next_ack` and this `tx_next`, exactly when it is not
disordered. -/
theorem control_pdu_validated_iff (hcfg : cfg.Legal) (tx : Tx) (hbase : tx.txNextAck < cfg.snModulus)
    (buffer : List UInt8) :
    (∀ tx' : Tx, tx'.txNextAck = tx.txNextAck → tx'.txNext = tx.txNext → Validates cfg tx' buffer) ↔
      ¬ Disordered cfg tx buffer := by
  constructor
  · intro hall hdis
    have hdis' : Disordered cfg { tx with pollSn := tx.txNextAck, tPollRetransmitStart := 1 } buffer :=
      by refine Disordered.congr ?_ ?_ hdis <;> rfl
    refine Disordered.obeyed hcfg ?_ ?_ ?_ hdis' (hall _ rfl rfl)
    · exact hbase
    · rfl
    · exact (by decide : (1 : UInt64) ≠ 0)
  · intro hnot tx' hbase' hnext'
    exact validates_of_not_disordered hcfg fun hdis => hnot (hdis.congr hbase'.symm hnext'.symm)

end Validation

/-- Three SDUs wait for their acknowledgement. -/
def threeSent : Tx :=
  ⟨3, 0, 2, 0, 0, false, 5, ⟨fun i => ⟨i, 0, List.replicate 30 0, 0, 1, 0⟩, 3⟩, [], none, 90,
    [⟨0, 30, 0, true, true⟩, ⟨1, 30, 0, true, true⟩, ⟨2, 30, 0, true, true⟩],
    some ⟨2, 30, 0, true, true⟩, [], 0, 0, [], [], 0⟩

theorem control_pdu_validated_in_order :
    ¬ Disordered sn12Config threeSent [0, 3, 0x80, 0, 8, 0, 0x10] ∧
    ∀ tx' : Tx, tx'.txNextAck = 0 → tx'.txNext = 3 →
      Validates sn12Config tx' [0, 3, 0x80, 0, 8, 0, 0x10] := by
  have hnot : ¬ Disordered sn12Config threeSent [0, 3, 0x80, 0, 8, 0, 0x10] := by
    rintro ⟨s, hread, -, hnot⟩
    cases hread
    exact hnot (by decide)
  exact ⟨hnot, (control_pdu_validated_iff sn12Config_legal threeSent (by decide) _).mpr hnot⟩

theorem control_pdu_validated_out_of_order :
    ListsOk sn12Config threeSent ∧
    readStatus sn12Config [0, 3, 0x80, 0, 0x18, 0, 0] = .ok ⟨3, [⟨1, 0, -1, 1⟩, ⟨0, 0, -1, 1⟩]⟩ ∧
    ¬ Validates sn12Config threeSent [0, 3, 0x80, 0, 0x18, 0, 0] ∧
    ∃ tx', processControlPdu sn12Config threeSent [0, 3, 0x80, 0, 0x18, 0, 0] = some tx' ∧
      tx'.freed = [⟨0, 30, 0, true, true⟩, ⟨2, 30, 0, true, true⟩] ∧ tx'.waitList = [] ∧
      tx'.retransmitList = [⟨1, 30, 0, true, true⟩] ∧ tx'.txNextAck = 1 ∧
      tx'.tPollRetransmitStart = 0 := by
  have hread : readStatus sn12Config [0, 3, 0x80, 0, 0x18, 0, 0] =
      .ok ⟨3, [⟨1, 0, -1, 1⟩, ⟨0, 0, -1, 1⟩]⟩ := by rfl
  refine ⟨⟨by decide, by decide, by decide, by decide, by decide, by decide, rfl⟩, hread, ?_,
    _, rfl, by decide, by decide, by decide, by decide, by decide⟩
  rintro ⟨tx', hrun, hsame | ⟨s, hread', -, hinc⟩⟩
  · have hwait := hsame.waitList
    cases hrun
    exact absurd hwait (by decide)
  · rw [hread] at hread'
    cases hread'
    exact absurd hinc (by decide)

end NrStack.Rlc.Am
