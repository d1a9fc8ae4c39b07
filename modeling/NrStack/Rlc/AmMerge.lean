/-
  The processing phase of `process_control_pdu`.

  Two sorted lists are walked at once, smallest head first, with the NACKs of the report in hand.  Positions
  are measured from `tx_next_ack`, which does not move before the end.

      `Turn`       says once what one turn of `process_next_pdu` can do,
      `Merging`    is what is true between two turns,
      `Lost`       is what is true after the "speedup" of the retransmit list threw its rest away,
      `Lossy`      describes the inputs for which the processing ends in `Lost`.
-/
import NrStack.Rlc.AmControl
import Mathlib

namespace NrStack.Rlc.Am

open List

/-! ## Positions -/

/-- The distance of a segment from `tx_next_ack`. -/
def segSn (cfg : Config) (tx : Tx) (x : Seg) : Int := modulusTx cfg tx (snOf tx x)

/-- The order of the lists: by SN, then by SO. -/
def SegBefore (cfg : Config) (tx : Tx) (x y : Seg) : Prop :=
  segSn cfg tx x < segSn cfg tx y ∨ (segSn cfg tx x = segSn cfg tx y ∧ x.so < y.so)

/-- The distance of a NACK from `tx_next_ack`. -/
def nackSn (cfg : Config) (tx : Tx) (k : CurNack) : Int := modulusTx cfg tx k.sn

/-- The code's test: the NACK hits the segment. -/
def Hit (tx : Tx) (k : CurNack) (x : Seg) : Prop := nackOverlaps tx k x = true

/-- The code's test: the segment starts behind the start of the NACK. -/
def Past (cfg : Config) (tx : Tx) (k : CurNack) (x : Seg) : Prop :=
  nackSn cfg tx k < segSn cfg tx x ∨ (nackSn cfg tx k = segSn cfg tx x ∧ k.soStart < x.so)

/-- The segment lies behind the NACK. -/
def Beyond (cfg : Config) (tx : Tx) (k : CurNack) (x : Seg) : Prop :=
  nackSn cfg tx k < segSn cfg tx x ∨
    (nackSn cfg tx k = segSn cfg tx x ∧ k.soEnd ≠ -1 ∧ k.soEnd < x.so)

/-- The segment lies before the NACK. -/
def Behind (cfg : Config) (tx : Tx) (k : CurNack) (x : Seg) : Prop :=
  segSn cfg tx x < nackSn cfg tx k ∨
    (segSn cfg tx x = nackSn cfg tx k ∧ 0 < x.so + x.size ∧ x.so + x.size ≤ k.soStart)

/-- The order of the NACKs. -/
def NackSnBefore (cfg : Config) (tx : Tx) (j k : CurNack) : Prop :=
  nackSn cfg tx j < nackSn cfg tx k ∨
    (nackSn cfg tx j = nackSn cfg tx k ∧ j.soEnd ≠ -1 ∧ j.soEnd < k.soStart)

/-- A transmitting side whose lists are sorted, with no two segments at one position. -/
structure ListsOk (cfg : Config) (tx : Tx) : Prop where
  next_lt : tx.txNextAck < cfg.snModulus
  sn_nonneg : ∀ x ∈ tx.waitList ++ tx.retransmitList, 0 ≤ snOf tx x
  sn_lt : ∀ x ∈ tx.waitList ++ tx.retransmitList, snOf tx x < cfg.snModulus
  wait : tx.waitList.Pairwise (SegBefore cfg tx)
  retransmit : tx.retransmitList.Pairwise (SegBefore cfg tx)
  apart : ∀ w ∈ tx.waitList, ∀ r ∈ tx.retransmitList, SegBefore cfg tx w r ∨ SegBefore cfg tx r w
  waitEnd : tx.waitEnd = tx.waitList.getLast?

/-- The NACKs of a report, strictly increasing, none above ACK_SN. -/
structure NacksOk (cfg : Config) (tx : Tx) (ackSn : Nat) (ks : List CurNack) : Prop where
  sorted : ks.Pairwise (NackSnBefore cfg tx)
  order : ∀ k ∈ ks, k.soEnd = -1 ∨ (k.soStart : Int) ≤ k.soEnd
  sn_lt : ∀ k ∈ ks, k.sn < cfg.snModulus
  le_ack : ∀ k ∈ ks, nackSn cfg tx k ≤ modulusTx cfg tx ackSn

section Positions

variable {cfg : Config} {tx : Tx} {j k : CurNack} {x y z : Seg}

lemma SegBefore.trans (hxy : SegBefore cfg tx x y) (hyz : SegBefore cfg tx y z) :
    SegBefore cfg tx x z := by
  rw [SegBefore] at *
  omega

lemma SegBefore.trans_first (hxy : SegBefore cfg tx x y) (hyz : y = z ∨ SegBefore cfg tx y z) :
    SegBefore cfg tx x z :=
  hyz.elim (fun heq => heq ▸ hxy) hxy.trans

lemma SegBefore.irrefl : ¬ SegBefore cfg tx x x := by
  rw [SegBefore]
  omega

lemma SegBefore.ne (h : SegBefore cfg tx x y) : x ≠ y := by
  rintro rfl
  exact h.irrefl

lemma head_first {l xs : List Seg} (h : l.Pairwise (SegBefore cfg tx)) (hl : l = x :: xs) :
    ∀ y ∈ l, x = y ∨ SegBefore cfg tx x y := by
  subst hl
  exact forall_mem_cons.mpr ⟨.inl rfl, fun y hy => .inr (rel_of_pairwise_cons h hy)⟩

lemma ListsOk.not_both (h : ListsOk cfg tx) (hw : x ∈ tx.waitList) : x ∉ tx.retransmitList := by
  intro hr
  rcases h.apart x hw x hr with hloop | hloop <;> exact hloop.irrefl

lemma ListsOk.nodup (h : ListsOk cfg tx) : (tx.waitList ++ tx.retransmitList).Nodup := by
  refine nodup_append.mpr ⟨h.wait.imp SegBefore.ne, h.retransmit.imp SegBefore.ne, ?_⟩
  rintro x hx y hy rfl
  exact h.not_both hx hy

lemma modulusTx_inj {a b : Int} (ha : 0 ≤ a) (ha' : a < cfg.snModulus)
    (hb : 0 ≤ b) (hb' : b < cfg.snModulus) :
    modulusTx cfg tx a = modulusTx cfg tx b ↔ a = b := by
  constructor
  · intro heq
    simp only [modulusTx] at heq
    split at heq <;> split at heq <;> omega
  · intro heq
    rw [heq]

lemma ListsOk.sn_eq_iff (h : ListsOk cfg tx) (hk : k.sn < cfg.snModulus)
    (hx : x ∈ tx.waitList ++ tx.retransmitList) :
    segSn cfg tx x = nackSn cfg tx k ↔ snOf tx x = k.sn :=
  modulusTx_inj (h.sn_nonneg x hx) (h.sn_lt x hx) (Int.natCast_nonneg _) (by omega)

lemma hit_iff : Hit tx k x ↔ snOf tx x = k.sn ∧
    if (k.soStart : Int) < x.so then k.soEnd = -1 ∨ k.soEnd ≥ x.so
    else (x.so : Int) + x.size - 1 = -1 ∨ (k.soStart : Int) ≤ x.so + x.size - 1 := by
  rw [Hit, nackOverlaps, Bool.and_eq_true, decide_eq_true_eq, soOverlap]
  split <;> rw [decide_eq_true_eq]

lemma past_iff : (modulusTx cfg tx (snOf tx x) - modulusTx cfg tx k.sn > 0 ∨
    (modulusTx cfg tx (snOf tx x) - modulusTx cfg tx k.sn = 0 ∧ x.so > k.soStart)) ↔
    Past cfg tx k x := by
  rw [Past, segSn, nackSn]
  omega

section

variable (h : ListsOk cfg tx) (hk : k.sn < cfg.snModulus)
  (hx : x ∈ tx.waitList ++ tx.retransmitList)
include h hk hx

lemma ListsOk.beyond (hnot : ¬ Hit tx k x) (hpast : Past cfg tx k x) :
    Beyond cfg tx k x := by
  rcases hpast with hlt | ⟨heq, hso⟩
  · exact .inl hlt
  · refine .inr ⟨heq, ?_⟩
    rw [hit_iff, if_pos (by omega), (h.sn_eq_iff hk hx).mp heq.symm] at hnot
    exact ⟨fun hend => hnot ⟨rfl, .inl hend⟩, by omega⟩

lemma ListsOk.behind (hnot : ¬ Hit tx k x) (hpast : ¬ Past cfg tx k x) :
    Behind cfg tx k x := by
  rw [Past] at hpast
  rcases Int.lt_or_le (segSn cfg tx x) (nackSn cfg tx k) with hlt | hge
  · exact .inl hlt
  · have heq : segSn cfg tx x = nackSn cfg tx k := by omega
    refine .inr ⟨heq, ?_⟩
    rw [hit_iff, if_neg (by omega), (h.sn_eq_iff hk hx).mp heq] at hnot
    omega

lemma ListsOk.not_hit_of_beyond (horder : k.soEnd = -1 ∨ (k.soStart : Int) ≤ k.soEnd)
    (hbeyond : Beyond cfg tx k x) : ¬ Hit tx k x := by
  rw [hit_iff]
  rintro ⟨hsn, hover⟩
  have heq := (h.sn_eq_iff hk hx).mpr hsn
  rw [Beyond] at hbeyond
  split at hover <;> omega

lemma ListsOk.not_hit_of_behind (hbehind : Behind cfg tx k x) : ¬ Hit tx k x := by
  rw [hit_iff]
  rintro ⟨hsn, hover⟩
  have heq := (h.sn_eq_iff hk hx).mpr hsn
  rw [Behind] at hbehind
  split at hover <;> omega

end

lemma Behind.mono (hbehind : Behind cfg tx j x)
    (horder : j.soEnd = -1 ∨ (j.soStart : Int) ≤ j.soEnd) (hjk : NackSnBefore cfg tx j k) :
    Behind cfg tx k x := by
  rw [Behind] at *
  rw [NackSnBefore] at hjk
  omega

lemma Beyond.mono (hbeyond : Beyond cfg tx k x) (hxy : x = y ∨ SegBefore cfg tx x y) :
    Beyond cfg tx k y := by
  rcases hxy with rfl | hxy
  · exact hbeyond
  · rw [Beyond] at *
    rw [SegBefore] at hxy
    omega

lemma ListsOk.not_hit (h : ListsOk cfg tx) {ackSn : Nat} {done later : List CurNack}
    (hks : NacksOk cfg tx ackSn (done ++ k :: later)) (hx : x ∈ tx.waitList ++ tx.retransmitList)
    (hbeyond : ∀ j ∈ done, Beyond cfg tx j x) (hbehind : Behind cfg tx k x) :
    ∀ j ∈ done ++ k :: later, ¬ Hit tx j x := by
  intro j hj
  have hlt := hks.sn_lt j hj
  rcases mem_append.mp hj with hdone | hlater
  · exact h.not_hit_of_beyond hlt hx (hks.order j hj) (hbeyond j hdone)
  · rcases mem_cons.mp hlater with rfl | hlater
    · exact h.not_hit_of_behind hlt hx hbehind
    · have hkj := rel_of_pairwise_cons (pairwise_append.mp hks.sorted).2.1 hlater
      have horder := hks.order k (mem_append_right _ mem_cons_self)
      exact h.not_hit_of_behind hlt hx (hbehind.mono horder hkj)

end Positions

/-! ## What the processing does to the rest of the entity -/

/-- The transmitting side `t` after the segments `fs` of `tx` were freed; the lists aside. -/
structure Acked (tx : Tx) (fs : List Seg) (t : Tx) : Prop where
  sn : ∀ i, (t.heap.sdus i).sn = (tx.heap.sdus i).sn
  data : ∀ i, (t.heap.sdus i).data = (tx.heap.sdus i).data
  refCount : ∀ i, (t.heap.sdus i).refCount = (tx.heap.sdus i).refCount
  freeCount : ∀ i, (t.heap.sdus i).freeCount =
    (tx.heap.sdus i).freeCount + fs.countP (fun x => decide (x.sdu = i))
  count : t.heap.count = tx.heap.count
  freed : t.freed = tx.freed ++ fs
  succeeded : ∀ i ∈ t.succeeded,
    i ∈ tx.succeeded ∨ (tx.heap.sdus i).refCount ≤ (t.heap.sdus i).freeCount
  txNextAck : t.txNextAck = tx.txNextAck
  txNext : t.txNext = tx.txNext
  waitEnd : t.waitEnd = tx.waitEnd
  txList : t.txList = tx.txList
  txEnd : t.txEnd = tx.txEnd

section View

variable {cfg : Config} {tx t : Tx} {fs : List Seg}

lemma Acked.refl : Acked tx [] tx :=
  ⟨fun _ => rfl, fun _ => rfl, fun _ => rfl, fun _ => rfl, rfl, (append_nil _).symm,
    fun _ hi => .inl hi, rfl, rfl, rfl, rfl, rfl⟩

section

variable (h : Acked tx fs t)
include h

lemma Acked.freeAcked (x : Seg) : Acked tx (fs ++ [x]) (freeAcked t x) := by
  have hkeeps : ∀ {α : Type} (p : Sdu → α),
      (∀ s : Sdu, p { s with freeCount := s.freeCount + 1 } = p s) →
      ∀ i, p ((Am.freeAcked t x).heap.sdus i) = p (t.heap.sdus i) :=
    fun p hp i => Heap.modify_keeps p t.heap x.sdu _ hp i
  have hcount : ∀ i, ((Am.freeAcked t x).heap.sdus i).freeCount = (t.heap.sdus i).freeCount +
      [x].countP (fun x => decide (x.sdu = i)) := by
    intro i
    show ((t.heap.addFree x.sdu).sdus i).freeCount = _
    rw [Heap.addFree]
    by_cases hi : i = x.sdu
    · subst hi
      rw [Heap.modify_self, countP_singleton, if_pos (decide_eq_true rfl)]
    · rw [Heap.modify_of_ne _ _ hi, countP_singleton,
        if_neg (by rw [decide_eq_true_eq]; exact fun heq => hi heq.symm)]
      rfl
  refine ⟨?_, ?_, ?_, ?_, h.count, ?_, ?_, h.txNextAck, h.txNext, h.waitEnd, h.txList, h.txEnd⟩
  · exact fun i => (hkeeps Sdu.sn (fun _ => rfl) i).trans (h.sn i)
  · exact fun i => (hkeeps Sdu.data (fun _ => rfl) i).trans (h.data i)
  · exact fun i => (hkeeps Sdu.refCount (fun _ => rfl) i).trans (h.refCount i)
  · intro i
    rw [hcount i, h.freeCount i, countP_append, Nat.add_assoc]
  · show t.freed ++ [x] = _
    rw [h.freed, append_assoc]
  · intro i hi
    have hold : i ∈ t.succeeded → i ∈ tx.succeeded ∨
        (tx.heap.sdus i).refCount ≤ ((Am.freeAcked t x).heap.sdus i).freeCount := by
      intro hi
      refine (h.succeeded i hi).imp_right fun hle => ?_
      rw [hcount i]
      exact Nat.le_add_right_of_le hle
    simp only [Am.freeAcked] at hi
    split at hi
    · next hgone =>
      rcases mem_append.mp hi with hi | hi
      · exact hold hi
      · -- the SDU that went with this segment
        right
        rw [mem_singleton.mp hi, hcount x.sdu, ← h.refCount x.sdu, countP_singleton,
          if_pos (decide_eq_true rfl)]
        exact le_of_eq (of_decide_eq_true hgone).symm
    · exact hold hi

lemma Acked.subRetx (x : Seg) : Acked tx fs (subRetx cfg t x) :=
  { h with }

lemma Acked.addRetx (x : Seg) : Acked tx fs (addRetx cfg t x) :=
  { h with }

lemma Acked.stopPoll : Acked tx fs (stopPoll t) :=
  { h with }

lemma Acked.countRetx (x : Seg) : Acked tx fs (countRetx cfg t x) := by
  have hkeeps : ∀ {α : Type} (p : Sdu → α), (∀ s : Sdu, p { s with retxCount := s.retxCount + 1 } = p s) →
      ∀ i, p ((Am.countRetx cfg t x).heap.sdus i) = p (t.heap.sdus i) :=
    fun p hp i => Heap.modify_keeps p t.heap x.sdu _ hp i
  have hfree := hkeeps Sdu.freeCount fun _ => rfl
  refine ⟨fun i => (hkeeps Sdu.sn (fun _ => rfl) i).trans (h.sn i),
    fun i => (hkeeps Sdu.data (fun _ => rfl) i).trans (h.data i),
    fun i => (hkeeps Sdu.refCount (fun _ => rfl) i).trans (h.refCount i),
    fun i => (hfree i).trans (h.freeCount i), h.count, h.freed, ?_, h.txNextAck, h.txNext, h.waitEnd,
    h.txList, h.txEnd⟩
  intro i hi
  rw [hfree i]
  exact h.succeeded i hi

lemma Acked.snOf_eq (x : Seg) : snOf t x = snOf tx x := h.sn x.sdu

lemma Acked.snCompareTx_eq (a b : Int) :
    snCompareTx cfg t a b = modulusTx cfg tx a - modulusTx cfg tx b := by
  rw [snCompareTx, modulusTx, modulusTx, h.txNextAck]
  rfl

lemma Acked.nackOverlaps_eq (k : CurNack) (x : Seg) :
    nackOverlaps t k x = nackOverlaps tx k x := by
  rw [nackOverlaps, nackOverlaps, h.snOf_eq]

end

end View

/-! ## One turn -/

/-- The segments not yet looked at. -/
def Merge.left (m : Merge) : List Seg := m.waitNext ++ m.curRetransmit

/-- The segment the turn is about: the smallest that is left. -/
def Smallest (cfg : Config) (tx : Tx) (m : Merge) (x : Seg) : Prop :=
  ∀ y ∈ m.left, x = y ∨ SegBefore cfg tx x y

/-- What a turn of `process_next_pdu` can do. -/
inductive Turn (cfg : Config) (tx : Tx) (ackSn : Nat) (k : CurNack) (m : Merge) :
    Merge × Outcome → Prop
  /-- Both lists are at their end. -/
  | exhausted : m.left = [] → Turn cfg tx ackSn k m (m, .listsOver)
  /-- The smallest segment is beyond the NACK. -/
  | beyond {x : Seg} : Smallest cfg tx m x → Beyond cfg tx k x →
      Turn cfg tx ackSn k m (m, .doneNack)
  | waitHit {w : Seg} {ws : List Seg} : m.waitNext = w :: ws → Smallest cfg tx m w → Hit tx k w →
      Turn cfg tx ackSn k m ({ m.unlinkWait w ws with
        newRetransmit := m.newRetransmit ++ [w]
        tx := addRetx cfg (countRetx cfg m.tx w) w }, .again)
  | waitFree {w : Seg} {ws : List Seg} : m.waitNext = w :: ws → Smallest cfg tx m w →
      Behind cfg tx k w → segSn cfg tx w < modulusTx cfg tx ackSn →
      Turn cfg tx ackSn k m (m.freeWait w ws, .again)
  | waitSkip {w : Seg} {ws : List Seg} : m.waitNext = w :: ws → Smallest cfg tx m w →
      Behind cfg tx k w →
      Turn cfg tx ackSn k m ({ m with waitDone := m.waitDone ++ [w], waitNext := ws }, .again)
  | retxKeep {r : Seg} {rs : List Seg} : m.curRetransmit = r :: rs → Smallest cfg tx m r →
      (Hit tx k r ∨ ∃ w ∈ m.waitNext, SegBefore cfg tx r w) →
      Turn cfg tx ackSn k m
        ({ m with newRetransmit := m.newRetransmit ++ [r], curRetransmit := rs }, .again)
  | retxFree {r : Seg} {rs : List Seg} : m.curRetransmit = r :: rs → Smallest cfg tx m r →
      Behind cfg tx k r → segSn cfg tx r < modulusTx cfg tx ackSn →
      Turn cfg tx ackSn k m (m.freeRetransmit cfg r rs, .again)
  /-- The "speedup". -/
  | lost {r : Seg} {rs : List Seg} : m.curRetransmit = r :: rs → m.waitNext = [] →
      Behind cfg tx k r → ¬ segSn cfg tx r < modulusTx cfg tx ackSn →
      Turn cfg tx ackSn k m ({ m with curRetransmit := [] }, .listsOver)

section Step

variable {cfg : Config} {tx : Tx} {ackSn : Nat} {k : CurNack} {m : Merge} {fs : List Seg}

section

variable (h : ListsOk cfg tx) (hacked : Acked tx fs m.tx) (hk : k.sn < cfg.snModulus)
include h hacked hk

lemma waitHead_turn (hle : nackSn cfg tx k ≤ modulusTx cfg tx ackSn) {w : Seg}
    {ws : List Seg} (hw : w ∈ tx.waitList) (hnext : m.waitNext = w :: ws)
    (hsmall : Smallest cfg tx m w) :
    Turn cfg tx ackSn k m (processWaitListHead cfg ackSn k m w ws) := by
  have hmem : w ∈ tx.waitList ++ tx.retransmitList := mem_append_left _ hw
  rw [processWaitListHead, hacked.nackOverlaps_eq, hacked.snOf_eq, hacked.snCompareTx_eq,
    hacked.snCompareTx_eq]
  split
  · next hhit => exact .waitHit hnext hsmall hhit
  next hnot =>
  split
  · next hgo => exact .beyond hsmall (h.beyond hk hmem hnot (past_iff.mp hgo))
  next hgo =>
  have hbehind := h.behind hk hmem hnot fun hp => hgo (past_iff.mpr hp)
  split
  · next hack =>
    exact .waitFree hnext hsmall hbehind (by rw [segSn]; omega)
  split
  · -- an SN above ACK_SN is above the NACK
    next hover =>
    rw [Behind, segSn] at hbehind
    omega
  · exact .waitSkip hnext hsmall hbehind

lemma retxHead_turn (hover : m.waitOver = false) {r : Seg} {rs : List Seg}
    (hr : r ∈ tx.retransmitList) (hwait : ∀ w ∈ m.waitNext, w ∈ tx.waitList)
    (hcur : m.curRetransmit = r :: rs) (hsmall : Smallest cfg tx m r) :
    Turn cfg tx ackSn k m (processRetransmitListHead cfg ackSn k m r rs) := by
  have hmem : r ∈ tx.waitList ++ tx.retransmitList := mem_append_right _ hr
  simp only [processRetransmitListHead, hacked.nackOverlaps_eq, hacked.snOf_eq,
    hacked.snCompareTx_eq]
  split
  · next hhit => exact .retxKeep hcur hsmall (.inl hhit)
  next hnot =>
  split
  · next hgo => exact .beyond hsmall (h.beyond hk hmem hnot (past_iff.mp hgo))
  next hgo =>
  have hbehind := h.behind hk hmem hnot fun hp => hgo (past_iff.mpr hp)
  split
  · exact .retxFree hcur hsmall hbehind (by rw [segSn]; omega)
  next hack =>
  split
  · next hempty =>
    refine .lost hcur ?_ hbehind (by rw [segSn]; omega)
    rcases hempty with hset | hnil
    · rw [hover] at hset
      cases hset
    · exact hnil
  · next hfull =>
    obtain ⟨w, hw⟩ : ∃ w, w ∈ m.waitNext :=
      exists_mem_of_ne_nil _ fun hnil => hfull (.inr hnil)
    refine .retxKeep hcur hsmall (.inr ⟨w, hw, (hsmall w (mem_append_left _ hw)).resolve_left ?_⟩)
    rintro rfl
    exact h.not_both (hwait r hw) hr

theorem processNextPdu_turn (hle : nackSn cfg tx k ≤ modulusTx cfg tx ackSn)
    (hover : m.waitOver = false) (hwait : m.waitNext.Sublist tx.waitList)
    (hretx : m.curRetransmit.Sublist tx.retransmitList) :
    Turn cfg tx ackSn k m (processNextPdu cfg ackSn k m) := by
  rw [processNextPdu, hover, if_neg Bool.false_ne_true]
  cases hW : m.waitNext with
  | nil =>
    cases hR : m.curRetransmit with
    | nil => exact .exhausted (by rw [Merge.left, hW, hR]; rfl)
    | cons r rs =>
      apply retxHead_turn h hacked hk hover (hretx.subset (hR ▸ mem_cons_self)) hwait.subset hR
      rw [Smallest, Merge.left, hW]
      exact head_first (h.retransmit.sublist hretx) hR
  | cons w ws =>
    have hwmem : w ∈ tx.waitList := hwait.subset (hW ▸ mem_cons_self)
    have hfirstW := head_first (h.wait.sublist hwait) hW
    cases hR : m.curRetransmit with
    | nil =>
      apply waitHead_turn h hacked hk hle hwmem hW
      rw [Smallest, Merge.left, hR, append_nil]
      exact hfirstW
    | cons r rs =>
      have hrmem : r ∈ tx.retransmitList := hretx.subset (hR ▸ mem_cons_self)
      have hfirstR := head_first (h.retransmit.sublist hretx) hR
      have hcmp : (snCompareTx cfg m.tx (snOf m.tx w) (snOf m.tx r) < 0 ∨
          (snCompareTx cfg m.tx (snOf m.tx w) (snOf m.tx r) = 0 ∧ w.so < r.so)) ↔
          SegBefore cfg tx w r := by
        rw [hacked.snCompareTx_eq, hacked.snOf_eq, hacked.snOf_eq, SegBefore, segSn, segSn]
        omega
      show Turn cfg tx ackSn k m (if _ then _ else _)
      split
      next hlt =>
        refine waitHead_turn h hacked hk hle hwmem hW (forall_mem_append.mpr ⟨hfirstW, fun y hy => ?_⟩)
        exact .inr ((hcmp.mp hlt).trans_first (hfirstR y hy))
      next hge =>
        have hbefore : SegBefore cfg tx r w :=
          (h.apart w hwmem r hrmem).resolve_left fun hlt => hge (hcmp.mpr hlt)
        refine retxHead_turn h hacked hk hover hrmem hwait.subset hR
          (forall_mem_append.mpr ⟨fun y hy => ?_, hfirstR⟩)
        exact .inr (hbefore.trans_first (hfirstW y hy))

end

end Step

/-! ## Between two turns -/

/-- What is left lies behind what was passed, and beyond the NACKs that are done. -/
structure Passing (cfg : Config) (tx : Tx) (done : List CurNack) (m : Merge) : Prop where
  front : ∀ x ∈ m.newRetransmit, ∀ y ∈ m.left, SegBefore cfg tx x y
  passed : ∀ x ∈ tx.waitList, x ∈ m.waitNext ∨ ∀ y ∈ m.left, SegBefore cfg tx x y
  beyond : ∀ y ∈ m.left, ∀ j ∈ done, Beyond cfg tx j y

/-- The state of the processing of the NACKs `ks`, of which `done` are done; the segments `fs` have
been freed. -/
structure Merging (cfg : Config) (tx : Tx) (ackSn : Nat) (ks done : List CurNack) (fs : List Seg)
    (m : Merge) : Prop where
  acked : Acked tx fs m.tx
  perm : ((m.waitDone ++ m.waitNext) ++ ((m.newRetransmit ++ m.curRetransmit) ++ fs)).Perm
    (tx.waitList ++ tx.retransmitList)
  notOver : m.waitOver = false
  wait : (m.waitDone ++ m.waitNext).Sublist tx.waitList
  cur : m.curRetransmit.Sublist tx.retransmitList
  sorted : m.newRetransmit.Pairwise (SegBefore cfg tx)
  passing : Passing cfg tx done m
  kept : ∀ x ∈ m.newRetransmit, (∃ k ∈ ks, Hit tx k x) ∨ ∃ w ∈ tx.waitList, SegBefore cfg tx x w
  skipped : ∀ x ∈ m.waitDone, ∀ k ∈ ks, ¬ Hit tx k x
  freed : ∀ x ∈ fs, segSn cfg tx x < modulusTx cfg tx ackSn ∧ ∀ k ∈ ks, ¬ Hit tx k x
  endWait : m.endWait.getD tx.waitEnd = (m.waitDone ++ m.waitNext).getLast?
  endSet : m.endWait ≠ none → m.waitNext = []

section Merging

variable {cfg : Config} {tx : Tx} {ackSn : Nat} {ks done later : List CurNack} {k : CurNack}
  {fs : List Seg} {m m' : Merge}

lemma Merging.left_mem (h : Merging cfg tx ackSn ks done fs m) {x : Seg} (hx : x ∈ m.left) :
    x ∈ tx.waitList ++ tx.retransmitList := by
  rcases mem_append.mp hx with hx | hx
  · exact mem_append_left _ (h.wait.subset (mem_append_right _ hx))
  · exact mem_append_right _ (h.cur.subset hx)

theorem Merging.take (hok : ListsOk cfg tx) (h : Merging cfg tx ackSn ks done fs m) {x : Seg}
    (hsmall : Smallest cfg tx m x) (hperm : m.left ~ x :: m'.left)
    (hnew : ∀ z ∈ m'.newRetransmit, z ∈ m.newRetransmit ∨ z = x)
    (hwait : ∀ z ∈ m.waitNext, z ∈ m'.waitNext ∨ z = x) :
    Passing cfg tx done m' ∧ m'.left.length + 1 = m.left.length := by
  have hsub : m.left <+ tx.waitList ++ tx.retransmitList :=
    ((sublist_append_right _ _).trans h.wait).append h.cur
  have hnodup := nodup_cons.mp (hperm.nodup_iff.mp (hsub.nodup hok.nodup))
  have hleft : ∀ y ∈ m'.left, y ∈ m.left ∧ SegBefore cfg tx x y := by
    intro y hy
    have hin := hperm.mem_iff.mpr (mem_cons_of_mem _ hy)
    refine ⟨hin, (hsmall y hin).resolve_left ?_⟩
    rintro rfl
    exact hnodup.1 hy
  refine ⟨⟨?_, ?_, fun y hy => h.passing.beyond y (hleft y hy).1⟩, hperm.length_eq.symm⟩
  · intro z hz y hy
    rcases hnew z hz with hz | rfl
    · exact h.passing.front z hz y (hleft y hy).1
    · exact (hleft y hy).2
  · intro z hz
    rcases h.passing.passed z hz with hin | hbefore
    · rcases hwait z hin with hin' | rfl
      · exact .inl hin'
      · exact .inr fun y hy => (hleft y hy).2
    · exact .inr fun y hy => hbefore y (hleft y hy).1

lemma unlink_end (hok : ListsOk cfg tx) (hacked : Acked tx fs m.tx)
    (hwait : (m.waitDone ++ m.waitNext).Sublist tx.waitList)
    (hend : m.endWait.getD tx.waitEnd = (m.waitDone ++ m.waitNext).getLast?)
    (hset : m.endWait ≠ none → m.waitNext = []) {w : Seg} {ws : List Seg}
    (hnext : m.waitNext = w :: ws) :
    (m.unlinkWait w ws).endWait.getD tx.waitEnd = (m.waitDone ++ ws).getLast? ∧
      ((m.unlinkWait w ws).endWait ≠ none → ws = []) := by
  have hunset : m.endWait = none := by
    by_contra hsome
    rw [hset hsome] at hnext
    cases hnext
  have hsort := hok.wait.sublist hwait
  rw [hunset, hnext, Option.getD_none] at hend
  rw [hnext] at hsort
  rw [Merge.unlinkWait, hacked.waitEnd]
  cases ws with
  | nil =>
    rw [if_pos (by rw [hend, getLast?_concat]), Option.getD_some, append_nil]
    exact ⟨rfl, fun _ => rfl⟩
  | cons y ys =>
    -- w is not the last node
    have hlast : (m.waitDone ++ w :: y :: ys).getLast? = (m.waitDone ++ y :: ys).getLast? := by
      rw [getLast?_append_of_ne_nil _ (cons_ne_nil _ _), getLast?_cons_cons,
        getLast?_append_of_ne_nil _ (cons_ne_nil _ _)]
    have hne : some w ≠ tx.waitEnd := by
      intro heq
      rw [hend, getLast?_append_of_ne_nil _ (cons_ne_nil _ _),
        getLast?_cons_cons] at heq
      have hmem := mem_of_getLast? heq.symm
      have hloop := rel_of_pairwise_cons (pairwise_append.mp hsort).2.1 hmem
      exact hloop.irrefl
    rw [if_neg hne, hunset, Option.getD_none, hend, hlast]
    exact ⟨rfl, fun hnone => absurd rfl hnone⟩

/-- A turn keeps the invariant and takes one segment. -/
theorem Merging.turn (hok : ListsOk cfg tx) (hks : NacksOk cfg tx ackSn ks)
    (hsplit : ks = done ++ k :: later) (h : Merging cfg tx ackSn ks done fs m)
    (hturn : Turn cfg tx ackSn k m (m', .again)) :
    (∃ fs', Merging cfg tx ackSn ks done fs' m') ∧ m'.left.length + 1 = m.left.length := by
  have hk : k ∈ ks := hsplit ▸ mem_append_right _ mem_cons_self
  -- a segment left behind by the NACK is hit by none
  have hunhit : ∀ x ∈ m.left, Behind cfg tx k x → ∀ j ∈ ks, ¬ Hit tx j x := by
    intro x hx hbehind
    rw [hsplit] at hks ⊢
    exact hok.not_hit hks (h.left_mem hx) (h.passing.beyond x hx) hbehind
  have hsorted : ∀ x ∈ m.left, (m.newRetransmit ++ [x]).Pairwise (SegBefore cfg tx) := fun x hx =>
    pairwise_append.mpr ⟨h.sorted, pairwise_singleton _ x, fun y hy =>
      forall_mem_singleton.mpr (h.passing.front y hy x hx)⟩
  have hkeep : ∀ {x z : Seg}, z ∈ m.newRetransmit ++ [x] → z ∈ m.newRetransmit ∨ z = x := fun hz =>
    (mem_append.mp hz).imp_right mem_singleton.mp
  have htake := @Merging.take cfg tx ackSn ks done fs m m' hok h
  cases hturn with
  | @waitHit w ws hnext hsmall hhit =>
    have hin : w ∈ m.left := mem_append_left _ (hnext ▸ mem_cons_self)
    obtain ⟨hend, hset⟩ := unlink_end hok h.acked h.wait h.endWait h.endSet hnext
    obtain ⟨hpassing, hlen⟩ := htake hsmall (by rw [Merge.left, hnext]; rfl) (fun z => hkeep)
      (fun z hz => (mem_cons.mp (hnext ▸ hz)).symm)
    refine ⟨⟨fs, { h with
      acked := (h.acked.countRetx w).addRetx w
      perm := (perm_iff_count.mpr fun a => ?_).trans h.perm
      wait := (Sublist.append_left (sublist_cons_self w ws) m.waitDone).trans (hnext ▸ h.wait)
      sorted := hsorted w hin, passing := hpassing
      kept := forall_mem_append.mpr ⟨h.kept, forall_mem_singleton.mpr (.inl ⟨k, hk, hhit⟩)⟩
      endWait := hend, endSet := hset }⟩, hlen⟩
    simp only [Merge.unlinkWait, hnext, count_append, count_cons, count_nil]
    omega
  | @waitFree w ws hnext hsmall hbehind hack =>
    have hin : w ∈ m.left := mem_append_left _ (hnext ▸ mem_cons_self)
    obtain ⟨hend, hset⟩ := unlink_end hok h.acked h.wait h.endWait h.endSet hnext
    obtain ⟨hpassing, hlen⟩ := htake hsmall (by rw [Merge.left, hnext]; rfl) (fun z => .inl)
      (fun z hz => (mem_cons.mp (hnext ▸ hz)).symm)
    refine ⟨⟨fs ++ [w], { h with
      acked := h.acked.freeAcked w
      perm := (perm_iff_count.mpr fun a => ?_).trans h.perm
      wait := (Sublist.append_left (sublist_cons_self w ws) m.waitDone).trans (hnext ▸ h.wait)
      passing := hpassing
      freed := forall_mem_append.mpr
        ⟨h.freed, forall_mem_singleton.mpr ⟨hack, hunhit w hin hbehind⟩⟩
      endWait := hend, endSet := hset }⟩, hlen⟩
    simp only [Merge.freeWait, Merge.unlinkWait, hnext, count_append, count_cons, count_nil]
    omega
  | @waitSkip w ws hnext hsmall hbehind =>
    have hin : w ∈ m.left := mem_append_left _ (hnext ▸ mem_cons_self)
    have hlists : (m.waitDone ++ [w]) ++ ws = m.waitDone ++ m.waitNext := by
      rw [hnext, append_assoc]
      rfl
    obtain ⟨hpassing, hlen⟩ := htake hsmall (by rw [Merge.left, hnext]; rfl) (fun z => .inl)
      (fun z hz => (mem_cons.mp (hnext ▸ hz)).symm)
    exact ⟨⟨fs, { h with
      perm := hlists ▸ h.perm
      wait := hlists ▸ h.wait
      passing := hpassing
      skipped := forall_mem_append.mpr ⟨h.skipped, forall_mem_singleton.mpr (hunhit w hin hbehind)⟩
      endWait := hlists ▸ h.endWait
      endSet := fun hsome => (nomatch (h.endSet hsome).symm.trans hnext) }⟩, hlen⟩
  | @retxKeep r rs hcur hsmall hwhy =>
    have hin : r ∈ m.left := mem_append_right _ (hcur ▸ mem_cons_self)
    obtain ⟨hpassing, hlen⟩ := htake hsmall (by rw [Merge.left, hcur]; exact perm_middle)
      (fun z => hkeep) (fun z => .inl)
    refine ⟨⟨fs, { h with
      perm := ?_
      cur := (hcur ▸ sublist_cons_self r rs).trans h.cur
      sorted := hsorted r hin, passing := hpassing
      kept := forall_mem_append.mpr ⟨h.kept, forall_mem_singleton.mpr (hwhy.imp
        (fun hhit => ⟨k, hk, hhit⟩) fun ⟨w, hw, hbefore⟩ =>
          ⟨w, h.wait.subset (mem_append_right _ hw), hbefore⟩)⟩ }⟩, hlen⟩
    rw [append_assoc m.newRetransmit, singleton_append, ← hcur]
    exact h.perm
  | @retxFree r rs hcur hsmall hbehind hack =>
    have hin : r ∈ m.left := mem_append_right _ (hcur ▸ mem_cons_self)
    obtain ⟨hpassing, hlen⟩ := htake hsmall (by rw [Merge.left, hcur]; exact perm_middle)
      (fun z => .inl) (fun z => .inl)
    refine ⟨⟨fs ++ [r], { h with
      acked := (h.acked.subRetx r).freeAcked r
      perm := (perm_iff_count.mpr fun a => ?_).trans h.perm
      cur := (hcur ▸ sublist_cons_self r rs).trans h.cur
      passing := hpassing
      freed := forall_mem_append.mpr
        ⟨h.freed, forall_mem_singleton.mpr ⟨hack, hunhit r hin hbehind⟩⟩ }⟩, hlen⟩
    simp only [Merge.freeRetransmit, hcur, count_append, count_cons, count_nil]
    omega

/-! ## What the "speedup" loses -/

/-- A segment at ACK_SN that no NACK hits, in front of a NACK of the same SN, with nothing behind it in
the wait list. -/
def Lossy (cfg : Config) (tx : Tx) (ackSn : Nat) (ks : List CurNack) : Prop :=
  ∃ r ∈ tx.retransmitList, snOf tx r = ackSn ∧ (∀ k ∈ ks, ¬ Hit tx k r) ∧
    (∃ k ∈ ks, k.sn = ackSn ∧ r.so ≤ k.soStart) ∧ ∀ w ∈ tx.waitList, SegBefore cfg tx w r

/-- A segment of the retransmit list is nowhere any more, and nothing is left to do. -/
def Lost (tx : Tx) (m : Merge) : Prop :=
  m.left = [] ∧ ∃ r ∈ tx.retransmitList, ∃ fs, m.tx.freed = tx.freed ++ fs ∧ r ∉ m.waitDone ∧
    r ∉ m.newRetransmit ∧ r ∉ fs

theorem Merging.lost (hok : ListsOk cfg tx) (hks : NacksOk cfg tx ackSn ks)
    (hack : ackSn < cfg.snModulus) (hsplit : ks = done ++ k :: later)
    (h : Merging cfg tx ackSn ks done fs m) {r : Seg} {rs : List Seg}
    (hcur : m.curRetransmit = r :: rs) (hwait : m.waitNext = []) (hbehind : Behind cfg tx k r)
    (hnot : ¬ segSn cfg tx r < modulusTx cfg tx ackSn) :
    Lost tx { m with curRetransmit := [] } ∧ Lossy cfg tx ackSn ks := by
  have hk : k ∈ ks := hsplit ▸ mem_append_right _ mem_cons_self
  have hrcur : r ∈ m.curRetransmit := hcur ▸ mem_cons_self
  have hr : r ∈ tx.retransmitList := h.cur.subset hrcur
  have hin : r ∈ m.left := mem_append_right _ hrcur
  have hmem : r ∈ tx.waitList ++ tx.retransmitList := mem_append_right _ hr
  have hle := hks.le_ack k hk
  have hfresh : r ∉ m.waitDone := fun hdone =>
    hok.not_both (h.wait.subset (mem_append_left _ hdone)) hr
  constructor
  · refine ⟨by rw [Merge.left, hwait]; rfl, r, hr, fs, h.acked.freed, hfresh, ?_, ?_⟩
    · exact fun hnew => (h.passing.front r hnew r hin).irrefl
    · -- the lists and the freed segments have nothing in common
      intro hfs
      have hnodup := (h.perm.nodup_iff).mpr hok.nodup
      have hdisj := (nodup_append.mp (nodup_append.mp hnodup).2.1).2.2
      exact hdisj r (mem_append_right _ hrcur) r hfs rfl
  · have heq : segSn cfg tx r = nackSn cfg tx k ∧ r.so + r.size ≤ k.soStart := by
      rw [Behind] at hbehind
      omega
    have hackeq : segSn cfg tx r = modulusTx cfg tx ackSn := by omega
    have hsn : snOf tx r = ackSn := (modulusTx_inj (hok.sn_nonneg r hmem) (hok.sn_lt r hmem)
      (Int.natCast_nonneg _) (by omega)).mp hackeq
    refine ⟨r, hr, hsn, ?_, ⟨k, hk, ?_, by omega⟩, ?_⟩
    · rw [hsplit] at hks ⊢
      exact hok.not_hit hks hmem (h.passing.beyond r hin) hbehind
    · have hrk := (hok.sn_eq_iff (hks.sn_lt k hk) hmem).mp heq.1
      omega
    · intro w hw
      rcases h.passing.passed w hw with hleft | hbefore
      · rw [hwait] at hleft
        cases hleft
      · exact hbefore r hin

lemma Merging.not_lossy (hok : ListsOk cfg tx) (hks : NacksOk cfg tx ackSn ks)
    (h : Merging cfg tx ackSn ks ks fs m) : ¬ Lossy cfg tx ackSn ks := by
  rintro ⟨r, hr, hsn, hunhit, ⟨k, hk, hksn, hso⟩, hafter⟩
  have hmem : r ∈ tx.waitList ++ tx.retransmitList := mem_append_right _ hr
  have hseg : segSn cfg tx r = modulusTx cfg tx ackSn := by rw [segSn, hsn]
  rcases mem_append.mp (h.perm.mem_iff.mpr hmem) with hin | hin
  · exact hok.not_both (h.wait.subset hin) hr
  rcases mem_append.mp hin with hin | hin
  · rcases mem_append.mp hin with hin | hin
    · rcases h.kept r hin with ⟨j, hj, hhit⟩ | ⟨w, hw, hbefore⟩
      · exact hunhit j hj hhit
      · exact (hbefore.trans (hafter w hw)).irrefl
    · -- still in the list: beyond every NACK, so not in front of one at its SN
      have hbeyond := h.passing.beyond r (mem_append_right _ hin) k hk
      have horder := hks.order k hk
      have hnack : nackSn cfg tx k = modulusTx cfg tx ackSn := by rw [nackSn, hksn]
      rw [Beyond] at hbeyond
      omega
  · have := (h.freed r hin).1
    omega

/-! ## The loops over the NACKs -/

lemma Merging.done_of_beyond (h : Merging cfg tx ackSn ks done fs m) {more : List CurNack}
    (hbeyond : ∀ y ∈ m.left, ∀ j ∈ more, Beyond cfg tx j y) :
    Merging cfg tx ackSn ks (done ++ more) fs m := by
  refine { h with passing := { h.passing with beyond := fun y hy => ?_ } }
  exact forall_mem_append.mpr ⟨h.passing.beyond y hy, hbeyond y hy⟩

lemma Merging.drained (h : Merging cfg tx ackSn ks done fs m) (hleft : m.left = [])
    (more : List CurNack) : Merging cfg tx ackSn ks (done ++ more) fs m := by
  refine h.done_of_beyond fun y hy => ?_
  rw [hleft] at hy
  cases hy

theorem processNackLoop_spec (hok : ListsOk cfg tx) (hks : NacksOk cfg tx ackSn ks)
    (hack : ackSn < cfg.snModulus) (later : List CurNack) (hsplit : ks = done ++ k :: later)
    (fuel : Nat) :
    ∀ (m : Merge) (fs : List Seg), m.left.length < fuel → Merging cfg tx ackSn ks done fs m →
      (∃ fs', Merging cfg tx ackSn ks (done ++ [k]) fs' (processNackLoop cfg ackSn k fuel m).1 ∧
        ((processNackLoop cfg ackSn k fuel m).2 = true →
          (processNackLoop cfg ackSn k fuel m).1.left = [])) ∨
      (Lost tx (processNackLoop cfg ackSn k fuel m).1 ∧
        (processNackLoop cfg ackSn k fuel m).2 = true ∧ Lossy cfg tx ackSn ks) := by
  have hk : k ∈ ks := hsplit ▸ mem_append_right _ mem_cons_self
  induction fuel with
  | zero =>
    intro m fs hfuel
    exact absurd hfuel (Nat.not_lt_zero _)
  | succ fuel ih =>
    intro m fs hfuel h
    have hturn := processNextPdu_turn hok h.acked (hks.sn_lt k hk) (hks.le_ack k hk) h.notOver
      ((sublist_append_right _ _).trans h.wait) h.cur
    rw [processNackLoop]
    generalize processNextPdu cfg ackSn k m = p at hturn ⊢
    obtain ⟨m', outcome⟩ := p
    cases outcome with
    | again =>
      obtain ⟨⟨fs', h'⟩, hlen⟩ := h.turn hok hks hsplit hturn
      exact ih m' fs' (by omega) h'
    | doneNack =>
      cases hturn with
      | beyond hsmall hbeyond =>
        refine .inl ⟨fs, h.done_of_beyond ?_, by simp⟩
        intro y hy j hj
        rw [mem_singleton.mp hj]
        exact hbeyond.mono (hsmall y hy)
    | listsOver =>
      cases hturn with
      | exhausted hleft => exact .inl ⟨fs, h.drained hleft [k], fun _ => hleft⟩
      | lost hcur hwait hbehind hnot =>
        obtain ⟨hlost, hlossy⟩ := h.lost hok hks hack hsplit hcur hwait hbehind hnot
        exact .inr ⟨hlost, rfl, hlossy⟩

lemma processRange_drained (hleft : m.left = []) (range : List CurNack) :
    processRange cfg ackSn range m = m := by
  obtain ⟨hwait, hcur⟩ := append_eq_nil_iff.mp hleft
  cases range with
  | nil => rfl
  | cons k rest =>
    have hnext : processNextPdu cfg ackSn k m = (m, .listsOver) := by
      rw [processNextPdu, hwait, hcur, ite_self]
    simp only [processRange, processNack, processNackLoop, hnext]

theorem processRange_spec (hok : ListsOk cfg tx) (hks : NacksOk cfg tx ackSn ks)
    (hack : ackSn < cfg.snModulus) (range : List CurNack) :
    ∀ (m : Merge) (fs : List Seg) (done : List CurNack), ks = done ++ (range ++ later) →
      Merging cfg tx ackSn ks done fs m →
      (∃ fs', Merging cfg tx ackSn ks (done ++ range) fs' (processRange cfg ackSn range m)) ∨
      (Lost tx (processRange cfg ackSn range m) ∧ Lossy cfg tx ackSn ks) := by
  induction range with
  | nil =>
    intro m fs done _ h
    refine .inl ⟨fs, ?_⟩
    rw [append_nil]
    exact h
  | cons k rest ih =>
    intro m fs done hsplit h
    have hloop := processNackLoop_spec hok hks hack (rest ++ later) hsplit
      (m.waitNext.length + m.curRetransmit.length + 2) m fs
      (by rw [Merge.left, length_append]; omega) h
    rw [processRange, processNack]
    generalize processNackLoop cfg ackSn k (m.waitNext.length + m.curRetransmit.length + 2) m = p
      at hloop ⊢
    obtain ⟨m', ended⟩ := p
    rcases hloop with ⟨fs', h', hdrained⟩ | ⟨hlost, rfl, hlossy⟩
    · cases ended with
      | true =>
        refine .inl ⟨fs', ?_⟩
        have hall := h'.drained (hdrained rfl) rest
        rw [append_assoc] at hall
        exact hall
      | false =>
        have hnext := ih m' fs' (done ++ [k])
          (by rw [hsplit, append_assoc]; rfl) h'
        rw [append_assoc] at hnext
        exact hnext
    · exact .inr ⟨hlost, hlossy⟩

lemma Merging.stopPoll (h : Merging cfg tx ackSn ks done fs m) :
    Merging cfg tx ackSn ks done fs { m with tx := stopPoll m.tx } :=
  { h with acked := h.acked.stopPoll, passing := { h.passing with } }

/-- All NACKs are processed, or the segments are lost. -/
theorem processNacks_spec (hok : ListsOk cfg tx) (hks : NacksOk cfg tx ackSn ks)
    (hack : ackSn < cfg.snModulus) (nacks : List Nack) :
    ∀ (m : Merge) (done : List CurNack),
      ks = done ++ nacks.flatMap (Nack.expand cfg.snModulus) →
      ((∃ fs, Merging cfg tx ackSn ks done fs m) ∨ (Lost tx m ∧ Lossy cfg tx ackSn ks)) →
      (∃ fs, Merging cfg tx ackSn ks ks fs (nacks.foldl (processNackEntry cfg ackSn) m)) ∨
      (Lost tx (nacks.foldl (processNackEntry cfg ackSn) m) ∧ Lossy cfg tx ackSn ks) := by
  induction nacks with
  | nil =>
    intro m done hsplit h
    rw [flatMap_nil, append_nil] at hsplit
    rw [← hsplit] at h
    exact h
  | cons n nacks ih =>
    intro m done hsplit h
    rw [flatMap_cons] at hsplit
    apply ih _ (done ++ n.expand cfg.snModulus) (by rw [hsplit, append_assoc])
    have hrange : (∃ fs, Merging cfg tx ackSn ks (done ++ n.expand cfg.snModulus) fs
        (processRange cfg ackSn (n.expand cfg.snModulus) m)) ∨
        (Lost tx (processRange cfg ackSn (n.expand cfg.snModulus) m) ∧ Lossy cfg tx ackSn ks) := by
      rcases h with ⟨fs, h⟩ | ⟨hlost, hlossy⟩
      · exact processRange_spec hok hks hack _ m fs done hsplit h
      · rw [processRange_drained hlost.1]
        exact .inr ⟨hlost, hlossy⟩
    rw [processNackEntry]
    split
    · exact hrange.imp (Exists.imp fun _ h => h.stopPoll) id
    · exact hrange

end Merging

end NrStack.Rlc.Am
