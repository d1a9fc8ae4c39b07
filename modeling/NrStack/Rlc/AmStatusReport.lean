/-
  What a status report says.

  Expanded, a report is a list of NACKs of one SN each.  `Report`: below ACK_SN every byte that is not there
  is NACKed; a report that was not truncated NACKs what is missing up to `rx_highest_status` and nothing
  else.

  The machine is a receiver of segments of a family of SDUs.  The number `base` behind `rx_next` and the
  log of the segments taken are not in the code.
-/
import NrStack.Rlc.AmNacks

namespace NrStack.Rlc.Am

open List Circular

/-! ## NACKs with their numbers -/

/-- A NACK of one SN, with the number behind the SN. -/
structure NumberNack where
  number : Nat
  soStart : Nat
  soEnd : Int
  deriving DecidableEq, Repr

/-- The NACK with its sequence number. -/
def NumberNack.cur (M : Nat) (x : NumberNack) : CurNack := ⟨x.number % M, x.soStart, x.soEnd⟩

/-- The NACK asks for byte `b` of SDU `n`. -/
def NumberNack.Covers (x : NumberNack) (n b : Nat) : Prop :=
  x.number = n ∧ x.soStart ≤ b ∧ (x.soEnd = -1 ∨ (b : Int) ≤ x.soEnd)

/-- The order of NACKs: the next SN, or behind in the same SDU. -/
def NumberNack.Before (x y : NumberNack) : Prop :=
  x.number < y.number ∨ (x.number = y.number ∧ x.soEnd ≠ -1 ∧ x.soEnd < y.soStart)

/-- The NACKs of a span, one for each SDU. -/
def Span.numbered (p : Span) : List NumberNack :=
  (List.range (p.ne - p.ns + 1)).map fun i =>
    ⟨p.ns + i, if i = 0 then p.bs else 0,
      if i = p.ne - p.ns then if p.be = 0xffff then -1 else p.be else -1⟩

lemma expand_nack (M : Nat) (p : Span) :
    (p.nack M).expand M = p.numbered.map (NumberNack.cur M) := by
  rw [Nack.expand, Span.numbered, map_map]
  refine map_congr_left fun i _ => ?_
  show CurNack.mk ((p.ns % M + i) % M) _ _ = _
  rw [Nat.mod_add_mod]
  rfl

lemma expanded_spans (M : Nat) (ackSn : Nat) (ps : List Span) :
    (StatusPdu.mk ackSn (ps.map (Span.nack M))).expanded M =
      (ps.flatMap Span.numbered).map (NumberNack.cur M) := by
  rw [StatusPdu.expanded, flatMap_map, map_flatMap]
  exact flatMap_congr fun p _ => expand_nack M p

section Spans

variable {p q : Span}

lemma mem_numbered {x : NumberNack} : x ∈ p.numbered ↔ ∃ i, i ≤ p.ne - p.ns ∧
    x = ⟨p.ns + i, if i = 0 then p.bs else 0,
      if i = p.ne - p.ns then if p.be = 0xffff then -1 else p.be else -1⟩ := by
  rw [Span.numbered, mem_map]
  constructor
  · rintro ⟨i, hi, rfl⟩
    exact ⟨i, Nat.le_of_lt_succ (mem_range.mp hi), rfl⟩
  · rintro ⟨i, hi, rfl⟩
    exact ⟨i, mem_range.mpr (Nat.lt_succ_of_le hi), rfl⟩

lemma covers_numbered (hle : p.ns ≤ p.ne) {n b : Nat} (hb : b ≤ 0xffff) :
    (∃ x ∈ p.numbered, x.Covers n b) ↔ p.Covers n b := by
  constructor
  · rintro ⟨x, hx, hn, hs, he⟩
    obtain ⟨i, hi, rfl⟩ := mem_numbered.mp hx
    dsimp only at hn hs he
    constructor
    · split at hs <;> omega
    · split at he
      · split at he <;> omega
      · omega
  · rintro ⟨hs, he⟩
    refine ⟨_, mem_numbered.mpr ⟨n - p.ns, by omega, rfl⟩, ?_, ?_, ?_⟩
    · show p.ns + (n - p.ns) = n
      omega
    · show (if n - p.ns = 0 then p.bs else 0) ≤ b
      split <;> omega
    · show (if n - p.ns = p.ne - p.ns then if p.be = 0xffff then (-1 : Int) else p.be else -1) = -1 ∨
        (b : Int) ≤ if n - p.ns = p.ne - p.ns then if p.be = 0xffff then (-1 : Int) else p.be else -1
      split_ifs <;> omega

lemma pairwise_numbered : p.numbered.Pairwise NumberNack.Before := by
  rw [Span.numbered, pairwise_map]
  apply pairwise_lt_range.imp
  intro i j hij
  exact .inl (Nat.add_lt_add_left hij _)

lemma Span.Ahead.numbered (h : p.Ahead q) (hp : p.ns ≤ p.ne) (hbs : q.bs ≤ nrSduMax)
    {x y : NumberNack} (hx : x ∈ p.numbered) (hy : y ∈ q.numbered) : x.Before y := by
  have hnr : nrSduMax = 16000 := rfl
  obtain ⟨i, hi, rfl⟩ := mem_numbered.mp hx
  obtain ⟨j, hj, rfl⟩ := mem_numbered.mp hy
  rw [Span.Ahead] at h
  by_cases hlast : p.ns + i < q.ns + j
  · exact .inl hlast
  · obtain rfl : i = p.ne - p.ns := by omega
    obtain rfl : j = 0 := by omega
    refine .inr ⟨by show p.ns + _ = q.ns + 0; omega, ?_, ?_⟩
    · show (if p.ne - p.ns = p.ne - p.ns then if p.be = 0xffff then (-1 : Int) else p.be else -1) ≠ -1
      omega
    · show (if p.ne - p.ns = p.ne - p.ns then if p.be = 0xffff then (-1 : Int) else p.be else -1) <
        ((if 0 = 0 then q.bs else 0 : Nat) : Int)
      rw [if_pos rfl, if_neg (by omega), if_pos rfl]
      omega

end Spans

/-! ## The report -/

/-- What a report of the receiver at number `N` says; `A` is the number behind ACK_SN and `S` that
behind `rx_highest_status`. -/
structure Report (N : Nat) (D : Nat → List UInt8) (got : Nat → Nat → Prop) (S A : Nat)
    (xs : List NumberNack) (truncated : Bool) : Prop where
  ack_ge : N ≤ A
  ack_le : A ≤ S
  sorted : xs.Pairwise NumberNack.Before
  within : ∀ x ∈ xs, N ≤ x.number ∧ x.number < A
  order : ∀ x ∈ xs, x.soEnd = -1 ∨ (x.soStart : Int) ≤ x.soEnd
  complete : ∀ n b, N ≤ n → n < A → b < (D n).length → ¬ got n b → ∃ x ∈ xs, x.Covers n b
  exact : truncated = false → ∀ n b, N ≤ n → b < (D n).length →
    ((n < S ∧ ¬ got n b) ↔ ∃ x ∈ xs, x.Covers n b)

section Reports

variable {M N S n₁ b₁ : Nat} {D : Nat → List UInt8} {list : List RxPdu} {ps : List Span}

lemma mem_endLast {p : Span} (h : p ∈ endLast ps) :
    p ∈ ps ∨ ∃ q ∈ ps, ps.getLast? = some q ∧ p = q.toEnd := by
  rcases eq_nil_or_concat ps with rfl | ⟨ps', q, hps⟩
  · cases h
  · rw [concat_eq_append] at hps
    subst hps
    rw [endLast_concat] at h
    rcases mem_append.mp h with h | h
    · exact .inl (mem_append_left _ h)
    · refine .inr ⟨q, mem_append_right _ (mem_singleton.mpr rfl), ?_,
        mem_singleton.mp h⟩
      exact getLast?_concat

lemma ackNumber_bounds (h : Reported M N D list S N 0 ps n₁ b₁) (hNS : N ≤ S) :
    N ≤ ackNumber N ps ∧ ackNumber N ps ≤ S ∧ ∀ p ∈ ps, p.ne < ackNumber N ps := by
  rcases eq_nil_or_concat ps with rfl | ⟨ps', p, hps⟩
  · exact ⟨le_refl N, hNS, nofun⟩
  · rw [concat_eq_append] at hps
    subst hps
    have hp := h.each p (mem_append_right _ (mem_singleton.mpr rfl))
    have hlow := hp.low
    have horder := hp.order
    have hbelow := hp.below
    rw [ackNumber_concat]
    refine ⟨by omega, by omega, ?_⟩
    intro q hq
    rcases mem_append.mp hq with hq | hq
    · have hahead := (pairwise_append.mp h.sorted).2.2 q hq p (mem_singleton.mpr rfl)
      rw [Span.Ahead] at hahead
      omega
    · rw [mem_singleton.mp hq]
      exact Nat.lt_succ_self _

lemma Span.toEnd_covers {p : Span} {n b : Nat} (hbe : p.be ≤ 0xffff) (h : p.Covers n b) :
    p.toEnd.Covers n b := by
  obtain ⟨hs, he⟩ := h
  refine ⟨hs, ?_⟩
  show n < p.ne ∨ (n = p.ne ∧ b ≤ 0xffff)
  omega

section

variable (h : Reported M N D list S N 0 ps n₁ b₁)
include h

lemma reportSpans_sorted (truncated : Bool) :
    (reportSpans truncated ps).Pairwise Span.Ahead ∧ ∀ p ∈ reportSpans truncated ps,
      (p.ns < p.ne ∨ (p.ns = p.ne ∧ p.bs ≤ p.be)) ∧ p.bs ≤ nrSduMax ∧ N ≤ p.ns ∧
        p.ne < ackNumber N ps := by
  have hnr : nrSduMax = 16000 := rfl
  have hack : ∀ p ∈ ps, p.ne < ackNumber N ps := by
    cases ps with
    | nil => exact nofun
    | cons q qs =>
      have hq := h.each q mem_cons_self
      have := hq.low
      have := hq.order
      have := hq.below
      exact (ackNumber_bounds h (by omega)).2.2
  cases truncated with
  | false =>
    refine ⟨h.sorted, fun p hp => ?_⟩
    have hspan := h.each p hp
    exact ⟨hspan.order, hspan.bs_le, hspan.low, hack p hp⟩
  | true =>
    show (endLast ps).Pairwise Span.Ahead ∧ ∀ p ∈ endLast ps, _
    constructor
    · rcases eq_nil_or_concat ps with rfl | ⟨ps', q, hps⟩
      · exact List.Pairwise.nil
      · rw [concat_eq_append] at hps
        subst hps
        rw [endLast_concat]
        obtain ⟨hfront, -, hlast⟩ := pairwise_append.mp h.sorted
        refine pairwise_append.mpr ⟨hfront, pairwise_singleton _ _, ?_⟩
        intro x hx y hy
        rw [mem_singleton.mp hy]
        exact hlast x hx q (mem_singleton.mpr rfl)
    · intro p hp
      rcases mem_endLast hp with hp | ⟨q, hq, -, rfl⟩
      · have hspan := h.each p hp
        exact ⟨hspan.order, hspan.bs_le, hspan.low, hack p hp⟩
      · have hspan := h.each q hq
        have horder := hspan.order
        have hbs := hspan.bs_le
        refine ⟨?_, hbs, hspan.low, hack q hq⟩
        show q.ns < q.ne ∨ (q.ns = q.ne ∧ q.bs ≤ 0xffff)
        omega

lemma Reported.complete
    (hmax : ∀ n, (D n).length ≤ nrSduMax) (truncated : Bool) {n b : Nat} (hge : N ≤ n)
    (hlt : n < ackNumber N ps) (hb : b < (D n).length) (hnot : ¬ Got M N list n b)
    (hend : truncated = false → S ≤ n₁) : ∃ p ∈ reportSpans truncated ps, p.Covers n b := by
  have hnr : nrSduMax = 16000 := rfl
  have hlen := hmax n
  rcases eq_nil_or_concat ps with rfl | ⟨ps', q, hps⟩
  · have hlt' : n < N := hlt
    omega
  · rw [concat_eq_append] at hps
    subst hps
    have hqmem : q ∈ ps' ++ [q] := mem_append_right _ (mem_singleton.mpr rfl)
    have hq := h.each q hqmem
    have hstop := h.stop q hqmem
    have hbelow := hq.below
    have horder := hq.order
    have hbe := hq.be_le
    rw [ackNumber_concat] at hlt
    have hfound : (n < n₁ ∨ (n = n₁ ∧ b < b₁)) → ∃ p ∈ ps' ++ [q], p.Covers n b := by
      intro hbefore
      rcases h.clear n b hb (by omega) hbefore with hgot | hcov
      · exact absurd hgot hnot
      · exact hcov
    cases truncated with
    | false => exact hfound (.inl (by have := hend rfl; omega))
    | true =>
      show ∃ p ∈ endLast (ps' ++ [q]), p.Covers n b
      rw [endLast_concat]
      by_cases hpast : n = q.ne ∧ q.be < b
      · -- behind the last span: it reaches to the end of the SDU now
        refine ⟨q.toEnd, mem_append_right _ (mem_singleton.mpr rfl), ?_, ?_⟩
        · show q.ns < n ∨ (q.ns = n ∧ q.bs ≤ b)
          omega
        · exact .inr ⟨hpast.1, by show b ≤ 0xffff; omega⟩
      · obtain ⟨p, hp, hcov⟩ := hfound (by omega)
        rcases mem_append.mp hp with hp | hp
        · exact ⟨p, mem_append_left _ hp, hcov⟩
        · rw [mem_singleton.mp hp] at hcov
          exact ⟨q.toEnd, mem_append_right _ (mem_singleton.mpr rfl),
            Span.toEnd_covers (by omega) hcov⟩

theorem Reported.report (hmax : ∀ n, (D n).length ≤ nrSduMax) (hNS : N ≤ S) {truncated : Bool}
    (hend : truncated = false → S ≤ n₁) :
    Report N D (Got M N list) S (ackNumber N ps)
      ((reportSpans truncated ps).flatMap Span.numbered) truncated := by
  have hnr : nrSduMax = 16000 := rfl
  obtain ⟨hge, hle, -⟩ := ackNumber_bounds h hNS
  obtain ⟨hsorted, hspans⟩ := reportSpans_sorted h truncated
  have hcovers : ∀ n b, b ≤ 0xffff → ((∃ x ∈ (reportSpans truncated ps).flatMap Span.numbered,
      x.Covers n b) ↔ ∃ p ∈ reportSpans truncated ps, p.Covers n b) := by
    intro n b hb
    constructor
    · rintro ⟨x, hx, hcov⟩
      obtain ⟨p, hp, hxp⟩ := mem_flatMap.mp hx
      have := (hspans p hp).1
      exact ⟨p, hp, (covers_numbered (by omega) hb).mp ⟨x, hxp, hcov⟩⟩
    · rintro ⟨p, hp, hcov⟩
      have := (hspans p hp).1
      obtain ⟨x, hx, hxcov⟩ := (covers_numbered (by omega) hb).mpr hcov
      exact ⟨x, mem_flatMap.mpr ⟨p, hp, hx⟩, hxcov⟩
  refine ⟨hge, hle, ?_, ?_, ?_, ?_, ?_⟩
  · refine pairwise_flatMap.mpr ⟨fun p _ => pairwise_numbered, ?_⟩
    apply hsorted.imp_of_mem
    intro p q hp hq hahead x hx y hy
    have := (hspans p hp).1
    exact hahead.numbered (by omega) (hspans q hq).2.1 hx hy
  · intro x hx
    obtain ⟨p, hp, hxp⟩ := mem_flatMap.mp hx
    obtain ⟨i, hi, rfl⟩ := mem_numbered.mp hxp
    obtain ⟨-, -, hlow, hlt⟩ := hspans p hp
    have := (hspans p hp).1
    exact ⟨Nat.le_add_right_of_le hlow, by show p.ns + i < _; omega⟩
  · intro x hx
    obtain ⟨p, hp, hxp⟩ := mem_flatMap.mp hx
    obtain ⟨i, hi, rfl⟩ := mem_numbered.mp hxp
    have horder := (hspans p hp).1
    show (if i = p.ne - p.ns then if p.be = 0xffff then (-1 : Int) else p.be else -1) = -1 ∨
      ((if i = 0 then p.bs else 0 : Nat) : Int) ≤
        if i = p.ne - p.ns then if p.be = 0xffff then (-1 : Int) else p.be else -1
    split_ifs <;> omega
  · intro n b hn hlt hb hnot
    exact (hcovers n b (by have := hmax n; omega)).mpr (h.complete hmax truncated hn hlt hb hnot hend)
  · intro hfull n b hn hb
    subst hfull
    rw [hcovers n b (by have := hmax n; omega)]
    constructor
    · rintro ⟨hlt, hnot⟩
      rcases h.clear n b hb (by omega) (.inl (lt_of_lt_of_le hlt (hend rfl))) with hgot | hcov
      · exact absurd hgot hnot
      · exact hcov
    · rintro ⟨p, hp, hcov⟩
      have hspan := h.each p hp
      have hbelow := hspan.below
      refine ⟨?_, hspan.missing n b hcov⟩
      have := hcov.2
      omega

end

end Reports

/-- The status that is sent reports what was received. -/
theorem generateStatus_report {cfg : Config} {D : Nat → List UInt8} {N : Nat} {rx : Rx}
    (hcfg : cfg.Legal) (h : RxState cfg D N rx) (hmax : ∀ n, (D n).length ≤ nrSduMax)
    {buffer : List UInt8} (hsize : 3 ≤ buffer.length) :
    ∃ pdu w truncated s xs A, statusBytes cfg rx buffer = some pdu ∧
      statusWritten cfg rx buffer = some (w, truncated) ∧ readStatus cfg pdu = .ok s ∧
      s.ackSn = A % cfg.snModulus ∧ s.expanded cfg.snModulus = xs.map (NumberNack.cur cfg.snModulus) ∧
      Report N D (Got cfg.snModulus N rx.rxList) (reportEnd cfg N rx) A xs truncated := by
  obtain ⟨pdu, w, truncated, ps, n₁, b₁, hbytes, hwritten, hread, hrep, hend⟩ :=
    statusBytes_spec hcfg h hmax hsize
  exact ⟨pdu, w, truncated, _, _, _, hbytes, hwritten, hread, rfl, expanded_spans _ _ _,
    hrep.report hmax (reportEnd_lt h).1 hend⟩

/-! ## Steps of a receiver -/

section Steps

variable {cfg : Config} {D : Nat → List UInt8} {N : Nat} {rx rx' : Rx}

lemma RxState.keep (h : RxState cfg D N rx) (hinv : RxInv cfg rx') (htimer : TimerInv cfg rx')
    (hnext : rx'.rxNext = rx.rxNext) (hlist : rx'.rxList = rx.rxList)
    (hdel : rx'.delivered = rx.delivered) : RxState cfg D N rx' := by
  refine ⟨hinv, htimer, hnext.trans h.base, ?_, ?_⟩
  · rw [hlist]
    exact h.content
  · rw [hlist, hdel]
    exact h.log

lemma RxState.triggerStatus (h : RxState cfg D N rx) (p : Bool) :
    RxState cfg D N (triggerStatus rx p) :=
  h.keep (h.inv.triggerStatus p) h.timer rfl rfl rfl

/-- The PDU carries a part of SDU `n`. -/
def Carries (cfg : Config) (D : Nat → List UInt8) (p : Bool) (n so size : Nat)
    (pdu : List UInt8) : Prop :=
  Encodes cfg.snFieldLength p (decide (so = 0)) (decide (so + size = (D n).length))
    (n % cfg.snModulus) so (((D n).drop so).take size) pdu
deriving Decidable

theorem RxState.recvPdu {e : Entity} (hcfg : e.cfg.Legal) (h : RxState e.cfg D N e.rx) {p : Bool}
    {n so size : Nat} {pdu : List UInt8} (hmax : (D n).length ≤ nrSduMax)
    (hseg : SegmentOf (D n) so size) (hlow : N ≤ n + e.cfg.windowSize)
    (hhigh : n < N + e.cfg.snModulus) (hpdu : Carries e.cfg D p n so size pdu) :
    ∃ rx', recvPdu e pdu = some { e with rx := rx' } ∧ ∃ k, k < e.cfg.snModulus ∧
      RxState e.cfg D (N + k) rx' ∧
      (∀ m b, b < (D m).length → (Received e.cfg.snModulus (N + k) rx'.rxList m b ↔
        Received e.cfg.snModulus N e.rx.rxList m b ∨ Brings e.cfg N e.rx n so size m b)) ∧
      highest e.cfg (N + k) rx' ≤ max (highest e.cfg N e.rx) (n + 1) := by
  have hnr : nrSduMax = 16000 := rfl
  have hM : 0 < e.cfg.snModulus := by
    have := hcfg.window
    omega
  have hwithin := hseg.within
  have hsn := Nat.mod_lt n hM
  obtain ⟨rx', hrec, hreception, hinv, htimer⟩ := recvSegment_spec hcfg h.inv h.timer e.tCurrent hsn
    so (decide (so = 0)) (decide (so + size = (D n).length)) (((D n).drop so).take size)
  obtain ⟨k, hk, hstate, hreceived, hhighest⟩ := h.reception hcfg hmax hseg hlow hhigh hinv htimer
    hreception
  refine ⟨Am.triggerStatus rx' p, ?_, k, hk, hstate.triggerStatus p, hreceived, hhighest⟩
  rw [recvPdu_encodes e hcfg hsn (by omega) decide_eq_true_iff hpdu, hrec]
  rfl

theorem RxState.checkTReassembly (hcfg : cfg.Legal) (h : RxState cfg D N rx) (now : UInt64) :
    ∃ rx', checkTReassembly cfg now rx = some rx' ∧ RxState cfg D N rx' ∧
      rx'.rxNext = rx.rxNext ∧ rx'.rxList = rx.rxList ∧ rx'.rxNextHighest = rx.rxNextHighest := by
  obtain ⟨status, triggered, start, trigger, hcheck, hinv, htimer⟩ :=
    checkTReassembly_spec hcfg h.inv h.timer now
  exact ⟨_, hcheck, h.keep hinv htimer rfl rfl rfl, rfl, rfl, rfl⟩

theorem RxState.generateStatus (hcfg : cfg.Legal) (h : RxState cfg D N rx)
    (hmax : ∀ n, (D n).length ≤ nrSduMax) (tCurrent : UInt64) (buffer : List UInt8) :
    ∃ rx' pdu, generateStatus cfg tCurrent rx buffer = some (rx', pdu) ∧ RxState cfg D N rx' ∧
      rx'.rxNext = rx.rxNext ∧ rx'.rxList = rx.rxList ∧ rx'.rxNextHighest = rx.rxNextHighest := by
  rw [Am.generateStatus]
  split
  · exact ⟨rx, none, rfl, h, rfl, rfl, rfl⟩
  · next hsize =>
    obtain ⟨pdu, w, truncated, s, xs, A, hbytes, -⟩ :=
      generateStatus_report hcfg h hmax (Nat.le_of_not_lt hsize)
    rw [hbytes, Option.map_some]
    refine ⟨_, _, rfl, h.keep ?_ h.timer rfl rfl rfl, rfl, rfl, rfl⟩
    exact { h.inv with }

end Steps

lemma Entity.Fresh.rxState {e : Entity} (h : e.Fresh) (D : Nat → List UInt8) :
    RxState e.cfg D 0 e.rx ∧ e.rx.rxList = [] := by
  have hinv := h.receiverInv
  obtain ⟨rm, tm, a, b, c, d, f, g, L, hnew⟩ := h
  rw [newNrRlcEntityAm] at hnew
  split at hnew
  · cases hnew
    refine ⟨⟨hinv.rx, hinv.timer, (Nat.zero_mod _).symm, ?_, [], nodup_nil, rfl, ?_⟩, rfl⟩
    · exact ⟨by simp, by simp⟩
    · intro n
      refine ⟨by simp, ?_⟩
      rintro (hlt | ⟨l, hl, -⟩)
      · exact absurd hlt (Nat.not_lt_zero n)
      · cases hl
  · cases hnew

/-! ## Runs -/

/-- A receiver, the number behind its `rx_next`, and the segments it has taken: number, SO, size. -/
structure Receiver where
  entity : Entity
  base : Nat
  log : List (Nat × Nat × Nat)

/-- The byte `b` of SDU `n` was in a segment that was taken. -/
def Receiver.Has (r : Receiver) (n b : Nat) : Prop :=
  ∃ x ∈ r.log, x.1 = n ∧ x.2.1 ≤ b ∧ b < x.2.1 + x.2.2

/-- The number moves as far as `rx_next` does. -/
def Receiver.moved (r : Receiver) (e : Entity) : Receiver :=
  { r with
    entity := e
    base := r.base + dist r.entity.cfg.snModulus r.entity.rx.rxNext e.rx.rxNext }

/-- What happens to the receiver. -/
inductive ReportOp
  | recvPdu (n so size : Nat) (p : Bool) (buffer : List UInt8)
  | setTime (now : UInt64)
  | generateStatus (buffer : List UInt8)

instance (cfg : Config) (N : Nat) (rx : Rx) (n size : Nat) : Decidable (Takes cfg N rx n size) :=
  inferInstanceAs (Decidable (_ ∧ _ ∧ _))

/-- One step, with what has been taken on record. -/
def Receiver.step (r : Receiver) : ReportOp → Option Receiver
  | .recvPdu n so size _ buffer =>
    (recvPdu r.entity buffer).map fun e =>
      { r.moved e with
        log := if Takes r.entity.cfg r.base r.entity.rx n size then (n, so, size) :: r.log
          else r.log }
  | .setTime now => (setTime r.entity now).map r.moved
  | .generateStatus buffer =>
    (generateStatus r.entity.cfg r.entity.tCurrent r.entity.rx buffer).map fun x =>
      r.moved { r.entity with rx := x.1 }

/-- Parts of the SDUs come, not too far from the window. -/
def Receiver.Allowed (D : Nat → List UInt8) (r : Receiver) : ReportOp → Prop
  | .recvPdu n so size p buffer =>
    Carries r.entity.cfg D p n so size buffer ∧ 0 < size ∧ so + size ≤ (D n).length ∧
      r.base ≤ n + r.entity.cfg.windowSize ∧ n < r.base + r.entity.cfg.snModulus
  | _ => True

/-- Segments of the SDUs `D`: any segmentation, any of them lost or repeated, in any order within the
window. -/
def reportMachine (D : Nat → List UInt8) : Machine.Spec Receiver ReportOp where
  init := fun r => r.entity.Fresh ∧ r.base = 0 ∧ r.log = []
  guard := Receiver.Allowed D
  step := Receiver.step

/-- The receiver is in a good state and the log says what it has. -/
structure ReportInv (D : Nat → List UInt8) (r : Receiver) : Prop where
  legal : r.entity.cfg.Legal
  state : RxState r.entity.cfg D r.base r.entity.rx
  idle : TxIdle r.entity.tx
  has : ∀ n b, b < (D n).length →
    (Received r.entity.cfg.snModulus r.base r.entity.rx.rxList n b ↔ r.Has n b)

section Run

variable {D : Nat → List UInt8} {r : Receiver}

lemma Receiver.moved_of_next {e : Entity} (h : e.rx.rxNext = r.entity.rx.rxNext) :
    r.moved e = { r with entity := e } := by
  rw [Receiver.moved, h, dist_self, Nat.add_zero]

lemma ReportInv.same (h : ReportInv D r) {e : Entity} (hcfg : e.cfg = r.entity.cfg)
    (hstate : RxState r.entity.cfg D r.base e.rx) (hidle : TxIdle e.tx)
    (hnext : e.rx.rxNext = r.entity.rx.rxNext) (hlist : e.rx.rxList = r.entity.rx.rxList) :
    ReportInv D (r.moved e) := by
  rw [Receiver.moved_of_next hnext]
  refine ⟨?_, ?_, hidle, ?_⟩
  · show e.cfg.Legal
    rw [hcfg]
    exact h.legal
  · show RxState e.cfg D r.base e.rx
    rw [hcfg]
    exact hstate
  · show ∀ n b, b < (D n).length → (Received e.cfg.snModulus r.base e.rx.rxList n b ↔ _)
    rw [hcfg, hlist]
    exact h.has

theorem ReportInv.step (hmax : ∀ n, (D n).length ≤ nrSduMax) (h : ReportInv D r) {op : ReportOp}
    (hallowed : r.Allowed D op) : ∃ r', r.step op = some r' ∧ ReportInv D r' := by
  cases op with
  | recvPdu n so size p buffer =>
    obtain ⟨hcarries, hpos, hwithin, hlow, hhigh⟩ := hallowed
    obtain ⟨rx', hrec, k, hk, hstate, hreceived, -⟩ := h.state.recvPdu h.legal (hmax n)
      ⟨hpos, hwithin⟩ hlow hhigh hcarries
    have hbase : (r.moved { r.entity with rx := rx' }).base = r.base + k := by
      show r.base + dist _ r.entity.rx.rxNext rx'.rxNext = _
      rw [h.state.base, hstate.base, dist_mod (by omega) (Nat.le_add_right _ _) (by omega),
        Nat.add_sub_cancel_left]
    refine ⟨_, by rw [Receiver.step, hrec]; rfl, ?_, ?_, ?_, ?_⟩
    · exact h.legal
    · show RxState r.entity.cfg D (r.moved { r.entity with rx := rx' }).base rx'
      rw [hbase]
      exact hstate
    · exact h.idle
    · intro m b hb
      show Received r.entity.cfg.snModulus (r.moved { r.entity with rx := rx' }).base rx'.rxList m b ↔ _
      rw [hbase, hreceived m b hb, h.has m b hb]
      split
      · next htakes =>
        constructor
        · rintro (⟨x, hx, hin⟩ | ⟨-, rfl, hin⟩)
          · exact ⟨x, mem_cons_of_mem _ hx, hin⟩
          · exact ⟨_, mem_cons_self, rfl, hin⟩
        · rintro ⟨x, hx, hin⟩
          rcases mem_cons.mp hx with rfl | hx
          · exact .inr ⟨htakes, hin.1.symm, hin.2⟩
          · exact .inl ⟨x, hx, hin⟩
      · next hnot => exact ⟨fun hor => hor.elim id fun hbrings => absurd hbrings.1 hnot, .inl⟩
  | setTime now =>
    have hpoll : checkTPollRetransmit r.entity.cfg now r.entity.tx = some r.entity.tx := by
      exact if_pos (.inl h.idle.timer)
    obtain ⟨rx', hcheck, hstate, hnext, hlist, -⟩ := h.state.checkTReassembly h.legal now
    refine ⟨_, by rw [Receiver.step, setTime, hpoll, Option.bind_some, hcheck]; rfl, ?_⟩
    exact h.same rfl hstate h.idle hnext hlist
  | generateStatus buffer =>
    obtain ⟨rx', pdu, hgen, hstate, hnext, hlist, -⟩ :=
      h.state.generateStatus h.legal hmax r.entity.tCurrent buffer
    refine ⟨_, by rw [Receiver.step, hgen]; rfl, ?_⟩
    exact h.same rfl hstate h.idle hnext hlist

lemma reportInv_reach (hmax : ∀ n, (D n).length ≤ nrSduMax)
    (h : Machine.Reach (reportMachine D) r) : ReportInv D r := by
  refine Machine.Reach.invariant ?_ ?_ h
  · rintro r ⟨hfresh, hbase, hlog⟩
    obtain ⟨hstate, hlist⟩ := hfresh.rxState D
    refine ⟨hfresh.legal, by rw [hbase]; exact hstate, hfresh.receiverInv.idle, ?_⟩
    intro n b _
    rw [hbase, hlist, Receiver.Has, hlog]
    refine ⟨?_, fun ⟨x, hx, _⟩ => (nomatch hx)⟩
    rintro (hlt | ⟨l, hl, -⟩)
    · exact absurd hlt (Nat.not_lt_zero n)
    · cases hl
  · intro r op r' _ hinv hguard hstep
    obtain ⟨r'', hstep', hinv'⟩ := hinv.step hmax hguard
    rw [show (reportMachine D).step r op = r.step op from rfl, hstep'] at hstep
    exact Option.some.inj hstep ▸ hinv'

end Run

/-! ## Soundness and completeness of the report -/

/-- The byte `b` of the SDU with this SN is NACKed. -/
def CurNack.Covers (c : CurNack) (sn b : Nat) : Prop :=
  c.sn = sn ∧ c.soStart ≤ b ∧ (c.soEnd = -1 ∨ (b : Int) ≤ c.soEnd)

/-- The order of NACKs, by SN relative to `rx_next` and then by SO. -/
def NackBefore (cfg : Config) (rx : Rx) (c d : CurNack) : Prop :=
  snCompareRx cfg rx c.sn d.sn < 0 ∨ (c.sn = d.sn ∧ c.soEnd ≠ -1 ∧ c.soEnd < d.soStart)

lemma covers_cur {M N n b : Nat} {xs : List NumberNack}
    (hwithin : ∀ x ∈ xs, N ≤ x.number ∧ x.number < N + M) (hge : N ≤ n) (hlt : n < N + M) :
    (∃ c ∈ xs.map (NumberNack.cur M), c.Covers (n % M) b) ↔ ∃ x ∈ xs, x.Covers n b := by
  constructor
  · rintro ⟨c, hc, hsn, hb⟩
    obtain ⟨x, hx, rfl⟩ := mem_map.mp hc
    obtain ⟨hxge, hxlt⟩ := hwithin x hx
    exact ⟨x, hx, eq_of_mod hxge hxlt hge hlt hsn, hb⟩
  · rintro ⟨x, hx, rfl, hb⟩
    exact ⟨_, mem_map_of_mem hx, rfl, hb⟩

/-- **Status reports**: take any state of a receiver of segments of the SDUs `D`, and any buffer of
three bytes or more.  The bytes `generate_status` writes decode to a report in which

- every byte of an SDU in [rx_next, ACK_SN) that was not received is NACKed;
- the NACKs are in order, with SNs below ACK_SN, and ACK_SN is at most `rx_highest_status`;
- when the report was not truncated, the bytes NACKed are exactly those below `rx_highest_status`
  that were not received. -/
theorem status_report {D : Nat → List UInt8} (hmax : ∀ n, (D n).length ≤ nrSduMax) {r : Receiver}
    (h : Machine.Reach (reportMachine D) r) {buffer : List UInt8} (hsize : 3 ≤ buffer.length) :
    r.entity.rx.rxNext = r.base % r.entity.cfg.snModulus ∧
    ∃ rx' pdu s w truncated,
      generateStatus r.entity.cfg r.entity.tCurrent r.entity.rx buffer = some (rx', some pdu) ∧
      statusWritten r.entity.cfg r.entity.rx buffer = some (w, truncated) ∧
      readStatus r.entity.cfg pdu = .ok s ∧
      (∀ n b, r.base ≤ n → n < r.base + modulusRx r.entity.cfg r.entity.rx s.ackSn →
        b < (D n).length → ¬ r.Has n b →
          ∃ c ∈ s.expanded r.entity.cfg.snModulus, c.Covers (n % r.entity.cfg.snModulus) b) ∧
      (s.expanded r.entity.cfg.snModulus).Pairwise (NackBefore r.entity.cfg r.entity.rx) ∧
      (∀ c ∈ s.expanded r.entity.cfg.snModulus,
        snCompareRx r.entity.cfg r.entity.rx c.sn s.ackSn < 0) ∧
      snCompareRx r.entity.cfg r.entity.rx s.ackSn r.entity.rx.rxHighestStatus ≤ 0 ∧
      (truncated = false → ∀ n b, r.base ≤ n → n < r.base + r.entity.cfg.snModulus →
        b < (D n).length →
          ((n < r.base + modulusRx r.entity.cfg r.entity.rx r.entity.rx.rxHighestStatus ∧
              ¬ r.Has n b) ↔
            ∃ c ∈ s.expanded r.entity.cfg.snModulus, c.Covers (n % r.entity.cfg.snModulus) b)) := by
  have hinv := reportInv_reach hmax h
  have hMW := hinv.legal.window
  have hW := hinv.legal.windowSize_ge
  have hM : 0 < r.entity.cfg.snModulus := by omega
  have hbase := hinv.state.base
  obtain ⟨hNS, hSW⟩ := reportEnd_lt hinv.state
  obtain ⟨pdu, w, truncated, s, xs, A, hbytes, hwritten, hread, hack, hexp, hrep⟩ :=
    generateStatus_report hinv.legal hinv.state hmax hsize
  have hAle := hrep.ack_le
  have hAge := hrep.ack_ge
  -- SNs of the report and the numbers behind them
  have hdist : ∀ n, r.base ≤ n → n < r.base + r.entity.cfg.snModulus →
      modulusRx r.entity.cfg r.entity.rx (n % r.entity.cfg.snModulus) = n - r.base := by
    intro n hge hlt
    rw [modulusRx, hbase]
    exact dist_mod hM hge hlt
  have hA : modulusRx r.entity.cfg r.entity.rx s.ackSn = A - r.base := by
    rw [hack]
    exact hdist A hAge (by omega)
  have hwithin : ∀ x ∈ xs, r.base ≤ x.number ∧ x.number < r.base + r.entity.cfg.snModulus := by
    intro x hx
    have := hrep.within x hx
    omega
  have hgot : ∀ n b, r.base ≤ n → b < (D n).length →
      (Got r.entity.cfg.snModulus r.base r.entity.rx.rxList n b ↔ r.Has n b) := by
    intro n b hge hb
    rw [← hinv.has n b hb, Received, or_iff_right (by omega)]
  obtain ⟨rx', hgen⟩ : ∃ rx', generateStatus r.entity.cfg r.entity.tCurrent r.entity.rx buffer =
      some (rx', some pdu) := ⟨_, by rw [generateStatus, if_neg (by omega), hbytes]; rfl⟩
  refine ⟨hbase, rx', pdu, s, w, truncated, hgen, hwritten, hread, ?_, ?_, ?_, ?_, ?_⟩
  · intro n b hge hlt hb hnot
    rw [hexp, covers_cur hwithin hge (by omega)]
    exact hrep.complete n b hge (by omega) hb fun hg => hnot ((hgot n b hge hb).mp hg)
  · rw [hexp, pairwise_map]
    apply hrep.sorted.imp_of_mem
    intro x y hx hy hxy
    obtain ⟨hxge, hxlt⟩ := hwithin x hx
    obtain ⟨hyge, hylt⟩ := hwithin y hy
    rcases hxy with hlt | ⟨heq, hend, hso⟩
    · left
      show ((modulusRx _ _ (x.number % _) : Nat) : Int) - (modulusRx _ _ (y.number % _) : Nat) < 0
      rw [hdist _ hxge hxlt, hdist _ hyge hylt]
      omega
    · right
      refine ⟨?_, hend, hso⟩
      show x.number % _ = y.number % _
      rw [heq]
  · intro c hc
    rw [hexp] at hc
    obtain ⟨x, hx, rfl⟩ := mem_map.mp hc
    obtain ⟨hxge, hxlt⟩ := hwithin x hx
    have hxA := (hrep.within x hx).2
    show ((modulusRx _ _ (x.number % _) : Nat) : Int) - _ < 0
    rw [hdist _ hxge hxlt]
    omega
  · rw [snCompareRx, hA]
    rw [reportEnd] at hAle
    omega
  · intro hfull n b hge hlt hb
    rw [hexp, covers_cur hwithin hge hlt, ← hrep.exact hfull n b hge hb, hgot n b hge hb]
    rfl

/-- SDUs of three bytes. -/
def threeBytes (n : Nat) : List UInt8 := [UInt8.ofNat n, 1, 2]

lemma threeBytes_length (n : Nat) : (threeBytes n).length ≤ nrSduMax := by
  show 3 ≤ nrSduMax
  decide

instance (r : Receiver) (op : ReportOp) : Decidable ((reportMachine threeBytes).guard r op) :=
  match op with
  | .recvPdu .. => inferInstanceAs (Decidable (_ ∧ _ ∧ _ ∧ _ ∧ _))
  | .setTime _ => .isTrue trivial
  | .generateStatus _ => .isTrue trivial

theorem status_report_gap : ∃ r, Machine.Reach (reportMachine threeBytes) r ∧
    ¬ r.Has 1 1 ∧ r.Has 1 2 ∧ ∃ rx' pdu s,
      generateStatus r.entity.cfg r.entity.tCurrent r.entity.rx (List.replicate 20 0) =
        some (rx', some pdu) ∧ readStatus r.entity.cfg pdu = .ok s ∧
      (∃ c ∈ s.expanded 4096, c.Covers 1 1) ∧ ¬ ∃ c ∈ s.expanded 4096, c.Covers 1 2 := by
  obtain ⟨r, hr, hM, hbase, hstatus, hlog, htrunc⟩ := Machine.Reach.exists_of_run
    (m := reportMachine threeBytes) (s := ⟨freshAm, 0, []⟩)
    (P := fun r : Receiver => r.entity.cfg.snModulus = 4096 ∧ r.base = 0 ∧
      modulusRx r.entity.cfg r.entity.rx r.entity.rx.rxHighestStatus = 2 ∧ r.log = [(1, 2, 1)] ∧
      (statusWritten r.entity.cfg r.entity.rx (List.replicate 20 0)).map Prod.snd = some false)
    (Machine.Reach.start ⟨fresh_freshAm, rfl, rfl⟩)
    [.setTime 5, .recvPdu 1 2 1 false [0xa0, 1, 0, 2, 2], .setTime 50] (by decide)
  have hhas : ∀ b, r.Has 1 b ↔ b = 2 := by
    intro b
    rw [Receiver.Has, hlog]
    simp only [mem_singleton, exists_eq_left, true_and]
    omega
  obtain ⟨-, rx', pdu, s, w, truncated, hgen, hwritten, hread, -, -, -, -, hexact⟩ :=
    status_report threeBytes_length hr (show 3 ≤ (List.replicate 20 (0 : UInt8)).length by decide)
  have hfull : truncated = false := by
    rw [hwritten] at htrunc
    exact Option.some.inj htrunc
  rw [hM, hbase, hstatus] at hexact
  have hone := hexact hfull 1 1 (by decide) (by decide) (by decide)
  have htwo := hexact hfull 1 2 (by decide) (by decide) (by decide)
  rw [hhas] at hone htwo
  refine ⟨r, hr, ?_, ?_, rx', pdu, s, hgen, hread, hone.mp ⟨by decide, by decide⟩, ?_⟩
  · rw [hhas]
    decide
  · rw [hhas]
  · intro hcov
    exact (htwo.mpr hcov).2 rfl

end NrStack.Rlc.Am
