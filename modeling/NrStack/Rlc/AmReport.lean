/-
  What `next_missing` finds.

  `max_so` and `last_reached`: how far the data is contiguous, and whether it reaches the end of its SDU.
  A position of the byte stream is a pair (number, byte), and

      `Scanned`   every byte from where the walk started up to `max_so` is there, and no entry seen so
                  far reaches farther;
      `Gap`       the span up to the next entry (or to the end of the report), with everything in front
                  of it received and nothing of it.
-/
import NrStack.Rlc.AmContent
import NrStack.Rlc.AmStatus

namespace NrStack.Rlc.Am

open List Circular

/-! ## Positions and spans -/

/-- A stretch of the byte stream, from (ns, bs) to (ne, be), both ends included. -/
structure Span where
  ns : Nat
  bs : Nat
  ne : Nat
  be : Nat
  deriving DecidableEq, Repr

/-- Byte `b` of SDU `n` lies in the span. -/
def Span.Covers (s : Span) (n b : Nat) : Prop :=
  (s.ns < n ∨ (s.ns = n ∧ s.bs ≤ b)) ∧ (n < s.ne ∨ (n = s.ne ∧ b ≤ s.be))

/-- The span, as `next_missing` returns it. -/
def Span.toMissing (M : Nat) (s : Span) (next : List RxPdu) : MissingData :=
  ⟨s.ns % M, s.bs, s.ne % M, s.be, next⟩

/-- The number behind `rx_highest_status`: the report ends in front of it. -/
def reportEnd (cfg : Config) (N : Nat) (rx : Rx) : Nat := N + modulusRx cfg rx rx.rxHighestStatus

/-- The entry ends at or in front of the position (n, b). -/
def EndsBy (M N : Nat) (l : RxPdu) (n b : Nat) : Prop :=
  number M N l < n ∨ (number M N l = n ∧ l.so + l.size ≤ b)

/-- The walk from (n₀, b₀) has come to the entry `prev`, behind `pre`: the data is contiguous up to
the byte `mx` of its SDU, which is the last byte when `lr`. -/
structure Scanned (M N : Nat) (D : Nat → List UInt8) (list : List RxPdu) (n₀ b₀ : Nat)
    (pre : List RxPdu) (prev : RxPdu) (mx : Nat) (lr : Bool) : Prop where
  ends : ∀ l ∈ pre ++ [prev], EndsBy M N l (number M N prev) (mx + 1)
  le : mx + 1 ≤ (D (number M N prev)).length
  last : lr = true ↔ mx + 1 = (D (number M N prev)).length
  got : ∀ n b, b < (D n).length → (n₀ < n ∨ (n₀ = n ∧ b₀ ≤ b)) →
    (n < number M N prev ∨ (n = number M N prev ∧ b ≤ mx)) → Got M N list n b
  start : n₀ < number M N prev ∨ (n₀ = number M N prev ∧ b₀ ≤ mx + 1)

/-- A walk from (n₀, b₀) has come to (ns, bs): every byte up to there is there, and no entry of `pre`
reaches behind it. -/
structure CameTo (M N : Nat) (D : Nat → List UInt8) (list : List RxPdu) (n₀ b₀ : Nat)
    (pre : List RxPdu) (ns bs : Nat) : Prop where
  ends : ∀ l ∈ pre, EndsBy M N l ns bs
  start : n₀ < ns ∨ (n₀ = ns ∧ b₀ ≤ bs)
  le : bs ≤ nrSduMax
  got : ∀ n b, b < (D n).length → (n₀ < n ∨ (n₀ = n ∧ b₀ ≤ b)) →
    (n < ns ∨ (n = ns ∧ b < bs)) → Got M N list n b

/-- Where the walk goes on behind a span: nowhere, or at the entry right behind it. -/
def Resume (M N : Nat) (D : Nat → List UInt8) (list : List RxPdu) (S : Nat) (s : Span)
    (next : List RxPdu) : Prop :=
  (next = [] ∧ s.ne + 1 = S ∧ s.be = 0xffff) ∨
  ∃ pre c rest, next = c :: rest ∧ list = pre ++ c :: rest ∧
    (∀ l ∈ pre, EndsBy M N l (number M N c) c.so) ∧
    (s.ne < number M N c ∨ (s.ne = number M N c ∧ s.be < c.so)) ∧
    ∀ n b, b < (D n).length → (s.ne < n ∨ (s.ne = n ∧ s.be < b)) →
      (number M N c < n ∨ (number M N c = n ∧ c.so ≤ b))

/-- A span of missing bytes found by a walk from (n₀, b₀). -/
structure Gap (M N : Nat) (D : Nat → List UInt8) (list : List RxPdu) (S n₀ b₀ : Nat) (s : Span)
    (next : List RxPdu) : Prop where
  start : n₀ < s.ns ∨ (n₀ = s.ns ∧ b₀ ≤ s.bs)
  order : s.ns < s.ne ∨ (s.ns = s.ne ∧ s.bs ≤ s.be)
  below : s.ne < S
  bs_le : s.bs ≤ nrSduMax
  be_le : s.be = 0xffff ∨ s.be < nrSduMax
  got : ∀ n b, b < (D n).length → (n₀ < n ∨ (n₀ = n ∧ b₀ ≤ b)) →
    (n < s.ns ∨ (n = s.ns ∧ b < s.bs)) → Got M N list n b
  missing : ∀ n b, s.Covers n b → ¬ Got M N list n b
  resume : Resume M N D list S s next

/-- What a walk from (n₀, b₀) returns: a gap, or nothing when all bytes of the report are there. -/
def Found (M N : Nat) (D : Nat → List UInt8) (list : List RxPdu) (S n₀ b₀ : Nat) :
    Option MissingData → Prop
  | none => ∀ n b, b < (D n).length → (n₀ < n ∨ (n₀ = n ∧ b₀ ≤ b)) → n < S → Got M N list n b
  | some m => ∃ s next, m = s.toMissing M next ∧ Gap M N D list S n₀ b₀ s next

section Walk

variable {cfg : Config} {D : Nat → List UInt8} {N : Nat} {rx : Rx}

/-! ## SNs and numbers -/

lemma number_lt (hcfg : cfg.Legal) (h : RxState cfg D N rx) {l : RxPdu} (hl : l ∈ rx.rxList) :
    l.sn < cfg.snModulus ∧ number cfg.snModulus N l + 1 < N + cfg.snModulus := by
  have hMW := hcfg.window
  have hle := h.inv.highest_le
  obtain ⟨hsn, hlt⟩ := h.inv.ordered.within l hl
  rw [h.base] at hlt
  exact ⟨hsn, by rw [number, lift]; omega⟩

variable {n M ns bs n₀ b₀ mx : Nat} {list pre rest : List RxPdu} {prev cur : RxPdu} {lr : Bool}

lemma outOfReport_iff (h : RxState cfg D N rx) (hge : N ≤ n) (hlt : n < N + cfg.snModulus) :
    outOfReport cfg rx (n % cfg.snModulus) = true ↔ reportEnd cfg N rx ≤ n := by
  have hdist : modulusRx cfg rx (n % cfg.snModulus) = n - N := by
    rw [modulusRx, h.base]
    exact dist_mod (by omega) hge hlt
  rw [outOfReport, decide_eq_true_eq, snCompareRx, hdist, reportEnd]
  omega

lemma snBefore_mod (hcfg : cfg.Legal) (hpos : 0 < n) :
    snBefore cfg (n % cfg.snModulus) = (n - 1) % cfg.snModulus := by
  have hMW := hcfg.window
  have hW := hcfg.windowSize_ge
  rw [snBefore, Nat.add_sub_assoc (by omega), Nat.mod_add_mod,
    show n + (cfg.snModulus - 1) = n - 1 + cfg.snModulus by omega, Nat.add_mod_right]

lemma rxHighestStatus_eq (h : RxState cfg D N rx) :
    rx.rxHighestStatus = reportEnd cfg N rx % cfg.snModulus := by
  have := add_dist h.inv.status_lt h.inv.next_lt
  rw [reportEnd, modulusRx, ← this, h.base, Nat.mod_add_mod]
  congr 2
  rw [← Nat.mod_add_mod, ← h.base, this]

/-! ## Nothing is received inside a span -/

lemma not_got_between {base hh : Nat} {c : RxPdu} (hord : Ordered M base hh list)
    (hbase : base = N % M) (hlist : list = pre ++ c :: rest) (hends : ∀ l ∈ pre, EndsBy M N l ns bs)
    {b : Nat} (hge : ns < n ∨ (ns = n ∧ bs ≤ b))
    (hlt : n < number M N c ∨ (n = number M N c ∧ b < c.so)) : ¬ Got M N list n b := by
  rintro ⟨l, hl, rfl, hso, hend⟩
  rw [hlist] at hl
  rcases mem_append.mp hl with hl | hl
  · have hby := hends l hl
    rw [EndsBy] at hby
    omega
  · have hbefore : number M N c < number M N l ∨ (number M N c = number M N l ∧ c.so ≤ l.so) := by
      rcases mem_cons.mp hl with rfl | hl
      · exact .inr ⟨rfl, le_refl _⟩
      · have hsorted := hord.sorted
        rw [hlist] at hsorted
        have hcl := rel_of_pairwise_cons (pairwise_append.mp hsorted).2.1 hl
        rcases hcl with hlt' | ⟨heq, hle⟩
        · left
          have hlt'' : dist M base c.sn < dist M base l.sn := hlt'
          rw [number, number, lift, lift, ← hbase]
          omega
        · right
          have heq' : c.sn = l.sn := heq
          exact ⟨by rw [number, heq', number], hle⟩
    omega

lemma not_got_behind (hends : ∀ l ∈ list, EndsBy M N l ns bs) {b : Nat}
    (hge : ns < n ∨ (ns = n ∧ bs ≤ b)) : ¬ Got M N list n b := by
  rintro ⟨l, hl, rfl, hso, hend⟩
  have hby := hends l hl
  rw [EndsBy] at hby
  omega

/-! ## The end of a span -/

lemma CameTo.found (h : RxState cfg D N rx)
    (hcame : CameTo cfg.snModulus N D rx.rxList n₀ b₀ pre ns bs) (hge : N ≤ ns)
    (hlt : ns < N + cfg.snModulus) {sn : Nat} (hsn : sn = ns % cfg.snModulus) {m : MissingData}
    (hspan : ns < reportEnd cfg N rx →
      Found cfg.snModulus N D rx.rxList (reportEnd cfg N rx) n₀ b₀ (some m)) :
    Found cfg.snModulus N D rx.rxList (reportEnd cfg N rx) n₀ b₀
      (if outOfReport cfg rx sn then none else some m) := by
  have hout := outOfReport_iff h hge hlt
  rw [hsn]
  split
  · next hstop =>
    intro n b hb hfrom hS
    exact hcame.got n b hb hfrom (.inl (lt_of_lt_of_le hS (hout.mp hstop)))
  · next hgo =>
    refine hspan ?_
    by_contra hle
    exact hgo (hout.mpr (Nat.le_of_not_lt hle))

lemma CameTo.to_end (hcfg : cfg.Legal) (h : RxState cfg D N rx)
    (hcame : CameTo cfg.snModulus N D rx.rxList n₀ b₀ pre ns bs) (hS : ns < reportEnd cfg N rx)
    (hnot : ∀ n b, (ns < n ∨ (ns = n ∧ bs ≤ b)) → n < reportEnd cfg N rx →
      ¬ Got cfg.snModulus N rx.rxList n b) :
    Found cfg.snModulus N D rx.rxList (reportEnd cfg N rx) n₀ b₀
      (some ⟨ns % cfg.snModulus, bs, snBefore cfg rx.rxHighestStatus, 0xffff, []⟩) := by
  have hnr : nrSduMax = 16000 := rfl
  have hle := hcame.le
  refine ⟨⟨ns, bs, reportEnd cfg N rx - 1, 0xffff⟩, [], ?_, hcame.start, ?_,
    Nat.sub_one_lt_of_lt hS, hle, .inl rfl, hcame.got, ?_,
    .inl ⟨rfl, Nat.sub_one_add_one (by omega), rfl⟩⟩
  · rw [Span.toMissing, rxHighestStatus_eq h, snBefore_mod hcfg (by omega)]
  · show ns < reportEnd cfg N rx - 1 ∨ (ns = reportEnd cfg N rx - 1 ∧ bs ≤ 0xffff)
    omega
  · rintro n b ⟨hge, hend⟩
    have hend' : n < reportEnd cfg N rx - 1 ∨ (n = reportEnd cfg N rx - 1 ∧ b ≤ 0xffff) := hend
    exact hnot n b hge (by omega)

theorem setEndDifferentSdu_spec (hcfg : cfg.Legal) (h : RxState cfg D N rx)
    (hmax : ∀ n, (D n).length ≤ nrSduMax) (pre : List RxPdu) {c : RxPdu}
    (hlist : rx.rxList = pre ++ c :: rest)
    (hcame : CameTo cfg.snModulus N D rx.rxList n₀ b₀ pre ns bs) (hN : N ≤ ns)
    (hc : ns < number cfg.snModulus N c ∨ (ns = number cfg.snModulus N c ∧ bs < c.so))
    (hS : ns < reportEnd cfg N rx) :
    Found cfg.snModulus N D rx.rxList (reportEnd cfg N rx) n₀ b₀
      (some (setEndDifferentSdu cfg rx (ns % cfg.snModulus) bs c rest)) := by
  have hmem : c ∈ rx.rxList := by
    rw [hlist]
    exact mem_append_right _ mem_cons_self
  obtain ⟨hcM, hcN⟩ := number_lt hcfg h hmem
  have hpart := h.content.part c hmem
  have hmaxc := hmax (number cfg.snModulus N c)
  have hwithin := hpart.within
  have hnr : nrSduMax = 16000 := rfl
  have hbs := hcame.le
  obtain ⟨ne, hne⟩ : ∃ ne, ne = if c.isFirst then number cfg.snModulus N c - 1
      else number cfg.snModulus N c := ⟨_, rfl⟩
  obtain ⟨be, hbe⟩ : ∃ be, be = if c.isFirst then 0xffff else c.so - 1 := ⟨_, rfl⟩
  -- the end found lies right in front of c
  have hfirst : c.isFirst = true → c.so = 0 := hpart.first.mp
  have hnotfirst : ¬ c.isFirst = true → 0 < c.so := by
    intro hnot
    by_contra hzero
    exact hnot (hpart.first.mpr (by omega))
  have hfront : (ne + 1 = number cfg.snModulus N c ∧ be = 0xffff ∧ c.so = 0) ∨
      (ne = number cfg.snModulus N c ∧ be + 1 = c.so) := by
    by_cases hf : c.isFirst = true
    · have := hfirst hf
      rw [hne, hbe, if_pos hf, if_pos hf]
      omega
    · have := hnotfirst hf
      rw [hne, hbe, if_neg hf, if_neg hf]
      omega
  have hsn : (if c.isFirst then snBefore cfg c.sn else c.sn) = ne % cfg.snModulus := by
    have hmod := number_mod (N := N) hcM
    by_cases hf : c.isFirst = true
    · have := hfirst hf
      rw [if_pos hf, hne, if_pos hf, ← hmod, snBefore_mod hcfg (by omega)]
    · rw [if_neg hf, hne, if_neg hf, hmod]
  have hout : outOfReport cfg rx (ne % cfg.snModulus) = true ↔ reportEnd cfg N rx ≤ ne :=
    outOfReport_iff h (by omega) (by omega)
  have hnot : ∀ n b, (ns < n ∨ (ns = n ∧ bs ≤ b)) →
      (n < number cfg.snModulus N c ∨ (n = number cfg.snModulus N c ∧ b < c.so)) →
      ¬ Got cfg.snModulus N rx.rxList n b := fun n b hge hlt =>
    not_got_between h.inv.ordered h.base hlist hcame.ends hge hlt
  rw [setEndDifferentSdu]
  simp only [hsn, ← hbe]
  split
  · next hclip =>
    -- clipped to the end of the report
    have hclip' := hout.mp hclip
    exact hcame.to_end hcfg h hS fun n b hge hlt => hnot n b hge (by omega)
  · next hclip =>
    have hclip' : ne < reportEnd cfg N rx := by
      by_contra hge
      exact hclip (hout.mpr (Nat.le_of_not_lt hge))
    refine ⟨⟨ns, bs, ne, be⟩, c :: rest, rfl, ?_⟩
    refine ⟨hcame.start, ?_, hclip', hcame.le, ?_, hcame.got, ?_, .inr ⟨pre, c, rest, rfl, hlist, ?_, ?_, ?_⟩⟩
    · show ns < ne ∨ (ns = ne ∧ bs ≤ be)
      omega
    · show be = 0xffff ∨ be < _
      omega
    · rintro n b ⟨hge, hend⟩
      have hend' : n < ne ∨ (n = ne ∧ b ≤ be) := hend
      exact hnot n b hge (by omega)
    · intro l hl
      have hby := hcame.ends l hl
      rw [EndsBy] at hby ⊢
      omega
    · show ne < _ ∨ (ne = _ ∧ be < _)
      omega
    · intro n b hb hafter
      have hafter' : ne < n ∨ (ne = n ∧ be < b) := hafter
      have := hmax n
      omega

/-! ## The walk -/

/-- The first position not scanned: behind `mx`, or the start of the next SDU. -/
def startAfter (M N : Nat) (prev : RxPdu) (mx : Nat) (ended : Bool) : Nat × Nat :=
  if ended then (number M N prev + 1, 0) else (number M N prev, mx + 1)

lemma Scanned.cameTo (hs : Scanned M N D list n₀ b₀ pre prev mx lr)
    (hmax : ∀ n, (D n).length ≤ nrSduMax) (ended : Bool)
    (hended : ended = true → Complete M N D list (number M N prev) ∨ lr = true) :
    CameTo M N D list n₀ b₀ (pre ++ [prev]) (startAfter M N prev mx ended).1
      (startAfter M N prev mx ended).2 := by
  have hstart := hs.start
  cases ended with
  | false =>
    refine ⟨hs.ends, hstart, hs.le.trans (hmax _), ?_⟩
    intro n b hb hge hlt
    have hlt' : n < number M N prev ∨ (n = number M N prev ∧ b < mx + 1) := hlt
    exact hs.got n b hb hge (by omega)
  | true =>
    refine ⟨?_, ?_, Nat.zero_le _, ?_⟩
    · intro l hl
      have hby := hs.ends l hl
      rw [EndsBy] at hby
      exact .inl (by show number M N l < number M N prev + 1; omega)
    · left
      show n₀ < number M N prev + 1
      omega
    · intro n b hb hge hlt
      have hlt' : n < number M N prev + 1 ∨ (n = number M N prev + 1 ∧ b < 0) := hlt
      by_cases hn : n = number M N prev
      · rcases hended rfl with hall | hlr
        · rw [hn] at hb ⊢
          exact hall b hb
        · have := hs.last.mp hlr
          rw [hn] at hb
          exact hs.got n b (hn ▸ hb) hge (by omega)
      · exact hs.got n b hb hge (by omega)

lemma startAfter_sn (hcfg : cfg.Legal) (h : RxState cfg D N rx) (hprev : prev ∈ rx.rxList)
    (mx : Nat) (ended : Bool) :
    (if ended then (prev.sn + 1) % cfg.snModulus else prev.sn) =
        (startAfter cfg.snModulus N prev mx ended).1 % cfg.snModulus ∧
      (if ended then 0 else mx + 1) = (startAfter cfg.snModulus N prev mx ended).2 ∧
      N ≤ (startAfter cfg.snModulus N prev mx ended).1 ∧
      (startAfter cfg.snModulus N prev mx ended).1 < N + cfg.snModulus := by
  obtain ⟨hsn, hlt⟩ := number_lt hcfg h hprev
  have hmod := number_mod (N := N) hsn
  have hge : N ≤ number cfg.snModulus N prev := le_number prev
  cases ended with
  | false =>
    refine ⟨hmod.symm, rfl, hge, ?_⟩
    show number cfg.snModulus N prev < _
    omega
  | true =>
    refine ⟨?_, rfl, ?_, ?_⟩
    · show (prev.sn + 1) % cfg.snModulus = (number cfg.snModulus N prev + 1) % cfg.snModulus
      rw [← hmod, Nat.mod_add_mod]
    · show N ≤ number cfg.snModulus N prev + 1
      omega
    · show number cfg.snModulus N prev + 1 < _
      omega

lemma endsBy_concat {n b n' b' : Nat} (h : ∀ l ∈ pre, EndsBy M N l n b)
    (hle : n < n' ∨ (n = n' ∧ b ≤ b')) (hcur : EndsBy M N cur n' b') :
    ∀ l ∈ pre ++ [cur], EndsBy M N l n' b' := by
  rw [forall_mem_append, forall_mem_singleton]
  refine ⟨fun l hl => ?_, hcur⟩
  have hby := h l hl
  unfold EndsBy at hby ⊢
  omega

lemma Scanned.same (hs : Scanned M N D list n₀ b₀ pre prev mx lr) (hmem : cur ∈ list)
    (hpart : Part (D (number M N cur)) cur) (hnum : number M N cur = number M N prev)
    (hso : cur.so ≤ mx + 1) :
    Scanned M N D list n₀ b₀ (pre ++ [prev]) cur (max mx (cur.so + cur.size - 1))
      (lr || cur.isLast) := by
  have hwithin := hpart.within
  have hle := hs.le
  have hlast := hpart.last
  have hstart := hs.start
  rw [hnum] at hwithin hlast
  refine ⟨endsBy_concat hs.ends (by omega) (by unfold EndsBy; omega), ?_, ?_, ?_, by omega⟩
  · rw [hnum]
    omega
  · rw [hnum, Bool.or_eq_true, hs.last, hlast]
    omega
  · intro n b hb hge hlt
    by_cases hold : n < number M N prev ∨ (n = number M N prev ∧ b ≤ mx)
    · exact hs.got n b hb hge hold
    · exact ⟨cur, hmem, by omega, by omega, by omega⟩

lemma Scanned.next (hs : Scanned M N D list n₀ b₀ pre prev mx true) (hmem : cur ∈ list)
    (hpart : Part (D (number M N cur)) cur) (hnum : number M N cur = number M N prev + 1)
    (hfirst : cur.so = 0) :
    Scanned M N D list n₀ b₀ (pre ++ [prev]) cur (max 0 (cur.so + cur.size - 1))
      (false || cur.isLast) := by
  have hpos := hpart.pos
  have hwithin := hpart.within
  have hend := hs.last.mp rfl
  have hstart := hs.start
  refine ⟨endsBy_concat hs.ends (by omega) (by unfold EndsBy; omega), by omega, ?_, ?_, by omega⟩
  · rw [Bool.false_or, hpart.last]
    omega
  · intro n b hb hge hlt
    by_cases hn : n = number M N cur
    · exact ⟨cur, hmem, hn.symm, by omega, by omega⟩
    · refine hs.got n b hb hge ?_
      by_cases hp : n = number M N prev
      · rw [hp] at hb
        omega
      · omega

theorem nextPdu_spec (hcfg : cfg.Legal) (h : RxState cfg D N rx)
    (hmax : ∀ n, (D n).length ≤ nrSduMax) (n₀ b₀ : Nat) (rest : List RxPdu) :
    ∀ (pre : List RxPdu) (prev : RxPdu) (maxSo : Nat) (lastReached : Bool),
      rx.rxList = pre ++ prev :: rest →
      Scanned cfg.snModulus N D rx.rxList n₀ b₀ pre prev (max maxSo (prev.so + prev.size - 1))
        (lastReached || prev.isLast) →
      Found cfg.snModulus N D rx.rxList (reportEnd cfg N rx) n₀ b₀
        (nextPdu cfg rx prev rest maxSo lastReached) := by
  induction rest with
  | nil =>
    intro pre prev maxSo lastReached hlist hs
    have hprev : prev ∈ rx.rxList := by
      rw [hlist]
      exact mem_append_right _ mem_cons_self
    obtain ⟨ended, hended⟩ : ∃ ended : Bool, ended = true ↔
        (prev.data = none ∨ (lastReached || prev.isLast) = true) := ⟨decide _, decide_eq_true_iff⟩
    rw [nextPdu]
    simp only [← hended]
    obtain ⟨hsn, hso, hge, hlt⟩ := startAfter_sn hcfg h hprev
      (max maxSo (prev.so + prev.size - 1)) ended
    have hcame := hs.cameTo hmax ended (by
      intro ho
      rcases hended.mp ho with hnone | hlr
      · exact .inl ((h.content.freed prev hprev).mp hnone)
      · exact .inr hlr)
    rw [← hlist] at hcame
    rw [hsn, hso]
    exact hcame.found h hge hlt rfl fun hS =>
      hcame.to_end hcfg h hS fun n b hfrom _ => not_got_behind hcame.ends hfrom
  | cons cur rest ih =>
    intro pre prev maxSo lastReached hlist hs
    have hprev : prev ∈ rx.rxList := by
      rw [hlist]
      exact mem_append_right _ mem_cons_self
    have hcur : cur ∈ rx.rxList := by
      rw [hlist]
      exact mem_append_right _ (mem_cons_of_mem _ mem_cons_self)
    have hlist' : rx.rxList = (pre ++ [prev]) ++ cur :: rest := by
      rw [hlist, append_assoc]
      rfl
    obtain ⟨hpsn, hplt⟩ := number_lt hcfg h hprev
    obtain ⟨hcsn, hclt⟩ := number_lt hcfg h hcur
    have hpart := h.content.part cur hcur
    have hsame : cur.sn = prev.sn ↔ number cfg.snModulus N cur = number cfg.snModulus N prev :=
      (number_eq_iff hcsn hpsn).symm
    have hnext : cur.sn = (prev.sn + 1) % cfg.snModulus ↔
        number cfg.snModulus N cur = number cfg.snModulus N prev + 1 := by
      rw [← number_mod hcsn, ← number_mod hpsn, Nat.mod_add_mod]
      have := le_number (M := cfg.snModulus) (N := N) cur
      have := le_number (M := cfg.snModulus) (N := N) prev
      exact ⟨fun heq => eq_of_mod (by omega) (by omega) (by omega) (by omega) heq,
        fun heq => by rw [heq]⟩
    have horder : number cfg.snModulus N prev ≤ number cfg.snModulus N cur := by
      have hsorted := h.inv.ordered.sorted
      rw [hlist] at hsorted
      have := (rel_of_pairwise_cons (pairwise_append.mp hsorted).2.1
        (mem_cons_self)).dist_le
      rw [h.base] at this
      rw [number, number, lift, lift]
      omega
    rw [nextPdu]
    generalize max maxSo (prev.so + prev.size - 1) = mx at *
    generalize (lastReached || prev.isLast) = lr at *
    split
    · -- the data of the SDU goes on
      next hgo =>
      exact ih _ _ _ _ hlist' (hs.same hcur hpart (hsame.mp hgo.1) (by omega))
    next hgap =>
    split
    · -- the next SDU starts
      next hgo =>
      obtain ⟨hsn, rfl, hfirst⟩ := hgo
      exact ih _ _ _ _ hlist' (hs.next hcur hpart (hnext.mp hsn) (hpart.first.mp hfirst))
    next hjump =>
    split
    · -- a hole in the SDU
      next heq =>
      have hnum := hsame.mp heq
      have hcame : CameTo cfg.snModulus N D rx.rxList n₀ b₀ (pre ++ [prev])
          (number cfg.snModulus N prev) (mx + 1) := hs.cameTo hmax false (by simp)
      refine hcame.found h (le_number prev) (Nat.lt_of_succ_lt hplt) (number_mod hpsn).symm
        fun hS => ?_
      have hwithin := hpart.within
      have hmaxc := hmax (number cfg.snModulus N cur)
      refine ⟨⟨number cfg.snModulus N prev, mx + 1, number cfg.snModulus N prev, cur.so - 1⟩,
        cur :: rest, ?_, hs.start, .inr ⟨rfl, by show mx + 1 ≤ cur.so - 1; omega⟩, hS, hcame.le,
        .inr (by show cur.so - 1 < _; omega), hcame.got, ?_,
        .inr ⟨pre ++ [prev], cur, rest, rfl, hlist', ?_, .inr ⟨hnum.symm, ?_⟩, ?_⟩⟩
      · rw [Span.toMissing, number_mod hpsn]
      · rintro n b ⟨hfrom, hend⟩
        have hend' : n < number cfg.snModulus N prev ∨
          (n = number cfg.snModulus N prev ∧ b ≤ cur.so - 1) := hend
        exact not_got_between h.inv.ordered h.base hlist' hs.ends hfrom (by omega)
      · intro l hl
        have hby := hs.ends l hl
        rw [EndsBy] at hby ⊢
        omega
      · show cur.so - 1 < cur.so
        omega
      · intro n b hb hafter
        have hafter' : number cfg.snModulus N prev < n ∨
          (number cfg.snModulus N prev = n ∧ cur.so - 1 < b) := hafter
        omega
    · -- a hole up to another SDU
      next hne =>
      have hnumlt : number cfg.snModulus N prev < number cfg.snModulus N cur := by
        omega
      obtain ⟨hsn, hso, hge, hlt⟩ := startAfter_sn hcfg h hprev mx lr
      have hcame := hs.cameTo hmax lr .inr
      have hc : (startAfter cfg.snModulus N prev mx lr).1 < number cfg.snModulus N cur ∨
          ((startAfter cfg.snModulus N prev mx lr).1 = number cfg.snModulus N cur ∧
            (startAfter cfg.snModulus N prev mx lr).2 < cur.so) := by
        cases lr with
        | false => exact .inl hnumlt
        | true =>
          show number cfg.snModulus N prev + 1 < _ ∨ (number cfg.snModulus N prev + 1 = _ ∧ 0 < cur.so)
          by_cases hadj : number cfg.snModulus N cur = number cfg.snModulus N prev + 1
          · refine .inr ⟨hadj.symm, ?_⟩
            by_contra hzero
            exact hjump ⟨hnext.mpr hadj, rfl, hpart.first.mpr (by omega)⟩
          · exact .inl (by omega)
      simp only [hsn, hso]
      exact hcame.found h hge hlt rfl fun hS =>
        setEndDifferentSdu_spec hcfg h hmax _ hlist' hcame hge hc hS

lemma Scanned.first (pre : List RxPdu) (hmem : cur ∈ list) (hpart : Part (D (number M N cur)) cur)
    (hends : ∀ l ∈ pre, EndsBy M N l (number M N cur) cur.so) :
    Scanned M N D list (number M N cur) cur.so pre cur (max 0 (cur.so + cur.size - 1))
      (false || cur.isLast) := by
  have hpos := hpart.pos
  have hwithin := hpart.within
  refine ⟨endsBy_concat hends (by omega) (by unfold EndsBy; omega), by omega, ?_, ?_,
    .inr ⟨rfl, by omega⟩⟩
  · rw [Bool.false_or, hpart.last]
    omega
  · intro n b hb hge hlt
    exact ⟨cur, hmem, by omega, by omega, by omega⟩

section

variable (hcfg : cfg.Legal) (h : RxState cfg D N rx) (hmax : ∀ n, (D n).length ≤ nrSduMax)
include hcfg h hmax

theorem nextMissing_spec (hlist : rx.rxList = pre ++ cur :: rest)
    (hends : ∀ l ∈ pre, EndsBy cfg.snModulus N l (number cfg.snModulus N cur) cur.so) :
    Found cfg.snModulus N D rx.rxList (reportEnd cfg N rx) (number cfg.snModulus N cur) cur.so
      (nextMissing cfg rx cur rest false) := by
  have hmem : cur ∈ rx.rxList := by
    rw [hlist]
    exact mem_append_right _ mem_cons_self
  exact nextPdu_spec hcfg h hmax _ _ rest pre cur 0 false hlist
    (Scanned.first pre hmem (h.content.part cur hmem) hends)

theorem nextMissing_head (hlist : rx.rxList = cur :: rest) :
    Found cfg.snModulus N D rx.rxList (reportEnd cfg N rx) N 0
      (nextMissing cfg rx cur rest true) := by
  have hmem : cur ∈ rx.rxList := by
    rw [hlist]
    exact mem_cons_self
  have hpart := h.content.part cur hmem
  obtain ⟨hsn, hlt⟩ := number_lt hcfg h hmem
  have hge : N ≤ number cfg.snModulus N cur := le_number cur
  have hfirst : cur.sn = rx.rxNext ↔ number cfg.snModulus N cur = N := by
    rw [h.base, ← number_mod hsn]
    exact ⟨fun heq => eq_of_mod hge (by omega) (le_refl _) (by omega) heq,
      fun heq => by rw [heq]⟩
  have hcame : CameTo cfg.snModulus N D rx.rxList N 0 [] N 0 :=
    ⟨nofun, .inr ⟨rfl, le_refl _⟩, Nat.zero_le _, fun n b hb hfrom hbefore => by omega⟩
  rw [nextMissing]
  split
  · next hhead =>
    refine hcame.found h (le_refl N) (by omega) h.base fun hS => ?_
    rw [h.base]
    refine setEndDifferentSdu_spec hcfg h hmax [] hlist hcame (le_refl N) ?_ hS
    by_cases hN : number cfg.snModulus N cur = N
    · right
      refine ⟨hN.symm, ?_⟩
      by_contra hzero
      have hf := hpart.first.mpr (by omega : cur.so = 0)
      rcases hhead.2 with hne | hnf
      · exact hne (hfirst.mpr hN)
      · rw [hf] at hnf
        cases hnf
    · left
      omega
  · next hhead =>
    have hhead' : cur.sn = rx.rxNext ∧ cur.isFirst = true := by
      by_contra hnot
      refine hhead ⟨rfl, ?_⟩
      by_cases hsn' : cur.sn = rx.rxNext
      · right
        cases hf : cur.isFirst with
        | false => rfl
        | true => exact absurd ⟨hsn', hf⟩ hnot
      · exact .inl hsn'
    have hN := hfirst.mp hhead'.1
    have hso := hpart.first.mp hhead'.2
    have hscan := Scanned.first [] hmem hpart nofun
    rw [hN, hso] at hscan
    have hspec := nextPdu_spec hcfg h hmax N 0 rest [] cur 0 false hlist
    rw [hso] at hspec
    exact hspec hscan

end

end Walk

end NrStack.Rlc.Am
