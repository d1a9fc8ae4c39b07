/-
  From the gaps of `rx_list` to the NACKs of a report.

  `generate_status` asks `next_missing` for one gap after the other and `generate_missing` writes each as
  NACKs of at most 255 SNs, until the buffer is full.  `Reported ... ps n b`: the spans `ps` written so far
  are in order, nothing of them is received, and every byte in front of (n, b) is received or in one of
  them.
-/
import NrStack.Rlc.AmReport
import NrStack.Rlc.AmCodec

namespace NrStack.Rlc.Am

open List Circular

/-! ## Spans and the NACKs they become -/

/-- The NACK of a span, as it is written. -/
def Span.wire (M : Nat) (p : Span) : WireNack := WireNack.of (p.toMissing M []) (p.ne - p.ns + 1)

/-- The NACK of a span, as it is decoded. -/
def Span.nack (M : Nat) (p : Span) : Nack :=
  { nackSn := p.ns % M
    soStart := p.bs
    soEnd := if p.be = 0xffff then -1 else p.be
    range := p.ne - p.ns + 1 }

/-- The span up to the end of its last SDU. -/
def Span.toEnd (p : Span) : Span := { p with be := 0xffff }

/-- The span ends before the other starts. -/
def Span.Ahead (p q : Span) : Prop := p.ne < q.ns ∨ (p.ne = q.ns ∧ p.be < q.bs)

/-- A span that fits a NACK, of bytes that are not there. -/
structure NackSpan (M N : Nat) (list : List RxPdu) (S : Nat) (p : Span) : Prop where
  low : N ≤ p.ns
  order : p.ns < p.ne ∨ (p.ns = p.ne ∧ p.bs ≤ p.be)
  below : p.ne < S
  short : p.ne < p.ns + 255
  bs_le : p.bs ≤ nrSduMax
  be_le : p.be = 0xffff ∨ p.be < nrSduMax
  missing : ∀ n b, p.Covers n b → ¬ Got M N list n b

/-- The spans `ps` report what is missing from (n₀, b₀) up to (n₁, b₁). -/
structure Reported (M N : Nat) (D : Nat → List UInt8) (list : List RxPdu) (S n₀ b₀ : Nat)
    (ps : List Span) (n₁ b₁ : Nat) : Prop where
  sorted : ps.Pairwise Span.Ahead
  start : ∀ p ∈ ps, n₀ < p.ns ∨ (n₀ = p.ns ∧ b₀ ≤ p.bs)
  stop : ∀ p ∈ ps, p.ne < n₁ ∨ (p.ne = n₁ ∧ p.be < b₁)
  each : ∀ p ∈ ps, NackSpan M N list S p
  clear : ∀ n b, b < (D n).length → (n₀ < n ∨ (n₀ = n ∧ b₀ ≤ b)) → (n < n₁ ∨ (n = n₁ ∧ b < b₁)) →
    Got M N list n b ∨ ∃ p ∈ ps, p.Covers n b

section Spans

variable {M N S n₀ b₀ n₁ b₁ : Nat} {D : Nat → List UInt8} {list : List RxPdu} {ps : List Span}

lemma Reported.nil : Reported M N D list S n₀ b₀ [] n₀ b₀ :=
  ⟨List.Pairwise.nil, nofun, nofun, nofun,
    fun n b _ hge hlt => by omega⟩

lemma Reported.advance (h : Reported M N D list S n₀ b₀ ps n₁ b₁) {n₂ b₂ : Nat}
    (hle : n₁ < n₂ ∨ (n₁ = n₂ ∧ b₁ ≤ b₂))
    (hgot : ∀ n b, b < (D n).length → (n₁ < n ∨ (n₁ = n ∧ b₁ ≤ b)) →
      (n < n₂ ∨ (n = n₂ ∧ b < b₂)) → Got M N list n b) :
    Reported M N D list S n₀ b₀ ps n₂ b₂ := by
  refine ⟨h.sorted, h.start, ?_, h.each, ?_⟩
  · intro p hp
    have := h.stop p hp
    omega
  · intro n b hb hge hlt
    by_cases hold : n < n₁ ∨ (n = n₁ ∧ b < b₁)
    · exact h.clear n b hb hge hold
    · exact .inl (hgot n b hb (by omega) hlt)

lemma Reported.snoc {p : Span} (h : Reported M N D list S n₀ b₀ ps p.ns p.bs)
    (hp : NackSpan M N list S p) (hstart : n₀ < p.ns ∨ (n₀ = p.ns ∧ b₀ ≤ p.bs)) {n₂ b₂ : Nat}
    (hstop : p.ne < n₂ ∨ (p.ne = n₂ ∧ p.be < b₂))
    (hcover : ∀ n b, b < (D n).length → (p.ns < n ∨ (p.ns = n ∧ p.bs ≤ b)) →
      (n < n₂ ∨ (n = n₂ ∧ b < b₂)) → p.Covers n b) :
    Reported M N D list S n₀ b₀ (ps ++ [p]) n₂ b₂ := by
  have horder := hp.order
  refine ⟨?_, ?_, ?_, ?_, ?_⟩
  · refine pairwise_append.mpr ⟨h.sorted, pairwise_singleton _ p, ?_⟩
    intro q hq q' hq'
    rw [mem_singleton.mp hq']
    exact h.stop q hq
  · intro q hq
    rcases mem_append.mp hq with hq | hq
    · exact h.start q hq
    · rw [mem_singleton.mp hq]
      exact hstart
  · intro q hq
    rcases mem_append.mp hq with hq | hq
    · have := h.stop q hq
      omega
    · rw [mem_singleton.mp hq]
      exact hstop
  · intro q hq
    rcases mem_append.mp hq with hq | hq
    · exact h.each q hq
    · rw [mem_singleton.mp hq]
      exact hp
  · intro n b hb hge hlt
    by_cases hold : n < p.ns ∨ (n = p.ns ∧ b < p.bs)
    · rcases h.clear n b hb hge hold with hgot | ⟨q, hq, hcov⟩
      · exact .inl hgot
      · exact .inr ⟨q, mem_append_left _ hq, hcov⟩
    · exact .inr ⟨p, mem_append_right _ (mem_singleton.mpr rfl),
        hcover n b hb (by omega) hlt⟩

end Spans

/-! ## `generate_missing` -/

/-- The number that ACK_SN stands for. -/
def ackNumber (N : Nat) (ps : List Span) : Nat :=
  match ps.getLast? with
  | none => N
  | some p => p.ne + 1

lemma ackNumber_concat (N : Nat) (ps : List Span) (p : Span) :
    ackNumber N (ps ++ [p]) = p.ne + 1 := by
  rw [ackNumber, getLast?_concat]

/-- The report when the spans `ps` are written and the walk stands at (n₁, b₁). -/
structure Reporting (cfg : Config) (N : Nat) (D : Nat → List UInt8) (rx : Rx) (w : StatusWriter)
    (ps : List Span) (n₁ b₁ : Nat) : Prop where
  writing : Writing cfg w (ps.map (Span.wire cfg.snModulus))
  ack : (w.lastNack + 1) % cfg.snModulus = ackNumber N ps % cfg.snModulus
  reported : Reported cfg.snModulus N D rx.rxList (reportEnd cfg N rx) N 0 ps n₁ b₁

section Generate

variable {cfg : Config} {D : Nat → List UInt8} {N : Nat} {rx : Rx} {w : StatusWriter}
  {ps : List Span} {n₁ b₁ : Nat}

lemma reportEnd_lt (h : RxState cfg D N rx) :
    N ≤ reportEnd cfg N rx ∧ reportEnd cfg N rx ≤ N + cfg.windowSize := by
  have hstatus := h.inv.status_le
  have hhighest := h.inv.highest_le
  rw [reportEnd]
  omega

lemma mod_eq_iff (hcfg : cfg.Legal) (h : RxState cfg D N rx) {a b : Nat} (ha : N ≤ a)
    (ha' : a < reportEnd cfg N rx) (hb : N ≤ b) (hb' : b < reportEnd cfg N rx) :
    a % cfg.snModulus = b % cfg.snModulus ↔ a = b := by
  have hMW := hcfg.window
  have := reportEnd_lt h
  exact ⟨fun heq => eq_of_mod ha (by omega) hb (by omega) heq, fun heq => by rw [heq]⟩

variable {p : Span}

lemma Reporting.write (hcfg : cfg.Legal) (h : RxState cfg D N rx) (n₂ b₂ : Nat)
    (hw : Reporting cfg N D rx w ps p.ns p.bs)
    (hp : NackSpan cfg.snModulus N rx.rxList (reportEnd cfg N rx) p)
    (hroom : w.encoder.byte + nackSize cfg (p.toMissing cfg.snModulus []) ≤ w.encoder.size)
    (hstop : p.ne < n₂ ∨ (p.ne = n₂ ∧ p.be < b₂))
    (hcover : ∀ n b, b < (D n).length → (p.ns < n ∨ (p.ns = n ∧ p.bs ≤ b)) →
      (n < n₂ ∨ (n = n₂ ∧ b < b₂)) → p.Covers n b) :
    ∃ w', writeNack cfg w (p.toMissing cfg.snModulus []) (p.ne - p.ns + 1) = some w' ∧
      Reporting cfg N D rx w' (ps ++ [p]) n₂ b₂ := by
  have horder := hp.order
  have hlow := hp.low
  have hbelow := hp.below
  obtain ⟨w', hwrite, hwriting, -, hlast⟩ := writeNack_writing hcfg hw.writing
    (p.toMissing cfg.snModulus []) (p.ne - p.ns + 1) hroom
  refine ⟨w', hwrite, ?_, ?_, hw.reported.snoc hp (by omega) hstop hcover⟩
  · rw [map_append]
    exact hwriting
  · have hsame : p.ns % cfg.snModulus = p.ne % cfg.snModulus ↔ p.ns = p.ne :=
      mod_eq_iff hcfg h hlow (by omega) (by omega) hbelow
    rw [ackNumber_concat, hlast]
    show (p.ns % cfg.snModulus + (if p.ns % cfg.snModulus = p.ne % cfg.snModulus then 0
      else p.ne - p.ns + 1 - 1) + 1) % cfg.snModulus = _
    have hadd : (if p.ns % cfg.snModulus = p.ne % cfg.snModulus then 0
        else p.ne - p.ns + 1 - 1) = p.ne - p.ns := by
      split
      · next heq =>
        omega
      · omega
    rw [hadd, Nat.add_assoc, Nat.mod_add_mod]
    congr 1
    omega

/-- What is left of the span `s` when the NACKs in front of `n` are written. -/
def Span.rest (s : Span) (n : Nat) : Span := ⟨n, if n = s.ns then s.bs else 0, s.ne, s.be⟩

/-- What a NACK can say of a span: 255 SDUs at most. -/
def Span.cut (s : Span) : Span :=
  if s.ne - s.ns + 1 ≤ 255 then s else ⟨s.ns, s.bs, s.ns + 254, 0xffff⟩

lemma cutRange_eq (hcfg : cfg.Legal) (h : RxState cfg D N rx) {s : Span} (next : List RxPdu)
    {n : Nat} (hlow : N ≤ s.ns) (hn : s.ns ≤ n) (hne : n ≤ s.ne)
    (hbelow : s.ne < reportEnd cfg N rx) :
    cutRange cfg (s.toMissing cfg.snModulus next) (s.ne - n + 1) (n % cfg.snModulus) =
      ((s.rest n).cut).toMissing cfg.snModulus [] := by
  have hsame : n % cfg.snModulus = s.ns % cfg.snModulus ↔ n = s.ns :=
    mod_eq_iff hcfg h (by omega) (by omega) hlow (by omega)
  have hso : (if n % cfg.snModulus = s.ns % cfg.snModulus then s.bs else 0) =
      if n = s.ns then s.bs else 0 := by simp only [hsame]
  show MissingData.mk (n % cfg.snModulus)
    (if n % cfg.snModulus = s.ns % cfg.snModulus then s.bs else 0) _ _ [] = _
  rw [hso]
  by_cases hshort : s.ne - n + 1 ≤ 255
  · rw [if_pos hshort, if_pos hshort]
    show _ = Span.toMissing _ (if s.ne - n + 1 ≤ 255 then _ else _) []
    rw [if_pos hshort]
    rfl
  · rw [if_neg hshort, if_neg hshort]
    show _ = Span.toMissing _ (if s.ne - n + 1 ≤ 255 then _ else _) []
    rw [if_neg hshort, Span.toMissing, Nat.mod_add_mod]
    rfl

/-- A span of missing bytes that `next_missing` may report. -/
structure Missing (M N : Nat) (list : List RxPdu) (S : Nat) (s : Span) : Prop where
  low : N ≤ s.ns
  order : s.ns < s.ne ∨ (s.ns = s.ne ∧ s.bs ≤ s.be)
  below : s.ne < S
  bs_le : s.bs ≤ nrSduMax
  be_le : s.be = 0xffff ∨ s.be < nrSduMax
  missing : ∀ n b, s.Covers n b → ¬ Got M N list n b

variable {M S : Nat}

lemma Missing.cut {list : List RxPdu} {s : Span} (hs : Missing M N list S s) {n : Nat}
    (hn : s.ns ≤ n) (hne : n ≤ s.ne) : NackSpan M N list S (s.rest n).cut := by
  have hlow := hs.low
  have horder := hs.order
  have hbelow := hs.below
  have hbs := hs.bs_le
  have hrest : (s.rest n).bs = if n = s.ns then s.bs else 0 := rfl
  have hbs' : (s.rest n).bs ≤ nrSduMax := by
    rw [hrest]
    split
    · exact hbs
    · exact Nat.zero_le _
  have hstart : ∀ m b, (n < m ∨ (n = m ∧ (s.rest n).bs ≤ b)) →
      s.ns < m ∨ (s.ns = m ∧ s.bs ≤ b) := by
    intro m b hm
    rw [hrest] at hm
    split at hm <;> omega
  show NackSpan M N list S (if s.ne - n + 1 ≤ 255 then _ else _)
  split
  · next hshort =>
    refine ⟨by show N ≤ n; omega, ?_, hbelow, by show s.ne < n + 255; omega, hbs', hs.be_le, ?_⟩
    · show n < s.ne ∨ (n = s.ne ∧ (s.rest n).bs ≤ s.be)
      rw [hrest]
      split <;> omega
    · rintro m b ⟨hge, hle⟩
      exact hs.missing m b ⟨hstart m b hge, hle⟩
  · next hlong =>
    refine ⟨by show N ≤ n; omega, .inl (by show n < n + 254; omega), by show n + 254 < S; omega,
      by show n + 254 < n + 255; omega, hbs', .inl rfl, ?_⟩
    rintro m b ⟨hge, hle⟩
    refine hs.missing m b ⟨hstart m b hge, .inl ?_⟩
    have hle' : m < n + 254 ∨ (m = n + 254 ∧ b ≤ 0xffff) := hle
    omega

section

variable (hcfg : cfg.Legal) (h : RxState cfg D N rx) (hmax : ∀ n, (D n).length ≤ nrSduMax)
  {s : Span} (next : List RxPdu) (hs : Missing cfg.snModulus N rx.rxList (reportEnd cfg N rx) s)
include hcfg h hmax next hs

theorem generateMissingLoop_spec (fuel : Nat) :
    ∀ (n : Nat) (w : StatusWriter) (ps : List Span), s.ns ≤ n → n ≤ s.ne → s.ne - n + 1 ≤ fuel →
      Reporting cfg N D rx w ps n (s.rest n).bs →
      ∃ w' truncated ps' n₁ b₁, generateMissingLoop cfg (s.toMissing cfg.snModulus next) fuel
          (s.ne - n + 1) (n % cfg.snModulus) w = some (w', truncated) ∧
        Reporting cfg N D rx w' ps' n₁ b₁ ∧ (truncated = false → n₁ = s.ne ∧ b₁ = s.be + 1) := by
  have hnr : nrSduMax = 16000 := rfl
  induction fuel with
  | zero =>
    intro n w ps hn hne hfuel
    omega
  | succ fuel ih =>
    intro n w ps hn hne hfuel hw
    have hp := hs.cut hn hne
    rw [generateMissingLoop, if_neg (by omega), cutRange_eq hcfg h next hs.low hn hne hs.below]
    split
    · exact ⟨w, true, ps, n, _, rfl, hw, nofun⟩
    next hroom =>
    by_cases hshort : s.ne - n + 1 ≤ 255
    · -- the last piece
      have hcut : (s.rest n).cut = s.rest n := if_pos hshort
      rw [hcut] at hp hroom ⊢
      obtain ⟨w', hwrite, hw'⟩ := Reporting.write hcfg h s.ne (s.be + 1)
        hw hp (by omega) (.inr ⟨rfl, Nat.lt_succ_self _⟩) (by
          intro m b _ hge hlt
          refine ⟨hge, ?_⟩
          show m < s.ne ∨ (m = s.ne ∧ b ≤ s.be)
          omega)
      refine ⟨w', false, _, _, _, ?_, hw', fun _ => ⟨rfl, rfl⟩⟩
      have hcount : (s.rest n).ne - (s.rest n).ns + 1 = min (s.ne - n + 1) 255 := by
        show s.ne - n + 1 = _
        omega
      rw [← hcount, hwrite, Option.bind_some]
      show generateMissingLoop _ _ fuel (s.ne - n + 1 - (s.ne - n + 1)) _ _ = _
      rw [Nat.sub_self]
      cases fuel <;> rfl
    · -- 255 SNs, and the rest
      have hcut : (s.rest n).cut = ⟨n, (s.rest n).bs, n + 254, 0xffff⟩ := if_neg hshort
      rw [hcut] at hp hroom ⊢
      obtain ⟨w', hwrite, hw'⟩ := Reporting.write hcfg h (n + 255) 0
        hw hp (by omega)
        (.inl (by show n + 254 < n + 255; omega)) (by
          intro m b hb hge hlt
          refine ⟨hge, ?_⟩
          show m < n + 254 ∨ (m = n + 254 ∧ b ≤ 0xffff)
          have := hmax m
          omega)
      have hrest : (s.rest (n + 255)).bs = 0 := if_neg (by omega)
      obtain ⟨w'', truncated, ps', n₁, b₁, hloop, hfinal⟩ := ih (n + 255) w' _ (by omega) (by omega)
        (by omega) (by rw [hrest]; exact hw')
      refine ⟨w'', truncated, ps', n₁, b₁, ?_, hfinal⟩
      have hcount : n + 254 - n + 1 = min (s.ne - n + 1) 255 := by omega
      have hmin : min (s.ne - n + 1) 255 = 255 := by omega
      rw [← hcount]
      rw [hwrite, Option.bind_some, hcount, hmin, Nat.mod_add_mod,
        show s.ne - n + 1 - 255 = s.ne - (n + 255) + 1 by omega]
      exact hloop

theorem generateMissing_spec (hw : Reporting cfg N D rx w ps s.ns s.bs) :
    ∃ w' truncated ps' n₁ b₁,
      generateMissing cfg (s.toMissing cfg.snModulus next) w = some (w', truncated) ∧
        Reporting cfg N D rx w' ps' n₁ b₁ ∧ (truncated = false → n₁ = s.ne ∧ b₁ = s.be + 1) := by
  have hMW := hcfg.window
  have hend := reportEnd_lt h
  have hlow := hs.low
  have hbelow := hs.below
  have horder := hs.order
  have hcount : (s.toMissing cfg.snModulus next).snCount cfg = s.ne - s.ns + 1 := by
    show (s.ne % cfg.snModulus + cfg.snModulus - s.ns % cfg.snModulus) % cfg.snModulus + 1 = _
    have hM : 0 < cfg.snModulus := by omega
    rw [add_sub_mod (Nat.mod_lt _ hM) (Nat.mod_lt _ hM), dist_mod hM (by omega) (by omega)]
  rw [generateMissing, hcount]
  exact generateMissingLoop_spec hcfg h hmax next hs _ s.ns w ps (le_refl _) (by omega)
    (le_refl _) (by rw [show (s.rest s.ns).bs = s.bs from if_pos rfl]; exact hw)

end

/-! ## `generate_status` -/

lemma setEndDifferentSdu_next (snStart soStart : Nat) (cur : RxPdu) (rest : List RxPdu) :
    (setEndDifferentSdu cfg rx snStart soStart cur rest).next.length ≤ rest.length + 1 := by
  simp only [setEndDifferentSdu]
  split_ifs
  all_goals first | exact Nat.zero_le _ | exact le_refl _

variable {rest : List RxPdu}

lemma nextPdu_next : ∀ {prev : RxPdu} {maxSo : Nat} {lastReached : Bool}
    {m : MissingData}, nextPdu cfg rx prev rest maxSo lastReached = some m →
      m.next.length ≤ rest.length := by
  induction rest with
  | nil =>
    intro prev maxSo lastReached m hm
    simp only [nextPdu, Option.ite_none_left_eq_some, Option.some.injEq] at hm
    rw [← hm.2, length_nil]
  | cons cur rest ih =>
    intro prev maxSo lastReached m hm
    simp only [nextPdu] at hm
    split at hm
    · exact Nat.le_succ_of_le (ih hm)
    split at hm
    · exact Nat.le_succ_of_le (ih hm)
    split at hm
    · obtain ⟨-, hm⟩ := Option.ite_none_left_eq_some.mp hm
      rw [← Option.some.inj hm]
    · obtain ⟨-, hm⟩ := Option.ite_none_left_eq_some.mp hm
      rw [← Option.some.inj hm]
      exact setEndDifferentSdu_next _ _ cur rest

lemma nextMissing_next {cur : RxPdu} {checkHead : Bool} {m : MissingData}
    (hm : nextMissing cfg rx cur rest checkHead = some m) :
    m.next.length ≤ rest.length + checkHead.toNat := by
  rw [nextMissing] at hm
  split at hm
  · next hhead =>
    obtain ⟨-, hm⟩ := Option.ite_none_left_eq_some.mp hm
    rw [hhead.1, ← Option.some.inj hm]
    exact setEndDifferentSdu_next _ _ cur rest
  · exact Nat.le_add_right_of_le (nextPdu_next hm)

lemma Gap.missingSpan {n₀ b₀ : Nat} {list next : List RxPdu} {s : Span}
    (h : Gap M N D list S n₀ b₀ s next) (hn₀ : N ≤ n₀) : Missing M N list S s := by
  have := h.start
  exact { h with low := by omega }

/-- What a turn of the loop starts from: a list entry right at the position of the walk, or the head
of the list. -/
def AtEntry (cfg : Config) (N : Nat) (rx : Rx) (cur : RxPdu) (rest : List RxPdu) (checkHead : Bool)
    (n₁ b₁ : Nat) : Prop :=
  (checkHead = true ∧ rx.rxList = cur :: rest ∧ n₁ = N ∧ b₁ = 0) ∨
  (checkHead = false ∧ n₁ = number cfg.snModulus N cur ∧ b₁ = cur.so ∧
    ∃ pre, rx.rxList = pre ++ cur :: rest ∧
      ∀ l ∈ pre, EndsBy cfg.snModulus N l (number cfg.snModulus N cur) cur.so)

section

variable (hcfg : cfg.Legal) (h : RxState cfg D N rx) (hmax : ∀ n, (D n).length ≤ nrSduMax)
include hcfg h hmax

lemma AtEntry.found {cur : RxPdu} {rest : List RxPdu} {checkHead : Bool}
    (hat : AtEntry cfg N rx cur rest checkHead n₁ b₁) :
    Found cfg.snModulus N D rx.rxList (reportEnd cfg N rx) n₁ b₁
      (nextMissing cfg rx cur rest checkHead) := by
  rcases hat with ⟨rfl, hlist, rfl, rfl⟩ | ⟨rfl, rfl, rfl, pre, hlist, hends⟩
  · exact nextMissing_head hcfg h hmax hlist
  · exact nextMissing_spec hcfg h hmax hlist hends

theorem statusLoop_spec (fuel : Nat) :
    ∀ (cur : RxPdu) (rest : List RxPdu) (checkHead : Bool) (w : StatusWriter) (ps : List Span)
      (n₁ b₁ : Nat), rest.length + checkHead.toNat < fuel → N ≤ n₁ →
      AtEntry cfg N rx cur rest checkHead n₁ b₁ → Reporting cfg N D rx w ps n₁ b₁ →
      ∃ w' ps' n₂ b₂, Reporting cfg N D rx w' ps' n₂ b₂ ∧
        ((statusLoop cfg rx fuel (cur :: rest) checkHead w = some (w', false) ∧
            reportEnd cfg N rx ≤ n₂) ∨
          statusLoop cfg rx fuel (cur :: rest) checkHead w = some (patchSoEnd w', true)) := by
  have hnr : nrSduMax = 16000 := rfl
  induction fuel with
  | zero =>
    intro cur rest checkHead w ps n₁ b₁ hfuel
    omega
  | succ fuel ih =>
    intro cur rest checkHead w ps n₁ b₁ hfuel hn₁ hat hw
    have hfound := hat.found hcfg h hmax
    rw [statusLoop]
    cases hm : nextMissing cfg rx cur rest checkHead with
    | none =>
      -- all that is left is there
      rw [hm] at hfound
      rcases lt_or_ge n₁ (reportEnd cfg N rx) with hlt | hge
      · refine ⟨w, ps, reportEnd cfg N rx, 0, ⟨hw.writing, hw.ack, ?_⟩,
          .inl ⟨rfl, le_refl _⟩⟩
        exact hw.reported.advance (.inl hlt) fun n b hb hfrom hto => hfound n b hb hfrom (by omega)
      · exact ⟨w, ps, n₁, b₁, hw, .inl ⟨rfl, hge⟩⟩
    | some m =>
      have hshorter := nextMissing_next hm
      rw [hm] at hfound
      obtain ⟨s, next, rfl, hgap⟩ := hfound
      have hs := hgap.missingSpan hn₁
      obtain ⟨w', truncated, ps', n₂, b₂, hgen, hw', hdone⟩ := generateMissing_spec hcfg h hmax next hs
        ⟨hw.writing, hw.ack, hw.reported.advance hgap.start hgap.got⟩
      simp only [hgen, Option.bind_some]
      cases truncated with
      | true => exact ⟨w', ps', n₂, b₂, hw', .inr rfl⟩
      | false =>
        obtain ⟨rfl, rfl⟩ := hdone rfl
        rcases hgap.resume with ⟨rfl, hS, hbe⟩ | ⟨pre, c, rest', rfl, hlist, hends, hbehind, hskip⟩
        · refine ⟨w', ps', reportEnd cfg N rx, 0, ⟨hw'.writing, hw'.ack, ?_⟩,
            .inl ⟨by cases fuel <;> rfl, le_refl _⟩⟩
          apply hw'.reported.advance (.inl (by omega))
          intro n b hb hfrom hto
          have := hmax n
          omega
        · refine ih c rest' false w' ps' (number cfg.snModulus N c) c.so ?_ (le_number c)
            (.inr ⟨rfl, rfl, rfl, pre, hlist, hends⟩) ⟨hw'.writing, hw'.ack, ?_⟩
          · have hlen : (c :: rest').length ≤ rest.length + checkHead.toNat := hshorter
            rw [length_cons] at hlen
            show rest'.length + 0 < fuel
            omega
          · refine hw'.reported.advance (by omega) ?_
            intro n b hb hfrom hto
            have := hskip n b hb (by omega)
            omega

theorem statusWritten_spec {buffer : List UInt8} (hsize : 3 ≤ buffer.length) :
    ∃ w ps n₁ b₁, Reporting cfg N D rx w ps n₁ b₁ ∧
      ((statusWritten cfg rx buffer = some (w, false) ∧ reportEnd cfg N rx ≤ n₁) ∨
        statusWritten cfg rx buffer = some (patchSoEnd w, true)) := by
  have hMW := hcfg.window
  have hW := hcfg.windowSize_ge
  obtain ⟨encoder, hput, hwriting, -⟩ := Writing.start hcfg rx buffer hsize
  have hstart : Reporting cfg N D rx (statusHeader cfg rx encoder) [] N 0 := by
    refine ⟨hwriting, ?_, Reported.nil⟩
    show (snBefore cfg rx.rxNext + 1) % cfg.snModulus = N % cfg.snModulus
    rw [snBefore, Nat.mod_add_mod, Nat.sub_add_cancel (by omega), Nat.add_mod_right, h.base,
      Nat.mod_mod]
  rw [statusWritten, hput, Option.bind_some]
  cases hlist : rx.rxList with
  | nil =>
    -- nothing is there, and nothing is due
    refine ⟨_, [], N, 0, hstart, .inl ⟨rfl, ?_⟩⟩
    have hstatus := h.inv.status_le
    rcases h.inv.top with hnext | ⟨l, hl, -⟩
    · rw [hnext, modulusRx, modulusRx, dist_self] at hstatus
      rw [reportEnd, modulusRx]
      omega
    · rw [hlist] at hl
      cases hl
  | cons cur rest =>
    exact statusLoop_spec hcfg h hmax _ cur rest true _ [] N 0
      (by rw [length_cons]; exact Nat.lt_succ_self _) (le_refl N)
      (.inl ⟨rfl, hlist, rfl, rfl⟩) hstart

end

/-! ## The report as it is read -/

/-- The last span goes to the end of its SDU. -/
def endLast : List Span → List Span
  | [] => []
  | [p] => [p.toEnd]
  | p :: q :: ps => p :: endLast (q :: ps)

lemma endLast_concat (ps : List Span) (p : Span) : endLast (ps ++ [p]) = ps ++ [p.toEnd] := by
  induction ps with
  | nil => rfl
  | cons x ps ih =>
    cases ps with
    | nil => rfl
    | cons y ps => exact congrArg (x :: ·) ih

/-- The spans of a report. -/
def reportSpans (truncated : Bool) (ps : List Span) : List Span :=
  if truncated then endLast ps else ps

lemma toNack_wire (hsame : p.ns % M = p.ne % M ↔ p.ns = p.ne) :
    (p.wire M).toNack = p.nack M ∧
      ({ p.wire M with soEnd := 0xffff } : WireNack).toNack = p.toEnd.nack M := by
  have hrange : (if (p.ns % M != p.ne % M) = true then p.ne - p.ns + 1 else 1) = p.ne - p.ns + 1 := by
    split
    · rfl
    · next heq =>
      have := hsame.mp (by simpa using heq)
      omega
  have hwhole : (p.toMissing M []).whole = true ↔ p.bs = 0 ∧ p.be = 0xffff := by
    rw [MissingData.whole, Bool.and_eq_true, beq_iff_eq, beq_iff_eq]
    rfl
  have hstart : (if (!(p.toMissing M []).whole) = true then p.bs else 0) = p.bs := by
    cases hw : (p.toMissing M []).whole with
    | false => rfl
    | true => exact (hwhole.mp hw).1.symm
  constructor
  · have hend : (if (!(p.toMissing M []).whole) = false ∨ p.be = 0xffff then (-1 : Int) else p.be) =
        if p.be = 0xffff then (-1 : Int) else p.be := by
      cases hw : (p.toMissing M []).whole with
      | false => simp
      | true => simp [(hwhole.mp hw).2]
    show Nack.mk (p.ns % M) (if (!(p.toMissing M []).whole) = true then p.bs else 0)
      (if (!(p.toMissing M []).whole) = false ∨ p.be = 0xffff then -1 else p.be)
      (if (p.ns % M != p.ne % M) = true then p.ne - p.ns + 1 else 1) = _
    rw [hrange, hstart, hend]
    rfl
  · have hend : ({ p.wire M with soEnd := 0xffff } : WireNack).toNack.soEnd = -1 :=
      if_pos (.inr rfl)
    show Nack.mk (p.ns % M) (if (!(p.toMissing M []).whole) = true then p.bs else 0)
      ({ p.wire M with soEnd := 0xffff } : WireNack).toNack.soEnd
      (if (p.ns % M != p.ne % M) = true then p.ne - p.ns + 1 else 1) = _
    rw [hrange, hstart, hend]
    rfl

lemma NackSpan.fits (hcfg : cfg.Legal)
    (hp : NackSpan cfg.snModulus N rx.rxList S p) {se : Nat} (hse : se < 2 ^ 16) :
    ({ p.wire cfg.snModulus with soEnd := se } : WireNack).Fits cfg.snFieldLength := by
  have hnr : nrSduMax = 16000 := rfl
  have hMW := hcfg.window
  have hW := hcfg.windowSize_ge
  have hbs := hp.bs_le
  have hshort := hp.short
  refine ⟨?_, ?_, hse, ?_⟩
  · show p.ns % cfg.snModulus < _
    rw [← hcfg.modulus]
    exact Nat.mod_lt _ (by omega)
  · show p.bs < _
    omega
  · show p.ne - p.ns + 1 < _
    omega

variable {buffer : List UInt8}

lemma putAckSn_take {k : Nat} (ackSn : Nat) (hk : 3 ≤ k) :
    (putAckSn cfg buffer ackSn).take k = putAckSn cfg (buffer.take k) ackSn := by
  rw [putAckSn, putAckSn]
  split
  · rw [take_set, take_set]
  · rw [orByte_take _ (by omega), take_set, take_set]

lemma readStatus_written (hcfg : cfg.Legal) {e : PduEncoder} {ackSn : Nat} {ns : List WireNack}
    (hack : ackSn < cfg.snModulus) (hns : ∀ n ∈ ns, n.Fits cfg.snFieldLength)
    (hwrote : e.Wrote (statusBits cfg.snFieldLength 0 ns false)) :
    readStatus cfg ((putAckSn cfg e.buffer ackSn).take e.byte) =
      .ok ⟨ackSn, ns.map WireNack.toNack⟩ := by
  obtain ⟨hbyte, hstream⟩ := hwrote.bytes (length_statusBits hcfg.length 0 ns false)
  apply readStatus_statusBits hcfg hack hns
  rw [hbyte, putAckSn_take _ (by rw [statusLength]; omega)]
  exact stream_putAckSn hcfg hack hstream

theorem statusBytes_spec (hcfg : cfg.Legal) (h : RxState cfg D N rx)
    (hmax : ∀ n, (D n).length ≤ nrSduMax) (hsize : 3 ≤ buffer.length) :
    ∃ pdu w truncated ps n₁ b₁, statusBytes cfg rx buffer = some pdu ∧
      statusWritten cfg rx buffer = some (w, truncated) ∧
      readStatus cfg pdu = .ok ⟨ackNumber N ps % cfg.snModulus,
        (reportSpans truncated ps).map (Span.nack cfg.snModulus)⟩ ∧
      Reported cfg.snModulus N D rx.rxList (reportEnd cfg N rx) N 0 ps n₁ b₁ ∧
      (truncated = false → reportEnd cfg N rx ≤ n₁) := by
  have hMW := hcfg.window
  have hW := hcfg.windowSize_ge
  have hM : 0 < cfg.snModulus := by omega
  obtain ⟨w, ps, n₁, b₁, hw, hwritten⟩ := statusWritten_spec hcfg h hmax hsize
  have hsame : ∀ p ∈ ps, (p.ns % cfg.snModulus = p.ne % cfg.snModulus ↔ p.ns = p.ne) := by
    intro p hp
    have hspan := hw.reported.each p hp
    have hlow := hspan.low
    have horder := hspan.order
    have hbelow := hspan.below
    exact mod_eq_iff hcfg h hlow (by omega) (by omega) hbelow
  have hfits : ∀ p ∈ ps, (p.wire cfg.snModulus).Fits cfg.snFieldLength := by
    intro p hp
    have hspan := hw.reported.each p hp
    have hbe : p.be < 2 ^ 16 := by
      have hnr : nrSduMax = 16000 := rfl
      rcases hspan.be_le with hbe | hbe <;> omega
    exact hspan.fits hcfg hbe
  rcases hwritten with ⟨heq, hend⟩ | heq
  · refine ⟨_, w, false, ps, n₁, b₁, by rw [statusBytes, heq]; rfl, heq, ?_, hw.reported,
      fun _ => hend⟩
    show readStatus cfg ((putAckSn cfg w.encoder.buffer
      ((w.lastNack + 1) % cfg.snModulus)).take _) = .ok ⟨_, ps.map _⟩
    rw [hw.ack, readStatus_written hcfg (Nat.mod_lt _ hM) (by
      intro n hn
      obtain ⟨p, hp, rfl⟩ := mem_map.mp hn
      exact hfits p hp) hw.writing.wrote, map_map]
    congr 2
    exact map_congr_left fun p hp => (toNack_wire (hsame p hp)).1
  · obtain ⟨hwrote, hlast⟩ := patchSoEnd_wrote hcfg hw.writing
    refine ⟨_, patchSoEnd w, true, ps, n₁, b₁, by rw [statusBytes, heq]; rfl, heq, ?_, hw.reported,
      nofun⟩
    show readStatus cfg ((putAckSn cfg (patchSoEnd w).encoder.buffer
      (((patchSoEnd w).lastNack + 1) % cfg.snModulus)).take _) = .ok ⟨_, (endLast ps).map _⟩
    rw [hlast, hw.ack]
    rcases eq_nil_or_concat ps with rfl | ⟨ps', p, hps⟩
    · have hnone : ∀ n ∈ ([] : List WireNack), n.Fits cfg.snFieldLength := nofun
      exact readStatus_written hcfg (Nat.mod_lt _ hM) hnone hwrote
    · rw [concat_eq_append] at hps
      subst hps
      have hpmem : p ∈ ps' ++ [p] := mem_append_right _ (mem_singleton.mpr rfl)
      rw [map_append, map_singleton, patchLast_concat] at hwrote
      rw [readStatus_written hcfg (Nat.mod_lt _ hM) (by
        intro n hn
        rcases mem_append.mp hn with hn | hn
        · obtain ⟨q, hq, rfl⟩ := mem_map.mp hn
          exact hfits q (mem_append_left _ hq)
        · rw [mem_singleton.mp hn]
          exact (hw.reported.each p hpmem).fits hcfg (by decide)) hwrote, endLast_concat,
        map_append, map_append, map_map, map_singleton, map_singleton,
        (toNack_wire (hsame p hpmem)).2]
      congr 3
      exact map_congr_left fun q hq => (toNack_wire (hsame q (mem_append_left _ hq))).1

end Generate

end NrStack.Rlc.Am
