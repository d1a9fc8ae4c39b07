/-
  UM over a lossless channel: the receiver delivers exactly what was generated.

  Sender, channel and receiver are tied together by positions in the stream of accepted bytes: the
  channel is a `Path` of hops from the receiver's position to the sender's.  Generating a PDU appends
  a hop, receiving one consumes a hop, and everything else leaves the positions where they are.
-/
import NrStack.Lib.Machine
import NrStack.Rlc.UmTransmit

namespace NrStack.Rlc.Um

open List

/-! ## The channel between them -/

/-- PDUs that lead from one position in the stream of SDUs to another. -/
inductive Path (cfg : Config) (D : Nat → List UInt8) (n : Nat) : Pos → List (List UInt8) → Pos → Prop
  | done (p : Pos) : Path cfg D n p [] p
  | hop {p q : Pos} {k : Nat} {pdu : List UInt8} {rest : List (List UInt8)} : p.sdu < n →
      Hop cfg D p k pdu → Path cfg D n (p.advance D k) rest q → Path cfg D n p (pdu :: rest) q

namespace Path

variable {cfg : Config} {D D' : Nat → List UInt8} {n n' : Nat} {p q : Pos} {ch : List (List UInt8)}

lemma concat {k : Nat} {pdu : List UInt8} (h : Path cfg D n p ch q) (hq : q.sdu < n)
    (hop : Hop cfg D q k pdu) : Path cfg D n p (ch ++ [pdu]) (q.advance D k) := by
  induction h with
  | done p => exact .hop hq hop (.done _)
  | hop hp hop' _ ih => exact .hop hp hop' (ih hq hop)

lemma mono (h : Path cfg D n p ch q) (hn : n ≤ n') (hD : ∀ i < n, D' i = D i) :
    Path cfg D' n' p ch q := by
  induction h with
  | done p => exact .done p
  | @hop p q k pdu rest hp hop' _ ih =>
    have hDp := hD p.sdu hp
    have hop'' : Hop cfg D' p k pdu := by
      obtain ⟨hpos, hwithin, hsmall, henc⟩ := hop'
      rw [← hDp] at hwithin hsmall henc
      exact ⟨hpos, hwithin, hsmall, henc⟩
    have hadv : p.advance D' k = p.advance D k := by rw [Pos.advance, Pos.advance, hDp]
    exact .hop (by omega) hop'' (by rw [hadv]; exact ih)

lemma sdu_le (h : Path cfg D n p ch q) : p.sdu ≤ q.sdu := by
  induction h with
  | done p => exact le_refl _
  | @hop p q k pdu rest _ _ _ ih =>
    refine le_trans ?_ ih
    unfold Pos.advance
    split
    · exact Nat.le_succ _
    · exact le_refl _

lemma eq_of_sdu_eq (h : Path cfg D n p ch q) (heq : p.sdu = n) : p = q := by
  cases h with
  | done => rfl
  | hop hlt _ _ => omega

end Path

/-- A sender and a receiver joined by a channel that keeps every PDU and their order. -/
structure Link where
  tx : Entity
  rx : Entity
  channel : List (List UInt8)

/-- An SDU comes in, a PDU is generated into any buffer, the next PDU arrives, time passes on either
side. -/
inductive LinkOp
  | recvSdu (buffer : List UInt8) (sduId : Int)
  | generatePdu (buffer : List UInt8)
  | recvPdu
  | setTimeTx (now : UInt64)
  | setTimeRx (now : UInt64)

namespace Link

/-- One step of the link. -/
def step (s : Link) : LinkOp → Option Link
  | .recvSdu buffer sduId => (Um.recvSdu s.tx buffer sduId).map fun tx => { s with tx := tx }
  | .generatePdu buffer =>
    (Um.generatePdu s.tx buffer).map fun p => { s with tx := p.1, channel := s.channel ++ p.2.toList }
  | .recvPdu =>
    match s.channel with
    | [] => some s
    | pdu :: rest => (Um.recvPdu s.rx pdu).map fun rx => { s with rx := rx, channel := rest }
  | .setTimeTx now => (setTime s.tx now).map fun tx => { s with tx := tx }
  | .setTimeRx now => (setTime s.rx now).map fun rx => { s with rx := rx }

/-- Two fresh entities with the same SN field length; the receiver can hold an SDU. -/
def Start (s : Link) : Prop :=
  ∃ snFieldLength rxMaxsizeTx rxMaxsizeRx txMaxsizeTx txMaxsizeRx tReassemblyTx tReassemblyRx,
    newNrRlcEntityUm rxMaxsizeTx txMaxsizeTx tReassemblyTx snFieldLength = some s.tx ∧
      newNrRlcEntityUm rxMaxsizeRx txMaxsizeRx tReassemblyRx snFieldLength = some s.rx ∧
      (nrSduMax : Int) ≤ rxMaxsizeRx ∧ s.channel = []

/-- SDUs have 1 to `NR_SDU_MAX` bytes, buffers have at least 5. -/
def Guard : LinkOp → Prop
  | .recvSdu buffer _ => 1 ≤ buffer.length ∧ buffer.length ≤ nrSduMax
  | .generatePdu buffer => 5 ≤ buffer.length
  | _ => True

instance : ∀ op, Decidable (Guard op)
  | .recvSdu _ _ => inferInstanceAs (Decidable (_ ∧ _))
  | .generatePdu _ => inferInstanceAs (Decidable (_ ≤ _))
  | .recvPdu => isTrue trivial
  | .setTimeTx _ => isTrue trivial
  | .setTimeRx _ => isTrue trivial

/-- The accepted SDUs none of whose bytes are left in `tx_list`, in order, as buffers of bytes. -/
def generated (s : Link) : List (List (Option UInt8)) :=
  ((List.range s.tx.tx.heap.count).filter fun h => s.tx.tx.txList.all fun seg => seg.sdu ≠ h).map
    fun h => (s.tx.tx.heap.data h).map some

end Link

/-- Any steps, from two new entities. -/
def linkMachine : Machine.Spec Link LinkOp where
  init := Link.Start
  guard := fun _ op => Link.Guard op
  step := Link.step

instance (s : Link) (op : LinkOp) : Decidable (linkMachine.guard s op) :=
  inferInstanceAs (Decidable (Link.Guard op))

/-- **The link invariant**: the channel leads from the receiver's position to the sender's. -/
structure LinkInv (s : Link) : Prop where
  legal : s.tx.cfg.Legal
  same : s.rx.cfg.snFieldLength = s.tx.cfg.snFieldLength ∧
    s.rx.cfg.snModulus = s.tx.cfg.snModulus ∧ s.rx.cfg.windowSize = s.tx.cfg.windowSize
  room : (nrSduMax : Int) ≤ s.rx.cfg.rxMaxsize
  timer : s.tx.rx.tReassemblyStart = 0
  link : ∃ p q, RxAt s.rx.cfg s.tx.tx.heap.data s.rx.rx p ∧ TxAt s.tx.cfg s.tx.tx q ∧
    Path s.rx.cfg s.tx.tx.heap.data s.tx.tx.heap.count p s.channel q

lemma RxAt.mono {cfg : Config} {D D' : Nat → List UInt8} {rx : Rx} {p : Pos} {n : Nat}
    (h : RxAt cfg D rx p) (hle : p.sdu ≤ n) (hidle : p.sdu = n → p.off = 0)
    (hD : ∀ i < n, D' i = D i) : RxAt cfg D' rx p := by
  obtain ⟨old, cur, hlist, hs⟩ := h.list
  refine ⟨?_, h.timer, h.reassembly, h.highest, h.size, old, cur, hlist, ?_⟩
  · rw [h.delivered]
    refine map_congr_left fun i hi => ?_
    rw [hD i (by have := mem_range.mp hi; omega)]
  · refine ⟨hs.stale, hs.window, hs.sorted, hs.sn, ?_, hs.offsets, hs.covers, hs.total⟩
    rcases Nat.lt_or_eq_of_le hle with hlt | heq
    · rw [hD p.sdu hlt]
      exact hs.piece
    · rw [hs.cur_nil (hidle heq)]
      exact nofun

lemma Hop.of_cfg {cfg cfg' : Config} {D : Nat → List UInt8} {p : Pos} {k : Nat}
    {pdu : List UInt8} (h : Hop cfg D p k pdu) (hlen : cfg'.snFieldLength = cfg.snFieldLength)
    (hmod : cfg'.snModulus = cfg.snModulus) : Hop cfg' D p k pdu := by
  obtain ⟨hpos, hwithin, hsmall, henc⟩ := h
  rw [← hlen, ← hmod] at henc
  exact ⟨hpos, hwithin, hsmall, henc⟩

lemma newNrRlcEntityUm_legal {rxMaxsize txMaxsize tReassembly : Int} {snFieldLength : Nat}
    {e : Entity} (h : newNrRlcEntityUm rxMaxsize txMaxsize tReassembly snFieldLength = some e) :
    e.cfg.Legal ∧ e.cfg.snFieldLength = snFieldLength ∧ e.cfg.rxMaxsize = rxMaxsize ∧
      e.rx = ⟨0, 0, 0, 0, [], 0, []⟩ ∧ e.tx = ⟨0, Heap.empty, [], none, 0, 0⟩ := by
  unfold newNrRlcEntityUm at h
  split at h
  · next hlen =>
    cases h
    refine ⟨⟨hlen, ?_, ?_⟩, rfl, rfl, rfl, rfl⟩
    · show 1 <<< snFieldLength = 2 ^ snFieldLength
      rw [Nat.shiftLeft_eq, Nat.one_mul]
    · show 1 <<< snFieldLength = 2 * (1 <<< snFieldLength / 2)
      rcases hlen with rfl | rfl <;> rfl
  · cases h

lemma Config.Legal.of_length {cfg cfg' : Config} (h : cfg.Legal) (h' : cfg'.Legal)
    (hlen : cfg'.snFieldLength = cfg.snFieldLength) :
    cfg'.snModulus = cfg.snModulus ∧ cfg'.windowSize = cfg.windowSize := by
  have hm : cfg'.snModulus = cfg.snModulus := by rw [h'.modulus, h.modulus, hlen]
  have hw := h.window
  have hw' := h'.window
  exact ⟨hm, by omega⟩

variable {s : Link}

lemma linkInv_start (h : s.Start) : LinkInv s := by
  obtain ⟨L, rxT, rxR, txT, txR, tT, tR, htx, hrx, hroom, hch⟩ := h
  obtain ⟨hlegal, hlen, -, hrx₀, htx₀⟩ := newNrRlcEntityUm_legal htx
  obtain ⟨hlegal', hlen', hmax, hrx₁, -⟩ := newNrRlcEntityUm_legal hrx
  have hsame : s.rx.cfg.snFieldLength = s.tx.cfg.snFieldLength := hlen'.trans hlen.symm
  refine ⟨hlegal, ⟨hsame, hlegal.of_length hlegal' hsame⟩, by rw [hmax]; exact hroom,
    by rw [hrx₀], ⟨0, 0, 0⟩, ⟨0, 0, 0⟩, ?_, ?_, by rw [hch]; exact .done _⟩
  · rw [hrx₁]
    refine ⟨rfl, rfl, (Nat.zero_mod _).symm, (Nat.zero_mod _).symm, rfl, [], [], rfl, ?_⟩
    refine ⟨nofun, nofun, .nil, nofun,
      nofun, .nil, ?_, rfl⟩
    intro b
    constructor
    · intro hb
      exact absurd hb (Nat.not_lt_zero b)
    · rintro ⟨l, hl, -⟩
      cases hl
  · rw [htx₀]
    exact ⟨le_refl _, fun h hh => absurd hh (Nat.not_lt_zero h), fun _ => rfl,
      fun hlt => absurd hlt (lt_irrefl 0), rfl, rfl, (Nat.zero_mod _).symm⟩

/-- Every step of the link returns and keeps the invariant. -/
theorem linkInv_step {op : LinkOp} (h : LinkInv s) (hg : Link.Guard op) :
    ∃ s', s.step op = some s' ∧ LinkInv s' := by
  obtain ⟨p, q, hrx, htx, hpath⟩ := h.link
  have hcfg : s.rx.cfg.Legal := by
    refine ⟨by rw [h.same.1]; exact h.legal.length, ?_, ?_⟩
    · rw [h.same.2.1, h.same.1]
      exact h.legal.modulus
    · rw [h.same.2.1, h.same.2.2]
      exact h.legal.window
  cases op with
  | recvSdu buffer sduId =>
    obtain ⟨tx', hstep, htx', hcount, hD⟩ := recvSdu_at htx hg.1 hg.2 sduId
    refine ⟨{ s with tx := { s.tx with tx := tx' } }, ?_, h.legal, h.same, h.room, h.timer, p, q, ?_,
      htx', hpath.mono hcount hD⟩
    · rw [Link.step, hstep]
      rfl
    · -- a receiver that has caught up with everything accepted is between two SDUs
      refine hrx.mono (le_trans hpath.sdu_le htx.le) ?_ hD
      intro heq
      have hpq := hpath.eq_of_sdu_eq heq
      rw [hpq] at heq ⊢
      exact htx.idle heq
  | generatePdu buffer =>
    rcases generateTxPdu_hop h.legal htx hg with hnone | ⟨tx', pdu, k, hsome, hlt, hop, htx', hc, hD⟩
    · refine ⟨s, ?_, h⟩
      rw [Link.step, generatePdu, hnone]
      show some { s with tx := s.tx, channel := s.channel ++ [] } = some s
      rw [append_nil]
    · refine ⟨{ s with tx := { s.tx with tx := tx' }, channel := s.channel ++ [pdu] }, ?_, h.legal,
        h.same, h.room, h.timer, p, q.advance s.tx.tx.heap.data k, ?_, htx', ?_⟩
      · rw [Link.step, generatePdu, hsome]
        rfl
      · show RxAt s.rx.cfg tx'.heap.data s.rx.rx p
        rw [hD]
        exact hrx
      · show Path s.rx.cfg tx'.heap.data tx'.heap.count p (s.channel ++ [pdu]) _
        rw [hD, hc]
        exact hpath.concat hlt (hop.of_cfg h.same.1 h.same.2.1)
  | recvPdu =>
    cases hch : s.channel with
    | nil =>
      refine ⟨s, ?_, h⟩
      rw [Link.step, hch]
    | cons pdu rest =>
      rw [hch] at hpath
      cases hpath with
      | hop hlt hop hrest =>
        obtain ⟨rx', hstep, hat⟩ := recvPdu_hop hcfg h.room hrx hop
        refine ⟨{ s with rx := { s.rx with rx := rx' }, channel := rest }, ?_, h.legal, h.same,
          h.room, h.timer, _, q, hat, htx, hrest⟩
        rw [Link.step, hch]
        show (Um.recvPdu s.rx pdu).map _ = _
        rw [hstep]
        rfl
  | setTimeTx now =>
    have hset : setTime s.tx now = some { s.tx with tCurrent := now } := by
      have hcheck : checkTReassembly { s.tx with tCurrent := now } = some s.tx.rx :=
        if_pos (.inl h.timer)
      rw [setTime, hcheck]
      rfl
    refine ⟨{ s with tx := { s.tx with tCurrent := now } }, ?_, h.legal, h.same, h.room, h.timer,
      p, q, hrx, htx, hpath⟩
    rw [Link.step, hset]
    rfl
  | setTimeRx now =>
    refine ⟨{ s with rx := { s.rx with tCurrent := now } }, ?_, h.legal, h.same, h.room, h.timer,
      p, q, hrx, htx, hpath⟩
    rw [Link.step, setTime_quiet hrx now]
    rfl

lemma linkInv_reach (h : Machine.Reach linkMachine s) : LinkInv s := by
  refine Machine.Reach.invariant (fun s hs => linkInv_start hs) ?_ h
  intro s op s' _ hinv hg hstep
  obtain ⟨s'', hstep', hinv'⟩ := linkInv_step hinv hg
  rw [show s.step op = some s' from hstep] at hstep'
  exact Option.some.inj hstep' ▸ hinv'

lemma generated_eq {q : Pos} (htx : TxAt s.tx.cfg s.tx.tx q) :
    s.generated = (List.range q.sdu).map fun h => (s.tx.tx.heap.data h).map some := by
  have hmem : ∀ h, (s.tx.tx.txList.all fun seg => decide (seg.sdu ≠ h)) = true ↔
      ¬ (q.sdu ≤ h ∧ h < s.tx.tx.heap.count) := by
    intro h
    have hsdus := pending_sdus s.tx.tx.heap.data s.tx.tx.heap.count q
    rw [← htx.list] at hsdus
    have hin : h ∈ s.tx.tx.txList.map (·.sdu) ↔ q.sdu ≤ h ∧ h < s.tx.tx.heap.count := by
      rw [hsdus, mem_range'_1]
      omega
    rw [← hin, all_eq_true, mem_map]
    constructor
    · rintro hall ⟨seg, hseg, heq⟩
      exact of_decide_eq_true (hall seg hseg) heq
    · intro hno seg hseg
      exact decide_eq_true fun heq => hno ⟨seg, hseg, heq⟩
  rw [Link.generated]
  congr 1
  obtain ⟨m, hm⟩ := Nat.exists_eq_add_of_le htx.le
  rw [hm, range_add, filter_append]
  have hlow : (List.range q.sdu).filter (fun h => s.tx.tx.txList.all fun seg => decide (seg.sdu ≠ h)) =
      List.range q.sdu := by
    refine filter_eq_self.mpr fun h hh => (hmem h).mpr ?_
    have := mem_range.mp hh
    omega
  have hhigh : ((List.range m).map (q.sdu + ·)).filter
      (fun h => s.tx.tx.txList.all fun seg => decide (seg.sdu ≠ h)) = [] := by
    refine filter_eq_nil_iff.mpr fun h hh => ?_
    obtain ⟨i, hi, rfl⟩ := mem_map.mp hh
    have := mem_range.mp hi
    rw [hmem]
    omega
  rw [hlow, hhigh, append_nil]

/-- **UM over a lossless channel.**  However SDUs, buffer sizes, arrivals and times interleave, no
step of either entity stops, the receiver has delivered a beginning of the fully generated SDUs, byte
for byte and in order, and all of them once the channel is empty. -/
theorem lossless_delivery {s : Link} (h : Machine.Reach linkMachine s) :
    s.rx.rx.delivered <+: s.generated ∧ (s.channel = [] → s.rx.rx.delivered = s.generated) ∧
      ∀ op, linkMachine.guard s op → (linkMachine.step s op).isSome = true := by
  have hinv := linkInv_reach h
  obtain ⟨p, q, hrx, htx, hpath⟩ := hinv.link
  rw [generated_eq htx, hrx.delivered]
  refine ⟨?_, ?_, ?_⟩
  · obtain ⟨m, hm⟩ := Nat.exists_eq_add_of_le hpath.sdu_le
    rw [hm, range_add, map_append]
    exact prefix_append _ _
  · intro hch
    rw [hch] at hpath
    cases hpath
    rfl
  · intro op hg
    obtain ⟨s', hstep, -⟩ := linkInv_step hinv hg
    show (s.step op).isSome = true
    rw [hstep]
    rfl

/-- An entity with 6-bit sequence numbers. -/
def freshUm : Entity where
  cfg := ⟨35, 6, 64, 32, 16000, 16000⟩
  tCurrent := 0
  rx := ⟨0, 0, 0, 0, [], 0, []⟩
  tx := ⟨0, Heap.empty, [], none, 0, 0⟩

theorem lossless_delivery_segmented : ∃ s, Machine.Reach linkMachine s ∧
    s.rx.rx.delivered = [[some 1, some 2, some 3, some 4, some 5, some 6], [some 7]] ∧
      s.rx.rx.delivered = s.generated := by
  obtain ⟨s, hs, hch, hdel⟩ := Machine.Reach.exists_of_run
    (P := fun s => s.channel = [] ∧
      s.rx.rx.delivered = [[some 1, some 2, some 3, some 4, some 5, some 6], [some 7]])
    (m := linkMachine) (s := ⟨freshUm, freshUm, []⟩)
    (.start ⟨6, 16000, 16000, 16000, 16000, 35, 35, rfl, rfl, by decide, rfl⟩)
    [.recvSdu [1, 2, 3, 4, 5, 6] 0, .recvSdu [7] 1, .recvSdu [8, 9, 10, 11, 12, 13] 2,
      .generatePdu [0, 0, 0, 0, 0], .setTimeRx 3, .recvPdu, .setTimeRx 90,
      .generatePdu [9, 9, 9, 9, 9], .recvPdu, .generatePdu [0, 0, 0, 0, 0],
      .generatePdu [0, 0, 0, 0, 0], .recvPdu, .recvPdu] (by decide)
  exact ⟨s, hs, hdel, (lossless_delivery hs).2.1 hch⟩

end NrStack.Rlc.Um
