/-
  The books of an UM entity.

  * A PDU that is not produced leaves the transmitter as it was, with one exception: `generate_tx_pdu` asks
    for room for a WHOLE SDU and one byte, takes the SDU off `tx_list`, and finds in `resegment` that the
    header of a segment is one byte longer (`generatePdu_atomic_iff`).
  * `Accounted`: a call keeps `tx_size`, `bstatus.tx_size` and `rx_size` right unless it is one of the two
    that forget an update, `discard_sdu` and the expiry of t_reassembly.  Along a run: `accounted_iff`.
-/
import NrStack.Rlc.UmTransmit
import NrStack.Rlc.ReassemblyBounds

namespace NrStack.Rlc.Um

open List Option

variable {e e' : Entity} {cfg : Config} {tx tx' : Tx}

/-! ## A PDU that is not produced -/

/-- When `generate_pdu` returns 0, nothing has happened. -/
def AtomicOnFailure (e : Entity) (buffer : List UInt8) : Prop :=
  ∀ e', generatePdu e buffer = some (e', none) → e' = e

/-- Twelve bit SNs, two bytes, and a whole SDU of more than one byte at the head of `tx_list`. -/
def SegmentHeaderTooLong (e : Entity) (buffer : List UInt8) : Prop :=
  e.cfg.snFieldLength = 12 ∧ buffer.length = 2 ∧
    ∃ sdu ∈ e.tx.txList.head?, sdu.isFirst = true ∧ sdu.isLast = true ∧ 2 ≤ sdu.size

lemma header_grows_iff (cfg : Config) (sdu : Seg) {n : Nat} :
    computePduHeaderSize cfg sdu + 1 ≤ n ∧ n < computePduHeaderSize cfg sdu + sdu.size ∧
        n < computePduHeaderSize cfg sdu.clearLast + 1 ↔
      cfg.snFieldLength = 12 ∧ n = 2 ∧ sdu.isFirst = true ∧ sdu.isLast = true ∧ 2 ≤ sdu.size := by
  obtain ⟨handle, size, so, isFirst, isLast⟩ := sdu
  unfold computePduHeaderSize Seg.clearLast
  by_cases hlen : cfg.snFieldLength = 12 <;> cases isFirst <;> cases isLast <;> simp [hlen] <;> omega

variable {buffer : List UInt8} {pdu : Option (List UInt8)}

lemma sendSegment_spec {sdu : Seg} (h : sendSegment cfg tx sdu buffer = some (tx', pdu)) :
    pdu ≠ none ∧ tx'.txList = tx.txList ∧ tx'.txEnd = tx.txEnd ∧ tx'.heap.count = tx.heap.count ∧
      tx'.txSize = tx.txSize - sdu.size ∧ tx'.bstatusTxSize = tx.bstatusTxSize := by
  obtain ⟨bytes, -, heq⟩ := map_eq_some_iff.mp h
  cases heq
  split <;> exact ⟨nofun, rfl, rfl, rfl, rfl, rfl⟩

/-- **`generate_pdu` is atomic on failure** except for an SDU that has to be cut and whose segment
header does not fit. -/
theorem generatePdu_atomic_iff (e : Entity) (buffer : List UInt8) :
    AtomicOnFailure e buffer ↔ ¬ SegmentHeaderTooLong e buffer := by
  rw [AtomicOnFailure, SegmentHeaderTooLong]
  cases hlist : e.tx.txList with
  | nil =>
    refine ⟨fun _ ⟨_, _, sdu, hsdu, _⟩ => (nomatch hsdu), fun _ e' h => ?_⟩
    rw [generatePdu, generateTxPdu, hlist] at h
    cases h
    rfl
  | cons sdu rest =>
    have hiff := header_grows_iff e.cfg sdu (n := buffer.length)
    have hhead : (e.cfg.snFieldLength = 12 ∧ buffer.length = 2 ∧ ∃ x ∈ (sdu :: rest).head?,
        x.isFirst = true ∧ x.isLast = true ∧ 2 ≤ x.size) ↔ e.cfg.snFieldLength = 12 ∧
          buffer.length = 2 ∧ sdu.isFirst = true ∧ sdu.isLast = true ∧ 2 ≤ sdu.size := by
      simp
    rw [hhead, ← hiff]
    simp only [generatePdu, generateTxPdu, hlist]
    by_cases hroom : computePduHeaderSize e.cfg sdu + 1 > buffer.length
    · rw [if_pos hroom]
      refine ⟨fun _ hcut => by omega, fun _ e' h => ?_⟩
      cases h
      rfl
    rw [if_neg hroom]
    by_cases hcut : computePduHeaderSize e.cfg sdu + sdu.size > buffer.length
    · rw [if_pos hcut, resegment]
      by_cases hseg : computePduHeaderSize e.cfg sdu.clearLast + 1 > buffer.length
      · rw [if_pos hseg]
        refine ⟨fun h => ?_, fun hno => absurd ⟨by omega, by omega, by omega⟩ hno⟩
        have hsame := congrArg (fun e => e.tx.txList) (h _ rfl)
        exact absurd (hsame.trans hlist).symm (cons_ne_self sdu rest)
      · rw [if_neg hseg]
        refine ⟨fun _ h => by omega, fun _ e' h => ?_⟩
        obtain ⟨⟨tx', pdu⟩, hsend, heq⟩ := map_eq_some_iff.mp h
        exact absurd (congrArg Prod.snd heq) (sendSegment_spec hsend).1
    · rw [if_neg hcut]
      refine ⟨fun _ h => by omega, fun _ e' h => ?_⟩
      obtain ⟨⟨tx', pdu⟩, hsend, heq⟩ := map_eq_some_iff.mp h
      exact absurd (congrArg Prod.snd heq) (sendSegment_spec hsend).1

theorem generatePdu_atomic_one_byte :
    ∃ e, recvSdu receivingUm [1, 2] 7 = some e ∧ e.tx.txList.length = 1 ∧ AtomicOnFailure e [0] :=
  ⟨_, rfl, by decide, (generatePdu_atomic_iff _ [0]).mpr fun h => absurd h.2.1 (by decide)⟩

/-- **An SDU is lost**: two bytes are accepted, MAC asks for two bytes, and nothing is sent nor left. -/
theorem generatePdu_loses_sdu :
    ∃ e, recvSdu receivingUm [1, 2] 7 = some e ∧ e.tx.txList.length = 1 ∧
      (generatePdu e [0, 0]).map (fun p => (p.2, p.1.tx.txList)) = some (none, []) ∧
      ¬ AtomicOnFailure e [0, 0] := by
  refine ⟨_, rfl, by decide, by decide, fun h => ?_⟩
  exact absurd (congrArg (fun e => e.tx.txList.length) (h _ rfl)) (by decide)

/-! ## What the books say -/

/-- The bytes of a receive list. -/
def rxBytes (list : List RxPdu) : Nat := (list.map (·.size)).sum

/-- The bytes of a transmit list. -/
def txBytes (list : List Seg) : Nat := (list.map (·.size)).sum

/-- The sizes of the PDUs the segments would fill. -/
def txPduBytes (cfg : Config) (list : List Seg) : Nat :=
  (list.map fun seg => computePduHeaderSize cfg seg + seg.size).sum

/-- The three counters are the sizes of the lists they stand for. -/
structure Accounted (e : Entity) : Prop where
  tx : e.tx.txSize = txBytes e.tx.txList
  status : e.tx.bstatusTxSize = txPduBytes e.cfg e.tx.txList
  rx : e.rx.rxSize = rxBytes e.rx.rxList

/-- What happens to an entity; MAC asks for PDUs of at least five bytes. -/
inductive Call
  | recvSdu (buffer : List UInt8) (sduId : Int)
  | generatePdu (buffer : List UInt8) (h : 5 ≤ buffer.length)
  | discardSdu (sduId : Int)
  | recvPdu (buffer : List UInt8)
  | setTime (now : UInt64)
  | reestablishment

/-- One call; `none`: the process ends. -/
def Entity.call (e : Entity) : Call → Option Entity
  | .recvSdu buffer sduId => recvSdu e buffer sduId
  | .generatePdu buffer _ => (generatePdu e buffer).map Prod.fst
  | .discardSdu sduId => some (discardSdu e sduId)
  | .recvPdu buffer => recvPdu e buffer
  | .setTime now => setTime e now
  | .reestablishment => some (reestablishment e)

/-- Any calls, from a new entity. -/
def callMachine : Machine.Spec Entity Call where
  init := Entity.Fresh
  guard := fun _ _ => True
  step := Entity.call

/-- The segment `discard_sdu` takes off `tx_list`. -/
def Entity.discarded (e : Entity) (sduId : Int) : Option Seg :=
  match e.tx.txList.dropWhile (lacksId e.tx.heap sduId) with
  | [] => none
  | cur :: _ => if !cur.isFirst || !cur.isLast then none else some cur

/-- What the timer discards. -/
def Entity.timedOut (e : Entity) (now : UInt64) : List RxPdu :=
  if e.rx.tReassemblyStart = 0 ∨ now ≤ e.rx.tReassemblyStart + UInt64.ofInt e.cfg.tReassembly then []
  else
    match skipDelivered e.rx.rxList e.cfg.snModulus (e.rx.rxList.length + 1) e.rx.rxTimerTrigger with
    | none => []
    | some next => e.rx.rxList.takeWhile fun l => decide (snCompareRx e.cfg e.rx l.sn next < 0)

/-- The calls that forget an update: of `tx_size` for an SDU discarded, of `rx_size` for segments
that time out. -/
def Entity.Forgets (e : Entity) : Call → Prop
  | .discardSdu sduId => ∃ cur ∈ e.discarded sduId, cur.size ≠ 0
  | .setTime now => rxBytes (e.timedOut now) ≠ 0
  | _ => False

instance (e : Entity) : ∀ op, Decidable (e.Forgets op)
  | .discardSdu sduId => inferInstanceAs (Decidable (∃ cur ∈ e.discarded sduId, cur.size ≠ 0))
  | .setTime now => inferInstanceAs (Decidable (rxBytes (e.timedOut now) ≠ 0))
  | .recvSdu _ _ | .generatePdu _ _ | .recvPdu _ | .reestablishment => .isFalse id

/-! ## The queue -/

/-- `tx_list` holds segments of different SDUs, and `tx_end` is its end. -/
structure Queue (tx : Tx) : Prop where
  handles : (tx.txList.map Seg.sdu).Nodup
  bound : ∀ seg ∈ tx.txList, seg.sdu < tx.heap.count
  tail : tx.txEnd = tx.txList.getLast?

lemma txPduBytes_append (cfg : Config) (xs ys : List Seg) :
    txPduBytes cfg (xs ++ ys) = txPduBytes cfg xs + txPduBytes cfg ys := by
  rw [txPduBytes, map_append, sum_append_nat]
  rfl

lemma txBytes_append (xs ys : List Seg) : txBytes (xs ++ ys) = txBytes xs + txBytes ys := by
  rw [txBytes, map_append, sum_append_nat]
  rfl

lemma rxBytes_append (xs ys : List RxPdu) : rxBytes (xs ++ ys) = rxBytes xs + rxBytes ys := by
  rw [rxBytes, map_append, sum_append_nat]
  rfl

lemma Queue.remove {before rest : List Seg} {cur : Seg} (h : Queue tx)
    (hlist : tx.txList = before ++ cur :: rest) (hlist' : tx'.txList = before ++ rest)
    (hend : tx'.txEnd = if tx.txEnd = some cur then before.getLast? else tx.txEnd)
    (hcount : tx'.heap.count = tx.heap.count) : Queue tx' := by
  obtain ⟨hnodup, hbound, htail⟩ := h
  rw [hlist] at hnodup hbound htail
  have hsub : (before ++ rest).Sublist (before ++ cur :: rest) := (sublist_cons_self _ _).append_left _
  refine ⟨hlist' ▸ hnodup.sublist (hsub.map _), fun seg hseg => ?_, ?_⟩
  · rw [hcount]
    exact hbound seg (hsub.subset (hlist' ▸ hseg))
  · rw [hend, hlist', htail]
    cases rest with
    | nil => rw [append_nil, getLast?_append, getLast?_singleton, some_or, if_pos rfl]
    | cons y ys =>
      have hne : (before ++ cur :: y :: ys).getLast? ≠ some cur := by
        intro hlast
        rw [getLast?_append, getLast?_cons_cons, getLast?_eq_some_getLast (cons_ne_nil y ys),
          some_or] at hlast
        have hmem : cur ∈ y :: ys := Option.some.inj hlast ▸ getLast_mem (cons_ne_nil y ys)
        rw [map_append, map_cons] at hnodup
        exact (nodup_cons.mp (nodup_append.mp hnodup).2.1).1 (mem_map_of_mem hmem)
      rw [if_neg hne, getLast?_append, getLast?_append, getLast?_cons_cons]

/-! ## Transmission -/

lemma recvSdu_books {sduId : Int} (hq : Queue e.tx) (h : Accounted e)
    (hstep : recvSdu e buffer sduId = some e') : Queue e'.tx ∧ Accounted e' := by
  rw [recvSdu] at hstep
  split at hstep
  · cases hstep
  split at hstep
  · cases hstep
    exact ⟨hq, h⟩
  have happend := sduSegmentListAppend_eq ⟨e.tx.heap.count, buffer.length, 0, true, true⟩
    hq.handles.of_map hq.tail
  simp only [Heap.newSdu, happend, map_some, Option.some.injEq] at hstep
  subst hstep
  have hfresh : e.tx.heap.count ∉ e.tx.txList.map Seg.sdu := by
    intro hmem
    obtain ⟨seg, hseg, heq⟩ := mem_map.mp hmem
    exact absurd (hq.bound seg hseg) (by omega)
  refine ⟨⟨?_, fun seg hseg => ?_, ?_⟩, ?_, ?_, h.rx⟩
  · rw [map_append]
    refine nodup_append.mpr ⟨hq.handles, nodup_singleton _, fun a ha b hb heq => hfresh ?_⟩
    rwa [heq, mem_singleton.mp hb] at ha
  · rcases mem_append.mp hseg with hseg | hseg
    · exact Nat.lt_succ_of_lt (hq.bound seg hseg)
    · rw [mem_singleton.mp hseg]
      exact Nat.lt_succ_self _
  · exact (getLast?_concat).symm
  · show e.tx.txSize + buffer.length = _
    rw [h.tx, txBytes_append]
    rfl
  · show e.tx.bstatusTxSize + _ = _
    rw [h.status, txPduBytes_append]
    rfl

lemma generatePdu_books (hbuf : 5 ≤ buffer.length)
    (hq : Queue e.tx) (h : Accounted e) (hstep : generatePdu e buffer = some (e', pdu)) :
    Queue e'.tx ∧ Accounted e' := by
  obtain ⟨⟨tx', pdu'⟩, hgen, heq⟩ := map_eq_some_iff.mp hstep
  cases heq
  obtain ⟨htx, hstatus, hrx⟩ := h
  cases hlist : e.tx.txList with
  | nil =>
    rw [generateTxPdu, hlist] at hgen
    cases hgen
    exact ⟨hq, htx, hstatus, hrx⟩
  | cons sdu rest =>
    obtain ⟨hnodup, hbound, htail⟩ := hq
    rw [hlist] at hnodup hbound htail htx hstatus
    simp only [generateTxPdu, hlist] at hgen
    split at hgen
    · cases hgen
      exact ⟨⟨hlist ▸ hnodup, hlist ▸ hbound, hlist ▸ htail⟩, hlist ▸ htx, hlist ▸ hstatus, hrx⟩
    have hend : (takeHead e.cfg e.tx sdu rest).txEnd = rest.getLast? := by
      show (if rest = [] then none else e.tx.txEnd) = _
      rw [htail]
      exact takeHead_end
    split at hgen
    · next hcut =>
      have hle := computePduHeaderSize_le e.cfg sdu.clearLast
      rw [resegment, if_neg (by omega)] at hgen
      obtain ⟨-, hl, hend', hcount, hsize, hbst⟩ := sendSegment_spec hgen
      refine ⟨⟨?_, ?_, ?_⟩, ?_, ?_, hrx⟩
      · rw [hl]
        exact hnodup
      · rw [hl, hcount]
        intro seg hseg
        rcases mem_cons.mp hseg with rfl | hseg
        · exact hbound sdu mem_cons_self
        · exact hbound seg (mem_cons_of_mem _ hseg)
      · rw [hl, hend']
        show (if (takeHead e.cfg e.tx sdu rest).txEnd = none then _ else _) = _
        rw [hend]
        exact putBack_end
      · rw [hsize, hl]
        show e.tx.txSize - _ = (txBytes (_ :: rest) : Int)
        rw [htx]
        show ((sdu.size + txBytes rest : Nat) : Int) - _ = ((_ + txBytes rest : Nat) : Int)
        dsimp only
        omega
      · rw [hbst, hl]
        show e.tx.bstatusTxSize - _ + _ = (txPduBytes e.cfg (_ :: rest) : Int)
        rw [hstatus]
        show ((_ + sdu.size + txPduBytes e.cfg rest : Nat) : Int) - _ + _ =
          ((_ + _ + txPduBytes e.cfg rest : Nat) : Int)
        omega
    · obtain ⟨-, hl, hend', hcount, hsize, hbst⟩ := sendSegment_spec hgen
      refine ⟨⟨?_, ?_, ?_⟩, ?_, ?_, hrx⟩
      · rw [hl]
        exact (nodup_cons.mp hnodup).2
      · rw [hl, hcount]
        exact fun seg hseg => hbound seg (mem_cons_of_mem _ hseg)
      · rw [hl, hend']
        exact hend
      · rw [hsize, hl]
        show e.tx.txSize - _ = (txBytes rest : Int)
        rw [htx]
        show ((sdu.size + txBytes rest : Nat) : Int) - _ = _
        omega
      · rw [hbst, hl]
        show e.tx.bstatusTxSize - _ = (txPduBytes e.cfg rest : Int)
        rw [hstatus]
        show ((_ + sdu.size + txPduBytes e.cfg rest : Nat) : Int) - _ = _
        omega

lemma discardSdu_books (sduId : Int) (hq : Queue e.tx) (h : Accounted e) :
    Queue (discardSdu e sduId).tx ∧
      (Accounted (discardSdu e sduId) ↔ ¬ ∃ cur ∈ e.discarded sduId, cur.size ≠ 0) := by
  have hsplit := takeWhile_append_dropWhile (p := lacksId e.tx.heap sduId) (l := e.tx.txList)
  rw [Entity.discarded, discardSdu]
  cases hdrop : e.tx.txList.dropWhile (lacksId e.tx.heap sduId) with
  | nil => exact ⟨hq, fun _ ⟨cur, hcur, _⟩ => (nomatch hcur), fun _ => h⟩
  | cons cur rest =>
    rw [hdrop] at hsplit
    obtain ⟨htx, hstatus, hrx⟩ := h
    dsimp only
    by_cases hpart : (!cur.isFirst || !cur.isLast) = true
    · rw [if_pos hpart, if_pos hpart]
      exact ⟨hq, fun _ ⟨cur, hcur, _⟩ => (nomatch hcur), fun _ => ⟨htx, hstatus, hrx⟩⟩
    · rw [if_neg hpart, if_neg hpart]
      refine ⟨hq.remove hsplit.symm rfl rfl rfl, ?_⟩
      rw [← hsplit, txBytes_append, show txBytes (cur :: rest) = cur.size + txBytes rest from rfl] at htx
      rw [← hsplit, txPduBytes_append, show txPduBytes e.cfg (cur :: rest) =
        computePduHeaderSize e.cfg cur + cur.size + txPduBytes e.cfg rest from rfl] at hstatus
      constructor
      · rintro ⟨htx', -, -⟩ ⟨cur', hcur', hsize⟩
        cases hcur'
        simp only [txBytes_append] at htx'
        omega
      · intro hzero
        have hsize : cur.size = 0 := by
          by_contra hne
          exact hzero ⟨cur, rfl, hne⟩
        refine ⟨?_, ?_, hrx⟩
        · simp only [txBytes_append]
          omega
        · simp only [txPduBytes_append]
          omega

/-! ## Reception -/

lemma rxBytes_freed (list : List RxPdu) : rxBytes (list.map freed) = 0 := by
  induction list with
  | nil => rfl
  | cons l rest ih => exact (Nat.zero_add _).trans ih

lemma rxBytes_freeSegments (list : List RxPdu) (sn : Nat) :
    rxBytes (freeSegments freed list sn) + segmentsSize list sn = rxBytes list := by
  conv_rhs => rw [Am.split_segmentsOf list sn]
  rw [freeSegments, rxBytes_append, rxBytes_append, rxBytes_freed, rxBytes_append, rxBytes_append]
  rw [show segmentsSize list sn = rxBytes (segmentsOf list sn) from rfl]
  omega

lemma rxBytes_dropWhile (p : RxPdu → Bool) (list : List RxPdu) :
    rxBytes (list.takeWhile p) + rxBytes (list.dropWhile p) = rxBytes list := by
  rw [← rxBytes_append, takeWhile_append_dropWhile]

theorem receptionActions_books {tCurrent : UInt64} {rx rx' : Rx} {x : Nat}
    (hact : receptionActions cfg tCurrent rx x = some rx') (h : rx.rxSize = rxBytes rx.rxList) :
    rx'.rxSize = rxBytes rx'.rxList := by
  rcases receptionActions_cases hact with ⟨-, hlist, hsize, -⟩ | ⟨-, -, out, -, hlist, hsize⟩
  · have := rxBytes_freeSegments rx.rxList x
    rw [hlist, hsize, h]
    omega
  · have := rxBytes_dropWhile out rx.rxList
    rw [hlist, hsize, h, ← rxBytes]
    omega

lemma recvPdu_books (hq : Queue e.tx) (h : Accounted e)
    (hstep : recvPdu e buffer = some e') : Queue e'.tx ∧ Accounted e' := by
  obtain ⟨hcfg, htx, hwhat⟩ := recvPdu_cases hstep
  refine ⟨htx ▸ hq, by rw [htx]; exact h.tx, by rw [htx, hcfg]; exact h.status, ?_⟩
  cases hdata : dataPdu e.cfg buffer with
  | none =>
    rw [hdata] at hwhat
    rw [hwhat]
    exact h.rx
  | some pdu =>
    rw [hdata] at hwhat
    rcases hwhat.2 with ⟨-, rfl⟩ | ⟨-, hact⟩
    · exact h.rx
    · refine receptionActions_books hact ?_
      have hadd := ((pduListAdd_perm (snCompareRx e.cfg e.rx) e.rx.rxList pdu).map (·.size)).sum_nat
      show e.rx.rxSize + pdu.size = ((((pduListAdd _ e.rx.rxList pdu).map (·.size)).sum : Nat) : Int)
      rw [hadd, h.rx, map_cons, sum_cons, ← rxBytes]
      omega

lemma setTime_books {now : UInt64} (hq : Queue e.tx) (h : Accounted e)
    (hstep : setTime e now = some e') :
    Queue e'.tx ∧ (Accounted e' ↔ rxBytes (e.timedOut now) = 0) := by
  obtain ⟨htx, hstatus, hrx⟩ := h
  simp only [setTime, checkTReassembly] at hstep
  obtain ⟨rx, hcheck, rfl⟩ := map_eq_some_iff.mp hstep
  refine ⟨hq, ?_⟩
  rw [Entity.timedOut]
  split at hcheck
  · next hidle =>
    cases hcheck
    rw [if_pos hidle]
    exact ⟨fun _ => rfl, fun _ => ⟨htx, hstatus, hrx⟩⟩
  · next hexpired =>
    obtain ⟨next, hskip, heq⟩ := map_eq_some_iff.mp hcheck
    have hparts : rx.rxSize = e.rx.rxSize ∧ rx.rxList =
        e.rx.rxList.dropWhile fun l => decide (snCompareRx e.cfg e.rx l.sn next < 0) := by
      rw [← heq]
      split <;> exact ⟨rfl, rfl⟩
    have hsum := rxBytes_dropWhile (fun l => decide (snCompareRx e.cfg e.rx l.sn next < 0)) e.rx.rxList
    rw [if_neg hexpired]
    simp only [hskip]
    refine ⟨fun hacc => ?_, fun hzero => ⟨htx, hstatus, ?_⟩⟩
    · have hsize : rx.rxSize = rxBytes rx.rxList := hacc.rx
      rw [hparts.1, hparts.2] at hsize
      omega
    · show rx.rxSize = rxBytes rx.rxList
      rw [hparts.1, hparts.2]
      omega

/-! ## Runs -/

/-- The invariant of the counts. -/
structure AccountInv (e : Entity) : Prop where
  queue : Queue e.tx
  accounted : Accounted e

lemma Entity.Fresh.accountInv (h : e.Fresh) : AccountInv e := by
  obtain ⟨rm, tm, a, L, hnew⟩ := h
  rw [newNrRlcEntityUm] at hnew
  split at hnew
  · cases hnew
    exact ⟨⟨nodup_nil, by simp, rfl⟩, rfl, rfl, rfl⟩
  · cases hnew

theorem AccountInv.call (h : AccountInv e) {op : Call} (hstep : e.call op = some e') :
    Queue e'.tx ∧ (Accounted e' ↔ ¬ e.Forgets op) := by
  have hkept : ∀ {P : Prop}, ¬ P → Queue e'.tx ∧ Accounted e' → Queue e'.tx ∧ (Accounted e' ↔ ¬ P) :=
    fun hno hbooks => ⟨hbooks.1, fun _ => hno, fun _ => hbooks.2⟩
  cases op with
  | recvSdu buffer sduId => exact hkept id (recvSdu_books h.queue h.accounted hstep)
  | generatePdu buffer hbuf =>
    obtain ⟨⟨e₁, pdu⟩, hgen, rfl⟩ := map_eq_some_iff.mp hstep
    exact hkept id (generatePdu_books hbuf h.queue h.accounted hgen)
  | discardSdu sduId =>
    cases hstep
    exact discardSdu_books sduId h.queue h.accounted
  | recvPdu buffer => exact hkept id (recvPdu_books h.queue h.accounted hstep)
  | setTime now =>
    obtain ⟨hqueue, hiff⟩ := setTime_books h.queue h.accounted hstep
    exact ⟨hqueue, hiff.trans not_not.symm⟩
  | reestablishment =>
    cases hstep
    exact hkept id ⟨⟨nodup_nil, nofun, rfl⟩, rfl, rfl, rfl⟩

lemma Entity.Forgets.returns {op : Call} (h : e.Forgets op) : ∃ e', e.call op = some e' := by
  cases op with
  | discardSdu sduId => exact ⟨_, rfl⟩
  | setTime now =>
    simp only [Entity.Forgets, Entity.timedOut] at h
    split at h
    · exact absurd rfl h
    · next hexpired =>
      split at h
      · exact absurd rfl h
      · next next hskip =>
        simp only [Entity.call, setTime, checkTReassembly, if_neg hexpired, hskip]
        exact ⟨_, rfl⟩
  | recvSdu _ _ => exact h.elim
  | generatePdu _ _ => exact h.elim
  | recvPdu _ => exact h.elim
  | reestablishment => exact h.elim

/-- **The books of an UM entity**: for every run of SDUs, PDU requests, discards, received bytes, times
and reestablishments, the three counters are right behind every call exactly when no call forgets an
update. -/
theorem accounted_iff (h : e.Fresh) (ops : List Call) :
    (Accounted e ∧ callMachine.Along (fun e op => ∀ e', e.call op = some e' → Accounted e') e ops) ↔
      callMachine.Along (fun e op => ¬ e.Forgets op) e ops := by
  have hiff : ∀ e op, AccountInv e →
      ((∀ e', e.call op = some e' → Accounted e') ↔ ¬ e.Forgets op) := by
    intro e op hinv
    refine ⟨fun hall hforgets => ?_, fun hno e' hstep => (hinv.call hstep).2.mpr hno⟩
    obtain ⟨e', hstep⟩ := hforgets.returns
    exact (hinv.call hstep).2.mp (hall e' hstep) hforgets
  have hkeep : ∀ e op e', AccountInv e → (∀ e', e.call op = some e' → Accounted e') →
      callMachine.step e op = some e' → AccountInv e' :=
    fun e op e' hinv hall hstep => ⟨(hinv.call hstep).1, hall e' hstep⟩
  have hrun := Machine.Spec.along_iff hiff hkeep ops h.accountInv
  exact ⟨fun hall => hrun.mp hall.2, fun hno => ⟨h.accountInv.accounted, hrun.mpr hno⟩⟩

theorem accounted_iff_segments :
    Accounted receivingUm ∧ callMachine.Along (fun e op => ∀ e', e.call op = some e' → Accounted e')
      receivingUm [.recvSdu [1, 2, 3, 4, 5, 6] 7, .generatePdu (replicate 5 0) (by decide),
        .discardSdu 7, .setTime 1, .recvPdu [0x40, 1, 5], .setTime 2, .recvPdu [0x40, 0, 5],
        .recvPdu [0x80, 0, 0, 1, 6], .generatePdu (replicate 9 0) (by decide)] :=
  (accounted_iff fresh_receivingUm _).mpr (by decide)

instance (e : Entity) (op : Call) : Decidable (callMachine.guard e op) := .isTrue trivial

/-- **Forgotten bytes**: with both lists empty, `tx_size` counts the two bytes of an SDU that was
discarded and `rx_size` the byte of a segment that timed out. -/
theorem accounted_forgotten :
    ∃ e, Machine.Reach callMachine e ∧ e.tx.txList = [] ∧ e.tx.txSize = 2 ∧ e.rx.rxList = [] ∧
      e.rx.rxSize = 1 := by
  obtain ⟨e, he, hp⟩ := Machine.Reach.exists_of_run (m := callMachine)
    (P := fun e : Entity => e.tx.txList = [] ∧ e.tx.txSize = 2 ∧ e.rx.rxList = [] ∧ e.rx.rxSize = 1)
    (Machine.Reach.start fresh_receivingUm)
    [.recvSdu [1, 2] 7, .discardSdu 7, .setTime 1, .recvPdu [0x40, 1, 5], .setTime 100] (by decide)
  exact ⟨e, he, hp⟩

end NrStack.Rlc.Um
