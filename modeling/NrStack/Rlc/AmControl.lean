/-
  Received status reports (`process_control_pdu`).

  The source decodes the report twice, to validate and to obey it, and changes nothing in between: decoding
  is one function here (`readStatus`), the checks are a second (`validStatus`), the processing a third.

  The processing walks `wait_list` and `retransmit_list` at once, with the NACKs in hand (`Merge`).  A
  `goto` of the source is an `Outcome`: `again` for `process_next_pdu`, `doneNack` and `listsOver` for the
  labels of these names.
-/
import NrStack.Rlc.AmEntity

namespace NrStack.Rlc.Am

/-! ## Decoding -/

/-- A NACK as the status PDU has it; `soEnd = -1` is "all bytes to the end". -/
structure Nack where
  nackSn : Nat
  soStart : Nat
  soEnd : Int
  range : Nat
  deriving DecidableEq, Repr

/-- One SN of a NACK: `cur_nack_sn`, `cur_so_start`, `cur_so_end`. -/
structure CurNack where
  sn : Nat
  soStart : Nat
  soEnd : Int
  deriving DecidableEq, Repr

/-- The loop over the range of a NACK. -/
def Nack.expand (snModulus : Nat) (n : Nack) : List CurNack :=
  (List.range n.range).map fun i =>
    { sn := (n.nackSn + i) % snModulus
      soStart := if i = 0 then n.soStart else 0
      soEnd := if i = n.range - 1 then n.soEnd else -1 }

/-- A decoded status PDU. -/
structure StatusPdu where
  ackSn : Nat
  nacks : List Nack
  deriving DecidableEq, Repr

/-- Its NACKs, one for each sequence number. -/
def StatusPdu.expanded (snModulus : Nat) (s : StatusPdu) : List CurNack :=
  s.nacks.flatMap (Nack.expand snModulus)

/-- One turn of the decoding loop: the NACK and the E1 field behind it. -/
def readNack (cfg : Config) (d : PduDecoder) : Except Stop (Nack × Bool × PduDecoder) := do
  let (nackSn, d) ← d.read cfg.snFieldLength
  let (e1, d) ← d.read 1
  let (e2, d) ← d.read 1
  let (e3, d) ← d.read 1
  let (_, d) ← d.read (if cfg.snFieldLength = 18 then 3 else 1)
  let (soStart, d) ← d.readWhen (e2 != 0) 16
  let (soEnd, d) ← d.readWhen (e2 != 0) 16
  let (range, d) ← d.readWhen (e3 != 0) 8
  pure ({ nackSn := nackSn
          soStart := soStart
          soEnd := if e2 = 0 ∨ soEnd = 0xffff then -1 else soEnd
          range := if e3 = 0 then 1 else range }, e1 != 0, d)

/-- The loop `while (e1)`; a NACK takes at least two bytes, so the fuel does not run out. -/
def readNacks (cfg : Config) : Nat → Bool → PduDecoder → Except Stop (List Nack)
  | _, false, _ => .ok []
  | 0, true, _ => .error .err
  | fuel + 1, true, d => do
    let (nack, e1, d) ← readNack cfg d
    let nacks ← readNacks cfg fuel e1 d
    pure (nack :: nacks)

/-- The fields of a status PDU; a control PDU of another type is an error. -/
def readStatus (cfg : Config) (buffer : List UInt8) : Except Stop StatusPdu := do
  let (_, d) ← (PduDecoder.init buffer buffer.length).read 1
  let (cpt, d) ← d.read 3
  if cpt ≠ 0 then throw .err
  let (ackSn, d) ← d.read cfg.snFieldLength
  let (e1, d) ← d.read 1
  let (_, d) ← d.read (if cfg.snFieldLength = 18 then 1 else 7)
  let nacks ← readNacks cfg buffer.length (e1 != 0) d
  pure ⟨ackSn, nacks⟩

/-! ## Validation -/

/-- `modulus_tx` -/
def modulusTx (cfg : Config) (tx : Tx) (a : Int) : Int :=
  let r := a - tx.txNextAck
  if r < 0 then r + cfg.snModulus else r

/-- `sn_compare_tx` -/
def snCompareTx (cfg : Config) (tx : Tx) (a b : Int) : Int := modulusTx cfg tx a - modulusTx cfg tx b

/-- The check of one NACK: not bigger than the previous one, or bigger than ACK. -/
def badNack (cfg : Config) (tx : Tx) (ackSn : Nat) (prev : Option CurNack) (cur : CurNack) : Bool :=
  (match prev with
    | none => false
    | some p =>
      let cmp := snCompareTx cfg tx cur.sn p.sn
      decide (cmp < 0 ∨ (cmp = 0 ∧ (p.soEnd = -1 ∨ (cur.soStart : Int) ≤ p.soEnd)))) ||
    decide (snCompareTx cfg tx cur.sn ackSn > 0)

/-- `prev_nack_sn` is only set in the second pass, when the validation is over: here it is -1 for every
NACK. -/
def validStatus (cfg : Config) (tx : Tx) (s : StatusPdu) : Bool :=
  decide (snCompareTx cfg tx s.ackSn tx.txNext ≤ 0) &&
    (s.expanded cfg.snModulus).all fun cur => !badNack cfg tx s.ackSn none cur

/-! ## Processing -/

/-- `so_overlap` -/
def soOverlap (s1 e1 s2 e2 : Int) : Bool :=
  if s1 < s2 then decide (e1 = -1 ∨ e1 ≥ s2) else decide (e2 = -1 ∨ s1 ≤ e2)

/-- The sequence number of a segment's SDU. -/
def snOf (tx : Tx) (seg : Seg) : Int := (tx.heap.sdus seg.sdu).sn

/-- The test "nack overlaps with current segment". -/
def nackOverlaps (tx : Tx) (nack : CurNack) (seg : Seg) : Bool :=
  decide (snOf tx seg = nack.sn) &&
    soOverlap nack.soStart nack.soEnd seg.so ((seg.so : Int) + seg.size - 1)

/-- `wait_list` is `waitDone` up to `prev_wait_list` and `waitNext` behind it; `cur_wait_list` is the
head of `waitNext`, or null when `waitOver`.  `endWait` is `end_wait_list`: `none` for null, `some none`
for the list head. -/
structure Merge where
  tx : Tx
  waitDone : List Seg
  waitNext : List Seg
  waitOver : Bool
  newRetransmit : List Seg
  curRetransmit : List Seg
  endWait : Option (Option Seg)

/-- How one comparison of a NACK with the lists ends. -/
inductive Outcome
  | again
  | doneNack
  | listsOver
  deriving DecidableEq, Repr

/-- `nr_rlc_free_sdu_segment` on an acknowledged segment, and what follows when its SDU went. -/
def freeAcked (tx : Tx) (seg : Seg) : Tx :=
  let p := tx.heap.freeSduSegment seg
  { tx with
    heap := p.1
    freed := tx.freed ++ [seg]
    txSize := if p.2 then tx.txSize - (tx.heap.sdus seg.sdu).size else tx.txSize
    succeeded := if p.2 then tx.succeeded ++ [seg.sdu] else tx.succeeded }

/-- The segment is counted in for retransmission. -/
def addRetx (cfg : Config) (tx : Tx) (seg : Seg) : Tx :=
  { tx with bstatusRetxSize := tx.bstatusRetxSize + (computePduHeaderSize cfg seg + seg.size : Nat) }

/-- The segment is counted out. -/
def subRetx (cfg : Config) (tx : Tx) (seg : Seg) : Tx :=
  { tx with bstatusRetxSize := tx.bstatusRetxSize - (computePduHeaderSize cfg seg + seg.size : Nat) }

/-- `sdu->retx_count++` and the report of too many retransmissions. -/
def countRetx (cfg : Config) (tx : Tx) (seg : Seg) : Tx :=
  let heap := tx.heap.modify seg.sdu fun s => { s with retxCount := s.retxCount + 1 }
  let sdu := heap.sdus seg.sdu
  { tx with
    heap := heap
    maxRetxReached := if sdu.retxCount ≥ cfg.maxRetxThreshold * sdu.refCount then
      tx.maxRetxReached + 1 else tx.maxRetxReached }

/-- The segment leaves the wait list. -/
def Merge.unlinkWait (m : Merge) (cur : Seg) (rest : List Seg) : Merge :=
  { m with
    waitNext := rest
    endWait := if some cur = m.tx.waitEnd then some m.waitDone.getLast? else m.endWait }

/-- An acknowledged segment of the wait list is freed. -/
def Merge.freeWait (m : Merge) (cur : Seg) (rest : List Seg) : Merge :=
  { m.unlinkWait cur rest with tx := freeAcked m.tx cur }

/-- An acknowledged segment of the retransmit list is freed. -/
def Merge.freeRetransmit (cfg : Config) (m : Merge) (cur : Seg) (rest : List Seg) : Merge :=
  { m with curRetransmit := rest, tx := freeAcked (subRetx cfg m.tx cur) cur }

/-- The label `process_wait_list_head`. -/
def processWaitListHead (cfg : Config) (ackSn : Nat) (nack : CurNack) (m : Merge) (cur : Seg)
    (rest : List Seg) : Merge × Outcome :=
  if nackOverlaps m.tx nack cur then
    ({ m.unlinkWait cur rest with
      newRetransmit := m.newRetransmit ++ [cur]
      tx := addRetx cfg (countRetx cfg m.tx cur) cur }, .again)
  -- if current segment SN > current NACK, we can't classify it yet
  else if snCompareTx cfg m.tx (snOf m.tx cur) nack.sn > 0 ∨
      (snCompareTx cfg m.tx (snOf m.tx cur) nack.sn = 0 ∧ cur.so > nack.soStart) then
    (m, .doneNack)
  else if snCompareTx cfg m.tx (snOf m.tx cur) ackSn < 0 then (m.freeWait cur rest, .again)
  -- if current segment SN > ack_sn, we're done with this list
  else if snCompareTx cfg m.tx (snOf m.tx cur) ackSn > 0 then ({ m with waitOver := true }, .again)
  else ({ m with waitDone := m.waitDone ++ [cur], waitNext := rest }, .again)

/-- The label `process_retransmit_list_head`. -/
def processRetransmitListHead (cfg : Config) (ackSn : Nat) (nack : CurNack) (m : Merge) (cur : Seg)
    (rest : List Seg) : Merge × Outcome :=
  let keep := { m with newRetransmit := m.newRetransmit ++ [cur], curRetransmit := rest }
  if nackOverlaps m.tx nack cur then (keep, .again)
  else if snCompareTx cfg m.tx (snOf m.tx cur) nack.sn > 0 ∨
      (snCompareTx cfg m.tx (snOf m.tx cur) nack.sn = 0 ∧ cur.so > nack.soStart) then
    (m, .doneNack)
  else if snCompareTx cfg m.tx (snOf m.tx cur) ackSn < 0 then
    (m.freeRetransmit cfg cur rest, .again)
  -- the "speedup" hangs the rest of the list behind new_retransmit_list without moving that pointer:
  -- the assignment new_retransmit_list->next = cur_retransmit_list at the end cuts it off again
  else if m.waitOver ∨ m.waitNext = [] then ({ m with curRetransmit := [] }, .listsOver)
  else (keep, .again)

/-- The label `process_next_pdu`: the smallest of the two list heads. -/
def processNextPdu (cfg : Config) (ackSn : Nat) (nack : CurNack) (m : Merge) : Merge × Outcome :=
  match (if m.waitOver then [] else m.waitNext), m.curRetransmit with
  | [], [] => (m, .listsOver)
  | [], r :: rs => processRetransmitListHead cfg ackSn nack m r rs
  | w :: ws, [] => processWaitListHead cfg ackSn nack m w ws
  | w :: ws, r :: rs =>
    let cmp := snCompareTx cfg m.tx (snOf m.tx w) (snOf m.tx r)
    if cmp < 0 ∨ (cmp = 0 ∧ w.so < r.so) then processWaitListHead cfg ackSn nack m w ws
    else processRetransmitListHead cfg ackSn nack m r rs

/-- The processing of one SN of a NACK; true for `lists_over`. -/
def processNackLoop (cfg : Config) (ackSn : Nat) (nack : CurNack) : Nat → Merge → Merge × Bool
  | 0, m => (m, false)
  | fuel + 1, m =>
    match processNextPdu cfg ackSn nack m with
    | (m, .again) => processNackLoop cfg ackSn nack fuel m
    | (m, .doneNack) => (m, false)
    | (m, .listsOver) => (m, true)

/-- Every turn takes a segment off one of the two lists, or ends the wait list once. -/
def processNack (cfg : Config) (ackSn : Nat) (nack : CurNack) (m : Merge) : Merge × Bool :=
  processNackLoop cfg ackSn nack (m.waitNext.length + m.curRetransmit.length + 2) m

/-- The loop over the range of a NACK, left at `lists_over`. -/
def processRange (cfg : Config) (ackSn : Nat) : List CurNack → Merge → Merge
  | [], m => m
  | nack :: rest, m =>
    match processNack cfg ackSn nack m with
    | (m, true) => m
    | (m, false) => processRange cfg ackSn rest m

/-- `entity->t_poll_retransmit_start = 0` -/
def stopPoll (tx : Tx) : Tx := { tx with tPollRetransmitStart := 0 }

/-- One turn of the processing loop: the NACK, then the stop of t_poll_retransmit if it reports
`poll_sn`. -/
def processNackEntry (cfg : Config) (ackSn : Nat) (m : Merge) (n : Nack) : Merge :=
  let m := processRange cfg ackSn (n.expand cfg.snModulus) m
  if snCompareTx cfg m.tx n.nackSn m.tx.pollSn ≤ 0 ∧
      snCompareTx cfg m.tx m.tx.pollSn (((n.nackSn + n.range) % cfg.snModulus : Nat)) < 0 then
    { m with tx := stopPoll m.tx }
  else m

/-- "Nacks done, finish with ack": the wait list. -/
def ackWaitList (cfg : Config) (ackSn : Nat) : Merge → List Seg → Merge
  | m, [] => m
  | m, cur :: rest =>
    if snCompareTx cfg m.tx (snOf m.tx cur) ackSn < 0 then
      ackWaitList cfg ackSn (m.freeWait cur rest) rest
    else m

/-- "Nacks done, finish with ack": the retransmit list. -/
def ackRetransmitList (cfg : Config) (ackSn : Nat) : Merge → List Seg → Merge
  | m, [] => m
  | m, cur :: rest =>
    if snCompareTx cfg m.tx (snOf m.tx cur) ackSn < 0 then
      ackRetransmitList cfg ackSn (m.freeRetransmit cfg cur rest) rest
    else m

/-- The lists as they are left. -/
def Merge.finish (m : Merge) : Tx :=
  { m.tx with
    waitList := m.waitDone ++ m.waitNext
    retransmitList := m.newRetransmit ++ m.curRetransmit
    waitEnd := m.endWait.getD m.tx.waitEnd }

/-- The smaller of two SNs: `if (sn_compare_tx(entity, a, b) < 0) b = a`. -/
def lowerSn (cfg : Config) (tx : Tx) (a b : Int) : Int := if snCompareTx cfg tx a b < 0 then a else b

/-- The lower of `b` and the SN at the head of a list, if there is one. -/
def lowerHeadSn (cfg : Config) (tx : Tx) (list : List Seg) (b : Int) : Int :=
  match list with
  | [] => b
  | seg :: _ => lowerSn cfg tx (snOf tx seg) b

/-- `process_control_pdu` updates `tx_next_ack`, from the highest possible value down. -/
def updateTxNextAck (cfg : Config) (tx : Tx) (ackSn : Nat) : Tx :=
  let a := lowerHeadSn cfg tx tx.retransmitList (lowerHeadSn cfg tx tx.waitList tx.txNext)
  { tx with txNextAck := (lowerSn cfg tx ackSn a).toNat }

/-- The lists before the first NACK. -/
def Merge.start (tx : Tx) : Merge :=
  { tx := tx, waitDone := [], waitNext := tx.waitList, waitOver := false, newRetransmit := [],
    curRetransmit := tx.retransmitList, endWait := none }

/-- What lies below ACK_SN is acknowledged. -/
def finishAck (cfg : Config) (ackSn : Nat) (m : Merge) : Merge :=
  let m := ackWaitList cfg ackSn m (if m.waitOver then [] else m.waitNext)
  ackRetransmitList cfg ackSn m m.curRetransmit

/-- `process_control_pdu` for a report that was validated. -/
def processStatus (cfg : Config) (tx : Tx) (s : StatusPdu) : Tx :=
  -- stop t_poll_retransmit if poll_sn is acknowledged
  let tx := if snCompareTx cfg tx tx.pollSn s.ackSn < 0 then stopPoll tx else tx
  let m := s.nacks.foldl (processNackEntry cfg s.ackSn) (Merge.start tx)
  updateTxNextAck cfg (finishAck cfg s.ackSn m).finish s.ackSn

/-- `process_control_pdu`; a PDU that does not decode or is not valid is discarded. -/
def processControlPdu (cfg : Config) (tx : Tx) (buffer : List UInt8) : Option Tx :=
  match readStatus cfg buffer with
  | .error .exit => none
  | .error .err => some tx
  | .ok s => some (if validStatus cfg tx s then processStatus cfg tx s else tx)

/-! ## Invariants of the processing -/

section Invariant

variable {cfg : Config} {ackSn : Nat} {I : Merge → Prop}

lemma processRange_invariant {range : List CurNack}
    (hturn : ∀ k ∈ range, ∀ m, I m → I (processNextPdu cfg ackSn k m).1) :
    ∀ m, I m → I (processRange cfg ackSn range m) := by
  have hloop : ∀ k ∈ range, ∀ fuel m, I m → I (processNackLoop cfg ackSn k fuel m).1 := by
    intro k hk fuel
    induction fuel with
    | zero => exact fun _ h => h
    | succ fuel ih =>
      intro m h
      have hnext := hturn k hk m h
      rw [processNackLoop]
      split
      · next m' heq =>
        rw [heq] at hnext
        exact ih m' hnext
      all_goals
        next m' heq =>
        rw [heq] at hnext
        exact hnext
  induction range with
  | nil => exact fun _ h => h
  | cons k rest ih =>
    intro m h
    have hnack := hloop k List.mem_cons_self (m.waitNext.length + m.curRetransmit.length + 2) m h
    rw [processRange, processNack]
    split
    · next m' heq =>
      rw [heq] at hnack
      exact hnack
    · next m' heq =>
      rw [heq] at hnack
      exact ih (fun k hk => hturn k (List.mem_cons_of_mem _ hk))
        (fun k hk => hloop k (List.mem_cons_of_mem _ hk)) m' hnack

lemma processNacks_invariant {nacks : List Nack}
    (hturn : ∀ k ∈ nacks.flatMap (Nack.expand cfg.snModulus), ∀ m, I m → I (processNextPdu cfg ackSn k m).1)
    (hstop : ∀ m, I m → I { m with tx := stopPoll m.tx }) :
    ∀ m, I m → I (nacks.foldl (processNackEntry cfg ackSn) m) := by
  induction nacks with
  | nil => exact fun _ h => h
  | cons n nacks ih =>
    intro m h
    apply ih (fun k hk => hturn k (List.mem_append_right _ hk)) _
    have hrange := processRange_invariant (fun k hk => hturn k (List.mem_append_left _ hk)) m h
    rw [processNackEntry]
    split
    · exact hstop _ hrange
    · exact hrange

lemma finishAck_invariant
    (hwait : ∀ m x rest, I m → m.waitNext = x :: rest → snCompareTx cfg m.tx (snOf m.tx x) ackSn < 0 →
      I (m.freeWait x rest))
    (hretx : ∀ m x rest, I m → m.curRetransmit = x :: rest →
      snCompareTx cfg m.tx (snOf m.tx x) ackSn < 0 → I (m.freeRetransmit cfg x rest)) {m : Merge} (h : I m) :
    I (finishAck cfg ackSn m) := by
  have hacked : ∀ list m, I m → m.waitNext = list → I (ackWaitList cfg ackSn m list) := by
    intro list
    induction list with
    | nil => exact fun _ h _ => h
    | cons x rest ih =>
      intro m h hnext
      rw [ackWaitList]
      split
      · next hlt => exact ih _ (hwait m x rest h hnext hlt) rfl
      · exact h
  have hretxAcked : ∀ list m, I m → m.curRetransmit = list → I (ackRetransmitList cfg ackSn m list) := by
    intro list
    induction list with
    | nil => exact fun _ h _ => h
    | cons x rest ih =>
      intro m h hcur
      rw [ackRetransmitList]
      split
      · next hlt => exact ih _ (hretx m x rest h hcur hlt) rfl
      · exact h
  refine hretxAcked _ _ ?_ rfl
  split
  · exact h
  · exact hacked _ m h rfl

end Invariant

end NrStack.Rlc.Am
