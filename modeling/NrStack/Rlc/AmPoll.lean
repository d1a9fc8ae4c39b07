/-
  t_poll_retransmit and the wait list.

  `check_t_poll_retransmit` takes the head of `wait_list` without asking whether there is one.  `poll_sn`
  is the last SN sent, also where the poll goes out with a retransmission of a lower SN.  A report that
  acknowledges just that SN leaves the timer running, all three lists may then be empty, and the head of
  an empty list is dereferenced.
-/
import NrStack.Rlc.AmReceive
import NrStack.Rlc.AmValidate

namespace NrStack.Rlc.Am

open List Option

/-! ## The question -/

/-- `check_t_poll_retransmit` finds the timer expired. -/
def PollExpired (cfg : Config) (now : UInt64) (tx : Tx) : Prop :=
  ¬ (tx.tPollRetransmitStart = 0 ∨
    now ≤ tx.tPollRetransmitStart + UInt64.ofInt cfg.tPollRetransmit)

/-- The dereference of the head of the wait list is defined, should the timer have expired. -/
def PollDefined (e : Entity) (now : UInt64) : Prop :=
  PollExpired e.cfg now e.tx → checkPollAfterPduAssembly e.cfg e.tx = true → e.tx.waitList ≠ []

/-- The report says nothing about the segment: ACK_SN is not above it, no NACK overlaps it. -/
structure Unreported (cfg : Config) (tx : Tx) (s : StatusPdu) (x : Seg) : Prop where
  ack : ¬ snCompareTx cfg tx (snOf tx x) s.ackSn < 0
  nack : ∀ k ∈ s.expanded cfg.snModulus, nackOverlaps tx k x = false

/-- A control PDU that is obeyed while the timer runs reports `poll_sn`, or leaves a waiting segment
unreported. -/
def LeavesWaiting (cfg : Config) (tx : Tx) (buffer : List UInt8) : Prop :=
  match readStatus cfg buffer with
  | .error _ => True
  | .ok s => tx.tPollRetransmitStart ≠ 0 → validStatus cfg tx s = true →
    PollReported cfg tx s ∨ ∃ x ∈ tx.waitList, Unreported cfg tx s x

/-- The entry points of an entity that sends; a status PDU comes in as any other PDU. -/
inductive TxOp
  | recvSdu (buffer : List UInt8) (sduId : Int)
  | generatePdu (buffer : List UInt8)
  | discardSdu (sduId : Int)
  | setTime (now : UInt64)
  | recvPdu (buffer : List UInt8)
  | reestablishment

/-- One step; `none`: the process ends. -/
def Entity.txOp (e : Entity) : TxOp → Option Entity
  | .recvSdu buffer sduId => recvSdu e buffer sduId
  | .generatePdu buffer => (generatePdu e buffer).map Prod.fst
  | .discardSdu sduId => some (discardSdu e sduId)
  | .setTime now => setTime e now
  | .recvPdu buffer => recvPdu e buffer
  | .reestablishment => some (reestablishment e)

/-- Any steps under a guard, from a new entity. -/
def txMachine (G : Entity → TxOp → Prop) : Machine.Spec Entity TxOp where
  init := Entity.Fresh
  guard := G
  step := Entity.txOp

/-- Time does not go back. -/
def TxOp.Forward (e : Entity) : TxOp → Prop
  | .setTime now => e.tCurrent ≤ now
  | _ => True

/-- No report empties the wait list while the timer runs. -/
def TxOp.Leaves (e : Entity) : TxOp → Prop
  | .recvPdu buffer => LeavesWaiting e.cfg e.tx buffer
  | _ => True

section Decidable

instance (e : Entity) (op : TxOp) : Decidable (op.Forward e) :=
  match op with
  | .setTime _ => inferInstanceAs (Decidable (_ ≤ _))
  | .recvSdu _ _ | .generatePdu _ | .discardSdu _ | .recvPdu _ | .reestablishment => .isTrue trivial

instance (cfg : Config) (tx : Tx) (s : StatusPdu) (x : Seg) : Decidable (Unreported cfg tx s x) :=
  decidable_of_iff (¬ snCompareTx cfg tx (snOf tx x) s.ackSn < 0 ∧
    ∀ k ∈ s.expanded cfg.snModulus, nackOverlaps tx k x = false)
    ⟨fun h => ⟨h.1, h.2⟩, fun h => ⟨h.ack, h.nack⟩⟩

instance (cfg : Config) (tx : Tx) (s : StatusPdu) : Decidable (PollReported cfg tx s) :=
  inferInstanceAs (Decidable (_ ∨ ∃ n ∈ s.nacks, _))

instance (cfg : Config) (tx : Tx) (buffer : List UInt8) : Decidable (LeavesWaiting cfg tx buffer) :=
  show Decidable (match readStatus cfg buffer with
    | .error _ => True
    | .ok s => tx.tPollRetransmitStart ≠ 0 → validStatus cfg tx s = true →
      PollReported cfg tx s ∨ ∃ x ∈ tx.waitList, Unreported cfg tx s x) from
  match readStatus cfg buffer with
  | .error _ => .isTrue trivial
  | .ok _ => inferInstance

instance (e : Entity) (op : TxOp) : Decidable (op.Leaves e) :=
  match op with
  | .recvPdu buffer => inferInstanceAs (Decidable (LeavesWaiting e.cfg e.tx buffer))
  | .recvSdu _ _ | .generatePdu _ | .discardSdu _ | .setTime _ | .reestablishment => .isTrue trivial

instance (G : Entity → TxOp → Prop) [∀ e op, Decidable (G e op)] (e : Entity) (op : TxOp) :
    Decidable ((txMachine G).guard e op) := inferInstanceAs (Decidable (G e op))

end Decidable

/-! ## Unreported segments stay -/

lemma steady_snOf (cfg : Config) (x : Seg) : Steady cfg fun tx => snOf tx x := by
  refine ⟨fun tx y => ?_, fun _ _ => rfl, fun _ _ => rfl, fun tx y => ?_⟩
  · exact Heap.sn_addFree tx.heap y.sdu x.sdu
  · refine Heap.modify_keeps Sdu.sn tx.heap y.sdu (fun s => { s with retxCount := s.retxCount + 1 }) ?_ x.sdu
    exact fun _ => rfl

section Unreported

variable {cfg : Config} {tx : Tx} {s : StatusPdu} {x : Seg}

/-- The state of the processing, as far as one waiting segment is concerned. -/
structure Holds (tx : Tx) (x : Seg) (m : Merge) : Prop where
  base : m.tx.txNextAck = tx.txNextAck
  sn : snOf m.tx x = snOf tx x
  mem : x ∈ m.waitDone ++ m.waitNext

variable {m : Merge}

lemma Holds.compare (h : Holds tx x m) (b : Int) :
    snCompareTx cfg m.tx (snOf m.tx x) b = snCompareTx cfg tx (snOf tx x) b := by
  rw [snCompareTx, snCompareTx, modulusTx, modulusTx, modulusTx, modulusTx, h.sn, h.base]

lemma Holds.overlaps (h : Holds tx x m) (k : CurNack) :
    nackOverlaps m.tx k x = nackOverlaps tx k x := by
  rw [nackOverlaps, nackOverlaps, h.sn]

lemma mem_of_unlink {done rest : List Seg} {cur : Seg} (hne : x ≠ cur)
    (h : x ∈ done ++ cur :: rest) : x ∈ done ++ rest := by
  rcases mem_append.mp h with hd | hr
  · exact mem_append_left _ hd
  · exact mem_append_right _ ((mem_cons.mp hr).resolve_left hne)

lemma Holds.processWaitListHead (hx : Unreported cfg tx s x) {k : CurNack}
    (hk : k ∈ s.expanded cfg.snModulus) (h : Holds tx x m) {cur : Seg} {rest : List Seg}
    (hnext : m.waitNext = cur :: rest) :
    x ∈ (Am.processWaitListHead cfg s.ackSn k m cur rest).1.waitDone ++
      (Am.processWaitListHead cfg s.ackSn k m cur rest).1.waitNext := by
  have hmem := h.mem
  rw [Am.processWaitListHead]
  split
  · next hover =>
    rw [hnext] at hmem
    refine mem_of_unlink ?_ hmem
    rintro rfl
    rw [h.overlaps, hx.nack k hk] at hover
    cases hover
  split
  · exact hmem
  split
  · next hbelow =>
    rw [hnext] at hmem
    refine mem_of_unlink ?_ hmem
    rintro rfl
    rw [h.compare] at hbelow
    exact hx.ack hbelow
  split
  · exact hmem
  · rw [hnext] at hmem
    simpa using hmem

lemma processRetransmitListHead_wait (cfg : Config) (ackSn : Nat) (k : CurNack) (m : Merge) (cur : Seg)
    (rest : List Seg) :
    (processRetransmitListHead cfg ackSn k m cur rest).1.waitDone = m.waitDone ∧
      (processRetransmitListHead cfg ackSn k m cur rest).1.waitNext = m.waitNext := by
  simp only [processRetransmitListHead]
  split
  · exact ⟨rfl, rfl⟩
  split
  · exact ⟨rfl, rfl⟩
  split
  · exact ⟨rfl, rfl⟩
  split <;> exact ⟨rfl, rfl⟩

lemma Holds.processNextPdu (hx : Unreported cfg tx s x) {k : CurNack}
    (hk : k ∈ s.expanded cfg.snModulus) (h : Holds tx x m) :
    Holds tx x (processNextPdu cfg s.ackSn k m).1 := by
  refine ⟨(steady_txNextAck.processNextPdu s.ackSn k m).trans h.base,
    ((steady_snOf cfg x).processNextPdu s.ackSn k m).trans h.sn, ?_⟩
  have hretx : ∀ cur rest, x ∈ (processRetransmitListHead cfg s.ackSn k m cur rest).1.waitDone ++
      (processRetransmitListHead cfg s.ackSn k m cur rest).1.waitNext := by
    intro cur rest
    obtain ⟨hdone, hnext⟩ := processRetransmitListHead_wait cfg s.ackSn k m cur rest
    rw [hdone, hnext]
    exact h.mem
  have hwait : ∀ cur rest, (if m.waitOver = true then [] else m.waitNext) = cur :: rest →
      x ∈ (Am.processWaitListHead cfg s.ackSn k m cur rest).1.waitDone ++
        (Am.processWaitListHead cfg s.ackSn k m cur rest).1.waitNext := by
    intro cur rest hlist
    apply h.processWaitListHead hx hk
    split at hlist
    · cases hlist
    · exact hlist
  rw [Am.processNextPdu]
  split
  · exact h.mem
  · exact hretx _ _
  · next hlist _ => exact hwait _ _ hlist
  · next hlist _ =>
    simp only
    split
    · exact hwait _ _ hlist
    · exact hretx _ _

theorem Unreported.kept (hx : Unreported cfg tx s x) (hmem : x ∈ tx.waitList) :
    x ∈ (processStatus cfg tx s).waitList := by
  let tx₀ := if snCompareTx cfg tx tx.pollSn s.ackSn < 0 then stopPoll tx else tx
  have hstart : Holds tx x (Merge.start tx₀) := by
    refine ⟨?_, ?_, ?_⟩
    · show tx₀.txNextAck = _
      dsimp only [tx₀]
      split <;> rfl
    · show snOf tx₀ x = _
      dsimp only [tx₀]
      split <;> rfl
    · show x ∈ tx₀.waitList
      dsimp only [tx₀]
      split <;> exact hmem
  have hnacks : Holds tx x (s.nacks.foldl (processNackEntry cfg s.ackSn) (Merge.start tx₀)) :=
    processNacks_invariant (fun _ hk _ h => h.processNextPdu hx hk) (fun _ h => { h with }) _ hstart
  have hdone : Holds tx x (finishAck cfg s.ackSn
      (s.nacks.foldl (processNackEntry cfg s.ackSn) (Merge.start tx₀))) := by
    refine finishAck_invariant ?_ ?_ hnacks
    · intro m cur rest h hnext hbelow
      have hin := h.mem
      rw [hnext] at hin
      refine ⟨h.base, ((steady_snOf cfg x).freeAcked m.tx cur).trans h.sn, mem_of_unlink ?_ hin⟩
      rintro rfl
      rw [h.compare] at hbelow
      exact hx.ack hbelow
    · intro m cur rest h _ _
      exact ⟨h.base, (((steady_snOf cfg x).freeAcked _ cur).trans ((steady_snOf cfg x).subRetx m.tx cur)).trans h.sn,
        h.mem⟩
  exact hdone.mem

end Unreported

/-! ## What is sent waits -/

variable {cfg : Config} {tx : Tx} {sdu : Seg} {now : UInt64} {buffer : List UInt8}
  {r : Tx × Option (List UInt8)} {e e' : Entity}

lemma putInWaitList_ne_nil {tx' : Tx} (h : putInWaitList cfg tx sdu = some tx') :
    tx'.waitList ≠ [] := by
  rw [putInWaitList] at h
  split at h
  · obtain ⟨p, hp, rfl⟩ := map_eq_some_iff.mp h
    rw [sduSegmentListAppend] at hp
    split at hp
    · cases hp
      exact cons_ne_nil _ _
    · next hne =>
      obtain ⟨e, -, rfl⟩ := map_eq_some_iff.mp hp
      obtain ⟨y, rest, hlist⟩ := exists_cons_of_ne_nil hne
      rw [hlist, linkAfter]
      split <;> exact cons_ne_nil _ _
  · cases h
    cases tx.waitList with
    | nil => exact cons_ne_nil _ _
    | cons y rest =>
      rw [txSduSegmentListAdd]
      split <;> exact cons_ne_nil _ _

lemma serializeSdu_waitList {p : Bool} {r : Tx × List UInt8}
    (h : serializeSdu cfg now tx sdu buffer p = some r) : r.1.waitList = tx.waitList := by
  obtain ⟨pdu, -, rfl⟩ := map_eq_some_iff.mp h
  split <;> rfl

lemma sendRetx_ne_nil {r : Tx × List UInt8} (h : sendRetx cfg now tx sdu buffer = some r) :
    r.1.waitList ≠ [] := by
  obtain ⟨tx', hput, hser⟩ := bind_eq_some_iff.mp h
  have hne : tx'.waitList ≠ [] := putInWaitList_ne_nil hput
  rw [serializeSdu_waitList hser]
  exact hne

lemma sendTx_ne_nil {r : Tx × List UInt8} (h : sendTx cfg now tx sdu buffer = some r) :
    r.1.waitList ≠ [] := by
  obtain ⟨tx', hput, hser⟩ := bind_eq_some_iff.mp h
  have hne : tx'.waitList ≠ [] := putInWaitList_ne_nil hput
  rw [serializeSdu_waitList hser]
  exact hne

lemma generateRetxPdu_waits (h : generateRetxPdu cfg now tx buffer = some r) :
    r = (tx, none) ∨ r.1.waitList ≠ [] := by
  rw [generateRetxPdu] at h
  split at h
  · cases h
  · split at h
    · cases h
      exact Or.inl rfl
    · obtain ⟨r', hsend, rfl⟩ := map_eq_some_iff.mp h
      apply Or.inr
      split at hsend
      · exact sendRetx_ne_nil hsend
      · exact sendRetx_ne_nil hsend

lemma generateTxPdu_waits (h : generateTxPdu cfg now tx buffer = some r) :
    r = (tx, none) ∨ r.1.waitList ≠ [] := by
  rw [generateTxPdu] at h
  split at h
  · cases h
    exact Or.inl rfl
  · split at h
    · cases h
      exact Or.inl rfl
    · split at h
      · cases h
        exact Or.inl rfl
      · obtain ⟨r', hsend, rfl⟩ := map_eq_some_iff.mp h
        apply Or.inr
        split at hsend
        · exact sendTx_ne_nil hsend
        · exact sendTx_ne_nil hsend

lemma generateDataPdu_waits (h : generateDataPdu cfg now tx buffer = some r) :
    r = (tx, none) ∨ r.1.waitList ≠ [] := by
  rw [generateDataPdu] at h
  split at h
  · exact generateTxPdu_waits h
  · obtain ⟨p, hretx, hrest⟩ := bind_eq_some_iff.mp h
    rcases generateRetxPdu_waits hretx with rfl | hwaits
    · exact generateTxPdu_waits hrest
    · split at hrest
      · cases hrest
        exact .inr hwaits
      · rcases generateTxPdu_waits hrest with rfl | hwaits'
        · exact .inr hwaits
        · exact .inr hwaits'

/-! ## The invariant -/

/-- While the timer runs, a PDU waits for its acknowledgement. -/
def PollInv (tx : Tx) : Prop := tx.tPollRetransmitStart ≠ 0 → tx.waitList ≠ []

lemma PollInv.generatePdu (h : PollInv e.tx)
    (hstep : (generatePdu e buffer).map Prod.fst = some e') : PollInv e'.tx := by
  obtain ⟨r, hgen, rfl⟩ := map_eq_some_iff.mp hstep
  obtain ⟨status, -, hrest⟩ := bind_eq_some_iff.mp hgen
  split at hrest
  · cases hrest
    exact h
  · obtain ⟨p, hdata, rfl⟩ := map_eq_some_iff.mp hrest
    rcases generateDataPdu_waits hdata with rfl | hwaits
    · exact h
    · exact fun _ => hwaits

lemma PollInv.recvSdu {sduId : Int} (h : PollInv e.tx) (hstep : recvSdu e buffer sduId = some e') :
    PollInv e'.tx := by
  rw [Am.recvSdu] at hstep
  split at hstep
  · cases hstep
  · split at hstep
    · cases hstep
      exact h
    · obtain ⟨p, -, rfl⟩ := map_eq_some_iff.mp hstep
      exact h

lemma PollInv.discardSdu (sduId : Int) (h : PollInv e.tx) : PollInv (discardSdu e sduId).tx := by
  rw [Am.discardSdu]
  split
  · exact h
  · split
    · exact h
    · exact h

lemma moveToRetransmit_timer (cfg : Config) (sn : Int) (list : List Seg) : ∀ tx : Tx,
    (moveToRetransmit cfg sn tx list).tPollRetransmitStart = tx.tPollRetransmitStart := by
  induction list with
  | nil => exact fun _ => rfl
  | cons cur rest ih =>
    intro tx
    rw [moveToRetransmit]
    split
    · exact ih _
    · rfl

lemma PollInv.setTime (h : PollInv e.tx) (hstep : setTime e now = some e') : PollInv e'.tx := by
  obtain ⟨tx, hpoll, hrest⟩ := bind_eq_some_iff.mp hstep
  obtain ⟨rx, -, rfl⟩ := map_eq_some_iff.mp hrest
  rw [checkTPollRetransmit] at hpoll
  split at hpoll
  · cases hpoll
    exact h
  · refine fun hruns => absurd ?_ hruns
    dsimp only at hpoll
    split at hpoll
    · cases hpoll
      rfl
    · split at hpoll
      · cases hpoll
      · cases hpoll
        exact moveToRetransmit_timer _ _ _ _

lemma PollInv.recvPdu (h : PollInv e.tx) (hleaves : LeavesWaiting e.cfg e.tx buffer)
    (hstep : recvPdu e buffer = some e') : PollInv e'.tx := by
  rw [Am.recvPdu] at hstep
  split at hstep
  · cases hstep
  · cases hstep
    exact h
  · split at hstep
    · obtain ⟨tx, hctl, rfl⟩ := map_eq_some_iff.mp hstep
      rw [processControlPdu] at hctl
      split at hctl
      · cases hctl
      · cases hctl
        exact h
      · next s hread =>
        cases hctl
        split
        · next hvalid =>
          intro hruns
          obtain ⟨hstops, hkeeps⟩ := processStatus_timer e.cfg e.tx s
          by_cases hpoll : PollReported e.cfg e.tx s
          · exact absurd (hstops hpoll) hruns
          · rw [hkeeps hpoll] at hruns
            rw [LeavesWaiting, hread] at hleaves
            obtain ⟨x, hmem, hx⟩ := (hleaves hruns hvalid).resolve_left hpoll
            exact ne_nil_of_mem (hx.kept hmem)
        · exact h
    · obtain ⟨rx, -, rfl⟩ := map_eq_some_iff.mp hstep
      exact h

lemma PollInv.txOp {op : TxOp} (h : PollInv e.tx) (hg : op.Leaves e) (hstep : e.txOp op = some e') :
    PollInv e'.tx := by
  cases op with
  | recvSdu buffer sduId => exact h.recvSdu hstep
  | generatePdu buffer => exact h.generatePdu hstep
  | discardSdu sduId =>
    cases hstep
    exact h.discardSdu sduId
  | setTime now => exact h.setTime hstep
  | recvPdu buffer => exact h.recvPdu hg hstep
  | reestablishment =>
    cases hstep
    exact fun hruns => absurd rfl hruns

/-- **t_poll_retransmit never expires on an empty wait list**, in every state reached by SDUs, buffers,
discards, reestablishments, times and PDUs of any kind, as long as a report that comes while the timer runs reports
`poll_sn` or leaves a waiting segment unreported. -/
theorem poll_retransmit_waits {e : Entity} (h : Machine.Reach (txMachine TxOp.Leaves) e) (now : UInt64) :
    PollDefined e now := by
  have hinv : PollInv e.tx := by
    refine Machine.Reach.invariant (P := fun e => PollInv e.tx) ?_ ?_ h
    · intro e hfresh hruns
      obtain ⟨_, _, _, _, _, _, _, _, _, hnew⟩ := hfresh
      rw [newNrRlcEntityAm] at hnew
      split at hnew
      · cases hnew
        exact absurd rfl hruns
      · cases hnew
    · exact fun e op e' _ hinv hg hstep => hinv.txOp hg hstep
  exact fun hexp _ => hinv fun h0 => hexp (.inl h0)

theorem poll_retransmit_waits_lost_report : ∃ e, Machine.Reach (txMachine TxOp.Leaves) e ∧
    PollExpired e.cfg 100 e.tx ∧ checkPollAfterPduAssembly e.cfg e.tx = true ∧
    PollDefined e 100 ∧ e.tx.waitList.length = 2 := by
  obtain ⟨e, he, hp⟩ := Machine.Reach.exists_of_run (m := txMachine TxOp.Leaves)
    (P := fun e : Entity => e.cfg.tPollRetransmit = 45 ∧ e.tx.tPollRetransmitStart = 1 ∧
      checkPollAfterPduAssembly e.cfg e.tx = true ∧ e.tx.waitList.length = 2)
    (Machine.Reach.start fresh_freshAm)
    [.setTime 1, .recvSdu [1] 0, .recvSdu [2] 1, .generatePdu (List.replicate 8 0),
      .generatePdu (List.replicate 8 0), .recvPdu [0, 0, 0]] (by decide +kernel)
  refine ⟨e, he, ?_, hp.2.2.1, poll_retransmit_waits he 100, hp.2.2.2⟩
  rw [PollExpired, hp.1, hp.2.1]
  decide

theorem poll_retransmit_empty_wait_list : ∃ e, Machine.Reach (txMachine TxOp.Forward) e ∧
    PollExpired e.cfg 100 e.tx ∧ checkPollAfterPduAssembly e.cfg e.tx = true ∧ e.tx.waitList = [] ∧
    (TxOp.setTime 100).Forward e ∧ setTime e 100 = none := by
  obtain ⟨e, he, hp⟩ := Machine.Reach.exists_of_run (m := txMachine TxOp.Forward)
    (P := fun e : Entity => e.cfg.tPollRetransmit = 45 ∧ e.tx.tPollRetransmitStart = 1 ∧
      checkPollAfterPduAssembly e.cfg e.tx = true ∧ e.tx.waitList = [] ∧ e.tCurrent = 1)
    (Machine.Reach.start fresh_freshAm)
    [.setTime 1, .recvSdu [1] 0, .recvSdu [2] 1, .generatePdu (List.replicate 8 0),
      .generatePdu (List.replicate 8 0), .recvPdu [0, 2, 0x80, 0, 0],
      .generatePdu (List.replicate 8 0), .recvPdu [0, 1, 0]] (by decide +kernel)
  obtain ⟨ht, hstart, hcheck, hwait, hnow⟩ := hp
  have hexp : PollExpired e.cfg 100 e.tx := by
    rw [PollExpired, ht, hstart]
    decide
  refine ⟨e, he, hexp, hcheck, hwait, ?_, ?_⟩
  · show e.tCurrent ≤ 100
    rw [hnow]
    decide
  · have hcheck' : checkPollAfterPduAssembly e.cfg
        { e.tx with tPollRetransmitStart := 0, forcePoll := true } = true := hcheck
    have hnone : checkTPollRetransmit e.cfg 100 e.tx = none := by
      rw [checkTPollRetransmit, if_neg hexp]
      dsimp only
      rw [hcheck', hwait]
      rfl
    rw [setTime, hnone]
    rfl

end NrStack.Rlc.Am
