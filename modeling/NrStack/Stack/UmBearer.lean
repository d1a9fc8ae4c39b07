/-
  A data bearer end to end: PDCP over RLC UM, with the queues of `nr_pdcp_oai_api.c` between them.

  PROGRAM   `nr_pdcp_data_req_drb`, `rlc_data_req` on the sending side, `deliver_sdu`,
            `do_pdcp_data_ind` on the receiving one.
  CRUX      RLC UM loses nothing here, so PDCP sees the COUNTs one after the other (`InOrder`): nothing is
            stored, t-Reordering never starts and no assumption on the PDCP window is left.
-/
import NrStack.Pdcp.ReceiveBounds
import NrStack.Pdcp.Transfer
import NrStack.Rlc.UmLossless

namespace NrStack.Pdcp

open List

/-! ## A receiver that sees every COUNT in turn -/

/-- The first `a` of the SDUs `sent` are delivered, and nothing is stored. -/
structure InOrder (sent : List (List UInt8)) (e : Entity) (a : Nat) : Prop where
  running : e.entitySuspended = false
  deliv : e.rxDeliv = a
  next : e.rxNext = a
  empty : e.rxList = []
  timer : e.tReorderingStart = 0
  delivered : e.delivered.map Sdu.buffer = sent.take a

variable {e : Entity} {c : Crypto} {a : Nat} {sent : List (List UInt8)} {buffer sdu : List UInt8}

/-- With nothing stored, an admitted PDU not yet delivered is accepted. -/
theorem recvPdu_accept (hadm : e.Admitted c buffer) (hge : e.rxDeliv ≤ e.rxCount buffer)
    (hempty : e.rxList = []) : e.recvPdu c buffer = e.accept c buffer := by
  obtain ⟨hrunning, hlength, hok⟩ := hadm
  have hpos : ¬ buffer.length < 1 := by
    rw [Entity.forceDcBit_length] at hlength
    omega
  have hnew : ¬ (e.rxCount buffer < e.rxDeliv ∨ sduInList e.rxList (e.rxCount buffer) = true) := by
    rw [hempty]
    rintro (hlt | hin)
    · omega
    · cases hin
  have hok : ¬ (!e.integrityOk c (e.rxCount buffer) (e.rxClear c buffer)) = true := by
    rw [hok]
    decide
  rw [Entity.recvPdu, if_neg (ne_true_of_eq_false hrunning), if_neg hpos]
  dsimp only
  rw [if_neg (Nat.not_lt.mpr hlength)]
  exact (if_neg hok).trans (if_neg hnew)

theorem InOrder.recvPdu (h : InOrder sent e a) (hadm : e.Admitted c buffer)
    (hcount : e.rxCount buffer = a) (hbound : a + 1 < 2 ^ 32)
    (hsdu : sent[a]? = some (e.rxSdu c buffer).buffer) : InOrder sent (e.recvPdu c buffer) (a + 1) := by
  obtain ⟨hrunning, hdeliv, hnext, hempty, htimer, hdelivered⟩ := h
  have hu : u32 (a + 1) = a + 1 := Nat.mod_eq_of_lt hbound
  have hfirst : (e.rxSdu c buffer).count = a := hcount
  rw [recvPdu_accept hadm (by omega) hempty, Entity.accept, hcount]
  simp only [Entity.store, hempty, sduListAdd, hnext, hfirst, le_refl, if_true, Entity.deliverStored, hdeliv,
    Entity.deliverConsecutive, Entity.deliverHead, Entity.updateReordering, htimer, Entity.startReordering,
    hu, ne_eq, not_true_eq_false, false_and, if_false, lt_irrefl]
  refine ⟨hrunning, rfl, rfl, rfl, rfl, ?_⟩
  show (e.delivered ++ [e.rxSdu c buffer]).map Sdu.buffer = sent.take (a + 1)
  rw [map_append, hdelivered, take_add_one, hsdu]
  rfl

theorem InOrder.setTime (h : InOrder sent e a) (now : Nat) : InOrder sent (e.setTime now) a := by
  have hsame : e.setTime now = { e with tCurrent := now } := by
    rw [Entity.setTime, Entity.checkTReordering]
    split
    · rfl
    · exact if_pos (.inl h.timer)
  rw [hsame]
  exact { h with }

theorem txPdu_length (c : Crypto) (e : Entity) (sdu : List UInt8) :
    (e.txPdu c sdu).length = e.headerSize + sdu.length + e.integritySize := by
  have hencipher : ∀ count buf, (e.encipher c count buf).length = buf.length := by
    intro count buf
    rw [Entity.encipher]
    split
    · rw [length_append, c.cipher_length, ← length_append, take_append_drop]
    · rfl
  rw [Entity.txPdu, hencipher, length_append, length_append, header_length, macI_length]

/-- What one end writes at COUNT `a` the other end, at `a`, admits. -/
theorem admitted_txPdu (hinv : c.Involutive) {tx rx : Entity} (hm : Matched tx rx)
    (hrunning : rx.entitySuspended = false) (hsdu : tx.sdapHeaderSizeTx < sdu.length)
    (hcount : rx.rxCount (tx.txPdu c sdu) = tx.txNext) : rx.Admitted c (tx.txPdu c sdu) := by
  obtain ⟨rest, hpdu⟩ := txPdu_header c tx sdu
  obtain ⟨plain, hplain⟩ : ∃ plain, tx.header (tx.txNext &&& tx.snMax) ++ sdu = plain := ⟨_, rfl⟩
  have hlength : plain.length = tx.headerSize + sdu.length := by
    rw [← hplain, length_append, header_length]
  have hclear : rx.rxClear c (tx.txPdu c sdu) = plain ++ tx.macI c tx.txNext plain := by
    rw [Entity.rxClear, hcount, hpdu, forceDcBit_header hm, ← hpdu, Entity.txPdu, hplain]
    refine decipher_encipher hm hinv _ ?_
    rw [length_append]
    omega
  have hmac := macI_length c tx tx.txNext plain
  refine ⟨hrunning, ?_, ?_⟩
  · rw [Entity.forceDcBit_length, txPdu_length, hm.headerSize_eq, hm.sdapHeaderSize_eq,
      hm.integritySize_eq]
    omega
  · have hcut : (plain ++ tx.macI c tx.txNext plain).length - rx.integritySize = plain.length := by
      rw [length_append, hmac, hm.integritySize_eq, Nat.add_sub_cancel]
    rw [hclear, hcount, Entity.integrityOk, hcut, take_left', drop_left', hm.integrity,
      hm.integrityContext, hm.rbId, hm.direction_eq, Entity.macI]
    · cases tx.hasIntegrity with
      | false => rfl
      | true => exact beq_self_eq_true _
    · rfl
    · rfl

end NrStack.Pdcp

namespace NrStack.Stack

open List Machine Pdcp Rlc Rlc.Um

/-! ## The system -/

/-- Both layers of a bearer.  What a queue was given is the history of the layer that gives; `requested`
and `indicated` count what its thread has handed on. -/
structure Bearer where
  pdcp : Transfer
  rlc : Link
  requested : Nat
  indicated : Nat

/-- A step of the sender's or the receiver's side, or of the link between them. -/
inductive BearerOp
  | dataReq (sdu : List UInt8)
  | rlcDataReq (muiP : Int)
  /-- MAC fetches a PDU or brings one, or time passes at an RLC entity -/
  | rlc (op : LinkOp)
  | dataInd
  | setTimeTx (now : Nat)
  | setTimeRx (now : Nat)

namespace Bearer

/-- One thread submits the SDUs (`nr_pdcp_data_req_drb` gives up the PDCP lock between `process_sdu` and
the enqueue), so the queue has the PDUs in the order of their COUNTs.  `do_pdcp_data_ind` reads no byte
that reassembly did not write. -/
def step (c : Crypto) (s : Bearer) : BearerOp → Option Bearer
  | .dataReq sdu =>
    (s.pdcp.step c (.processSdu sdu (Entity.nrMaxPdcpPduSize sdu.length))).map fun pdcp =>
      { s with pdcp := pdcp }
  | .rlcDataReq muiP =>
    match s.pdcp.pdus[s.requested]? with
    | none => some s
    | some pdu => (s.rlc.step (.recvSdu pdu muiP)).map fun rlc =>
        { s with rlc := rlc, requested := s.requested + 1 }
  | .rlc op => (s.rlc.step op).map fun rlc => { s with rlc := rlc }
  | .dataInd =>
    match s.rlc.rx.rx.delivered[s.indicated]? with
    | none => some s
    | some buffer => (buffer.mapM id).map fun pdu =>
        { s with pdcp := { s.pdcp with rx := s.pdcp.rx.recvPdu c pdu }, indicated := s.indicated + 1 }
  | .setTimeTx now => (s.pdcp.step c (.setTimeTx now)).map fun pdcp => { s with pdcp := pdcp }
  | .setTimeRx now => (s.pdcp.step c (.setTimeRx now)).map fun pdcp => { s with pdcp := pdcp }

/-- SDUs are longer than the SDAP header and fit an RLC SDU as PDUs; RLC has room for what it is given;
MAC offers at least five bytes. -/
def Guard (s : Bearer) : BearerOp → Prop
  | .dataReq sdu => s.pdcp.tx.sdapHeaderSizeTx < sdu.length ∧ s.pdcp.tx.txNext + 1 < 2 ^ 32 ∧
      Entity.nrMaxPdcpPduSize sdu.length ≤ nrSduMax
  | .rlcDataReq _ => s.rlc.tx.tx.txSize + ((s.pdcp.pdus[s.requested]?).getD []).length ≤
      s.rlc.tx.cfg.txMaxsize
  | .rlc (.recvSdu _ _) => False
  | .rlc op => Link.Guard op
  | _ => True

instance (s : Bearer) : ∀ op, Decidable (s.Guard op)
  | .dataReq _ => inferInstanceAs (Decidable (_ ∧ _ ∧ _))
  | .rlcDataReq _ => inferInstanceAs (Decidable (_ ≤ _))
  | .rlc (.recvSdu _ _) => .isFalse id
  | .rlc (.generatePdu _) => inferInstanceAs (Decidable (_ ≤ _))
  | .rlc .recvPdu | .rlc (.setTimeTx _) | .rlc (.setTimeRx _) => .isTrue trivial
  | .dataInd | .setTimeTx _ | .setTimeRx _ => .isTrue trivial

/-- Nothing is on its way: both queues, `tx_list` and the channel are empty. -/
def Drained (s : Bearer) : Prop :=
  s.requested = s.pdcp.pdus.length ∧ s.rlc.tx.tx.txList = [] ∧ s.rlc.channel = [] ∧
    s.indicated = s.rlc.rx.rx.delivered.length

instance (s : Bearer) : Decidable s.Drained := inferInstanceAs (Decidable (_ ∧ _ ∧ _ ∧ _))

end Bearer

/-- The bearer, from entities that were just made and empty queues. -/
def bearerMachine (c : Crypto) : Spec Bearer BearerOp where
  init s := s.pdcp.Start ∧ s.rlc.Start ∧ s.requested = 0 ∧ s.indicated = 0
  guard := Bearer.Guard
  step := Bearer.step c

instance (c : Crypto) (s : Bearer) (op : BearerOp) : Decidable ((bearerMachine c).guard s op) :=
  inferInstanceAs (Decidable (s.Guard op))

/-- **The bearer invariant**: RLC has the PDUs of PDCP as its SDUs, PDCP has those RLC delivered. -/
structure BearerInv (c : Crypto) (s : Bearer) : Prop where
  link : LinkInv s.rlc
  transfer : TransferInv c s.pdcp
  running : s.pdcp.tx.entitySuspended = false
  count : s.rlc.tx.tx.heap.count = s.requested
  data : ∀ i < s.requested, s.pdcp.pdus[i]? = some (s.rlc.tx.tx.heap.data i)
  sizes : ∀ pdu ∈ s.pdcp.pdus, 1 ≤ pdu.length ∧ pdu.length ≤ nrSduMax
  inOrder : InOrder s.pdcp.sent s.pdcp.rx s.indicated

/-! ## One step of each layer -/

theorem start_inOrder {s : Transfer} (h : s.Start) :
    s.tx.entitySuspended = false ∧ InOrder s.sent s.rx 0 := by
  obtain ⟨_, _, _, _, _, _, _, _, _, _, -, htx, hrx, -⟩ := h
  obtain ⟨_, _, _, _, _, heq, -, -⟩ := Entity.setSecurity_cases htx
  obtain ⟨_, _, _, _, _, heq', -, -⟩ := Entity.setSecurity_cases hrx
  rw [heq, heq']
  exact ⟨rfl, rfl, rfl, rfl, rfl, rfl, rfl⟩

theorem recvSdu_heap {e e' : Um.Entity} {buffer : List UInt8} {id : Int}
    (hroom : e.tx.txSize + buffer.length ≤ e.cfg.txMaxsize) (h : Um.recvSdu e buffer id = some e') :
    e'.tx.heap = (e.tx.heap.newSdu buffer id).1 := by
  rw [Um.recvSdu] at h
  split at h
  · cases h
  · rw [if_neg (by omega)] at h
    obtain ⟨p, -, rfl⟩ := Option.map_eq_some_iff.mp h
    rfl

/-- Only `recv_sdu` changes what the SDUs of the sender are. -/
theorem link_step_heap {s s' : Link} {op : LinkOp} (h : LinkInv s) (hg : Link.Guard op)
    (hop : ∀ buffer id, op ≠ .recvSdu buffer id) (hstep : s.step op = some s') :
    s'.tx.tx.heap.count = s.tx.tx.heap.count ∧ s'.tx.tx.heap.data = s.tx.tx.heap.data := by
  cases op with
  | recvSdu buffer id => exact absurd rfl (hop buffer id)
  | generatePdu buffer =>
    obtain ⟨p, q, -, htx, -⟩ := h.link
    rw [Link.step, Um.generatePdu] at hstep
    rcases generateTxPdu_hop h.legal htx hg with hnone | ⟨tx', pdu, k, hsome, -, -, -, hcount, hdata⟩
    · rw [hnone] at hstep
      cases hstep
      exact ⟨rfl, rfl⟩
    · rw [hsome] at hstep
      cases hstep
      exact ⟨hcount, hdata⟩
  | recvPdu =>
    rw [Link.step] at hstep
    split at hstep
    · cases hstep
      exact ⟨rfl, rfl⟩
    · obtain ⟨rx, -, rfl⟩ := Option.map_eq_some_iff.mp hstep
      exact ⟨rfl, rfl⟩
  | setTimeTx now =>
    obtain ⟨tx, htx, rfl⟩ := Option.map_eq_some_iff.mp hstep
    obtain ⟨rx, -, rfl⟩ := Option.map_eq_some_iff.mp htx
    exact ⟨rfl, rfl⟩
  | setTimeRx now =>
    obtain ⟨rx, -, rfl⟩ := Option.map_eq_some_iff.mp hstep
    exact ⟨rfl, rfl⟩

variable {c : Crypto} {s : Bearer}

theorem dataReq_step (h : BearerInv c s) {sdu : List UInt8} (hg : s.Guard (.dataReq sdu)) :
    ∃ s', s.step c (.dataReq sdu) = some s' ∧ BearerInv c s' := by
  have hstep : s.pdcp.step c (.processSdu sdu (Entity.nrMaxPdcpPduSize sdu.length)) = some
      { s.pdcp with
        tx := { s.pdcp.tx with txNext := u32 (s.pdcp.tx.txNext + 1) }
        sent := s.pdcp.sent ++ [sdu], pdus := s.pdcp.pdus ++ [s.pdcp.tx.txPdu c sdu] } := by
    rw [Transfer.step, Entity.processSdu, if_pos (le_refl _), if_neg (ne_true_of_eq_false h.running)]
    rfl
  refine ⟨_, congrArg (Option.map _) hstep, h.link, processSdu_transfer c h.transfer hg.1 hg.2.1 hstep,
    h.running, h.count, ?_, ?_, { h.inOrder with delivered := ?_ }⟩
  · intro i hi
    have hget := h.data i hi
    exact (getElem?_append_left (List.getElem?_eq_some_iff.mp hget).1).trans hget
  · intro pdu hpdu
    rcases mem_append.mp hpdu with hold | hnew
    · exact h.sizes pdu hold
    · have hmax := hg.2.2
      rw [mem_singleton.mp hnew, txPdu_length]
      simp only [Entity.nrMaxPdcpPduSize, Entity.headerSize, Entity.integritySize, longPdcpHeaderSize,
        shortPdcpHeaderSize, pdcpIntegritySize] at hmax ⊢
      split <;> split <;> omega
  · have hle : s.indicated ≤ s.pdcp.sent.length := h.inOrder.next ▸ h.transfer.rxNext
    exact h.inOrder.delivered.trans (take_append_of_le_length hle).symm

theorem rlcDataReq_step (h : BearerInv c s) {muiP : Int} (hg : s.Guard (.rlcDataReq muiP)) :
    ∃ s', s.step c (.rlcDataReq muiP) = some s' ∧ BearerInv c s' := by
  have hroom : _ ≤ s.rlc.tx.cfg.txMaxsize := hg
  rw [Bearer.step]
  cases hpdu : s.pdcp.pdus[s.requested]? with
  | none => exact ⟨s, rfl, h⟩
  | some pdu =>
    have hsize : Link.Guard (.recvSdu pdu muiP) := h.sizes pdu (mem_of_getElem? hpdu)
    obtain ⟨rlc, hstep, hlink⟩ := linkInv_step h.link hsize
    obtain ⟨tx, htx, rfl⟩ := Option.map_eq_some_iff.mp hstep
    rw [hpdu] at hroom
    have hheap : tx.tx.heap = (s.rlc.tx.tx.heap.newSdu pdu muiP).1 := recvSdu_heap hroom htx
    refine ⟨_, congrArg (Option.map _) hstep, hlink, h.transfer, h.running, ?_, fun i hi => ?_, h.sizes,
      h.inOrder⟩
    · show tx.tx.heap.count = s.requested + 1
      rw [hheap, ← h.count]
      rfl
    · show s.pdcp.pdus[i]? = some (tx.tx.heap.data i)
      rw [hheap]
      rcases Nat.lt_succ_iff_lt_or_eq.mp hi with hlt | rfl
      · rw [Heap.data_newSdu_of_lt _ _ _ (h.count ▸ hlt), h.data i hlt]
      · rw [hpdu, ← h.count, Heap.data_newSdu_self]

/-- What RLC delivers next is the PDU that PDCP is waiting for. -/
theorem BearerInv.next_delivered (h : BearerInv c s) {buffer : List (Option UInt8)}
    (hget : s.rlc.rx.rx.delivered[s.indicated]? = some buffer) :
    ∃ pdu, buffer.mapM id = some pdu ∧ s.pdcp.pdus[s.indicated]? = some pdu := by
  obtain ⟨p, q, hrx, htx, hpath⟩ := h.link.link
  rw [hrx.delivered, getElem?_map, Option.map_eq_some_iff] at hget
  obtain ⟨i, hi, rfl⟩ := hget
  obtain ⟨hlt, rfl⟩ : s.indicated < p.sdu ∧ s.indicated = i := by
    obtain ⟨hlt, heq⟩ := List.getElem?_eq_some_iff.mp hi
    exact ⟨by rwa [length_range] at hlt, by rwa [getElem_range] at heq⟩
  refine ⟨_, ?_, h.data s.indicated ?_⟩
  · rw [mapM_map]
    exact (mapM_pure (m := Option) (f := id)).trans (congrArg some (map_id _))
  · have := hpath.sdu_le
    have := htx.le
    have := h.count
    omega

theorem dataInd_step (hinv : c.Involutive) (h : BearerInv c s) :
    ∃ s', s.step c .dataInd = some s' ∧ BearerInv c s' := by
  rw [Bearer.step]
  cases hget : s.rlc.rx.rx.delivered[s.indicated]? with
  | none => exact ⟨s, rfl, h⟩
  | some buffer =>
    obtain ⟨pdu, hbytes, hpdu⟩ := h.next_delivered hget
    obtain ⟨sdu, hsdu, rfl⟩ := h.transfer.pdus _ _ hpdu
    obtain ⟨hrunning, hdeliv, -, -, -, -⟩ := h.inOrder
    have hwindow : 0 < s.pdcp.rx.windowSize := by
      rcases h.transfer.window.config.cases with ⟨-, hw⟩ | ⟨-, hw⟩ <;> omega
    have hi : s.indicated < s.pdcp.sent.length := (List.getElem?_eq_some_iff.mp hsdu).1
    have hbound := h.transfer.bound
    have hm := h.transfer.matched.txNext s.indicated
    have hsdap := h.transfer.sdap sdu (mem_of_getElem? hsdu)
    obtain ⟨hcount, hbuffer⟩ := rxSdu_txPdu hinv hm h.transfer.window.config (le_of_lt hsdap) (by omega)
      (show s.indicated < 2 ^ 32 by omega) (show _ ≤ s.indicated + _ by omega)
      (show s.indicated < _ by omega)
    have hadm := admitted_txPdu hinv hm hrunning hsdap hcount
    refine ⟨_, congrArg (Option.map _) hbytes, h.link, ?_, h.running, h.count, h.data, h.sizes, ?_⟩
    · exact arrive_transfer hinv h.transfer (i := s.indicated) (by omega) (by omega)
        (congrArg (Option.map _) hpdu)
    · exact h.inOrder.recvPdu hadm hcount (by omega) (hsdu.trans (congrArg some hbuffer.symm))

/-- Every step of the bearer returns and keeps the invariant. -/
theorem bearerInv_step (hinv : c.Involutive) (h : BearerInv c s) {op : BearerOp} (hg : s.Guard op) :
    ∃ s', s.step c op = some s' ∧ BearerInv c s' := by
  cases op with
  | dataReq sdu => exact dataReq_step h hg
  | rlcDataReq muiP => exact rlcDataReq_step h hg
  | rlc op =>
    have hop : (∀ buffer id, op ≠ .recvSdu buffer id) ∧ Link.Guard op := by
      cases op with
      | recvSdu => exact hg.elim
      | _ => exact ⟨fun _ _ => LinkOp.noConfusion, hg⟩
    obtain ⟨rlc, hstep, hlink⟩ := linkInv_step h.link hop.2
    obtain ⟨hcount, hdata⟩ := link_step_heap h.link hop.2 hop.1 hstep
    refine ⟨_, congrArg (Option.map _) hstep, hlink, h.transfer, h.running, hcount.trans h.count, ?_, h.sizes,
      h.inOrder⟩
    intro i hi
    exact (h.data i hi).trans (congrArg (fun D => some (D i)) hdata.symm)
  | dataInd => exact dataInd_step hinv h
  | setTimeTx now =>
    have hframe := setTime_frame s.pdcp.tx now
    refine ⟨_, rfl, h.link, setTimeTx_transfer h.transfer now, ?_, h.count, h.data, h.sizes, h.inOrder⟩
    obtain ⟨_, _, _, _, _, _, _, heq⟩ := hframe
    exact (congrArg Pdcp.Entity.entitySuspended heq).trans h.running
  | setTimeRx now =>
    exact ⟨_, rfl, h.link, setTimeRx_transfer h.transfer now, h.running, h.count, h.data, h.sizes,
      h.inOrder.setTime now⟩

theorem bearerInv_reach (hinv : c.Involutive) (h : Reach (bearerMachine c) s) : BearerInv c s := by
  refine h.invariant ?_ ?_
  · rintro s ⟨hpdcp, hrlc, hrequested, hindicated⟩
    have hlink := linkInv_start hrlc
    obtain ⟨hrunning, hinOrder⟩ := start_inOrder hpdcp
    obtain ⟨_, _, _, _, _, _, _, _, _, _, -, -, -, -, hpdus⟩ := id hpdcp
    obtain ⟨_, _, _, _, _, _, _, hum, -⟩ := hrlc
    obtain ⟨-, -, -, -, hempty⟩ := newNrRlcEntityUm_legal hum
    refine ⟨hlink, start_inv c hpdcp, hrunning, ?_, ?_, ?_, hindicated ▸ hinOrder⟩
    · rw [hempty, hrequested]
      rfl
    · rw [hrequested]
      exact fun i hi => absurd hi (Nat.not_lt_zero i)
    · rw [hpdus]
      exact fun pdu hpdu => absurd hpdu not_mem_nil
  · intro s op s' _ hi hg hstep
    obtain ⟨s'', hstep', hi'⟩ := bearerInv_step hinv hi hg
    rw [show s.step c op = some s' from hstep] at hstep'
    exact Option.some.inj hstep' ▸ hi'

/-- **A bearer over RLC UM.**  However the threads of both layers, the buffer sizes MAC offers and the
timers interleave, the SDUs handed to the upper layer are the first ones submitted, byte for byte and in
order; none is missing once nothing is on its way; and no step of either side stops. -/
theorem um_bearer_in_order (c : Crypto) (hinv : c.Involutive) {s : Bearer}
    (h : Reach (bearerMachine c) s) :
    s.pdcp.rx.delivered.map Sdu.buffer <+: s.pdcp.sent ∧
      (s.Drained → s.pdcp.rx.delivered.map Sdu.buffer = s.pdcp.sent) ∧
      ∀ op, s.Guard op → (s.step c op).isSome = true := by
  have hi := bearerInv_reach hinv h
  rw [hi.inOrder.delivered]
  refine ⟨ take_prefix _ _, ?_, fun op hg => ?_⟩
  · rintro ⟨hrequested, hlist, hchannel, hindicated⟩
    obtain ⟨p, q, hrx, htx, hpath⟩ := hi.link.link
    -- `tx_list` is empty, so the sender is behind the last SDU, and the receiver is where the sender is
    have hq : q.sdu = s.rlc.tx.tx.heap.count := by
      by_contra hne
      have hpending := htx.list
      rw [hlist, pending, if_pos (lt_of_le_of_ne htx.le hne)] at hpending
      cases hpending
    rw [hchannel] at hpath
    cases hpath
    rw [hrx.delivered, length_map, length_range, hq, hi.count, hrequested, hi.transfer.written] at hindicated
    rw [hindicated, take_length]
  · obtain ⟨s', hstep, -⟩ := bearerInv_step hinv hi hg
    rw [hstep]
    rfl

theorem um_bearer_in_order_secured : ∃ s, Reach (bearerMachine .stream) s ∧
    s.pdcp.rx.delivered.map Sdu.buffer = [[0, 1], [0, 2]] ∧
      s.pdcp.rx.delivered.map Sdu.buffer = s.pdcp.sent := by
  obtain ⟨s, hs, hdel, hdrained⟩ := Reach.exists_of_run
    (P := fun s => s.pdcp.rx.delivered.map Sdu.buffer = [[0, 1], [0, 2]] ∧ s.Drained)
    (m := bearerMachine .stream) (s := ⟨securedPeers, ⟨freshUm, freshUm, []⟩, 0, 0⟩)
    (.start ⟨⟨.drbUm, true, 1, true, false, false, shortSnSize, 10, 10, ⟨2, 2, [7], [9]⟩,
      .inl rfl, rfl, rfl, rfl, rfl⟩, ⟨6, 16000, 16000, 16000, 16000, 35, 35, rfl, rfl, by decide, rfl⟩, rfl, rfl⟩)
    [.dataReq [0, 1], .dataReq [0, 2], .rlcDataReq 1, .rlc (.generatePdu [0, 0, 0, 0, 0]), .rlcDataReq 2,
      .rlc .recvPdu, .rlc (.generatePdu (replicate 20 0)), .rlc (.generatePdu (replicate 20 0)),
      .setTimeRx 5, .rlc .recvPdu, .dataInd, .rlc .recvPdu, .dataInd] (by decide)
  exact ⟨s, hs, hdel, (um_bearer_in_order .stream Crypto.stream_involutive hs).2.1 hdrained⟩

end NrStack.Stack
