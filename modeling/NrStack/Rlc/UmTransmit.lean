/-
  The UM sender along a lossless stream.

  `TxAt tx p`: everything before the position `p` has been generated and `tx_list` is the rest (`pending`).
  An accepted SDU joins at the end, the position stays (`recvSdu_at`); a buffer of at least five bytes, the
  largest header and one byte, always takes a hop further (`generateTxPdu_hop`).
-/
import NrStack.Rlc.UmReceive
import Mathlib

namespace NrStack.Rlc.Um

/-! ## The sender -/

/-- The next `k` bytes, as a segment. -/
def Pos.seg (D : Nat → List UInt8) (p : Pos) (k : Nat) : Seg :=
  ⟨p.sdu, k, p.off, decide (p.off = 0), decide (p.off + k = (D p.sdu).length)⟩

/-- What is left of the SDU, as a segment. -/
def Pos.rest (D : Nat → List UInt8) (p : Pos) : Seg := p.seg D ((D p.sdu).length - p.off)

/-- What is left from a position on, of the first `n` SDUs. -/
def pending (D : Nat → List UInt8) (n : Nat) (p : Pos) : List Seg :=
  if p.sdu < n then
    p.rest D :: (List.range' (p.sdu + 1) (n - (p.sdu + 1))).map fun h => (⟨h, 0, 0⟩ : Pos).rest D
  else []

/-- Everything before `p` has been generated, `tx_list` is the rest. -/
structure TxAt (cfg : Config) (tx : Tx) (p : Pos) : Prop where
  le : p.sdu ≤ tx.heap.count
  sizes : ∀ h < tx.heap.count, 0 < (tx.heap.data h).length ∧ (tx.heap.data h).length ≤ nrSduMax
  idle : p.sdu = tx.heap.count → p.off = 0
  inside : p.sdu < tx.heap.count → p.off < (tx.heap.data p.sdu).length
  list : tx.txList = pending tx.heap.data tx.heap.count p
  tail : tx.txEnd = tx.txList.getLast?
  next : tx.txNext = p.seq % cfg.snModulus

variable (D : Nat → List UInt8)

variable {n : Nat} {p : Pos}

lemma pending_cons (h : p.sdu < n) (s : Nat) :
    pending D n p = p.rest D :: pending D n ⟨p.sdu + 1, 0, s⟩ := by
  rw [pending, if_pos h, pending]
  congr 1
  show _ = if p.sdu + 1 < n then (_ : List Seg) else []
  split
  · next hlt =>
    rw [show n - (p.sdu + 1) = n - (p.sdu + 1 + 1) + 1 by omega, List.range'_succ, List.map_cons]
    rfl
  · next hge =>
    rw [show n - (p.sdu + 1) = 0 by omega]
    rfl

lemma pending_of_ge (h : n ≤ p.sdu) :
    pending D n p = [] := if_neg (by omega)

lemma pending_sdus (n : Nat) (p : Pos) :
    (pending D n p).map (·.sdu) = List.range' p.sdu (n - p.sdu) := by
  unfold pending
  split
  · next hlt =>
    rw [List.map_cons, List.map_map, show n - p.sdu = n - (p.sdu + 1) + 1 by omega,
      List.range'_succ]
    congr 1
    exact List.map_id _
  · next hge =>
    rw [show n - p.sdu = 0 by omega]
    rfl

lemma pending_nodup (n : Nat) (p : Pos) : (pending D n p).Nodup := by
  apply List.Nodup.of_map (·.sdu)
  rw [pending_sdus]
  exact List.nodup_range'

lemma pending_append {D D' : Nat → List UInt8} (hle : p.sdu ≤ n)
    (hidle : p.sdu = n → p.off = 0) (hD : ∀ h < n, D' h = D h) :
    pending D' (n + 1) p = pending D n p ++ [(⟨n, 0, 0⟩ : Pos).rest D'] := by
  have hrest : ∀ q : Pos, q.sdu < n → q.rest D' = q.rest D := by
    intro q hq
    rw [Pos.rest, Pos.rest, Pos.seg, Pos.seg, hD q.sdu hq]
  rcases lt_or_ge p.sdu n with hlt | hge
  · rw [pending, if_pos (by omega), pending, if_pos hlt, hrest p hlt,
      show n + 1 - (p.sdu + 1) = n - (p.sdu + 1) + 1 by omega, List.range'_concat, List.map_append,
      List.cons_append]
    congr 2
    · refine List.map_congr_left fun h hh => hrest _ ?_
      have := (List.mem_range'_1.mp hh).2
      show h < n
      omega
    · show [_] = [_]
      rw [show p.sdu + 1 + 1 * (n - (p.sdu + 1)) = n by omega]
  · have heq : p.sdu = n := by omega
    rw [pending_of_ge D hge, pending, if_pos (by omega), heq, Nat.sub_self, Pos.rest, Pos.seg,
      hidle heq, heq]
    rfl

variable {buffer : List UInt8}

theorem recvSdu_at {e : Entity} (htx : TxAt e.cfg e.tx p)
    (hpos : 0 < buffer.length) (hmax : buffer.length ≤ nrSduMax) (sduId : Int) :
    ∃ tx', recvSdu e buffer sduId = some { e with tx := tx' } ∧ TxAt e.cfg tx' p ∧
      e.tx.heap.count ≤ tx'.heap.count ∧
      ∀ h < e.tx.heap.count, tx'.heap.data h = e.tx.heap.data h := by
  rw [recvSdu, if_neg (by omega)]
  split
  · exact ⟨e.tx, rfl, htx, le_refl _, fun _ _ => rfl⟩
  · have hnd : e.tx.txList.Nodup := by
      rw [htx.list]
      exact pending_nodup _ _ _
    show ∃ tx', ((sduSegmentListAppend e.tx.txList e.tx.txEnd (e.tx.heap.newSdu buffer sduId).2).map
      _) = _ ∧ _
    rw [sduSegmentListAppend_eq _ hnd htx.tail]
    have hD : ∀ h < e.tx.heap.count, (e.tx.heap.newSdu buffer sduId).1.data h = e.tx.heap.data h :=
      fun h hh => Heap.data_newSdu_of_lt _ _ _ hh
    refine ⟨_, rfl, ?_, Nat.le_succ _, hD⟩
    refine ⟨Nat.le_succ_of_le htx.le, ?_, ?_, ?_, ?_, ?_, htx.next⟩
    · intro h hh
      rcases Nat.lt_succ_iff_lt_or_eq.mp hh with hlt | rfl
      · show 0 < ((e.tx.heap.newSdu buffer sduId).1.data h).length ∧
          ((e.tx.heap.newSdu buffer sduId).1.data h).length ≤ _
        rw [hD h hlt]
        exact htx.sizes h hlt
      · show 0 < ((e.tx.heap.newSdu buffer sduId).1.data e.tx.heap.count).length ∧
          ((e.tx.heap.newSdu buffer sduId).1.data e.tx.heap.count).length ≤ _
        rw [Heap.data_newSdu_self]
        exact ⟨hpos, hmax⟩
    · intro heq
      have := htx.le
      have heq : p.sdu = e.tx.heap.count + 1 := heq
      omega
    · intro _
      show p.off < ((e.tx.heap.newSdu buffer sduId).1.data p.sdu).length
      rcases Nat.lt_or_eq_of_le htx.le with hlt | heq
      · rw [hD p.sdu hlt]
        exact htx.inside hlt
      · rw [htx.idle heq, heq, Heap.data_newSdu_self]
        exact hpos
    · show e.tx.txList ++ [_] = pending (e.tx.heap.newSdu buffer sduId).1.data
        (e.tx.heap.count + 1) p
      rw [pending_append htx.le htx.idle hD, htx.list, Pos.rest, Pos.seg, Heap.data_newSdu_self]
      congr 2
      show (⟨e.tx.heap.count, buffer.length, 0, true, true⟩ : Seg) =
        ⟨e.tx.heap.count, buffer.length - 0, 0, true, decide (0 + (buffer.length - 0) = _)⟩
      rw [Nat.sub_zero, Nat.zero_add, decide_eq_true rfl]
    · exact List.getLast?_concat.symm

variable {cfg : Config} {tx : Tx} {k : Nat}

theorem sendSegment_hop (hcfg : cfg.Legal)
    (buffer : List UInt8) (hD : tx.heap.data = D) (hnext : tx.txNext = p.seq % cfg.snModulus)
    (hsn : (tx.heap.sdus p.sdu).sn = (p.seq % cfg.snModulus : Nat)) (hpos : 0 < k)
    (hwithin : p.off + k ≤ (D p.sdu).length)
    (hsizes : ∀ h < tx.heap.count, 0 < (D h).length ∧ (D h).length ≤ nrSduMax)
    (hlt : p.sdu < tx.heap.count) (hroom : computePduHeaderSize cfg (p.seg D k) ≤ buffer.length)
    (hlist : tx.txList = pending D tx.heap.count (p.advance D k))
    (htail : tx.txEnd = tx.txList.getLast?) :
    ∃ tx' pdu, sendSegment cfg tx (p.seg D k) buffer = some (tx', some pdu) ∧ Hop cfg D p k pdu ∧
      TxAt cfg tx' (p.advance D k) ∧ tx'.heap.count = tx.heap.count ∧ tx'.heap.data = D := by
  subst hD
  obtain ⟨pdu, hser, henc⟩ := serializeSdu_encodes hcfg tx.heap (p.seg tx.heap.data k) buffer hroom
  have hsn' : (tx.heap.sdus (p.seg tx.heap.data k).sdu).sn.toNat = p.seq % cfg.snModulus := by
    show (tx.heap.sdus p.sdu).sn.toNat = _
    rw [hsn]
    rfl
  rw [hsn'] at henc
  -- where the position comes to
  obtain ⟨hle, hidle, hinside⟩ : (p.advance tx.heap.data k).sdu ≤ tx.heap.count ∧
      ((p.advance tx.heap.data k).sdu = tx.heap.count → (p.advance tx.heap.data k).off = 0) ∧
      ((p.advance tx.heap.data k).sdu < tx.heap.count →
        (p.advance tx.heap.data k).off < (tx.heap.data (p.advance tx.heap.data k).sdu).length) := by
    rw [Pos.advance]
    split
    · exact ⟨hlt, fun _ => rfl, fun hin => (hsizes _ hin).1⟩
    · next hmore =>
      exact ⟨hlt.le, fun heq => absurd heq hlt.ne, fun _ => Nat.lt_of_le_of_ne hwithin hmore⟩
  have hdata : (tx.heap.freeSduSegment (p.seg tx.heap.data k)).1.data = tx.heap.data :=
    Heap.data_addFree _ _
  have hat : ∀ n size, n = (p.advance tx.heap.data k).seq % cfg.snModulus →
      TxAt cfg { tx with
        txNext := n, txSize := size, heap := (tx.heap.freeSduSegment (p.seg tx.heap.data k)).1 }
        (p.advance tx.heap.data k) := fun n size hn =>
    ⟨hle, by rw [hdata]; exact hsizes, hidle, by rw [hdata]; exact hinside, by rw [hdata]; exact hlist,
      htail, hn⟩
  have hop : Hop cfg tx.heap.data p k pdu := ⟨hpos, hwithin, (hsizes p.sdu hlt).2, henc⟩
  unfold sendSegment
  by_cases hinc : (!(p.seg tx.heap.data k).isFirst && (p.seg tx.heap.data k).isLast) = true
  · simp only [if_pos hinc, hser, Option.map_some]
    refine ⟨_, pdu, rfl, hop, hat _ _ ?_, rfl, hdata⟩
    have hc : p.off ≠ 0 ∧ p.off + k = (tx.heap.data p.sdu).length := by
      simpa [Pos.seg] using hinc
    rw [Pos.advance, if_pos hc.2, if_neg hc.1, hnext, Nat.mod_add_mod]
  · simp only [if_neg hinc, hser, Option.map_some]
    refine ⟨_, pdu, rfl, hop, hat _ _ ?_, rfl, hdata⟩
    have hc : ¬ (p.off ≠ 0 ∧ p.off + k = (tx.heap.data p.sdu).length) := by
      simpa [Pos.seg] using hinc
    rw [hnext, Pos.advance]
    split
    · next hend =>
      have hoff : p.off = 0 := by
        by_contra hne
        exact hc ⟨hne, hend⟩
      rw [if_pos hoff]
    · rfl

lemma computePduHeaderSize_le (cfg : Config) (seg : Seg) : computePduHeaderSize cfg seg ≤ 4 := by
  unfold computePduHeaderSize
  split <;> split <;> omega

lemma computePduHeaderSize_cut (cfg : Config) (seg : Seg) :
    computePduHeaderSize cfg seg ≤ computePduHeaderSize cfg seg.clearLast := by
  obtain ⟨sdu, size, so, isFirst, isLast⟩ := seg
  unfold computePduHeaderSize Seg.clearLast
  cases isFirst <;> cases isLast <;> cases hl : cfg.snFieldLength == 12 <;> simp

lemma takeHead_end {x : Seg} {rest : List Seg} :
    (if rest = [] then none else (x :: rest).getLast?) = rest.getLast? := by
  cases rest with
  | nil => rfl
  | cons z rest => rw [if_neg (List.cons_ne_nil z rest), List.getLast?_cons_cons]

lemma putBack_end {y : Seg} {rest : List Seg} :
    (if rest.getLast? = none then some y else rest.getLast?) = (y :: rest).getLast? := by
  cases rest with
  | nil => rfl
  | cons z rest =>
    exact if_neg nofun

lemma resegment_rest (heap : Heap) (hpos : 0 < k) (hwithin : p.off + k < (D p.sdu).length)
    (hk : computePduHeaderSize cfg (p.rest D).clearLast + k = n) :
    resegment cfg heap (p.rest D) n =
      (heap.addRef p.sdu, some (p.seg D k, (⟨p.sdu, p.off + k, p.seq⟩ : Pos).rest D)) := by
  have hsize : (p.rest D).size = (D p.sdu).length - p.off := rfl
  have hover : computePduHeaderSize cfg (p.rest D).clearLast + (p.rest D).size - n =
      (D p.sdu).length - (p.off + k) := by omega
  have hleft : (p.rest D).size - ((D p.sdu).length - (p.off + k)) = k := by omega
  rw [resegment, if_neg (by omega)]
  refine congrArg (Prod.mk _) (congrArg some ?_)
  rw [hover, hleft]
  refine Prod.ext ?_ ?_
  · show (⟨p.sdu, k, p.off, decide (p.off = 0), false⟩ : Seg) = ⟨p.sdu, k, p.off, _, _⟩
    rw [decide_eq_false (show ¬ p.off + k = (D p.sdu).length by omega)]
  · show (⟨p.sdu, _, p.off + k, false,
        decide (p.off + ((D p.sdu).length - p.off) = (D p.sdu).length)⟩ : Seg) =
      ⟨p.sdu, _, p.off + k, decide (p.off + k = 0),
        decide (p.off + k + ((D p.sdu).length - (p.off + k)) = (D p.sdu).length)⟩
    rw [decide_eq_false (show ¬ p.off + k = 0 by omega), decide_eq_true (by omega),
      decide_eq_true (by omega)]

/-- A PDU is a hop from where the sender stands. -/
theorem generateTxPdu_hop (hcfg : cfg.Legal) (htx : TxAt cfg tx p) (hbuf : 5 ≤ buffer.length) :
    generateTxPdu cfg tx buffer = some (tx, none) ∨
      ∃ tx' pdu k, generateTxPdu cfg tx buffer = some (tx', some pdu) ∧
        p.sdu < tx.heap.count ∧ Hop cfg tx.heap.data p k pdu ∧
        TxAt cfg tx' (p.advance tx.heap.data k) ∧ tx'.heap.count = tx.heap.count ∧
        tx'.heap.data = tx.heap.data := by
  rcases Nat.lt_or_eq_of_le htx.le with hlt | heq
  · right
    obtain ⟨D, hD⟩ : ∃ D, tx.heap.data = D := ⟨_, rfl⟩
    have hinside := htx.inside hlt
    have hsizes := htx.sizes
    have hlist := htx.list
    rw [hD] at hinside hsizes hlist ⊢
    rw [pending_cons D hlt p.seq] at hlist
    generalize hrest : pending D tx.heap.count ⟨p.sdu + 1, 0, p.seq⟩ = rest at hlist
    have htail := htx.tail
    rw [hlist] at htail
    have hcut := computePduHeaderSize_cut cfg (p.rest D)
    have hhdr' := computePduHeaderSize_le cfg (p.rest D).clearLast
    have hsize : (p.rest D).size = (D p.sdu).length - p.off := rfl
    -- the state with the head taken off
    have hdata : (takeHead cfg tx (p.rest D) rest).heap.data = D :=
      (Heap.data_setSn _ _ _).trans hD
    have hsn : ((takeHead cfg tx (p.rest D) rest).heap.sdus p.sdu).sn =
        (p.seq % cfg.snModulus : Nat) := by
      rw [← htx.next]
      exact Heap.sn_setSn_self _ _ _
    have hend : (takeHead cfg tx (p.rest D) rest).txEnd = rest.getLast? := by
      show (if rest = [] then none else tx.txEnd) = _
      rw [htail, takeHead_end]
    unfold generateTxPdu
    rw [hlist]
    dsimp only
    rw [if_neg (by omega)]
    split
    · -- the rest does not fit: as many bytes as fit, and the rest back to the head
      next hbig =>
      obtain ⟨k, hk⟩ := Nat.exists_eq_add_of_le
        (show computePduHeaderSize cfg (p.rest D).clearLast ≤ buffer.length by omega)
      have hwithin : p.off + k < (D p.sdu).length := by omega
      have hadv : p.advance D k = ⟨p.sdu, p.off + k, p.seq⟩ := if_neg (by omega)
      have hroom := computePduHeaderSize_le cfg (p.seg D k)
      rw [resegment_rest D _ (by omega) hwithin hk.symm]
      have hdata₂ : (putBack cfg (takeHead cfg tx (p.rest D) rest)
          ((takeHead cfg tx (p.rest D) rest).heap.addRef p.sdu)
          ((⟨p.sdu, p.off + k, p.seq⟩ : Pos).rest D)).heap.data = D :=
        (Heap.data_addRef _ _).trans hdata
      obtain ⟨tx', pdu, hsend, hop, hat, hcount, hdata'⟩ := sendSegment_hop D hcfg buffer hdata₂
        htx.next ((Heap.sn_addRef _ _ _).trans hsn) (by omega) hwithin.le hsizes hlt (by omega)
        (by rw [hadv]; exact (hrest ▸ pending_cons D (p := ⟨p.sdu, p.off + k, p.seq⟩) hlt p.seq).symm)
        (by
          show (if (takeHead cfg tx (p.rest D) rest).txEnd = none then _
            else (takeHead cfg tx (p.rest D) rest).txEnd) = _
          rw [hend, putBack_end]
          rfl)
      exact ⟨tx', pdu, k, hsend, hlt, hop, hat, hcount, hdata'⟩
    · -- the rest fits
      next hfits =>
      have hadv : p.advance D ((D p.sdu).length - p.off) = ⟨p.sdu + 1, 0, _⟩ := if_pos (by omega)
      obtain ⟨tx', pdu, hsend, hop, hat, hcount, hdata'⟩ := sendSegment_hop D hcfg buffer hdata htx.next
        hsn (k := (D p.sdu).length - p.off) (by omega) (by omega) hsizes hlt
        (show computePduHeaderSize cfg (p.rest D) ≤ _ by omega)
        (by rw [hadv]; exact hrest.symm) hend
      exact ⟨tx', pdu, _, hsend, hlt, hop, hat, hcount, hdata'⟩
  · left
    have hnil : tx.txList = [] := by rw [htx.list, pending_of_ge _ (by omega)]
    rw [generateTxPdu, hnil]

end NrStack.Rlc.Um
