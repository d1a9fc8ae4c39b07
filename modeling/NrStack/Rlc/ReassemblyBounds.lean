/-
  Where `reassemble_and_deliver` reads and writes.

  `sdu_full` stops at the first segment marked `is_last`; the copying loop copies whatever follows it as
  well.  A segment behind a gap is then copied from an address in front of its data.

  PROGRAM   `memcpyLoop`, the calls of memcpy the copying loop makes, one by one.
  SPEC      `Memcpy.Inside`: inside the segment's own data, and inside `sdu`.
  CRUX      no gap among the segments, up to one that does not fit `sdu` any more
            (`memcpyLoop_inside_iff`); every segment still has its data (`Stretches`).
-/
import NrStack.Rlc.AmRxSize
import NrStack.Rlc.UmEntity

namespace NrStack.Rlc

open List Option

/-! ## The copying loop -/

/-- `memcpy(sdu + so, pdu->data + so - pdu->so, len)` -/
structure Memcpy where
  so : Int
  pdu : RxPdu
  len : Int
  deriving DecidableEq, Repr

/-- The calls of memcpy that the copying loop makes. -/
def memcpyLoop : Int → Bool → List RxPdu → List Memcpy
  | _, _, [] => []
  | so, badSdu, pdu :: rest =>
    let len : Int := pdu.size - (so - pdu.so)
    let badSdu := badSdu || decide (so + len > nrSduMax)
    if badSdu = false ∧ len > 0 then ⟨so, pdu, len⟩ :: memcpyLoop (so + len) badSdu rest
    else memcpyLoop so badSdu rest

/-- The bytes that are copied; `none` where the source has none. -/
def Memcpy.bytes (c : Memcpy) : List (Option UInt8) := copyBytes c.pdu.data (c.so - c.pdu.so) c.len

/-- The call reads bytes of the segment only, and writes below `NR_SDU_MAX`. -/
structure Memcpy.Inside (c : Memcpy) : Prop where
  so_le : (c.pdu.so : Int) ≤ c.so
  end_le : c.so + c.len ≤ c.pdu.so + c.pdu.size
  source : 0 ≤ c.so - c.pdu.so ∧ c.so - c.pdu.so + c.len ≤ (c.pdu.data.getD []).length
  target : 0 ≤ c.so ∧ c.so + c.len ≤ nrSduMax

instance (c : Memcpy) : Decidable c.Inside :=
  decidable_of_iff (((c.pdu.so : Int) ≤ c.so ∧ c.so + c.len ≤ c.pdu.so + c.pdu.size) ∧
      (0 ≤ c.so - c.pdu.so ∧ c.so - c.pdu.so + c.len ≤ (c.pdu.data.getD []).length) ∧
      0 ≤ c.so ∧ c.so + c.len ≤ nrSduMax)
    ⟨fun h => ⟨h.1.1, h.1.2, h.2.1, h.2.2⟩, fun h => ⟨⟨h.so_le, h.end_le⟩, h.source, h.target⟩⟩

variable (list : List RxPdu)

theorem reassembleLoop_memcpys :
    ∀ (sdu : List (Option UInt8)) (badSdu : Bool), (reassembleLoop sdu badSdu list).1 =
      sdu ++ (memcpyLoop sdu.length badSdu list).flatMap Memcpy.bytes := by
  induction list with
  | nil =>
    intro sdu badSdu
    rw [reassembleLoop, memcpyLoop, flatMap_nil, append_nil]
  | cons pdu rest ih =>
    intro sdu badSdu
    simp only [reassembleLoop, memcpyLoop]
    split
    · next hcopy =>
      rw [ih, flatMap_cons, Memcpy.bytes, append_assoc]
      have hlen : ((sdu ++ copyBytes pdu.data (sdu.length - pdu.so)
          (pdu.size - (sdu.length - pdu.so))).length : Int) =
          sdu.length + (pdu.size - (sdu.length - pdu.so)) := by
        rw [length_append, copyBytes, length_map, length_range]
        omega
      rw [hlen]
    · rw [ih]

lemma memcpyLoop_bad : ∀ so, memcpyLoop so true list = [] := by
  induction list with
  | nil => exact fun _ => rfl
  | cons pdu rest ih =>
    intro so
    simp [memcpyLoop, ih]

/-- The segment ends within the largest SDU. -/
def fits (pdu : RxPdu) : Bool := decide (pdu.so + pdu.size ≤ nrSduMax)

/-- The copies stay in the SDU buffer iff the segments that fit leave no gap. -/
theorem memcpyLoop_inside_iff (segs : List RxPdu) :
    ∀ so : Nat, (∀ l ∈ segs, l.Whole) →
      ((∀ c ∈ memcpyLoop so false segs, c.Inside) ↔ missingFrom so (segs.takeWhile fits) = false) := by
  induction segs with
  | nil => exact fun so _ => ⟨fun _ => rfl, nofun⟩
  | cons pdu rest ih =>
    intro so hdata
    have hrest := fun so => ih so fun l hl => hdata l (mem_cons_of_mem _ hl)
    obtain ⟨data, hpdu, hsize⟩ := hdata pdu mem_cons_self
    have hend : (so : Int) + (pdu.size - (so - pdu.so)) = pdu.so + pdu.size := by omega
    simp only [memcpyLoop, hend, Bool.false_or]
    by_cases hfits : pdu.so + pdu.size ≤ nrSduMax
    · rw [takeWhile_cons_of_pos (by exact decide_eq_true hfits), missingFrom]
      have hgood : decide ((pdu.so : Int) + pdu.size > nrSduMax) = false :=
        decide_eq_false (by omega)
      rw [hgood]
      split
      · next hcopy =>
        have hmax : max so (pdu.so + pdu.size) = pdu.so + pdu.size := by omega
        rw [forall_mem_cons, hmax]
        have hih := hrest (pdu.so + pdu.size)
        push_cast at hih
        rw [hih]
        split
        · next hgap =>
          refine ⟨fun h => ?_, nofun⟩
          have hle := h.1.so_le
          simp only at hle
          omega
        · next hclose =>
          refine ⟨And.right, fun h => ⟨⟨?_, ?_, ⟨?_, ?_⟩, ?_, ?_⟩, h⟩⟩
          · simp only
            omega
          · simp only
            omega
          · simp only
            omega
          · simp only [hpdu, getD_some]
            omega
          · exact Int.natCast_nonneg _
          · simp only
            omega
      · next hskip =>
        have hle : pdu.so + pdu.size ≤ so := by
          by_contra hgt
          exact hskip ⟨rfl, by omega⟩
        rw [if_neg (by omega), show max so (pdu.so + pdu.size) = so by omega]
        exact hrest so
    · rw [takeWhile_cons_of_neg (by simp [fits]; omega), missingFrom]
      have hbad : decide ((pdu.so : Int) + pdu.size > nrSduMax) = true := decide_eq_true (by omega)
      rw [hbad, if_neg (fun h => Bool.noConfusion h.1), memcpyLoop_bad]
      exact ⟨fun _ => rfl, nofun⟩

theorem Stretches.inside_iff {list : List RxPdu} (h : Stretches list) {sn : Nat}
    (hfull : sduFull list sn = true) :
    (∀ c ∈ memcpyLoop 0 false (segmentsOf list sn), c.Inside) ↔
      missingFrom 0 ((segmentsOf list sn).takeWhile fits) = false :=
  memcpyLoop_inside_iff _ 0 (h.whole_of_full hfull)

lemma reassemble_memcpys (sn : Nat) :
    reassemble list sn = if (reassembleLoop [] false (segmentsOf list sn)).2 then none
      else some ((memcpyLoop 0 false (segmentsOf list sn)).flatMap Memcpy.bytes) := by
  have hcopied := reassembleLoop_memcpys (segmentsOf list sn) [] false
  rw [reassemble]
  generalize reassembleLoop [] false (segmentsOf list sn) = p at hcopied ⊢
  obtain ⟨sdu, badSdu⟩ := p
  cases badSdu with
  | true => rfl
  | false =>
    exact congrArg some hcopied

/-! ## Acknowledged mode -/

namespace Am

/-- The segments `reassemble_and_deliver` walks over when `recv_pdu` receives these bytes; `none` when
it is not called. -/
def Entity.reassembled (e : Entity) (buffer : List UInt8) : Option (List RxPdu) :=
  (dataPdu e.cfg buffer).bind fun pdu =>
    let list := pduListAdd (snCompareRx e.cfg e.rx) e.rx.rxList pdu
    if Accepted e.cfg e.rx pdu ∧ sduFull list pdu.sn = true then some (segmentsOf list pdu.sn) else none

section Receive

variable {e e' : Entity} {buffer : List UInt8}

lemma Reception.delivered {cfg : Config} {rx rx' : Rx} {pdu : RxPdu}
    (hrec : Reception cfg rx pdu rx') : rx'.delivered = rx.delivered ++
      (if Accepted cfg rx pdu ∧ sduFull (pduListAdd (snCompareRx cfg rx) rx.rxList pdu) pdu.sn = true
        then reassemble (pduListAdd (snCompareRx cfg rx) rx.rxList pdu) pdu.sn else none).toList := by
  cases hrec with
  | discarded hnot =>
    rw [if_neg fun h => hnot h.1]
    exact (append_nil _).symm
  | kept hacc hpart =>
    rw [stored_list] at hpart
    rw [if_neg fun h => by rw [hpart] at h; exact nomatch h.2]
    rw [stored_eq]
    exact (append_nil _).symm
  | full hacc hfull hf =>
    rw [stored_list] at hfull
    rw [if_pos ⟨hacc, hfull⟩]
    show (stored cfg rx pdu).delivered ++ (reassemble (stored cfg rx pdu).rxList pdu.sn).toList = _
    rw [stored_list, stored_eq]

theorem recvPdu_delivered (h : ReceiverInv e) (hstep : recvPdu e buffer = some e') :
    e'.rx.delivered = e.rx.delivered ++ ((e.reassembled buffer).bind fun segs =>
      if (reassembleLoop [] false segs).2 then none
      else some ((memcpyLoop 0 false segs).flatMap Memcpy.bytes)).toList := by
  obtain ⟨e₁, hstep₁, -, rx', p, hrx, hwhat⟩ := recvPdu_reception h buffer
  obtain rfl : e₁ = e' := Option.some.inj (hstep₁.symm.trans hstep)
  have hsame : e₁.rx.delivered = rx'.delivered := by rw [hrx]; rfl
  rw [hsame, Entity.reassembled]
  cases hdata : dataPdu e.cfg buffer with
  | none =>
    rw [hdata] at hwhat
    rw [show rx' = e.rx from hwhat]
    exact (append_nil _).symm
  | some pdu =>
    rw [hdata] at hwhat
    rw [hwhat.2.2.delivered]
    congr 2
    show _ = Option.bind (if _ then _ else _) _
    split
    · exact reassemble_memcpys _ _
    · rfl

lemma stretches_reach (h : Machine.Reach rxMachine e) : Stretches e.rx.rxList := by
  have hboth : ReceiverInv e ∧ Stretches e.rx.rxList := by
    refine Machine.Reach.invariant
      (P := fun e => ReceiverInv e ∧ Stretches e.rx.rxList) ?_ ?_ h
    · intro e (hfresh : e.Fresh)
      refine ⟨hfresh.receiverInv, ?_⟩
      obtain ⟨rm, tm, a, b, c, d, f, g, L, hnew⟩ := hfresh
      rw [newNrRlcEntityAm] at hnew
      split at hnew
      · cases hnew
        exact Stretches.nil
      · cases hnew
    · rintro e op e' - ⟨hinv, hlist⟩ - hstep
      obtain ⟨e₁, hstep₁, hinv'⟩ := hinv.step op
      obtain rfl : e₁ = e' := Option.some.inj (hstep₁.symm.trans hstep)
      refine ⟨hinv', ?_⟩
      cases op with
      | setTime now =>
        rw [(setTime_reception hinv hstep).2.1]
        exact hlist
      | recvPdu buffer =>
        obtain ⟨e₂, hstep₂, -, rx', p, hrx, hwhat⟩ := recvPdu_reception hinv buffer
        obtain rfl : e₁ = e₂ := Option.some.inj (hstep.symm.trans hstep₂)
        rw [hrx]
        show Stretches rx'.rxList
        cases hdata : dataPdu e.cfg buffer with
        | none =>
          rw [hdata] at hwhat
          rw [show rx' = e.rx from hwhat]
          exact hlist
        | some pdu =>
          rw [hdata] at hwhat
          obtain ⟨hwhole, hsn, hrec⟩ := hwhat
          exact hrec.stretches hinv.legal hinv.rx hsn hwhole hlist
  exact hboth.2

end Receive

end Am

/-! ## Unacknowledged mode -/

namespace Um

/-- The segment of a PDU that reaches the last three discards of `recv_pdu`; a complete SDU does not
come there. -/
def dataPdu (cfg : Config) (buffer : List UInt8) : Option RxPdu :=
  match (PduDecoder.init buffer buffer.length).read 2 with
  | .error _ => none
  | .ok (si, d) =>
    if (si &&& 2 == 0) && (si &&& 1 == 0) then none
    else match readSegmentHeader cfg (si &&& 2 == 0) d with
      | .error _ => none
      | .ok (sn, so, d) =>
        if !(si &&& 2 == 0) && so == 0 then none
        else some (newPdu sn so (si &&& 2 == 0) (si &&& 1 == 0) (buffer.drop d.byte))

lemma dataPdu_whole {cfg : Config} {buffer : List UInt8} {pdu : RxPdu}
    (h : dataPdu cfg buffer = some pdu) : pdu.Whole := by
  simp only [dataPdu] at h
  split at h
  · cases h
  split at h
  · cases h
  split at h
  · cases h
  split at h
  · cases h
  · rw [← Option.some.inj h]
    exact newPdu_whole ..

/-- A segment that passes the discards of `recv_pdu`. -/
structure Accepted (cfg : Config) (rx : Rx) (pdu : RxPdu) : Prop where
  size : 0 < pdu.size
  room : rx.rxSize + pdu.size ≤ cfg.rxMaxsize
  window : 0 ≤ snCompareRx cfg rx pdu.sn rx.rxNextReassembly

instance (cfg : Config) (rx : Rx) (pdu : RxPdu) : Decidable (Accepted cfg rx pdu) :=
  decidable_of_iff (0 < pdu.size ∧ rx.rxSize + pdu.size ≤ cfg.rxMaxsize ∧
      0 ≤ snCompareRx cfg rx pdu.sn rx.rxNextReassembly)
    ⟨fun h => ⟨h.1, h.2.1, h.2.2⟩, fun h => ⟨h.size, h.room, h.window⟩⟩

/-- The segments `reassemble_and_deliver` walks over when `recv_pdu` receives these bytes; `none` when
it is not called. -/
def Entity.reassembled (e : Entity) (buffer : List UInt8) : Option (List RxPdu) :=
  (dataPdu e.cfg buffer).bind fun pdu =>
    let list := pduListAdd (snCompareRx e.cfg e.rx) e.rx.rxList pdu
    if Accepted e.cfg e.rx pdu ∧ sduFull list pdu.sn = true then some (segmentsOf list pdu.sn) else none

/-- The complete SDU that `recv_pdu` delivers at once. -/
def wholeSdu (buffer : List UInt8) : List (List (Option UInt8)) :=
  match (PduDecoder.init buffer buffer.length).read 2 with
  | .error _ => []
  | .ok (si, _) =>
    if (si &&& 2 == 0) && (si &&& 1 == 0) && decide (2 ≤ buffer.length) then
      [(buffer.drop 1).map some] else []

section Receive

variable {e e' : Entity} {buffer : List UInt8}

/-- The state in which `recv_pdu` calls `reception_actions`. -/
def stored (cfg : Config) (rx : Rx) (pdu : RxPdu) : Rx :=
  { rx with
    rxSize := rx.rxSize + pdu.size
    rxList := pduListAdd (snCompareRx cfg rx) rx.rxList pdu }

theorem recvPdu_cases (hstep : recvPdu e buffer = some e') : e'.cfg = e.cfg ∧ e'.tx = e.tx ∧
    match dataPdu e.cfg buffer with
    | none => e'.rx = { e.rx with delivered := e.rx.delivered ++ wholeSdu buffer }
    | some pdu => wholeSdu buffer = [] ∧
      ((¬ Accepted e.cfg e.rx pdu ∧ e' = e) ∨
        (Accepted e.cfg e.rx pdu ∧
          receptionActions e.cfg e.tCurrent (stored e.cfg e.rx pdu) pdu.sn = some e'.rx)) := by
  have hnone : e.rx = { e.rx with delivered := e.rx.delivered ++ [] } := by rw [append_nil]
  rw [recvPdu] at hstep
  rw [dataPdu, wholeSdu]
  split at hstep
  · cases hstep
  · next herr =>
    cases hstep
    rw [herr]
    exact ⟨rfl, rfl, hnone⟩
  next si d hread =>
  simp only [hread]
  by_cases hwhole : ((si &&& 2 == 0) && (si &&& 1 == 0)) = true
  · rw [if_pos hwhole] at hstep
    rw [hwhole, if_pos rfl, Bool.true_and]
    split at hstep
    · next hshort =>
      cases hstep
      rw [if_neg (by rw [decide_eq_true_eq]; omega)]
      exact ⟨rfl, rfl, hnone⟩
    · next hlong =>
      cases hstep
      rw [if_pos (by rw [decide_eq_true_eq]; omega)]
      exact ⟨rfl, rfl, rfl⟩
  · rw [if_neg hwhole] at hstep
    have hfalse : ((si &&& 2 == 0) && (si &&& 1 == 0)) = false := Bool.eq_false_iff.mpr hwhole
    rw [hfalse, if_neg Bool.false_ne_true, Bool.false_and, if_neg Bool.false_ne_true]
    split at hstep
    · cases hstep
    · next herr =>
      cases hstep
      rw [herr]
      exact ⟨rfl, rfl, hnone⟩
    next sn so d' hhead =>
    simp only [hhead]
    split at hstep
    · next hbad =>
      cases hstep
      rw [if_pos hbad]
      exact ⟨rfl, rfl, hnone⟩
    · next hgood =>
      rw [if_neg hgood]
      rw [recvSegment] at hstep
      split at hstep
      · next hempty =>
        cases hstep
        exact ⟨rfl, rfl, trivial, .inl ⟨fun hacc => not_lt.mpr hempty hacc.size, rfl⟩⟩
      split at hstep
      · next hover =>
        cases hstep
        exact ⟨rfl, rfl, trivial, .inl ⟨fun hacc => Int.not_lt.mpr hacc.room hover, rfl⟩⟩
      split at hstep
      · next hwin =>
        cases hstep
        exact ⟨rfl, rfl, trivial, .inl ⟨fun hacc => Int.not_lt.mpr hacc.window hwin, rfl⟩⟩
      next hempty hover hwin =>
      obtain ⟨rx, hrec, rfl⟩ := map_eq_some_iff.mp hstep
      exact ⟨rfl, rfl, trivial, .inr
        ⟨⟨Nat.lt_of_not_le hempty, Int.not_lt.mp hover, Int.not_lt.mp hwin⟩, hrec⟩⟩

section

variable {cfg : Config} {tCurrent : UInt64} {rx rx' : Rx} {x : Nat}
  (hact : receptionActions cfg tCurrent rx x = some rx')
include hact

theorem receptionActions_cases :
    (sduFull rx.rxList x = true ∧ rx'.rxList = freeSegments freed rx.rxList x ∧
        rx'.rxSize = rx.rxSize - segmentsSize rx.rxList x ∧
        rx'.delivered = rx.delivered ++ (reassemble rx.rxList x).toList) ∨
      (¬ sduFull rx.rxList x = true ∧ rx'.delivered = rx.delivered ∧
        ∃ out : RxPdu → Bool, (∀ y z : RxPdu, y.sn = z.sn → out y = out z) ∧
          rx'.rxList = rx.rxList.dropWhile out ∧
          rx'.rxSize = rx.rxSize - ((rx.rxList.takeWhile out).map (·.size)).sum) := by
  obtain ⟨rx₁, hbranch, rfl⟩ := map_eq_some_iff.mp hact
  have htimer : ∀ rx : Rx, (startTReassembly cfg tCurrent (stopTReassembly cfg rx)).rxList = rx.rxList ∧
      (startTReassembly cfg tCurrent (stopTReassembly cfg rx)).rxSize = rx.rxSize ∧
      (startTReassembly cfg tCurrent (stopTReassembly cfg rx)).delivered = rx.delivered := by
    intro rx
    simp only [startTReassembly, stopTReassembly]
    split <;> split <;> exact ⟨rfl, rfl, rfl⟩
  rw [(htimer rx₁).1, (htimer rx₁).2.1, (htimer rx₁).2.2]
  split at hbranch
  · next hfull =>
    refine .inl ⟨hfull, ?_⟩
    simp only [receptionFull] at hbranch
    split at hbranch
    · obtain ⟨n, -, rfl⟩ := map_eq_some_iff.mp hbranch
      exact ⟨rfl, rfl, rfl⟩
    · cases hbranch
      exact ⟨rfl, rfl, rfl⟩
  · next hpart =>
    refine .inr ⟨hpart, ?_⟩
    rw [receptionPartial] at hbranch
    split at hbranch
    · -- whole SNs fall out of the window
      have hsame : ∀ y z : RxPdu, y.sn = z.sn →
          outside cfg { rx with rxNextHighest := (x + 1) % cfg.snModulus } y =
            outside cfg { rx with rxNextHighest := (x + 1) % cfg.snModulus } z := by
        intro y z heq
        rw [outside, outside, heq]
      rw [pullReassembly] at hbranch
      split at hbranch
      · obtain ⟨n, -, rfl⟩ := map_eq_some_iff.mp hbranch
        exact ⟨rfl, _, hsame, rfl, rfl⟩
      · cases hbranch
        exact ⟨rfl, _, hsame, rfl, rfl⟩
    · cases hbranch
      refine ⟨rfl, fun _ => false, fun _ _ _ => rfl, ?_, ?_⟩
      · cases rx.rxList <;> rfl
      · cases rx.rxList <;> exact (Int.sub_zero _).symm

lemma receptionActions_delivered : rx'.delivered = rx.delivered ++
      (if sduFull rx.rxList x = true then reassemble rx.rxList x else none).toList := by
  rcases receptionActions_cases hact with ⟨hfull, -, -, hdel⟩ | ⟨hpart, hdel, -⟩
  · rw [hdel, if_pos hfull]
  · rw [hdel, if_neg hpart, toList_none, append_nil]

theorem receptionActions_stretches (h : Stretches rx.rxList) :
    Stretches rx'.rxList := by
  rcases receptionActions_cases hact with ⟨hfull, hlist, -⟩ | ⟨-, -, out, hsame, hlist, -⟩
  · rw [hlist]
    exact h.freeSegments freed (fun _ => rfl) (fun _ => rfl) (fun _ => rfl) hfull
  · rw [hlist]
    exact h.dropWhile hsame

end

theorem recvPdu_delivered (hstep : recvPdu e buffer = some e') :
    e'.rx.delivered = e.rx.delivered ++ (wholeSdu buffer ++ ((e.reassembled buffer).bind fun segs =>
      if (reassembleLoop [] false segs).2 then none
      else some ((memcpyLoop 0 false segs).flatMap Memcpy.bytes)).toList) := by
  obtain ⟨-, -, hwhat⟩ := recvPdu_cases hstep
  rw [Entity.reassembled]
  cases hdata : dataPdu e.cfg buffer with
  | none =>
    rw [hdata] at hwhat
    rw [hwhat]
    exact congrArg _ (append_nil _).symm
  | some pdu =>
    rw [hdata] at hwhat
    obtain ⟨hwhole, hwhat⟩ := hwhat
    rw [hwhole, nil_append, bind_some]
    rcases hwhat with ⟨hnot, rfl⟩ | ⟨hacc, hact⟩
    · rw [if_neg fun h => hnot h.1]
      exact (append_nil _).symm
    · rw [receptionActions_delivered hact]
      show e.rx.delivered ++ (if sduFull (pduListAdd _ e.rx.rxList pdu) pdu.sn = true then
        reassemble (pduListAdd _ e.rx.rxList pdu) pdu.sn else none).toList = _
      congr 2
      split
      · next hfull =>
        rw [if_pos ⟨hacc, hfull⟩]
        exact reassemble_memcpys _ _
      · next hpart =>
        rw [if_neg fun h => hpart h.2]
        rfl

/-- What the receiving side is given. -/
inductive RxOp
  | recvPdu (buffer : List UInt8)
  | setTime (now : UInt64)

/-- One step; `none`: the process ends. -/
def Entity.rxStep (e : Entity) : RxOp → Option Entity
  | .recvPdu buffer => recvPdu e buffer
  | .setTime now => setTime e now

/-- An entity as `new_nr_rlc_entity_um` makes it. -/
def Entity.Fresh (e : Entity) : Prop :=
  ∃ rxMaxsize txMaxsize tReassembly snFieldLength,
    newNrRlcEntityUm rxMaxsize txMaxsize tReassembly snFieldLength = some e

/-- Any PDUs and times, from a new entity. -/
def rxMachine : Machine.Spec Entity RxOp where
  init := Entity.Fresh
  guard := fun _ _ => True
  step := Entity.rxStep

lemma stretches_reach (h : Machine.Reach rxMachine e) : Stretches e.rx.rxList := by
  refine Machine.Reach.invariant (P := fun e => Stretches e.rx.rxList) ?_ ?_ h
  · rintro e ⟨rm, tm, a, L, hnew⟩
    rw [newNrRlcEntityUm] at hnew
    split at hnew
    · cases hnew
      exact Stretches.nil
    · cases hnew
  · intro e op e' _ hlist _ hstep
    cases op with
    | recvPdu buffer =>
      obtain ⟨-, -, hwhat⟩ := recvPdu_cases hstep
      cases hdata : dataPdu e.cfg buffer with
      | none =>
        rw [hdata] at hwhat
        rw [hwhat]
        exact hlist
      | some pdu =>
        rw [hdata] at hwhat
        rcases hwhat.2 with ⟨-, rfl⟩ | ⟨hacc, hact⟩
        · exact hlist
        · refine receptionActions_stretches hact
            (hlist.pduListAdd (fun a => ?_) (dataPdu_whole hdata) hacc.size)
          rw [snCompareRx]
          omega
    | setTime now =>
      change setTime e now = some e' at hstep
      simp only [setTime, checkTReassembly] at hstep
      obtain ⟨rx, hcheck, rfl⟩ := map_eq_some_iff.mp hstep
      split at hcheck
      · cases hcheck
        exact hlist
      · obtain ⟨n, -, rfl⟩ := map_eq_some_iff.mp hcheck
        -- whole SNs are dropped
        split <;> exact hlist.dropWhile fun y z heq => by rw [snCompareRx, heq]; rfl

end Receive

end Um

/-! ## The result -/

/-- The copies of a reassembly. -/
def memcpys (segs : Option (List RxPdu)) : List Memcpy := (segs.map (memcpyLoop 0 false)).getD []

/-- The segments that are reassembled have no gap, up to one that does not fit `sdu`. -/
def Gapless (segs : Option (List RxPdu)) : Prop :=
  ∀ list ∈ segs, missingFrom 0 (list.takeWhile fits) = false
deriving Decidable

lemma memcpys_inside_iff {segs : Option (List RxPdu)}
    (h : ∀ list ∈ segs, ((∀ c ∈ memcpyLoop 0 false list, c.Inside) ↔
      missingFrom 0 (list.takeWhile fits) = false)) :
    (∀ c ∈ memcpys segs, c.Inside) ↔ Gapless segs := by
  cases segs with
  | none => exact ⟨nofun, nofun⟩
  | some list =>
    refine (h list rfl).trans ⟨fun hgap list' hlist => ?_, fun hgap => hgap list rfl⟩
    rw [← Option.some.inj hlist]
    exact hgap

lemma Am.Entity.reassembled_inside_iff {e : Am.Entity} (h : Machine.Reach Am.rxMachine e)
    (buffer : List UInt8) :
    (∀ c ∈ memcpys (e.reassembled buffer), c.Inside) ↔ Gapless (e.reassembled buffer) := by
  refine memcpys_inside_iff fun list hlist => ?_
  obtain ⟨pdu, hdata, hlist⟩ := bind_eq_some_iff.mp hlist
  simp only at hlist
  split at hlist
  · next hfull =>
    rw [← Option.some.inj hlist]
    refine ((Am.stretches_reach h).pduListAdd (fun a => ?_) (Am.dataPdu_whole hdata)
      hfull.1.size).inside_iff hfull.2
    rw [Am.snCompareRx]
    omega
  · cases hlist

lemma Um.Entity.reassembled_inside_iff {e : Um.Entity} (h : Machine.Reach Um.rxMachine e)
    (buffer : List UInt8) :
    (∀ c ∈ memcpys (e.reassembled buffer), c.Inside) ↔ Gapless (e.reassembled buffer) := by
  refine memcpys_inside_iff fun list hlist => ?_
  obtain ⟨pdu, hdata, hlist⟩ := bind_eq_some_iff.mp hlist
  simp only at hlist
  split at hlist
  · next hfull =>
    rw [← Option.some.inj hlist]
    refine ((Um.stretches_reach h).pduListAdd (fun a => ?_) (Um.dataPdu_whole hdata)
      hfull.1.size).inside_iff hfull.2
    rw [Um.snCompareRx]
    omega
  · cases hlist

/-- **Reassembly reads received bytes only**, in acknowledged and in unacknowledged mode, after every
sequence of PDUs of arbitrary bytes and of times: every memcpy for the next PDU is inside, exactly when
the segments it is called for have no gap. -/
theorem reassembly_inside_iff (buffer : List UInt8) :
    (∀ e, Machine.Reach Am.rxMachine e →
      ((∀ c ∈ memcpys (e.reassembled buffer), c.Inside) ↔ Gapless (e.reassembled buffer))) ∧
    (∀ e, Machine.Reach Um.rxMachine e →
      ((∀ c ∈ memcpys (e.reassembled buffer), c.Inside) ↔ Gapless (e.reassembled buffer))) :=
  ⟨fun _ h => Am.Entity.reassembled_inside_iff h buffer,
    fun _ h => Um.Entity.reassembled_inside_iff h buffer⟩

/-- An entity with 12-bit sequence numbers. -/
def Um.receivingUm : Um.Entity :=
  { cfg := ⟨35, 12, 4096, 2048, 10000, 10000⟩
    tCurrent := 0
    rx := ⟨0, 0, 0, 0, [], 0, []⟩
    tx := ⟨0, Heap.empty, [], none, 0, 0⟩ }

lemma Um.fresh_receivingUm : Um.receivingUm.Fresh := ⟨10000, 10000, 35, 12, rfl⟩

instance (e : Um.Entity) (op : Um.RxOp) : Decidable (Um.rxMachine.guard e op) := .isTrue trivial

theorem reassembly_inside_overlap :
    (∃ e, Machine.Reach Am.rxMachine e ∧ (memcpys (e.reassembled [0xa0, 0, 0, 1, 6, 7])).length = 2 ∧
      ∀ c ∈ memcpys (e.reassembled [0xa0, 0, 0, 1, 6, 7]), c.Inside) ∧
    (∃ e, Machine.Reach Um.rxMachine e ∧ (memcpys (e.reassembled [0x80, 0, 0, 1, 6, 7])).length = 2 ∧
      ∀ c ∈ memcpys (e.reassembled [0x80, 0, 0, 1, 6, 7]), c.Inside) := by
  constructor
  · obtain ⟨e, he, hp⟩ := Machine.Reach.exists_of_run (m := Am.rxMachine)
      (P := fun e : Am.Entity => (memcpys (e.reassembled [0xa0, 0, 0, 1, 6, 7])).length = 2 ∧
        Gapless (e.reassembled [0xa0, 0, 0, 1, 6, 7]))
      (Machine.Reach.start Am.fresh_freshAm) [.recvPdu [0x90, 0, 5, 6]] (by decide)
    exact ⟨e, he, hp.1, ((reassembly_inside_iff _).1 e he).mpr hp.2⟩
  · obtain ⟨e, he, hp⟩ := Machine.Reach.exists_of_run (m := Um.rxMachine)
      (P := fun e : Um.Entity => (memcpys (e.reassembled [0x80, 0, 0, 1, 6, 7])).length = 2 ∧
        Gapless (e.reassembled [0x80, 0, 0, 1, 6, 7]))
      (Machine.Reach.start Um.fresh_receivingUm) [.recvPdu [0x40, 0, 5, 6]] (by decide)
    exact ⟨e, he, hp.1, ((reassembly_inside_iff _).2 e he).mpr hp.2⟩

theorem reassembly_inside_behind_last :
    (∃ e, Machine.Reach Am.rxMachine e ∧ ∃ c ∈ memcpys (e.reassembled [0xa0, 0, 0, 1, 6]),
      c.so = 2 ∧ c.pdu.so = 3 ∧ c.len = 2 ∧ c.pdu.size = 1 ∧ ¬ c.Inside) ∧
    (∃ e, Machine.Reach Um.rxMachine e ∧ ∃ c ∈ memcpys (e.reassembled [0x80, 0, 0, 1, 6]),
      c.so = 2 ∧ c.pdu.so = 3 ∧ c.len = 2 ∧ c.pdu.size = 1 ∧ ¬ c.Inside) :=
  ⟨Machine.Reach.exists_of_run (m := Am.rxMachine) (s := Am.freshAm)
      (Machine.Reach.start Am.fresh_freshAm)
      [.recvPdu [0x90, 0, 5], .recvPdu [0xb0, 0, 0, 3, 9]] (by decide),
    Machine.Reach.exists_of_run (m := Um.rxMachine) (s := Um.receivingUm)
      (Machine.Reach.start Um.fresh_receivingUm)
      [.recvPdu [0x40, 0, 5], .recvPdu [0xc0, 0, 0, 3, 9]] (by decide)⟩

end NrStack.Rlc
