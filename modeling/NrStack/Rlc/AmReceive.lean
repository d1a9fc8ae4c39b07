/-
  The receive variables of an AM entity, whatever the peer sends.

  `RxInv` is the invariant of the variables and `rx_list`, `TimerInv` that of t_reassembly.  Two fields are
  there for the others: `rx_highest_status` is never the SN of a delivered SDU, so `rx_next` cannot overtake
  it, and the highest SN below `rx_next_highest` has an entry (`top`).

  `Reception` says once what a data PDU can do: nothing, store a segment, or complete an SDU.  A trigger
  that `rx_next` has passed lies more than the window ahead: so t_reassembly is stopped.
-/
import NrStack.Lib.Machine
import NrStack.Rlc.AmDecode
import NrStack.Rlc.AmRxList
import NrStack.Rlc.AmTransmit

namespace NrStack.Rlc.Am

open Circular Option

/-! ## The invariant -/

/-- The invariant of the receive variables, `rx_list` and the delivered SDUs. -/
structure RxInv (cfg : Config) (rx : Rx) : Prop where
  next_lt : rx.rxNext < cfg.snModulus
  status_lt : rx.rxHighestStatus < cfg.snModulus
  highest_lt : rx.rxNextHighest < cfg.snModulus
  status_le : modulusRx cfg rx rx.rxHighestStatus ≤ modulusRx cfg rx rx.rxNextHighest
  highest_le : modulusRx cfg rx rx.rxNextHighest ≤ cfg.windowSize
  ordered : Ordered cfg.snModulus rx.rxNext (modulusRx cfg rx rx.rxNextHighest) rx.rxList
  next_pending : sduDelivered rx.rxList rx.rxNext = false
  status_pending : sduDelivered rx.rxList rx.rxHighestStatus = false
  top : rx.rxNextHighest = rx.rxNext ∨
    ∃ l ∈ rx.rxList, modulusRx cfg rx l.sn + 1 = modulusRx cfg rx rx.rxNextHighest

/-- The invariant of t_reassembly: while it runs, it waits for an SN of the window. -/
def TimerInv (cfg : Config) (rx : Rx) : Prop :=
  rx.tReassemblyStart ≠ 0 → rx.rxNextStatusTrigger < cfg.snModulus ∧
    0 < modulusRx cfg rx rx.rxNextStatusTrigger ∧
    modulusRx cfg rx rx.rxNextStatusTrigger ≤ modulusRx cfg rx rx.rxNextHighest

/-- The state in which `recv_pdu` calls `reception_actions`, with `rx_next_highest` updated. -/
def stored (cfg : Config) (rx : Rx) (pdu : RxPdu) : Rx :=
  updateNextHighest cfg { rx with
    rxSize := rx.rxSize + pdu.size
    rxList := pduListAdd (snCompareRx cfg rx) rx.rxList pdu } pdu.sn

/-- `rx_next_highest` after an SN of the window was received. -/
def highestAfter (cfg : Config) (rx : Rx) (x : Nat) : Nat :=
  if modulusRx cfg rx rx.rxNextHighest ≤ modulusRx cfg rx x then (x + 1) % cfg.snModulus
  else rx.rxNextHighest

lemma stored_eq (cfg : Config) (rx : Rx) (pdu : RxPdu) :
    stored cfg rx pdu = { rx with
      rxSize := rx.rxSize + pdu.size
      rxList := pduListAdd (snCompareRx cfg rx) rx.rxList pdu
      rxNextHighest := highestAfter cfg rx pdu.sn } := by
  have hiff : snCompareRx cfg rx pdu.sn rx.rxNextHighest ≥ 0 ↔
      modulusRx cfg rx rx.rxNextHighest ≤ modulusRx cfg rx pdu.sn := by
    rw [snCompareRx]
    omega
  rw [stored, updateNextHighest, highestAfter]
  by_cases hle : modulusRx cfg rx rx.rxNextHighest ≤ modulusRx cfg rx pdu.sn
  · rw [if_pos hle]
    exact if_pos (hiff.mpr hle)
  · rw [if_neg hle]
    exact if_neg fun h => hle (hiff.mp h)

section Step

variable {cfg : Config} {rx : Rx}

section

variable (hcfg : cfg.Legal) (h : RxInv cfg rx)
include hcfg h

lemma modulusRx_highestAfter {x : Nat}
    (hx : x < cfg.snModulus) (hwin : modulusRx cfg rx x < cfg.windowSize) :
    highestAfter cfg rx x < cfg.snModulus ∧ modulusRx cfg rx (highestAfter cfg rx x) =
      max (modulusRx cfg rx rx.rxNextHighest) (modulusRx cfg rx x + 1) := by
  have hMW := hcfg.window
  rw [highestAfter]
  split
  · next hle =>
    refine ⟨Nat.mod_lt _ (by omega), ?_⟩
    have hsucc : modulusRx cfg rx ((x + 1) % cfg.snModulus) = modulusRx cfg rx x + 1 :=
      dist_succ_right hx h.next_lt (by show modulusRx cfg rx x + 1 < _; omega)
    omega
  · next hgt => exact ⟨h.highest_lt, by omega⟩

lemma RxInv.stored {pdu : RxPdu}
    (hsn : pdu.sn < cfg.snModulus) (hwin : modulusRx cfg rx pdu.sn < cfg.windowSize)
    (hdata : pdu.data ≠ none) : RxInv cfg (stored cfg rx pdu) := by
  obtain ⟨hlt, hmod⟩ := modulusRx_highestAfter hcfg h hsn hwin
  rw [stored_eq]
  have hord := (h.ordered.mono (le_max_left _ (modulusRx cfg rx pdu.sn + 1))).pduListAdd
    (fun a b => rfl) h.next_lt hsn (lt_of_lt_of_le (Nat.lt_succ_self _) (le_max_right _ _))
  have hpend : ∀ sn, sduDelivered rx.rxList sn = false →
      sduDelivered (pduListAdd (snCompareRx cfg rx) rx.rxList pdu) sn = false := by
    intro sn hfalse
    by_contra htrue
    rw [sduDelivered_pduListAdd hdata (by simpa using htrue)] at hfalse
    cases hfalse
  refine ⟨h.next_lt, h.status_lt, hlt, ?_, ?_, ?_, hpend _ h.next_pending,
    hpend _ h.status_pending, ?_⟩
  · show modulusRx cfg rx rx.rxHighestStatus ≤ modulusRx cfg rx (highestAfter cfg rx pdu.sn)
    rw [hmod]
    exact le_trans h.status_le (le_max_left _ _)
  · show modulusRx cfg rx (highestAfter cfg rx pdu.sn) ≤ cfg.windowSize
    have := h.highest_le
    omega
  · show Ordered _ _ (modulusRx cfg rx (highestAfter cfg rx pdu.sn)) _
    rw [hmod]
    exact hord
  · right
    show ∃ l ∈ pduListAdd _ rx.rxList pdu,
      modulusRx cfg rx l.sn + 1 = modulusRx cfg rx (highestAfter cfg rx pdu.sn)
    rcases le_total (modulusRx cfg rx rx.rxNextHighest) (modulusRx cfg rx pdu.sn + 1) with hle | hge
    · exact ⟨pdu, mem_pduListAdd.mpr (.inl rfl), by omega⟩
    · rcases h.top with heq | ⟨l, hl, htop⟩
      · have hzero : modulusRx cfg rx rx.rxNextHighest = 0 := by
          rw [heq]
          exact dist_self
        omega
      · exact ⟨l, mem_pduListAdd.mpr (.inr hl), by omega⟩

lemma updateHighestStatus_spec (x : Nat) :
    ∃ status, updateHighestStatus cfg (reassembleAndDeliver rx x) x =
        some { reassembleAndDeliver rx x with rxHighestStatus := status } ∧
      status < cfg.snModulus ∧ modulusRx cfg rx status ≤ modulusRx cfg rx rx.rxNextHighest ∧
      sduDelivered (freeSegments freed rx.rxList x) status = false := by
  have hMW := hcfg.window
  have hW := hcfg.windowSize_ge
  have hhigh := h.highest_le
  have hord := h.ordered.of_keys (freeSegments_keys rx.rxList x)
  rw [updateHighestStatus]
  split
  · obtain ⟨n, hskip, hn, -, hle, hpend⟩ := skipDelivered_length h.next_lt (by omega) hord h.status_lt
      h.status_le
    refine ⟨n, ?_, hn, hle, hpend⟩
    show Option.map _ (skipDelivered (freeSegments freed rx.rxList x) _ _ rx.rxHighestStatus) = _
    rw [show (reassembleAndDeliver rx x).rxList = freeSegments freed rx.rxList x from rfl, hskip]
    rfl
  · next hne =>
    have hne' : rx.rxHighestStatus ≠ x := fun heq => hne heq.symm
    refine ⟨rx.rxHighestStatus, rfl, h.status_lt, h.status_le, ?_⟩
    rw [sduDelivered_freeSegments hne']
    exact h.status_pending

end

/-- The state behind `reception_actions` on a complete SDU, before the timer is looked at. -/
def afterFull (cfg : Config) (rx : Rx) (x status k : Nat) (kept : List RxPdu) : Rx :=
  { reassembleAndDeliver rx x with
    rxHighestStatus := status
    rxNext := (rx.rxNext + k) % cfg.snModulus
    rxList := kept }

theorem receptionFull_spec (hcfg : cfg.Legal) (h : RxInv cfg rx) (x : Nat) :
    ∃ status k dropped kept, receptionFull cfg rx x = some (afterFull cfg rx x status k kept) ∧
      Freed cfg.snModulus rx.rxNext (modulusRx cfg rx rx.rxNextHighest)
        (freeSegments freed rx.rxList x) k dropped kept ∧
      RxInv cfg (afterFull cfg rx x status k kept) := by
  have hhigh := h.highest_le
  obtain ⟨status, hstatus, hslt, hsle, hspend⟩ := updateHighestStatus_spec hcfg h x
  have hord := h.ordered.of_keys (freeSegments_keys rx.rxList x)
  -- rx_next: the loop, or nothing when the SDU is not the one at rx_next
  obtain ⟨k, dropped, kept, hnext, hf⟩ : ∃ k dropped kept,
      updateNext cfg { reassembleAndDeliver rx x with rxHighestStatus := status } x =
        afterFull cfg rx x status k kept ∧
      Freed cfg.snModulus rx.rxNext (modulusRx cfg rx rx.rxNextHighest)
        (freeSegments freed rx.rxList x) k dropped kept := by
    rw [updateNext]
    split
    · obtain ⟨k, dropped, kept, hloop, hf⟩ := freeDelivered_spec _ _ _ _ h.next_lt hord
        (le_refl (freeSegments freed rx.rxList x).length)
      refine ⟨k, dropped, kept, ?_, hf⟩
      rw [show (reassembleAndDeliver rx x).rxList = freeSegments freed rx.rxList x from rfl,
        show (reassembleAndDeliver rx x).rxNext = rx.rxNext from rfl, hloop]
      rfl
    · next hne =>
      have hpend : sduDelivered (freeSegments freed rx.rxList x) rx.rxNext = false := by
        have hne' : rx.rxNext ≠ x := fun heq => hne heq.symm
        rw [sduDelivered_freeSegments hne']
        exact h.next_pending
      refine ⟨0, [], _, ?_, Freed.zero h.next_lt hord ?_⟩
      · rw [afterFull, Nat.add_zero, Nat.mod_eq_of_lt h.next_lt]
        rfl
      · rintro l rest heq ⟨hnone, hsn⟩
        rw [heq, sduDelivered_cons, if_pos hsn, hnone] at hpend
        cases hpend
  refine ⟨status, k, dropped, kept, by rw [receptionFull, hstatus, map_some, hnext], hf, ?_⟩
  have hkle := hf.le
  -- what is at least k ahead comes k nearer
  have hmove : ∀ sn < cfg.snModulus, k ≤ modulusRx cfg rx sn →
      modulusRx cfg (afterFull cfg rx x status k kept) sn = modulusRx cfg rx sn - k :=
    fun sn hlt hk => dist_add_left hlt h.next_lt hk
  have hstatusk : k ≤ modulusRx cfg rx status := by
    by_contra hlt
    rw [hf.delivered status hslt (Nat.lt_of_not_le hlt)] at hspend
    cases hspend
  have hhighest : modulusRx cfg (afterFull cfg rx x status k kept) rx.rxNextHighest =
      modulusRx cfg rx rx.rxNextHighest - k := hmove _ h.highest_lt hkle
  refine ⟨Nat.mod_lt _ (by omega), hslt, h.highest_lt, ?_, ?_, ?_, hf.pending, ?_, ?_⟩
  · show modulusRx cfg (afterFull cfg rx x status k kept) status ≤
      modulusRx cfg (afterFull cfg rx x status k kept) rx.rxNextHighest
    rw [hhighest, hmove status hslt hstatusk]
    omega
  · show modulusRx cfg (afterFull cfg rx x status k kept) rx.rxNextHighest ≤ _
    omega
  · show Ordered _ _ (modulusRx cfg (afterFull cfg rx x status k kept) rx.rxNextHighest) kept
    rw [hhighest]
    exact hf.ordered
  · show sduDelivered kept status = false
    rw [hf.split, sduDelivered_skip] at hspend
    · exact hspend
    · intro l hl heq
      have := hf.below l hl
      rw [heq] at this
      exact absurd this (not_lt.mpr hstatusk)
  · -- the entry below rx_next_highest is kept, or rx_next has caught up
    show rx.rxNextHighest = (rx.rxNext + k) % cfg.snModulus ∨ ∃ l ∈ kept,
      modulusRx cfg (afterFull cfg rx x status k kept) l.sn + 1 =
        modulusRx cfg (afterFull cfg rx x status k kept) rx.rxNextHighest
    rcases lt_or_ge k (modulusRx cfg rx rx.rxNextHighest) with hlt | hge
    · right
      have htop : ∃ l ∈ freeSegments freed rx.rxList x,
          modulusRx cfg rx l.sn + 1 = modulusRx cfg rx rx.rxNextHighest := by
        rcases h.top with heq | ⟨l, hl, htop⟩
        · have : modulusRx cfg rx rx.rxNextHighest = 0 := by rw [heq]; exact dist_self
          omega
        · have hmem : key l ∈ (freeSegments freed rx.rxList x).map key := by
            rw [freeSegments_keys]
            exact List.mem_map_of_mem hl
          obtain ⟨l', hl', hkey⟩ := List.mem_map.mp hmem
          have hsn : l'.sn = l.sn := congrArg Prod.fst hkey
          exact ⟨l', hl', by rw [hsn]; exact htop⟩
      obtain ⟨l, hl, htop⟩ := htop
      rw [hf.split] at hl
      rcases List.mem_append.mp hl with hl | hl
      · have hbelow : modulusRx cfg rx l.sn < k := hf.below l hl
        omega
      · have hlM : l.sn < cfg.snModulus := (hf.ordered.within l hl).1
        exact ⟨l, hl, by rw [hhighest, hmove l.sn hlM (by omega)]; omega⟩
    · left
      have hk : k = modulusRx cfg rx rx.rxNextHighest := by omega
      rw [hk]
      exact (add_dist h.highest_lt h.next_lt).symm

end Step

/-! ## The timer -/

/-- The receiver with its timer set. -/
def Rx.timed (rx : Rx) (start : UInt64) (trigger : Nat) : Rx :=
  { rx with tReassemblyStart := start, rxNextStatusTrigger := trigger }

/-- The SN that t_reassembly waits for is in the window, or `rx_next` has passed it. -/
def TriggerNear (cfg : Config) (rx : Rx) : Prop :=
  rx.tReassemblyStart ≠ 0 → rx.rxNextStatusTrigger < cfg.snModulus ∧
    (modulusRx cfg rx rx.rxNextStatusTrigger ≤ modulusRx cfg rx rx.rxNextHighest ∨
      cfg.windowSize < modulusRx cfg rx rx.rxNextStatusTrigger)

section Timer

variable {cfg : Config} {rx : Rx}

lemma RxInv.timed (h : RxInv cfg rx) (start : UInt64) (trigger : Nat) :
    RxInv cfg (rx.timed start trigger) :=
  { h with }

section

variable (hcfg : cfg.Legal) (h : RxInv cfg rx)
include hcfg h

lemma startTReassembly_spec (tCurrent : UInt64) {sn : Nat}
    (hsn : sn < cfg.snModulus) (hle : modulusRx cfg rx sn ≤ cfg.windowSize) :
    startTReassembly cfg tCurrent rx sn = rx ∨
      (startTReassembly cfg tCurrent rx sn = rx.timed tCurrent rx.rxNextHighest ∧
        0 < modulusRx cfg rx rx.rxNextHighest) := by
  have hMW := hcfg.window
  have hW := hcfg.windowSize_ge
  have hafter : modulusRx cfg rx ((sn + 1) % cfg.snModulus) = modulusRx cfg rx sn + 1 :=
    dist_succ_right hsn h.next_lt (by show modulusRx cfg rx sn + 1 < _; omega)
  rw [startTReassembly]
  split
  · next hstart =>
    refine .inr ⟨rfl, ?_⟩
    rcases hstart with hgt | ⟨heq, -⟩
    · rw [snCompareRx] at hgt
      omega
    · rw [heq, hafter]
      omega
  · exact .inl rfl

lemma stopTReassembly_spec (htrigger : TriggerNear cfg rx) :
    stopTReassembly cfg rx = rx.timed 0 rx.rxNextStatusTrigger ∨
      (stopTReassembly cfg rx = rx ∧ TimerInv cfg rx) := by
  have hMW := hcfg.window
  rw [stopTReassembly]
  split
  · exact .inl rfl
  · next hstay =>
    refine .inr ⟨rfl, ?_⟩
    intro hrun
    obtain ⟨hlt, hor⟩ := htrigger hrun
    have hne : rx.rxNextStatusTrigger ≠ rx.rxNext := fun heq => hstay ⟨hrun, .inl heq⟩
    refine ⟨hlt, dist_pos hlt h.next_lt hne, ?_⟩
    rcases hor with hle | hgt
    · exact hle
    · -- outside the window, and not at its edge: the third condition stops the timer
      exfalso
      refine hstay ⟨hrun, .inr (.inr ⟨?_, ?_⟩)⟩
      · rw [snInRecvWindow, decide_eq_true_eq]
        omega
      · intro heq
        have hedge : modulusRx cfg rx ((rx.rxNext + cfg.windowSize) % cfg.snModulus) =
            cfg.windowSize := dist_add_right h.next_lt (by omega)
        rw [← heq] at hedge
        omega

lemma TimerInv.afterFull (htimer : TimerInv cfg rx) {x status k : Nat}
    {dropped kept list : List RxPdu} (hf : Freed cfg.snModulus rx.rxNext
      (modulusRx cfg rx rx.rxNextHighest) list k dropped kept) :
    TriggerNear cfg (afterFull cfg rx x status k kept) := by
  intro hrun
  obtain ⟨hlt, hpos, hle⟩ := htimer hrun
  have hMW := hcfg.window
  have hkle := hf.le
  have hhigh := h.highest_le
  refine ⟨hlt, ?_⟩
  show dist _ ((rx.rxNext + k) % _) rx.rxNextStatusTrigger ≤
    dist _ ((rx.rxNext + k) % _) rx.rxNextHighest ∨
      cfg.windowSize < dist _ ((rx.rxNext + k) % _) rx.rxNextStatusTrigger
  rcases lt_or_ge (modulusRx cfg rx rx.rxNextStatusTrigger) k with hbehind | hahead
  · right
    rw [dist_add_left_behind hlt h.next_lt hbehind (by omega)]
    rw [modulusRx] at hbehind hpos
    omega
  · left
    rw [dist_add_left hlt h.next_lt hahead, dist_add_left h.highest_lt h.next_lt hkle]
    exact Nat.sub_le_sub_right hle k

lemma TimerInv.stored (htimer : TimerInv cfg rx) {pdu : RxPdu} (hsn : pdu.sn < cfg.snModulus)
    (hwin : modulusRx cfg rx pdu.sn < cfg.windowSize) : TimerInv cfg (stored cfg rx pdu) := by
  obtain ⟨-, hmod⟩ := modulusRx_highestAfter hcfg h hsn hwin
  rw [stored_eq]
  intro hrun
  obtain ⟨hlt, hpos, hle⟩ := htimer hrun
  refine ⟨hlt, hpos, ?_⟩
  show modulusRx cfg rx _ ≤ modulusRx cfg rx (highestAfter cfg rx pdu.sn)
  rw [hmod]
  exact le_trans hle (le_max_left _ _)

theorem updateTReassembly_spec (tCurrent : UInt64) (htrigger : TriggerNear cfg rx) :
    ∃ start trigger, updateTReassembly cfg tCurrent rx = rx.timed start trigger ∧
      TimerInv cfg (rx.timed start trigger) := by
  have hstopped : ∀ trigger, TimerInv cfg (rx.timed 0 trigger) := fun trigger hne => absurd rfl hne
  have hnow : 0 < modulusRx cfg rx rx.rxNextHighest →
      TimerInv cfg (rx.timed tCurrent rx.rxNextHighest) :=
    fun hpos _ => ⟨h.highest_lt, hpos, le_refl _⟩
  have hself : modulusRx cfg rx rx.rxNext ≤ cfg.windowSize := by
    rw [modulusRx, dist_self]
    exact Nat.zero_le _
  rw [updateTReassembly]
  rcases stopTReassembly_spec hcfg h htrigger with hstop | ⟨hstop, hinv⟩
  · rw [hstop]
    rcases startTReassembly_spec hcfg (h.timed 0 rx.rxNextStatusTrigger) tCurrent h.next_lt hself with
      hsame | ⟨hstart, hpos⟩
    · exact ⟨0, rx.rxNextStatusTrigger, hsame, hstopped _⟩
    · exact ⟨tCurrent, rx.rxNextHighest, hstart, hnow hpos⟩
  · rw [hstop]
    split
    · rcases startTReassembly_spec hcfg h tCurrent h.next_lt hself with hsame | ⟨hstart, hpos⟩
      · exact ⟨rx.tReassemblyStart, rx.rxNextStatusTrigger, hsame, hinv⟩
      · exact ⟨tCurrent, rx.rxNextHighest, hstart, hnow hpos⟩
    · exact ⟨rx.tReassemblyStart, rx.rxNextStatusTrigger, rfl, hinv⟩

theorem checkTReassembly_spec (htimer : TimerInv cfg rx)
    (tCurrent : UInt64) : ∃ status triggered start trigger,
      checkTReassembly cfg tCurrent rx = some ({ rx with
        rxHighestStatus := status, statusTriggered := triggered }.timed start trigger) ∧
      RxInv cfg ({ rx with
        rxHighestStatus := status, statusTriggered := triggered }.timed start trigger) ∧
      TimerInv cfg ({ rx with
        rxHighestStatus := status, statusTriggered := triggered }.timed start trigger) := by
  have hMW := hcfg.window
  have hhigh := h.highest_le
  rw [checkTReassembly]
  split
  · exact ⟨rx.rxHighestStatus, rx.statusTriggered, rx.tReassemblyStart, rx.rxNextStatusTrigger, rfl,
      h, htimer⟩
  · next hexp =>
    have hrun : rx.tReassemblyStart ≠ 0 := fun heq => hexp (.inl heq)
    obtain ⟨htlt, -, htle⟩ := htimer hrun
    obtain ⟨n, hskip, hn, -, hle, hpend⟩ := skipDelivered_length h.next_lt (by omega) h.ordered htlt
      htle
    rw [hskip, map_some]
    have hinv : RxInv cfg ({ rx with rxHighestStatus := n, statusTriggered := true }.timed 0
        rx.rxNextStatusTrigger) :=
      { h with status_lt := hn, status_le := hle, status_pending := hpend }
    rcases startTReassembly_spec hcfg hinv tCurrent hn (le_trans hle hhigh) with
      hsame | ⟨hstart, hpos⟩
    · exact ⟨n, true, 0, rx.rxNextStatusTrigger, congrArg some hsame, hinv, fun hne => absurd rfl hne⟩
    · exact ⟨n, true, tCurrent, rx.rxNextHighest, congrArg some hstart, hinv.timed _ _,
        fun _ => ⟨h.highest_lt, hpos, le_refl _⟩⟩

end

end Timer

/-! ## What a data PDU can do -/

/-- A PDU that passes the discards of `recv_pdu`. -/
structure Accepted (cfg : Config) (rx : Rx) (pdu : RxPdu) : Prop where
  size : 0 < pdu.size
  room : rx.rxSize + pdu.size ≤ cfg.rxMaxsize
  window : modulusRx cfg rx pdu.sn < cfg.windowSize
  fresh : segmentAlreadyReceived rx.rxList pdu.sn pdu.so pdu.size = false

/-- The three things a data PDU can do: it is discarded, it is stored, or it is stored and
completes its SDU. -/
inductive Reception (cfg : Config) (rx : Rx) (pdu : RxPdu) : Rx → Prop
  | discarded : ¬ Accepted cfg rx pdu → Reception cfg rx pdu rx
  | kept {start : UInt64} {trigger : Nat} : Accepted cfg rx pdu →
      sduFull (stored cfg rx pdu).rxList pdu.sn = false →
      Reception cfg rx pdu ((stored cfg rx pdu).timed start trigger)
  | full {status k : Nat} {dropped left : List RxPdu} {start : UInt64} {trigger : Nat} :
      Accepted cfg rx pdu → sduFull (stored cfg rx pdu).rxList pdu.sn = true →
      Freed cfg.snModulus rx.rxNext (modulusRx cfg rx (stored cfg rx pdu).rxNextHighest)
        (freeSegments freed (stored cfg rx pdu).rxList pdu.sn) k dropped left →
      Reception cfg rx pdu ((afterFull cfg (stored cfg rx pdu) pdu.sn status k left).timed start trigger)

section Receive

variable {cfg : Config} {rx : Rx}

lemma stored_next (pdu : RxPdu) : (stored cfg rx pdu).rxNext = rx.rxNext := by rw [stored_eq]

lemma modulusRx_stored (pdu : RxPdu) (a : Nat) :
    modulusRx cfg (stored cfg rx pdu) a = modulusRx cfg rx a := by
  rw [modulusRx, stored_next, modulusRx]

theorem recvSegment_spec (hcfg : cfg.Legal) (h : RxInv cfg rx) (htimer : TimerInv cfg rx)
    (tCurrent : UInt64) {sn : Nat} (hsn : sn < cfg.snModulus) (so : Nat) (isFirst isLast : Bool)
    (data : List UInt8) :
    ∃ rx', recvSegment cfg tCurrent rx sn so isFirst isLast data = some rx' ∧
      Reception cfg rx (newPdu sn so isFirst isLast data) rx' ∧ RxInv cfg rx' ∧ TimerInv cfg rx' := by
  have hdiscard : ¬ Accepted cfg rx (newPdu sn so isFirst isLast data) → ∃ rx', some rx = some rx' ∧
      Reception cfg rx (newPdu sn so isFirst isLast data) rx' ∧ RxInv cfg rx' ∧ TimerInv cfg rx' :=
    fun hnot => ⟨rx, rfl, .discarded hnot, h, htimer⟩
  rw [recvSegment]
  split
  · next hempty => exact hdiscard fun hacc => not_lt.mpr hempty hacc.size
  split
  · next hover => exact hdiscard fun hacc => Int.not_lt.mpr hacc.room hover
  split
  · next hwin =>
    refine hdiscard fun hacc => ?_
    have hin : snInRecvWindow cfg rx sn = true := by
      rw [snInRecvWindow, decide_eq_true_eq]
      exact hacc.window
    rw [hin] at hwin
    cases hwin
  split
  · next hold =>
    refine hdiscard fun hacc => ?_
    have hfresh : segmentAlreadyReceived rx.rxList sn so data.length = false := hacc.fresh
    rw [hold] at hfresh
    cases hfresh
  next hempty hover hwin hfresh =>
  obtain ⟨pdu, hpdu⟩ : ∃ pdu, pdu = newPdu sn so isFirst isLast data := ⟨_, rfl⟩
  have hacc : Accepted cfg rx pdu := by
    subst hpdu
    exact ⟨Nat.lt_of_not_le hempty, Int.not_lt.mp hover,
      by simpa [snInRecvWindow, newPdu] using hwin, by simpa [newPdu] using hfresh⟩
  have hpsn : pdu.sn = sn := by rw [hpdu]; rfl
  rw [← hpsn] at hsn
  have hinv := h.stored hcfg hsn hacc.window (by rw [hpdu]; exact some_ne_none _)
  have ht := TimerInv.stored hcfg h htimer hsn hacc.window
  have hact : receptionActions cfg tCurrent { rx with
      rxSize := rx.rxSize + data.length
      rxList := pduListAdd (snCompareRx cfg rx) rx.rxList (newPdu sn so isFirst isLast data) } sn =
      (if sduFull (stored cfg rx pdu).rxList sn then receptionFull cfg (stored cfg rx pdu) sn
        else some (stored cfg rx pdu)).map (updateTReassembly cfg tCurrent) := by
    subst hpdu
    rfl
  rw [hact, ← hpdu]
  split
  · next hfull =>
    obtain ⟨status, k, dropped, left, hrec, hf, hinv'⟩ := receptionFull_spec hcfg hinv sn
    obtain ⟨start, trigger, htime, ht'⟩ := updateTReassembly_spec hcfg hinv' tCurrent
      (TimerInv.afterFull hcfg hinv ht hf)
    refine ⟨_, by rw [hrec, map_some, htime], ?_, hinv'.timed _ _, ht'⟩
    rw [modulusRx_stored, stored_next] at hf
    rw [← hpsn] at hf hfull ⊢
    exact .full hacc hfull hf
  · next hnot =>
    obtain ⟨start, trigger, htime, ht'⟩ := updateTReassembly_spec hcfg hinv tCurrent
      fun hrun => ⟨(ht hrun).1, .inl (ht hrun).2.2⟩
    refine ⟨_, by rw [map_some, htime], .kept hacc ?_, hinv.timed _ _, ht'⟩
    rw [hpsn]
    simpa using hnot

lemma RxInv.triggerStatus (h : RxInv cfg rx) (p : Bool) : RxInv cfg (triggerStatus rx p) :=
  { h with }

theorem recvDataPdu_spec (hcfg : cfg.Legal) (h : RxInv cfg rx) (htimer : TimerInv cfg rx)
    (tCurrent : UInt64) (buffer : List UInt8) {d : PduDecoder} {bs : List Bool} (hd : d.At bs) :
    ∃ rx', recvDataPdu cfg tCurrent rx buffer d = some rx' ∧ RxInv cfg rx' ∧ TimerInv cfg rx' := by
  have htrigger : ∀ p, ∃ rx', some (triggerStatus rx p) = some rx' ∧ RxInv cfg rx' ∧
      TimerInv cfg rx' := fun p => ⟨_, rfl, h.triggerStatus p, htimer⟩
  rw [recvDataPdu]
  rcases PduDecoder.read_cases hd (w := 1) (by omega) with herr | ⟨p, d₁, hread, -, h₁, -⟩
  · rw [herr]
    exact htrigger true
  rw [hread]
  rcases readDataHeader_cases hcfg h₁ with herr | ⟨si, sn, so, d₂, hread₂, hsn⟩
  · simp only [herr]
    exact htrigger _
  simp only [hread₂]
  split
  · exact htrigger _
  · obtain ⟨rx', hrec, -, hinv, ht⟩ := recvSegment_spec hcfg h htimer tCurrent hsn so
      (si &&& 2 == 0) (si &&& 1 == 0) (buffer.drop d₂.byte)
    rw [hrec]
    exact ⟨_, rfl, hinv.triggerStatus _, ht⟩

end Receive

/-! ## Runs of a receiving entity -/

/-- Nothing has been sent. -/
structure TxIdle (tx : Tx) : Prop where
  wait : tx.waitList = []
  retransmit : tx.retransmitList = []
  timer : tx.tPollRetransmitStart = 0

/-- A report processed by an idle side: no list has anything. -/
structure MergeIdle (m : Merge) : Prop where
  done : m.waitDone = []
  wait : m.waitNext = []
  new : m.newRetransmit = []
  retransmit : m.curRetransmit = []
  timer : m.tx.tPollRetransmitStart = 0

lemma TxIdle.processStatus {tx : Tx} (h : TxIdle tx) (cfg : Config) (s : StatusPdu) :
    TxIdle (processStatus cfg tx s) := by
  have hstart : MergeIdle (Merge.start
      (if snCompareTx cfg tx tx.pollSn s.ackSn < 0 then stopPoll tx else tx)) := by
    split
    · exact ⟨rfl, h.wait, rfl, h.retransmit, rfl⟩
    · exact ⟨rfl, h.wait, rfl, h.retransmit, h.timer⟩
  have hturn : ∀ k m, MergeIdle m → MergeIdle (processNextPdu cfg s.ackSn k m).1 := by
    intro k m hm
    rw [processNextPdu, hm.wait, hm.retransmit, ite_self]
    exact hm
  have hnacks := @processNacks_invariant cfg s.ackSn MergeIdle s.nacks (fun k _ => hturn k)
    (fun m hm => { hm with timer := rfl }) _ hstart
  have hend := @finishAck_invariant cfg s.ackSn MergeIdle
    (fun m x rest hm hnext => absurd (hm.wait.symm.trans hnext) (List.cons_ne_nil x rest).symm)
    (fun m x rest hm hcur => absurd (hm.retransmit.symm.trans hcur) (List.cons_ne_nil x rest).symm)
    _ hnacks
  exact ⟨List.append_eq_nil_iff.mpr ⟨hend.done, hend.wait⟩,
    List.append_eq_nil_iff.mpr ⟨hend.new, hend.retransmit⟩, hend.timer⟩

/-- What the receiving side is given. -/
inductive RxOp
  | recvPdu (buffer : List UInt8)
  | setTime (now : UInt64)

/-- One step; `none`: the process ends. -/
def Entity.rxStep (e : Entity) : RxOp → Option Entity
  | .recvPdu buffer => recvPdu e buffer
  | .setTime now => setTime e now

/-- An entity as `new_nr_rlc_entity_am` makes it. -/
def Entity.Fresh (e : Entity) : Prop :=
  ∃ rxMaxsize txMaxsize tPollRetransmit tReassembly tStatusProhibit pollPdu pollByte
    maxRetxThreshold snFieldLength,
    newNrRlcEntityAm rxMaxsize txMaxsize tPollRetransmit tReassembly tStatusProhibit pollPdu
      pollByte maxRetxThreshold snFieldLength = some e

/-- Any PDUs and times, from a new entity. -/
def rxMachine : Machine.Spec Entity RxOp where
  init := Entity.Fresh
  guard := fun _ _ => True
  step := Entity.rxStep

/-- The invariant of an entity that only receives. -/
structure ReceiverInv (e : Entity) : Prop where
  legal : e.cfg.Legal
  rx : RxInv e.cfg e.rx
  timer : TimerInv e.cfg e.rx
  idle : TxIdle e.tx

variable {e : Entity}

lemma Entity.Fresh.legal (h : e.Fresh) : e.cfg.Legal := by
  obtain ⟨rm, tm, a, b, c, d, f, g, L, hnew⟩ := h
  rw [newNrRlcEntityAm] at hnew
  split at hnew
  · next hL =>
    cases hnew
    refine ⟨hL, Nat.one_shiftLeft L, ?_⟩
    show 1 <<< L = 2 * ((1 <<< L) / 2)
    rcases hL with rfl | rfl <;> decide
  · cases hnew

lemma Entity.Fresh.receiverInv (h : e.Fresh) : ReceiverInv e := by
  have hlegal := h.legal
  obtain ⟨rm, tm, a, b, c, d, f, g, L, hnew⟩ := h
  rw [newNrRlcEntityAm] at hnew
  split at hnew
  · cases hnew
    have hM : 0 < 1 <<< L := by
      rw [Nat.one_shiftLeft]
      exact Nat.two_pow_pos L
    refine ⟨hlegal, ?_, fun hne => absurd rfl hne, rfl, rfl, rfl⟩
    exact ⟨hM, hM, hM, le_refl _, Nat.zero_le _, ⟨nofun, List.Pairwise.nil⟩,
      rfl, rfl, .inl rfl⟩
  · cases hnew

/-- Every step of the receiver returns and keeps its invariant. -/
theorem ReceiverInv.step (h : ReceiverInv e) (op : RxOp) :
    ∃ e', e.rxStep op = some e' ∧ ReceiverInv e' := by
  cases op with
  | recvPdu buffer =>
    show ∃ e', recvPdu e buffer = some e' ∧ ReceiverInv e'
    rw [recvPdu]
    rcases PduDecoder.read_cases (PduDecoder.At.init buffer) (w := 1) (by omega) with
      herr | ⟨dc, d, hread, -, hd, -⟩
    · rw [herr]
      exact ⟨e, rfl, h⟩
    simp only [hread]
    split
    · -- control PDU: the receiving side is not touched
      rw [processControlPdu]
      rcases readStatus_cases h.legal buffer with herr | ⟨s, hs, -⟩
      · rw [herr]
        exact ⟨e, rfl, h⟩
      · rw [hs]
        refine ⟨_, rfl, h.legal, h.rx, h.timer, ?_⟩
        split
        · exact h.idle.processStatus e.cfg s
        · exact h.idle
    · obtain ⟨rx', hrec, hinv, ht⟩ := recvDataPdu_spec h.legal h.rx h.timer e.tCurrent buffer hd
      rw [hrec]
      exact ⟨_, rfl, h.legal, hinv, ht, h.idle⟩
  | setTime now =>
    show ∃ e', setTime e now = some e' ∧ ReceiverInv e'
    have hpoll : checkTPollRetransmit e.cfg now e.tx = some e.tx := by
      exact if_pos (.inl h.idle.timer)
    obtain ⟨status, triggered, start, trigger, hcheck, hinv, ht⟩ :=
      checkTReassembly_spec h.legal h.rx h.timer now
    rw [setTime, hpoll, bind_some, hcheck, map_some]
    exact ⟨_, rfl, h.legal, hinv, ht, h.idle⟩

lemma receiverInv_reach (h : Machine.Reach rxMachine e) : ReceiverInv e := by
  refine Machine.Reach.invariant
    (fun e (hfresh : e.Fresh) => hfresh.receiverInv) ?_ h
  intro e op e' _ hinv _ hstep
  obtain ⟨e'', hstep', hinv'⟩ := hinv.step op
  rw [show rxMachine.step e op = e.rxStep op from rfl, hstep'] at hstep
  exact Option.some.inj hstep ▸ hinv'

/-- **Receive variables**: for every sequence of PDUs of arbitrary bytes and of times, the receive
variables are in order relative to `rx_next`, `rx_list` is sorted between `rx_next` and
`rx_next_highest`, the SDU at `rx_next` is not delivered, and a running t_reassembly waits for an SN
behind `rx_next`, `rx_next_highest` at most.  Every call returns. -/
theorem receive_variables {e : Entity} (h : Machine.Reach rxMachine e) :
    (e.rx.rxNext < e.cfg.snModulus ∧ e.rx.rxHighestStatus < e.cfg.snModulus ∧
      e.rx.rxNextHighest < e.cfg.snModulus) ∧
    snCompareRx e.cfg e.rx e.rx.rxNext e.rx.rxHighestStatus ≤ 0 ∧
    snCompareRx e.cfg e.rx e.rx.rxHighestStatus e.rx.rxNextHighest ≤ 0 ∧
    snCompareRx e.cfg e.rx e.rx.rxNextHighest
      ((e.rx.rxNext + e.cfg.windowSize) % e.cfg.snModulus) ≤ 0 ∧
    e.rx.rxList.Pairwise (fun x y =>
      snCompareRx e.cfg e.rx x.sn y.sn < 0 ∨ (x.sn = y.sn ∧ x.so ≤ y.so)) ∧
    (∀ l ∈ e.rx.rxList, l.sn < e.cfg.snModulus ∧ snCompareRx e.cfg e.rx e.rx.rxNext l.sn ≤ 0 ∧
      snCompareRx e.cfg e.rx l.sn e.rx.rxNextHighest < 0) ∧
    sduDelivered e.rx.rxList e.rx.rxNext = false ∧
    (e.rx.tReassemblyStart ≠ 0 → e.rx.rxNextStatusTrigger < e.cfg.snModulus ∧
      snCompareRx e.cfg e.rx e.rx.rxNext e.rx.rxNextStatusTrigger < 0 ∧
      snCompareRx e.cfg e.rx e.rx.rxNextStatusTrigger e.rx.rxNextHighest ≤ 0) ∧
    ∀ op, ∃ e', e.rxStep op = some e' := by
  have hinv := receiverInv_reach h
  have hrx := hinv.rx
  have hMW := hinv.legal.window
  have hW := hinv.legal.windowSize_ge
  have hbase : modulusRx e.cfg e.rx e.rx.rxNext = 0 := dist_self
  have hedge : modulusRx e.cfg e.rx ((e.rx.rxNext + e.cfg.windowSize) % e.cfg.snModulus) =
      e.cfg.windowSize := dist_add_right hrx.next_lt (by omega)
  have hstatus := hrx.status_le
  have hhighest := hrx.highest_le
  refine ⟨⟨hrx.next_lt, hrx.status_lt, hrx.highest_lt⟩, ?_, ?_, ?_, ?_, ?_, hrx.next_pending, ?_, ?_⟩
  · rw [snCompareRx, hbase]
    omega
  · rw [snCompareRx]
    omega
  · rw [snCompareRx, hedge]
    omega
  · refine hrx.ordered.sorted.imp ?_
    rintro x y (hlt | heq)
    · left
      have hlt' : modulusRx e.cfg e.rx x.sn < modulusRx e.cfg e.rx y.sn := hlt
      rw [snCompareRx]
      omega
    · exact .inr heq
  · intro l hl
    obtain ⟨hlM, hlt⟩ := hrx.ordered.within l hl
    have hlt' : modulusRx e.cfg e.rx l.sn < modulusRx e.cfg e.rx e.rx.rxNextHighest := hlt
    refine ⟨hlM, ?_, ?_⟩ <;> rw [snCompareRx]
    · rw [hbase]
      omega
    · omega
  · intro hrun
    obtain ⟨hlt, hpos, hle⟩ := hinv.timer hrun
    refine ⟨hlt, ?_, ?_⟩ <;> rw [snCompareRx]
    · rw [hbase]
      omega
    · omega
  · intro op
    obtain ⟨e', hstep, -⟩ := hinv.step op
    exact ⟨e', hstep⟩

/-- An entity with 12-bit sequence numbers. -/
def freshAm : Entity :=
  { cfg := ⟨45, 35, 0, -1, -1, 8, 12, 4096, 2048, 10000, 10000⟩
    tCurrent := 0
    rx := ⟨0, 0, 0, 0, false, 0, 0, [], 0, []⟩
    tx := ⟨0, 0, 0, 0, 0, false, 0, Heap.empty, [], none, 0, [], none, [], 0, 0, [], [], 0⟩ }

lemma fresh_freshAm : freshAm.Fresh := ⟨10000, 10000, 45, 35, 0, -1, -1, 8, 12, rfl⟩

instance (e : Entity) (op : RxOp) : Decidable (rxMachine.guard e op) := .isTrue trivial

theorem receive_variables_gap : ∃ e, Machine.Reach rxMachine e ∧ e.rx.tReassemblyStart = 5 ∧
    e.rx.rxNextStatusTrigger = 2 ∧ e.rx.rxList.length = 1 ∧
    snCompareRx e.cfg e.rx e.rx.rxNext e.rx.rxNextStatusTrigger < 0 := by
  obtain ⟨e, he, hp⟩ := Machine.Reach.exists_of_run (m := rxMachine)
    (P := fun e : Entity => e.rx.tReassemblyStart = 5 ∧ e.rx.rxNextStatusTrigger = 2 ∧
      e.rx.rxList.length = 1)
    (Machine.Reach.start fresh_freshAm) [.setTime 5, .recvPdu [0x80, 1, 7]] (by decide)
  have hrun : e.rx.tReassemblyStart ≠ 0 := by rw [hp.1]; decide
  obtain ⟨-, -, -, -, -, -, -, htimer, -⟩ := receive_variables he
  exact ⟨e, he, hp.1, hp.2.1, hp.2.2, (htimer hrun).2.1⟩

end NrStack.Rlc.Am
