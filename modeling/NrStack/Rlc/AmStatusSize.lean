/-
  The size of a status report, predicted and written (`missing_size`, `status_size`).

  `buffer_status` promises the MAC a status PDU of `status_size` bytes, computed by loops written apart from
  `generate_missing` and `generate_status`.  They agree turn by turn (`generateMissingLoop_size`).
  `status_size` asks `next_missing` for the head of the list while no NACK was counted, `generate_status` in
  its first turn only; a turn that counts no NACK had no room for one and is the last.
-/
import NrStack.Rlc.AmReceive
import NrStack.Rlc.AmCodec
import NrStack.Rlc.AmNacks

namespace NrStack.Rlc.Am

open List

/-! ## The functions -/

/-- What `missing_size` adds for a NACK. -/
def nackBytes (cfg : Config) (m : MissingData) : Nat :=
  let rBits := if cfg.snFieldLength = 18 then 3 else 1
  if m.snStart = m.snEnd then
    if m.whole then (cfg.snFieldLength + 3 + rBits) / 8
    else (cfg.snFieldLength + 3 + rBits + 16 * 2) / 8
  else if m.whole then (cfg.snFieldLength + 3 + rBits + 8) / 8
  else (cfg.snFieldLength + 3 + rBits + 16 * 2 + 8) / 8

/-- What `missing_size` carries from turn to turn and leaves behind: `*size`, `range_count`, and
whether it set `m->next` to null. -/
structure SizeCount where
  size : Nat
  rangeCount : Nat
  stopped : Bool
  deriving DecidableEq, Repr

/-- The loop of `missing_size`. -/
def missingSizeLoop (cfg : Config) (m : MissingData) (maxsize : Int) :
    Nat → Nat → Nat → Nat → Nat → SizeCount
  | 0, _, _, size, rangeCount => ⟨size, rangeCount, false⟩
  | fuel + 1, snCount, snStart, size, rangeCount =>
    if snCount = 0 then ⟨size, rangeCount, false⟩
    else if (size + nackSize cfg (cutRange cfg m snCount snStart) : Nat) > maxsize then
      ⟨size, rangeCount, true⟩
    else
      missingSizeLoop cfg m maxsize fuel (snCount - min snCount 255)
        ((snStart + min snCount 255) % cfg.snModulus)
        (size + nackBytes cfg (cutRange cfg m snCount snStart)) (rangeCount + 1)

/-- `missing_size`: a turn counts at least one SN, so `sn_count` turns are enough. -/
def missingSize (cfg : Config) (m : MissingData) (size : Nat) (maxsize : Int) : SizeCount :=
  missingSizeLoop cfg m maxsize (m.snCount cfg) (m.snCount cfg) m.snStart size 0

/-- The loop of `status_size`; `nack_count == 0` asks for the head of the list. -/
def statusSizeLoop (cfg : Config) (rx : Rx) (maxsize : Int) : Nat → List RxPdu → Nat → Nat → Nat
  | 0, _, _, size => size
  | _ + 1, [], _, size => size
  | fuel + 1, cur :: rest, nackCount, size =>
    match nextMissing cfg rx cur rest (nackCount == 0) with
    | none => size
    | some m =>
      let c := missingSize cfg m size maxsize
      statusSizeLoop cfg rx maxsize fuel (if c.stopped then [] else m.next)
        (nackCount + c.rangeCount) c.size

/-- `status_size` -/
def statusSize (cfg : Config) (rx : Rx) (maxsize : Int) : Nat :=
  if maxsize < 3 then 0
  else statusSizeLoop cfg rx maxsize (rx.rxList.length + 1) rx.rxList 0 3

/-! ## Fuel -/

section Fuel

variable {cfg : Config} {rx : Rx} {maxsize : Int}

lemma missingSizeLoop_none {m : MissingData} {fuel snCount snStart size rangeCount : Nat}
    (hcount : 0 < snCount) (hfuel : 0 < fuel)
    (hzero : (missingSizeLoop cfg m maxsize fuel snCount snStart size rangeCount).rangeCount = 0) :
    (missingSizeLoop cfg m maxsize fuel snCount snStart size rangeCount).stopped = true := by
  have hmono : ∀ fuel snCount snStart size rangeCount, rangeCount ≤
      (missingSizeLoop cfg m maxsize fuel snCount snStart size rangeCount).rangeCount := by
    intro fuel
    induction fuel with
    | zero => exact fun _ _ _ _ => le_refl _
    | succ fuel ih =>
      intro snCount snStart size rangeCount
      rw [missingSizeLoop]
      split
      · exact le_refl _
      split
      · exact le_refl _
      · exact Nat.le_of_succ_le (ih _ _ _ _)
  obtain ⟨fuel, rfl⟩ : ∃ k, fuel = k + 1 := ⟨fuel - 1, by omega⟩
  rw [missingSizeLoop, if_neg (by omega)] at hzero ⊢
  split
  · rfl
  · next hroom =>
    rw [if_neg hroom] at hzero
    have := hmono fuel (snCount - min snCount 255) ((snStart + min snCount 255) % cfg.snModulus)
      (size + nackBytes cfg (cutRange cfg m snCount snStart)) (rangeCount + 1)
    omega

lemma missingSize_none {m : MissingData} {size : Nat}
    (hzero : (missingSize cfg m size maxsize).rangeCount = 0) :
    (missingSize cfg m size maxsize).stopped = true :=
  missingSizeLoop_none (Nat.succ_pos _) (Nat.succ_pos _) hzero

theorem statusSizeLoop_fuel {fuel k : Nat} : ∀ {list : List RxPdu} {nackCount size : Nat},
    list.length + (if nackCount = 0 then 1 else 0) ≤ fuel →
      statusSizeLoop cfg rx maxsize (fuel + k) list nackCount size =
        statusSizeLoop cfg rx maxsize fuel list nackCount size := by
  induction fuel with
  | zero =>
    intro list nackCount size hfuel
    obtain rfl : list = [] := length_eq_zero_iff.mp (by omega)
    cases k <;> rfl
  | succ fuel ih =>
    intro list nackCount size hfuel
    cases list with
    | nil => rw [Nat.add_right_comm]; rfl
    | cons cur rest =>
      rw [Nat.add_right_comm, statusSizeLoop, statusSizeLoop]
      cases hm : nextMissing cfg rx cur rest (nackCount == 0) with
      | none => rfl
      | some m =>
        apply ih
        have hnext := nextMissing_next hm
        rw [length_cons] at hfuel
        split
        · rw [length_nil]
          split
          · next hnone => rw [if_pos (by omega)] at hfuel; omega
          · omega
        · next hstop =>
          have hpos : (missingSize cfg m size maxsize).rangeCount ≠ 0 :=
            fun hzero => hstop (missingSize_none hzero)
          rw [if_neg (by omega)]
          rcases Nat.eq_zero_or_pos nackCount with rfl | hcount
          · rw [if_pos rfl] at hfuel
            have hone : (0 == 0 : Bool).toNat = 1 := rfl
            omega
          · rw [if_neg (by omega)] at hfuel
            have hnone : (nackCount == 0) = false := beq_eq_false_iff_ne.mpr (by omega)
            rw [hnone] at hnext
            simp only [Bool.toNat_false] at hnext
            omega

end Fuel

/-! ## The two loops agree -/

section Agree

variable {cfg : Config}

lemma nackBytes_eq (hcfg : cfg.Legal) (m : MissingData) : nackBytes cfg m = nackSize cfg m := by
  rcases hcfg.length with hL | hL <;> simp [nackBytes, nackSize, hL]

theorem generateMissingLoop_size (hcfg : cfg.Legal) (m : MissingData) {maxsize : Int} (fuel : Nat) :
    ∀ (snCount snStart rangeCount : Nat) {w : StatusWriter} {ns : List WireNack}, Writing cfg w ns →
      (w.encoder.size : Int) = maxsize → ∃ w' ns',
        generateMissingLoop cfg m fuel snCount snStart w = some (w',
          (missingSizeLoop cfg m maxsize fuel snCount snStart w.encoder.byte rangeCount).stopped) ∧
        Writing cfg w' ns' ∧ w'.encoder.size = w.encoder.size ∧ w'.encoder.byte =
          (missingSizeLoop cfg m maxsize fuel snCount snStart w.encoder.byte rangeCount).size := by
  induction fuel with
  | zero =>
    intro snCount snStart rangeCount w ns hw hsize
    exact ⟨w, ns, rfl, hw, rfl, rfl⟩
  | succ fuel ih =>
    intro snCount snStart rangeCount w ns hw hsize
    rw [generateMissingLoop, missingSizeLoop]
    split
    · exact ⟨w, ns, rfl, hw, rfl, rfl⟩
    by_cases hroom : w.encoder.byte + nackSize cfg (cutRange cfg m snCount snStart) > w.encoder.size
    · rw [if_pos hroom, if_pos (by omega)]
      exact ⟨w, ns, rfl, hw, rfl, rfl⟩
    · rw [if_neg hroom, if_neg (by omega)]
      obtain ⟨w₁, hwrite, hw₁, hsize₁, -⟩ := writeNack_writing hcfg hw (cutRange cfg m snCount snStart)
        (min snCount 255) (Nat.le_of_not_lt hroom)
      have hbyte : w₁.encoder.byte =
          w.encoder.byte + nackBytes cfg (cutRange cfg m snCount snStart) := by
        rw [nackBytes_eq hcfg, hw₁.byte_eq hcfg, hw.byte_eq hcfg, nackSize_eq cfg _ (min snCount 255),
          statusLength, statusLength, map_append, sum_append, map_cons, map_nil,
          sum_cons, sum_nil]
        omega
      obtain ⟨w₂, ns₂, hloop, hw₂, hsize₂, hbyte₂⟩ := ih (snCount - min snCount 255)
        ((snStart + min snCount 255) % cfg.snModulus) (rangeCount + 1) hw₁ (hsize₁ ▸ hsize)
      rw [hbyte] at hloop hbyte₂
      exact ⟨w₂, ns₂, by rw [hwrite, Option.bind_some, hloop], hw₂, hsize₂.trans hsize₁, hbyte₂⟩

lemma Writing.byte_le {w : StatusWriter} {ns : List WireNack} (hw : Writing cfg w ns) :
    w.encoder.byte ≤ w.encoder.buffer.length := by
  have hin := hw.wrote.within
  have hsized := hw.wrote.sized
  omega

lemma patchSoEnd_encoder (w : StatusWriter) :
    (patchSoEnd w).encoder.byte = w.encoder.byte ∧
      (patchSoEnd w).encoder.buffer.length = w.encoder.buffer.length := by
  rw [patchSoEnd]
  cases w.soEndAddress with
  | none => exact ⟨rfl, rfl⟩
  | some a => exact ⟨rfl, by rw [length_set, length_set]⟩

lemma length_putAckSn (buffer : List UInt8) (ackSn : Nat) :
    (putAckSn cfg buffer ackSn).length = buffer.length := by
  rw [putAckSn]
  split
  · rw [length_set, length_set]
  · rw [length_orByte, length_set, length_set]

theorem statusLoop_size (hcfg : cfg.Legal) (rx : Rx) {maxsize : Int} (fuel : Nat) :
    ∀ (list : List RxPdu) (nackCount : Nat) {w : StatusWriter} {ns : List WireNack},
      Writing cfg w ns → (w.encoder.size : Int) = maxsize → ∃ w' truncated,
        statusLoop cfg rx fuel list (nackCount == 0) w = some (w', truncated) ∧
        w'.encoder.byte ≤ w'.encoder.buffer.length ∧ w'.encoder.buffer.length = w.encoder.size ∧
        w'.encoder.byte = statusSizeLoop cfg rx maxsize fuel list nackCount w.encoder.byte := by
  induction fuel with
  | zero =>
    intro list nackCount w ns hw hsize
    exact ⟨w, false, rfl, hw.byte_le, hw.wrote.sized.symm, rfl⟩
  | succ fuel ih =>
    intro list nackCount w ns hw hsize
    cases list with
    | nil => exact ⟨w, false, rfl, hw.byte_le, hw.wrote.sized.symm, rfl⟩
    | cons cur rest =>
      rw [statusLoop, statusSizeLoop]
      cases hm : nextMissing cfg rx cur rest (nackCount == 0) with
      | none => exact ⟨w, false, rfl, hw.byte_le, hw.wrote.sized.symm, rfl⟩
      | some m =>
        obtain ⟨w₁, ns₁, hmissing, hw₁, hsize₁, hbyte₁⟩ := generateMissingLoop_size hcfg m
          (m.snCount cfg) (m.snCount cfg) m.snStart 0 hw hsize
        change generateMissing cfg m w =
          some (w₁, (missingSize cfg m w.encoder.byte maxsize).stopped) at hmissing
        simp only [hmissing, Option.bind_some]
        cases hstop : (missingSize cfg m w.encoder.byte maxsize).stopped with
        | true =>
          obtain ⟨hbyte, hlen⟩ := patchSoEnd_encoder w₁
          refine ⟨patchSoEnd w₁, true, rfl, ?_, ?_, ?_⟩
          · rw [hbyte, hlen]
            exact hw₁.byte_le
          · rw [hlen, ← hw₁.wrote.sized, hsize₁]
          · rw [hbyte, hbyte₁]
            cases fuel <;> rfl
        | false =>
          -- a NACK was counted: neither loop looks at the head again
          have hcount : (nackCount + (missingSize cfg m w.encoder.byte maxsize).rangeCount == 0) =
              false := by
            refine beq_eq_false_iff_ne.mpr fun hzero => ?_
            have hnone : (missingSize cfg m w.encoder.byte maxsize).rangeCount = 0 := by omega
            rw [missingSize_none hnone] at hstop
            cases hstop
          obtain ⟨w₂, truncated, hloop, hle, hlen, hbyte₂⟩ := ih m.next
            (nackCount + (missingSize cfg m w.encoder.byte maxsize).rangeCount) hw₁ (hsize₁ ▸ hsize)
          rw [hcount] at hloop
          rw [hbyte₁] at hbyte₂
          exact ⟨w₂, truncated, hloop, hle, hlen.trans hsize₁, hbyte₂⟩

end Agree

/-! ## The report -/

/-- **`status_size` predicts `generate_status`**: for every receive state and every grant the report
is written, has the promised number of bytes, and fits. -/
theorem generateStatus_statusSize {cfg : Config} (hcfg : cfg.Legal) (tCurrent : UInt64) (rx : Rx)
    (maxsize : Int) (buffer : List UInt8) (hbuffer : buffer.length = maxsize.toNat) :
    ∃ rx' pdu, generateStatus cfg tCurrent rx buffer = some (rx', pdu) ∧
      (pdu.getD []).length = statusSize cfg rx maxsize ∧
      (statusSize cfg rx maxsize : Int) ≤ max maxsize 0 := by
  rw [generateStatus, statusSize]
  by_cases hsmall : maxsize < 3
  · rw [if_pos (by omega), if_pos hsmall]
    exact ⟨rx, none, rfl, rfl, by omega⟩
  · rw [if_neg (by omega), if_neg hsmall]
    obtain ⟨encoder, hput, hw, hsize⟩ := Writing.start hcfg rx buffer (by omega)
    have hgrant : ((statusHeader cfg rx encoder).encoder.size : Int) = maxsize := by
      show (encoder.size : Int) = maxsize
      omega
    obtain ⟨w, truncated, hloop, hle, hlen, hbyte⟩ := statusLoop_size hcfg rx
      (rx.rxList.length + 1) rx.rxList 0 hw hgrant
    have hthree : (statusHeader cfg rx encoder).encoder.byte = 3 := hw.byte_eq hcfg
    rw [hthree] at hbyte
    have hlength : ((putAckSn cfg w.encoder.buffer ((w.lastNack + 1) % cfg.snModulus)).take
        w.encoder.byte).length = w.encoder.byte := by
      rw [length_take, length_putAckSn]
      omega
    refine ⟨{ rx with statusTriggered := false, tStatusProhibitStart := tCurrent },
      some ((putAckSn cfg w.encoder.buffer ((w.lastNack + 1) % cfg.snModulus)).take w.encoder.byte),
      ?_, hlength.trans hbyte, ?_⟩
    · rw [statusBytes, statusWritten, hput, Option.bind_some]
      rw [show (0 == 0) = true from rfl] at hloop
      rw [hloop]
      rfl
    · rw [← hbyte]
      omega

/-- Every second SDU is missing. -/
def gappyRx : Rx :=
  ⟨0, 0, 6, 6, true, 0, 0,
    [newPdu 1 0 true true [1], newPdu 3 0 true true [3], newPdu 5 0 true true [5]], 3, []⟩

theorem generateStatus_statusSize_truncated :
    statusSize freshAm.cfg gappyRx 8 = 7 ∧
      ∃ rx' pdu, generateStatus freshAm.cfg 0 gappyRx (List.replicate 8 0) = some (rx', pdu) ∧
        (pdu.getD []).length = statusSize freshAm.cfg gappyRx 8 ∧
        (statusSize freshAm.cfg gappyRx 8 : Int) ≤ max 8 0 :=
  ⟨by decide, generateStatus_statusSize fresh_freshAm.legal 0 gappyRx 8 _ rfl⟩

end NrStack.Rlc.Am
