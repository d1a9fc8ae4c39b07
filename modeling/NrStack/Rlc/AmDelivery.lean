/-
  RLC AM delivers every SDU exactly once.

  `recv_pdu` frees the data of an SDU when it delivers it and keeps the empty entries until `rx_next`
  passes them; a segment that comes again finds itself there (`segment_already_received`).
-/
import NrStack.Rlc.AmStatusReport

namespace NrStack.Rlc.Am

open List Machine

variable {D : Nat → List UInt8} {r : Receiver}

theorem ReportInv.done_iff (h : ReportInv D r) {n : Nat} (hpos : 0 < (D n).length) :
    Done r.entity.cfg.snModulus r.base r.entity.rx.rxList n ↔ ∀ b < (D n).length, r.Has n b := by
  have hfreed := h.state.content.freed
  constructor
  · rintro (hlt | ⟨l, hl, rfl, hnone⟩) b hb
    · exact (h.has n b hb).mp (.inl hlt)
    · exact (h.has _ b hb).mp (.inr ((hfreed l hl).mp hnone b hb))
  · intro hall
    by_cases hlt : n < r.base
    · exact .inl hlt
    · have hgot : Complete r.entity.cfg.snModulus r.base D r.entity.rx.rxList n := fun b hb =>
        ((h.has n b hb).mpr (hall b hb)).resolve_left hlt
      obtain ⟨l, hl, rfl, -⟩ := hgot 0 hpos
      exact .inr ⟨l, hl, rfl, (hfreed l hl).mpr hgot⟩

/-- **Exactly once.**  Whatever is lost, repeated, reordered or segmented anew, the buffers delivered are
SDUs of the sender, whole and without repetition: those all of whose bytes were received. -/
theorem am_exactly_once (hmax : ∀ n, (D n).length ≤ nrSduMax) (hpos : ∀ n, 0 < (D n).length)
    (h : Reach (reportMachine D) r) : ∃ numbers : List Nat, numbers.Nodup ∧
      r.entity.rx.delivered = numbers.map (fun n => (D n).map some) ∧
      ∀ n, n ∈ numbers ↔ ∀ b < (D n).length, r.Has n b := by
  have hinv := reportInv_reach hmax h
  obtain ⟨numbers, hnodup, hdelivered, hmem⟩ := hinv.state.log
  exact ⟨numbers, hnodup, hdelivered, fun n => (hmem n).trans (hinv.done_iff (hpos n))⟩

theorem am_exactly_once_repeated : ∃ r, Reach (reportMachine threeBytes) r ∧
    r.entity.rx.delivered = [[some 1, some 1, some 2]] ∧ ∃ numbers : List Nat, numbers.Nodup ∧
      [[some 1, some 1, some 2]] = numbers.map (fun n => (threeBytes n).map some) := by
  obtain ⟨r, hr, hdel⟩ := Reach.exists_of_run (m := reportMachine threeBytes) (s := ⟨freshAm, 0, []⟩)
    (P := fun r : Receiver => r.entity.rx.delivered = [[some 1, some 1, some 2]])
    (.start ⟨fresh_freshAm, rfl, rfl⟩)
    [.recvPdu 1 2 1 false [0xa0, 1, 0, 2, 2], .recvPdu 1 0 2 false [0x90, 1, 1, 1],
      .recvPdu 1 2 1 false [0xa0, 1, 0, 2, 2]] (by decide)
  obtain ⟨numbers, hnodup, hdelivered, -⟩ := am_exactly_once threeBytes_length
    (fun n => show 0 < 3 by decide) hr
  exact ⟨r, hr, hdel, numbers, hnodup, hdel.symm.trans hdelivered⟩

end NrStack.Rlc.Am
