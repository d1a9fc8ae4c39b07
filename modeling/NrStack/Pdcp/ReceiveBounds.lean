/-
  The memory that `nr_pdcp_entity_recv_pdu` touches.

  `recvPduProbe` is the function once more, in the order of the source, with every byte of the buffer that
  it reads or writes on record (`val_recvPduProbe`).  The SN is read BEFORE the size is tested, so a buffer
  that ends inside the PDCP header is read past its end.  No other access leaves the buffer
  (`recvPdu_safe_iff`).
-/
import NrStack.Lib.Probe
import NrStack.Pdcp.Window

namespace NrStack.Pdcp

open List Probing

/-! ## Accesses -/

/-- The bytes `start, …, start + len - 1` are read or written. -/
def touch (start len : Nat) : Probe Unit := ⟨(), range' start len⟩

/-- `if (p) x;` -/
def onlyIf (p : Prop) [Decidable p] (x : Probe Unit) : Probe Unit := if p then x else pure ()

lemma within_touch {n start len : Nat} (h : len = 0 ∨ start + len ≤ n) :
    Within n (touch start len) := by
  intro i hi
  have := mem_range'_1.mp hi
  omega

lemma touch_within {n start len : Nat} (hlen : len ≠ 0) (h : Within n (touch start len)) :
    start + len ≤ n := by
  have := h (start + (len - 1)) (mem_range'_1.mpr (by omega))
  omega

lemma within_onlyIf {n : Nat} {p : Prop} [Decidable p] {x : Probe Unit} (h : p → Within n x) :
    Within n (onlyIf p x) := by
  unfold onlyIf
  split
  next hp => exact h hp
  next => exact within_pure _

namespace Entity

variable (c : Crypto) (e : Entity) (buffer : List UInt8)

/-! ## The function with its accesses -/

/-- `nr_pdcp_entity_recv_pdu` behind the size test: MAC-I and header are copied, the PDU is deciphered
and verified, and the SDU of a new COUNT copied. -/
def recvRestProbe : Probe Entity := do
  let size := buffer.length
  let rcvdCount := e.rcvdCount (e.rcvdSn buffer)
  onlyIf (e.hasIntegrity ∨ e.type = .srb) (touch (size - 4) 4)
  onlyIf (e.hasIntegrity ∨ e.type = .srb) (touch 0 e.headerSize)
  onlyIf e.hasCiphering
    (touch (e.headerSize + e.sdapHeaderSizeRx) (size - (e.headerSize + e.sdapHeaderSizeRx)))
  let clear := e.decipher c rcvdCount buffer
  onlyIf e.hasIntegrity (touch 0 (size - e.integritySize))
  onlyIf e.hasIntegrity (touch (size - e.integritySize) pdcpIntegritySize)
  if !e.integrityOk c rcvdCount clear then pure e
  else if rcvdCount < e.rxDeliv ∨ sduInList e.rxList rcvdCount then pure e
  else do
    touch e.headerSize (size - e.headerSize - e.integritySize)
    let sdu : Sdu :=
      { count := rcvdCount
        buffer := (clear.drop e.headerSize).take (clear.length - e.headerSize - e.integritySize)
        msgIntegrity := e.msgIntegrity rcvdCount buffer }
    pure ((e.store sdu (size - e.headerSize)).deliverStored rcvdCount).updateReordering

/-- `nr_pdcp_entity_recv_pdu`: the D/C bit is looked at, and forced, and the SN read before the size
is known to suffice for them. -/
def recvPduProbe : Probe Entity :=
  if e.entitySuspended then pure e
  else if buffer.length < 1 then pure e
  else do
    onlyIf (e.type ≠ .srb) (touch 0 1)
    touch 0 e.headerSize
    if (e.forceDcBit buffer).length < e.headerSize + e.sdapHeaderSizeRx + e.integritySize + 1 then
      pure e
    else e.recvRestProbe c (e.forceDcBit buffer)

/-- **The probe computes `recv_pdu`.** -/
theorem val_recvPduProbe : (e.recvPduProbe c buffer).val = e.recvPdu c buffer := by
  rw [recvPduProbe, recvPdu]
  split
  · rfl
  split
  · rfl
  dsimp only
  split
  · rfl
  rw [recvRestProbe]
  simp only [val_bind]
  split
  · rfl
  split
  · rfl
  · rfl

lemma forceDcBit_length : (e.forceDcBit buffer).length = buffer.length := by
  cases buffer with
  | nil => rfl
  | cons b bs =>
    rw [forceDcBit]
    split <;> rfl

lemma within_recvRestProbe
    (h : e.headerSize + e.sdapHeaderSizeRx + e.integritySize + 1 ≤ buffer.length) :
    Within buffer.length (e.recvRestProbe c buffer) := by
  have hmac : e.hasIntegrity = true ∨ e.type = .srb → e.integritySize = 4 := fun hi => if_pos hi
  simp only [recvRestProbe, within_bind]
  refine ⟨within_onlyIf fun hi => within_touch ?_, within_onlyIf fun _ => within_touch (by omega),
    within_onlyIf fun _ => within_touch (by omega), within_onlyIf fun _ => within_touch (by omega),
    within_onlyIf fun hi => within_touch ?_, ?_⟩
  · have := hmac hi
    omega
  · have := hmac (.inl hi)
    rw [pdcpIntegritySize]
    omega
  · split
    · exact within_pure _
    split
    · exact within_pure _
    · exact (within_bind _ _).mpr ⟨within_touch (by omega), within_pure _⟩

lemma headerSize_pos : 2 ≤ e.headerSize := by
  unfold headerSize
  split
  · exact Nat.le_refl 2
  · exact Nat.le_succ 2

lemma within_recvPduProbe_iff : Within buffer.length (e.recvPduProbe c buffer) ↔
    e.entitySuspended = true ∨ buffer = [] ∨ e.headerSize ≤ buffer.length := by
  have hpos := e.headerSize_pos
  rw [recvPduProbe]
  split
  next hsusp => exact iff_of_true (within_pure _) (.inl hsusp)
  next hsusp =>
  split
  next hnil =>
    exact iff_of_true (within_pure _) (.inr (.inl (length_eq_zero_iff.mp (by omega))))
  next hnil =>
  rw [within_bind, within_bind]
  constructor
  · rintro ⟨-, hheader, -⟩
    have := touch_within (by omega) hheader
    exact .inr (.inr (by omega))
  · intro h
    have hfits : e.headerSize ≤ buffer.length := by
      rcases h with h | rfl | h
      · exact absurd h hsusp
      · exact absurd Nat.one_pos hnil
      · exact h
    refine ⟨within_onlyIf fun _ => within_touch (by omega), within_touch (by omega), ?_⟩
    split
    · exact within_pure _
    next hsize =>
      rw [← e.forceDcBit_length buffer]
      exact e.within_recvRestProbe c _ (by omega)

/-! ## What is wanted of it -/

/-- The entity is suspended, or the PDU is too short, fails the integrity test, or has a COUNT that is
old or already there. -/
def Rejects : Prop :=
  e.entitySuspended = true ∨
    buffer.length < e.headerSize + e.sdapHeaderSizeRx + e.integritySize + 1 ∨
    e.integrityOk c (e.rxCount buffer) (e.rxClear c buffer) = false ∨
    e.rxCount buffer < e.rxDeliv ∨ ∃ s ∈ e.rxList, s.count = e.rxCount buffer

/-- All accesses are inside the buffer, and a PDU that is turned away changes nothing. -/
structure RecvSafe : Prop where
  within : Within buffer.length (e.recvPduProbe c buffer)
  rejected : e.Rejects c buffer → e.recvPdu c buffer = e

variable {c e buffer}

/-- **A rejected PDU changes nothing.** -/
theorem recvPdu_rejects (h : e.Rejects c buffer) : e.recvPdu c buffer = e := by
  rcases recvPdu_cases c e buffer with hsame | ⟨⟨hsusp, hsize, hok⟩, hnew, hfresh, -⟩
  · exact hsame
  · rw [forceDcBit_length] at hsize
    rcases h with h | h | h | h | ⟨s, hs, h⟩
    · exact absurd (h.symm.trans hsusp) (by decide)
    · omega
    · exact absurd (h.symm.trans hok) (by decide)
    · omega
    · exact absurd h (hfresh s hs)

end Entity

/-- **Receive bounds.**  `recv_pdu` touches no byte outside the buffer, and a rejected PDU leaves the
entity as it was, exactly when the entity is suspended, the buffer is empty or it holds a whole PDCP
header. -/
theorem recvPdu_safe_iff (c : Crypto) (e : Entity) (buffer : List UInt8) :
    e.RecvSafe c buffer ↔
      e.entitySuspended = true ∨ buffer = [] ∨ e.headerSize ≤ buffer.length := by
  rw [← e.within_recvPduProbe_iff c buffer]
  exact ⟨fun h => h.within, fun h => ⟨h, Entity.recvPdu_rejects⟩⟩

theorem recvPdu_safe_header : plainDrb.RecvSafe .null [0x80, 0] :=
  (recvPdu_safe_iff _ _ _).mpr (.inr (.inr (by decide)))

theorem recvPdu_reads_past_end : ¬ plainDrb.RecvSafe .null [0x80] := fun h =>
  absurd (h.within 1) (by decide)

end NrStack.Pdcp
