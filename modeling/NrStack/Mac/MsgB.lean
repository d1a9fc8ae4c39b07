/-
  MsgB: the successRAR that the gNB writes (`nr_fill_successrar`), and what the UE takes out of it
  (`nr_ue_validate_successrar`, see `DlPdu`).

  The timing advance is carried in the successRAR; what is APPLIED is taken from the second byte of the
  PDU, the successRAR subheader.
-/
import NrStack.Mac.DlPdu
import NrStack.Mac.SubPdu

namespace NrStack.Mac

open Probing

/-- What the gNB puts into a successRAR. -/
structure SuccessRar where
  contResId : List UInt8
  length_contResId : contResId.length = 6
  crnti : Fin (2 ^ 16)
  ta : Fin (2 ^ 12)
  tpc : Fin 4
  harqFti : Fin 8
  pucchRi : Fin 16

/-- `nr_fill_successrar`: backoff subheader, successRAR subheader and successRAR. -/
def nrFillSuccessrar (m : SuccessRar) (macPdu : List UInt8) : List UInt8 :=
  macPdu ++ [UInt8.ofNat (bits 1 7 1), UInt8.ofNat (bits 1 5 1)] ++ m.contResId ++
    [UInt8.ofNat (bits 3 0 m.harqFti + bits 2 3 m.tpc + bits 2 5 1),
      UInt8.ofNat (bits 4 0 (m.ta / 256) + bits 4 4 m.pucchRi), UInt8.ofNat (m.ta % 256),
      UInt8.ofNat (m.crnti / 256), UInt8.ofNat (m.crnti % 256)]

/-- The UE with the fields of a successRAR, and what follows from the identity in it. -/
def DlRx.received (env : UeEnv) (m : SuccessRar) (st : DlRx) : DlRx :=
  { st with ra := { st.ra with
      raBackoffIndicator := 0
      msgBChAcessCpext := 1
      msgBTpc := m.tpc
      msgBHarqFti := m.harqFti
      pucchRi := m.pucchRi
      timingAdvanceCommand := m.ta
      tCrnti := m.crnti } }.contentionResolution env (m.contResId.map UInt8.toNat)

lemma successRar_received (env : UeEnv) (m : SuccessRar) (st : DlRx) :
    { st with ra := { st.ra with raBackoffIndicator := 0 } }.successRar env
      (((nrFillSuccessrar m []).drop 2).map UInt8.toNat) = st.received env m := by
  obtain ⟨id, hid, crnti, ta, tpc, fti, ri⟩ := m
  obtain ⟨a, b, c, d, e, f, rfl⟩ : ∃ a b c d e f, id = [a, b, c, d, e, f] := by
    match id, hid with
    | [a, b, c, d, e, f], _ => exact ⟨a, b, c, d, e, f, rfl⟩
  have hoct : ∀ n < 256, (UInt8.ofNat n).toNat = n := fun n hn => UInt8.toNat_ofNat_of_lt' hn
  simp only [nrFillSuccessrar, DlRx.successRar, DlRx.received, bits, List.nil_append,
    List.cons_append, List.drop, List.map, List.take, List.getElem?_cons_succ, List.getElem?_cons_zero,
    Option.getD_some]
  rw [hoct _ (by omega), hoct _ (by omega), hoct _ (by omega), hoct _ (by omega), hoct _ (by omega)]
  congr 2
  congr 1 <;> omega

/-- **MsgB.**  The UE decodes what the gNB wrote and consumes all of it; the timing advance that is
applied is the transmitted one only if that is 32, what the subheader's byte holds. -/
theorem msgB_round_trip {mem : Nat → UInt8} (ueEnv : UeEnv) (m : SuccessRar) (rest : List UInt8)
    (st : DlRx) (hmem : HasBytes mem 0 (nrFillSuccessrar m [] ++ rest)) :
    ∃ ta, (nrUeValidateSuccessrar ueEnv mem (nrFillSuccessrar m [] ++ rest).length st).val =
        some (some ((nrFillSuccessrar m []).length,
          { st.received ueEnv m with ta := (st.received ueEnv m).ta ++ [ta] })) ∧
      (ta = m.ta ↔ (m.ta : Nat) = 32) := by
  have hlen : (nrFillSuccessrar m []).length = 13 := by
    simp [nrFillSuccessrar, m.length_contResId]
  obtain ⟨hpdu, -⟩ := hasBytes_append.mp hmem
  have hcons : nrFillSuccessrar m [] = 128 :: 32 :: (nrFillSuccessrar m []).drop 2 := rfl
  have hocts : (readAll mem (List.range' 2 11)).val =
      ((nrFillSuccessrar m []).drop 2).map UInt8.toNat := by
    rw [hcons] at hpdu
    have h := (hasBytes_cons.mp (hasBytes_cons.mp hpdu).2).2
    rw [HasBytes, List.length_drop, hlen] at h
    rw [← h, slice, List.map_map]
    rfl
  have hbi := (hasBytes_cons.mp hpdu).1
  have hrar := (hasBytes_cons.mp (hasBytes_cons.mp hpdu).2).1
  have hfirst : ∀ rem, (successRarSubPdu ueEnv mem 0 rem (0, st)).val =
      (.go 1, (1, { st with ra := { st.ra with raBackoffIndicator := 0 } })) := by
    intro rem
    rw [successRarSubPdu, val_bind, val_read, hbi]
    rfl
  have hsecond : ∀ rem, (successRarSubPdu ueEnv mem 1 rem
      (1, { st with ra := { st.ra with raBackoffIndicator := 0 } })).val =
      (.stop .done, (13, st.received ueEnv m)) := by
    intro rem
    rw [successRarSubPdu, val_bind, val_read, hrar, ← successRar_received, ← hocts]
    rfl
  refine ⟨32, ?_, eq_comm⟩
  rw [nrUeValidateSuccessrar, List.length_append, hlen, Nat.add_comm 13, val_bind, blocks,
    if_neg (by omega), val_bind, hfirst]
  dsimp only
  rw [blocks, if_neg (by omega), val_bind, hsecond]
  show some (some (13, { st.received ueEnv m with
    ta := (st.received ueEnv m).ta ++ [(mem 1).toNat % 64] })) = _
  rw [hrar]
  rfl

/-- A success RAR for the identity 1 to 6. -/
def successRarOf (crnti : Fin (2 ^ 16)) (ta : Fin (2 ^ 12)) (tpc : Fin 4) (harqFti : Fin 8)
    (pucchRi : Fin 16) : SuccessRar :=
  ⟨[1, 2, 3, 4, 5, 6], rfl, crnti, ta, tpc, harqFti, pucchRi⟩

/-- A UE in two-step random access. -/
def waitsForMsgB : DlRx where
  ra :=
    { raType2Step := true, raState := .waitMsgB, raActive := true, cfra := false, tCrnti := 0
      raBackoffIndicator := 0, msgBChAcessCpext := 0, msgBTpc := 0, msgBHarqFti := 0, pucchRi := 0
      timingAdvanceCommand := 0 }
  crnti := 0

theorem msgB_round_trip_32 :
    let m := successRarOf 0x1234 32 1 2 3
    (nrUeValidateSuccessrar ⟨0, [1, 2, 3, 4, 5, 6], false⟩
      (fun i => (nrFillSuccessrar m [] ++ []).getD i 0) 13 waitsForMsgB).val =
      some (some (13, { waitsForMsgB.received ⟨0, [1, 2, 3, 4, 5, 6], false⟩ m with ta := [32] })) := by
  intro m
  obtain ⟨ta, hread, hta⟩ := msgB_round_trip ⟨0, [1, 2, 3, 4, 5, 6], false⟩ m [] waitsForMsgB
    (hasBytes_getD _)
  rw [hta.mpr rfl] at hread
  exact hread

/-- **A timing advance of 5 is lost**: 32 is applied. -/
theorem msgB_ta_lost :
    ((nrUeValidateSuccessrar ⟨0, [1, 2, 3, 4, 5, 6], false⟩
      (fun i => (nrFillSuccessrar (successRarOf 0x1234 5 1 2 3) []).getD i 0) 13
        waitsForMsgB).val.join.map fun r => (r.2.ra.timingAdvanceCommand, r.2.ta)) = some (5, [32]) := by
  decide

end NrStack.Mac
