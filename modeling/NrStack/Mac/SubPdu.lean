/-
  What the writers of MAC PDUs share (`nr_mac.h`): the three subheaders, read back from a memory, and
  RLC as the source of PDUs.

  RLC is a parameter: any source of PDUs that fit into the request and into a 16-bit length field.
-/
import NrStack.Lib.Row

namespace NrStack.Mac

open Probing

/-! ## Subheaders -/

/-- The bits `[s + w - 1 : s]` of an octet hold `v`. -/
def bits (w s v : Nat) : Nat := v % 2 ^ w * 2 ^ s

/-- `NR_MAC_SUBHEADER_FIXED`, R = 0 -/
def subheaderFixed (lcid : Nat) : UInt8 := UInt8.ofNat (bits 6 0 lcid)

/-- `NR_MAC_SUBHEADER_SHORT`, F = 0 -/
def subheaderShort (lcid l : Nat) : List UInt8 := [UInt8.ofNat (bits 6 0 lcid), UInt8.ofNat l]

/-- `NR_MAC_SUBHEADER_LONG`, F = 1 and L in network order -/
def subheaderLong (lcid l : Nat) : List UInt8 :=
  [UInt8.ofNat (bits 6 0 lcid + bits 1 6 1), UInt8.ofNat (l / 256), UInt8.ofNat l]

variable {lcid : Nat}

lemma subheaderFixed_byte (hlcid : lcid < 64) : (subheaderFixed lcid).toNat = lcid := by
  rw [subheaderFixed, bits, UInt8.toNat_ofNat_of_lt' (by show _ < 256; omega)]
  omega

variable {l pos : Nat} {rest : List UInt8} {mem : Nat → UInt8}

lemma subheaderShort_bytes (hlcid : lcid < 64) (hl : l < 256) (hmem : HasBytes mem pos (subheaderShort lcid l ++ rest)) :
    (mem pos).toNat = lcid ∧ (mem (pos + 1)).toNat = l ∧ HasBytes mem (pos + 2) rest := by
  obtain ⟨hheader, hrest⟩ := hasBytes_append.mp hmem
  obtain ⟨hb, hmore⟩ := hasBytes_cons.mp hheader
  obtain ⟨hlen, -⟩ := hasBytes_cons.mp hmore
  refine ⟨?_, by rw [hlen, UInt8.toNat_ofNat_of_lt' hl], hrest⟩
  rw [hb, bits, UInt8.toNat_ofNat_of_lt' (by show _ < 256; omega)]
  omega

lemma subheaderLong_bytes (hlcid : lcid < 64) (hl : l < 2 ^ 16)
    (hmem : HasBytes mem pos (subheaderLong lcid l ++ rest)) :
    (mem pos).toNat = 64 + lcid ∧ (mem (pos + 1)).toNat * 256 + (mem (pos + 2)).toNat = l ∧
      HasBytes mem (pos + 3) rest := by
  obtain ⟨hheader, hrest⟩ := hasBytes_append.mp hmem
  obtain ⟨hb, hmore⟩ := hasBytes_cons.mp hheader
  obtain ⟨hhi, hmore⟩ := hasBytes_cons.mp hmore
  obtain ⟨hlo, -⟩ := hasBytes_cons.mp hmore
  refine ⟨?_, ?_, hrest⟩
  · rw [hb, bits, bits, UInt8.toNat_ofNat_of_lt' (by show _ < 256; omega)]
    omega
  · rw [hhi, hlo, UInt8.toNat_ofNat', UInt8.toNat_ofNat']
    omega

/-! ## RLC -/

/-- `mac_rlc_data_req`: a PDU of the logical channel, of at most the bytes asked for. -/
structure RlcSource (ρ : Type) where
  dataReq : ρ → (lcid size : Nat) → List UInt8 × ρ
  fits : ∀ s lcid size, (dataReq s lcid size).1.length ≤ size
  short : ∀ s lcid size, (dataReq s lcid size).1.length < 2 ^ 16

/-- RLC with one PDU, for a request that takes it. -/
def onePdu (pdu : List UInt8) (hshort : pdu.length < 2 ^ 16) : RlcSource Bool where
  dataReq s _ size := if s ∧ pdu.length ≤ size then (pdu, false) else ([], false)
  fits s lcid size := by
    split
    · next h => exact h.2
    · exact Nat.zero_le _
  short s lcid size := by
    split
    · exact hshort
    · exact Nat.two_pow_pos 16

end NrStack.Mac
