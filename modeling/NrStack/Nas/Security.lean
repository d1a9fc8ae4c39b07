/-
  The security state of the UE's NAS, and the check every downlink message passes first
  (`openair3/NAS/NR_UE/nr_nas_msg.c`, `openair3/SECU/secu_defs.c`).

  The algorithms are parameters (`StreamAlgorithms`).  EIA0 computes nothing: `computed_mac` then holds what
  the stack held, an argument here.  `none` is `exit(1)` on an exhausted count, or an octet read past the
  end of the message.
-/
import Mathlib

namespace NrStack.Nas

/-! ## Stream ciphers -/

/-- `eia_alg_id_e`. -/
inductive EiaAlg
  | eia0 | eia1 | eia2
  deriving DecidableEq, Repr

/-- `eea_alg_id_e`. -/
inductive EeaAlg
  | eea0 | eea1 | eea2
  deriving DecidableEq, Repr

/-- `stream_security_container_t`; its contexts are opaque, `NULL` for the two null algorithms.
`stream_security_container_init` stops on an algorithm outside the two enumerations. -/
structure SecurityContainer (κ : Type) where
  integrityAlgorithm : EiaAlg
  cipheringAlgorithm : EeaAlg
  cipheringContext : Option κ
  integrityContext : Option κ
  deriving DecidableEq, Repr

/-- `nas_stream_cipher_t`; `blength` is the length of `message` in bits. -/
structure NasStreamCipher (κ : Type) where
  context : Option κ
  count : Nat
  bearer : Nat
  direction : Nat
  message : List UInt8

/-- The algorithms behind `stream_compute_integrity` and `stream_compute_encrypt`. -/
structure StreamAlgorithms (κ : Type) where
  eia1 : NasStreamCipher κ → List UInt8
  eia2 : NasStreamCipher κ → List UInt8
  eea1 : NasStreamCipher κ → List UInt8
  eea2 : NasStreamCipher κ → List UInt8
  eea1_length : ∀ sc, (eea1 sc).length = sc.message.length
  eea2_length : ∀ sc, (eea2 sc).length = sc.message.length

variable {κ : Type}

/-- `out` is what the caller's four octets hold; EIA0 leaves them alone. -/
def streamComputeIntegrity (A : StreamAlgorithms κ) (alg : EiaAlg) (sc : NasStreamCipher κ)
    (out : List UInt8) : List UInt8 :=
  match alg with
  | .eia0 => out
  | .eia1 => A.eia1 sc
  | .eia2 => A.eia2 sc

/-- `stream_compute_encrypt` -/
def streamComputeEncrypt (A : StreamAlgorithms κ) (alg : EeaAlg) (sc : NasStreamCipher κ) :
    List UInt8 :=
  match alg with
  | .eea0 => sc.message
  | .eea1 => A.eea1 sc
  | .eea2 => A.eea2 sc

/-! ## The UE's NAS state -/

/-- `ue_sa_security_key_t`. -/
structure SaSecurityKey where
  kausf : List UInt8
  kseaf : List UInt8
  kamf : List UInt8
  knasInt : List UInt8
  knasEnc : List UInt8
  res : List UInt8
  rand : List UInt8
  kgnb : List UInt8
  nasCountUl : Nat
  nasCountDl : Nat
  deriving DecidableEq, Repr

/-- What the check reads and writes of `nr_ue_nas_t`. -/
structure UeNas (κ : Type) where
  security : SaSecurityKey
  securityContainer : Option (SecurityContainer κ)
  deriving DecidableEq, Repr

/-- `nas_count_dl = n` -/
def UeNas.setCountDl (nas : UeNas κ) (n : Nat) : UeNas κ :=
  { nas with security := { nas.security with nasCountDl := n } }

@[simp] lemma setCountDl_nasCountDl (nas : UeNas κ) (n : Nat) :
    (nas.setCountDl n).security.nasCountDl = n := rfl

@[simp] lemma setCountDl_setCountDl (nas : UeNas κ) (n k : Nat) :
    (nas.setCountDl n).setCountDl k = nas.setCountDl k := rfl

lemma setCountDl_self (nas : UeNas κ) : nas.setCountDl nas.security.nasCountDl = nas := rfl

/-! ## `nas_security_rx_process` -/

/-- `security_state_t`. -/
inductive SecurityState
  | noSecurityContext | unprotected | integrityFailed | integrityPassed | badInput
  deriving DecidableEq, Repr

/-- The largest NAS COUNT: 24 bits. -/
def maxNasCount : Nat := 0x00ffffff

/-- "synchronize NAS SQN": the low octet becomes the received one, the upper bits move on by one where
that is behind. -/
def synchronise (nasCountDl nasSqn : Nat) : Nat :=
  let targetSqn := nasCountDl % 256
  if nasSqn ≠ targetSqn then
    let count := if nasSqn < targetSqn then (nasCountDl + 256) % 2 ^ 32 else nasCountDl
    -- &= ~255, |= nas_sqn
    count / 256 * 256 + nasSqn
  else nasCountDl

/-- The stream cipher inputs of a downlink message (bearer and direction are hardcoded). -/
def downlinkCipher (context : Option κ) (count : Nat) (message : List UInt8) : NasStreamCipher κ where
  context := context
  count := count
  bearer := 1
  direction := 1
  message := message

/-- The MAC in octets 2 to 5 is the one computed over the sequence number and what follows it. -/
def verifies (A : StreamAlgorithms κ) (computedMac : List UInt8) (container : SecurityContainer κ)
    (count : Nat) (pdu : List UInt8) : Bool :=
  (pdu.drop 2).take 4 ==
    streamComputeIntegrity A container.integrityAlgorithm
      (downlinkCipher container.integrityContext count (pdu.drop 6)) computedMac

/-- The PDU with its payload deciphered under a COUNT. -/
def decipher (A : StreamAlgorithms κ) (container : SecurityContainer κ) (count : Nat)
    (pdu : List UInt8) : List UInt8 :=
  pdu.take 7 ++ streamComputeEncrypt A container.cipheringAlgorithm
    (downlinkCipher container.cipheringContext count (pdu.drop 7))

/-- What follows the header checks, for a message with sequence number `nasSqn`. -/
def checkIntegrity (A : StreamAlgorithms κ) (computedMac : List UInt8)
    (container : SecurityContainer κ) (nas : UeNas κ) (pdu : List UInt8) (nasSqn : Nat) :
    Option (SecurityState × UeNas κ × List UInt8) :=
  let count := synchronise nas.security.nasCountDl nasSqn
  let nas := nas.setCountDl count
  if count > maxNasCount then none
  else if ¬ verifies A computedMac container count pdu then some (.integrityFailed, nas, pdu)
  else
    some (.integrityPassed, nas.setCountDl ((count + 1) % 2 ^ 32), decipher A container count pdu)

/-- `nas_security_rx_process`: the verdict, the state after it and the message after deciphering. -/
def nasSecurityRxProcess (A : StreamAlgorithms κ) (computedMac : List UInt8) (nas : UeNas κ)
    (pdu : List UInt8) : Option (SecurityState × UeNas κ × List UInt8) :=
  match nas.securityContainer with
  | none => some (.noSecurityContext, nas, pdu)
  | some container =>
    match pdu[1]? with
    | none => none
    | some type =>
      if type = 0 then some (.unprotected, nas, pdu)
      -- header is 7 bytes, require at least one byte of payload
      else if pdu.length < 8 then some (.badInput, nas, pdu)
      -- only accept "integrity protected and ciphered" messages
      else if type ≠ 2 then some (.badInput, nas, pdu)
      else checkIntegrity A computedMac container nas pdu (pdu.getD 6 0).toNat

/-! ## The resynchronisation -/

variable {count sqn : Nat} {A : StreamAlgorithms κ} {mac pdu : List UInt8} {nas : UeNas κ}
  {container : SecurityContainer κ}

lemma synchronise_of_eq (h : sqn = count % 256) : synchronise count sqn = count := by
  exact if_neg (by simpa using h)

lemma synchronise_ahead {n : Nat} (hle : count ≤ n) (hahead : n ≤ count + 255)
    (hn : n ≤ maxNasCount) : synchronise count (n % 256) = n := by
  unfold maxNasCount at hn
  unfold synchronise
  dsimp only
  split
  · split <;> omega
  · omega

lemma synchronise_mod (count : Nat) (hsqn : sqn < 256) : synchronise count sqn % 256 = sqn := by
  unfold synchronise
  dsimp only
  split <;> omega

lemma synchronise_eq_self_iff (hsqn : sqn < 256) :
    synchronise count sqn = count ↔ sqn = count % 256 := by
  refine ⟨fun h => ?_, synchronise_of_eq⟩
  have hmod := synchronise_mod count hsqn
  rw [h] at hmod
  exact hmod.symm

/-! ## What the check can do -/

/-- The header says "integrity protected and ciphered" and at least one octet of payload follows it. -/
def Checked (pdu : List UInt8) : Prop := pdu[1]? = some 2 ∧ 8 ≤ pdu.length
deriving Decidable

section

variable (h : nas.securityContainer = some container)
include h

lemma nasSecurityRxProcess_checked (hc : Checked pdu) :
    nasSecurityRxProcess A mac nas pdu =
      checkIntegrity A mac container nas pdu (pdu.getD 6 0).toNat := by
  unfold nasSecurityRxProcess
  rw [h]
  rw [hc.1]
  dsimp only
  rw [if_neg (by decide), if_neg (Nat.not_lt.mpr hc.2), if_neg (by simp)]

lemma nasSecurityRxProcess_unchecked (hlen : 2 ≤ pdu.length) (hc : ¬ Checked pdu) :
    nasSecurityRxProcess A mac nas pdu = some (.unprotected, nas, pdu) ∨
      nasSecurityRxProcess A mac nas pdu = some (.badInput, nas, pdu) := by
  have htype : pdu[1]? = some (pdu.get ⟨1, hlen⟩) := List.getElem?_eq_getElem hlen
  unfold nasSecurityRxProcess
  rw [h]
  rw [htype]
  dsimp only
  split
  · exact .inl rfl
  · split
    · exact .inr rfl
    · split
      · exact .inr rfl
      · rename_i hle htwo
        refine absurd ⟨?_, Nat.not_lt.mp hle⟩ hc
        rw [htype, not_not.mp htwo]

lemma nasSecurityRxProcess_short
    (hlen : pdu.length < 2) : nasSecurityRxProcess A mac nas pdu = none := by
  unfold nasSecurityRxProcess
  rw [h, List.getElem?_eq_none (by omega)]

end

end NrStack.Nas
