/-
  The NR PDCP entity (`nr_pdcp_entity.c`, `nr_pdcp_sdu.c`).

  * `uint32_t` COUNT variables are naturals with a `% 2^32` wherever the source can wrap (`u32`); `int`
    comparisons that may go below zero are made in `Int`.
  * The linked `rx_list` is a `List Sdu`, head first; `delivered` records the calls of `deliver_sdu`.
  * `exit(1)` and a failed `DevAssert` are `none`.
  * The NEA/NIA primitives are the parameter `Crypto`: they overwrite bytes in place, respectively write a
    four-byte MAC-I.
-/
import Mathlib

namespace NrStack.Pdcp

/-- Storing into a `uint32_t`. -/
def u32 (n : Nat) : Nat := n % 2 ^ 32

/-- An integrity or ciphering key. -/
abbrev Key := List UInt8

/-! ## Constants and types of `nr_pdcp_entity.h` -/

/-- `SHORT_SN_SIZE` -/
def shortSnSize : Nat := 12
/-- `LONG_SN_SIZE` -/
def longSnSize : Nat := 18
/-- `SHORT_PDCP_HEADER_SIZE` -/
def shortPdcpHeaderSize : Nat := 2
/-- `LONG_PDCP_HEADER_SIZE` -/
def longPdcpHeaderSize : Nat := 3
/-- `PDCP_INTEGRITY_SIZE` -/
def pdcpIntegritySize : Nat := 4

/-- `nr_pdcp_entity_type_t` -/
inductive EntityType
  | drbAm | drbUm | srb
  deriving DecidableEq, Repr

/-- `nr_pdcp_entity_security_keys_and_algos_t`; algorithm `-1` keeps the current one. -/
structure SecurityKeysAndAlgos where
  integrityAlgorithm : Int
  cipheringAlgorithm : Int
  integrityKey : Key
  cipheringKey : Key
  deriving DecidableEq, Repr

/-- `nr_pdcp_integrity_data_t`. -/
structure IntegrityData where
  count : Nat
  mac : List UInt8
  headerSize : Nat
  header : List UInt8
  deriving DecidableEq, Repr

/-- `nr_pdcp_sdu_t`; its `size` is the length of `buffer`. -/
structure Sdu where
  count : Nat
  buffer : List UInt8
  msgIntegrity : IntegrityData
  deriving DecidableEq, Repr

/-- The `cipher` and `integrity` function pointers, by the algorithm and the key that `set_security`
selected. -/
structure Crypto where
  cipher : (algorithm : Int) → Key → (buffer : List UInt8) → (bearer : Int) → (count : Nat) →
    (direction : Nat) → List UInt8
  integrity : (algorithm : Int) → Key → (buffer : List UInt8) → (bearer : Int) → (count : Nat) →
    (direction : Nat) → List UInt8
  cipher_length : ∀ a k b r n d, (cipher a k b r n d).length = b.length
  integrity_length : ∀ a k b r n d, (integrity a k b r n d).length = pdcpIntegritySize

/-- NEA0 and NIA0: nothing is ciphered, the MAC-I is zero. -/
def Crypto.null : Crypto where
  cipher := fun _ _ b _ _ _ => b
  integrity := fun _ _ _ _ _ _ => List.replicate pdcpIntegritySize 0
  cipher_length := fun _ _ _ _ _ _ => rfl
  integrity_length := fun _ _ _ _ _ _ => List.length_replicate

/-- A stream cipher in miniature: key, bearer, COUNT and direction make the byte that every byte of the
buffer is XORed with; the MAC-I takes the buffer up as well. -/
def Crypto.stream : Crypto where
  cipher := fun _ key buffer bearer count direction =>
    buffer.map (· ^^^ pad key bearer count direction)
  integrity := fun _ key buffer bearer count direction =>
    List.replicate pdcpIntegritySize (buffer.foldl (· ^^^ ·) (pad key bearer count direction))
  cipher_length := fun _ _ _ _ _ _ => List.length_map ..
  integrity_length := fun _ _ _ _ _ _ => List.length_replicate
where
  pad (key : Key) (bearer : Int) (count direction : Nat) : UInt8 :=
    key.foldl (· + ·) (.ofNat (bearer.toNat + 7 * count + 3 * direction))

/-- `nr_pdcp_entity_t`. -/
structure Entity where
  type : EntityType
  rbId : Int
  hasSdapRx : Bool
  hasSdapTx : Bool
  snSize : Nat
  tReordering : Int
  snMax : Nat
  windowSize : Nat
  txNext : Nat
  rxNext : Nat
  rxDeliv : Nat
  rxReord : Nat
  tCurrent : Nat
  tReorderingStart : Nat
  hasCiphering : Bool
  hasIntegrity : Bool
  securityKeysAndAlgos : SecurityKeysAndAlgos
  /-- algorithm and key behind `security_context` -/
  securityContext : Int × Key
  /-- algorithm and key behind `integrity_context` -/
  integrityContext : Int × Key
  isGnb : Bool
  rxList : List Sdu
  rxSize : Int
  entitySuspended : Bool
  /-- the `deliver_sdu` calls made so far, oldest first -/
  delivered : List Sdu
  deriving DecidableEq, Repr

/-! ## `nr_pdcp_sdu.c` -/

/-- `nr_pdcp_sdu_list_add`: before the first stored SDU of a larger count. -/
def sduListAdd : List Sdu → Sdu → List Sdu
  | [], sdu => [sdu]
  | cur :: next, sdu =>
    if sdu.count < cur.count then sdu :: cur :: next else cur :: sduListAdd next sdu

/-- `nr_pdcp_sdu_in_list` -/
def sduInList (l : List Sdu) (count : Nat) : Bool := l.any fun s => s.count == count

/-! ## Sizes both directions agree on -/

namespace Entity

/-- The bytes of the header with the SN. -/
def headerSize (e : Entity) : Nat :=
  if e.snSize = shortSnSize then shortPdcpHeaderSize else longPdcpHeaderSize

/-- SRBs always carry a MAC-I, even when integrity is not active. -/
def integritySize (e : Entity) : Nat :=
  if e.hasIntegrity ∨ e.type = .srb then pdcpIntegritySize else 0

/-- The bytes of the SDAP header, which is not ciphered. -/
def sdapHeaderSizeRx (e : Entity) : Nat := if e.hasSdapRx then 1 else 0
/-- The same for transmission. -/
def sdapHeaderSizeTx (e : Entity) : Nat := if e.hasSdapTx then 1 else 0

/-- The direction bit of what is received: 0 is uplink. -/
def directionRx (e : Entity) : Nat := if e.isGnb then 0 else 1
/-- The direction bit of what is sent. -/
def directionTx (e : Entity) : Nat := if e.isGnb then 1 else 0

/-- `nr_max_pdcp_pdu_size` -/
def nrMaxPdcpPduSize (sduSize : Nat) : Nat := sduSize + longPdcpHeaderSize + pdcpIntegritySize

/-! ## Reception -/

/-- A data PDU of a DRB whose D/C bit is clear gets the bit forced. -/
def forceDcBit (e : Entity) : List UInt8 → List UInt8
  | [] => []
  | b :: bs => if e.type ≠ .srb ∧ b &&& 0x80 = 0 then (b ||| 128) :: bs else b :: bs

/-- Bytes beyond a short buffer read as zero here; the size test below rejects every such buffer. -/
def rcvdSn (e : Entity) (buffer : List UInt8) : Nat :=
  if e.snSize = shortSnSize then
    (((buffer.getD 0 0).toNat &&& 0xf) <<< 8) ||| (buffer.getD 1 0).toNat
  else
    ((((buffer.getD 0 0).toNat &&& 0x3) <<< 16) ||| ((buffer.getD 1 0).toNat <<< 8))
      ||| (buffer.getD 2 0).toNat

/-- The SN part of `rx_deliv`. -/
def rxDelivSn (e : Entity) : Nat := e.rxDeliv &&& e.snMax
/-- The HFN part of `rx_deliv`. -/
def rxDelivHfn (e : Entity) : Nat := e.rxDeliv >>> e.snSize

/-- `rcvd_hfn`: the SN circle is cut half a circle behind and ahead of `rx_deliv`.  The
decrement is unsigned. -/
def rcvdHfn (e : Entity) (sn : Nat) : Nat :=
  if (sn : Int) < (e.rxDelivSn : Int) - e.windowSize then u32 (e.rxDelivHfn + 1)
  else if (sn : Int) ≥ (e.rxDelivSn : Int) + e.windowSize then u32 (e.rxDelivHfn + (2 ^ 32 - 1))
  else e.rxDelivHfn

/-- `rcvd_count` -/
def rcvdCount (e : Entity) (sn : Nat) : Nat := u32 (e.rcvdHfn sn <<< e.snSize) ||| sn

/-- Deciphering in place: the PDCP header and the SDAP header stay in clear. -/
def decipher (c : Crypto) (e : Entity) (count : Nat) (buffer : List UInt8) : List UInt8 :=
  if e.hasCiphering then
    let clear := e.headerSize + e.sdapHeaderSizeRx
    buffer.take clear
      ++ c.cipher e.securityContext.1 e.securityContext.2 (buffer.drop clear) e.rbId count
          e.directionRx
  else buffer

/-- The `memcmp` of the MAC-I computed over the deciphered PDU with the one it carries. -/
def integrityOk (c : Crypto) (e : Entity) (count : Nat) (buffer : List UInt8) : Bool :=
  !e.hasIntegrity ||
    (c.integrity e.integrityContext.1 e.integrityContext.2
        (buffer.take (buffer.length - e.integritySize)) e.rbId count e.directionRx
      == buffer.drop (buffer.length - e.integritySize))

/-- What RRC procedures need of a received PDU, taken before deciphering. -/
def msgIntegrity (e : Entity) (count : Nat) (buffer : List UInt8) : IntegrityData :=
  if e.hasIntegrity ∨ e.type = .srb then
    { count := count, mac := buffer.drop (buffer.length - 4), headerSize := e.headerSize,
      header := buffer.take e.headerSize }
  else { count := 0, mac := [0, 0, 0, 0], headerSize := 0, header := [] }

/-- One iteration of a delivery loop: hand the head of `rx_list` to the upper layer. -/
def deliverHead (e : Entity) (cur : Sdu) (next : List Sdu) : Entity :=
  { e with
    rxList := next
    rxSize := e.rxSize - cur.buffer.length
    delivered := e.delivered ++ [cur] }

/-- "deliver all SDUs starting from `count` up to discontinuity or end of list". -/
def deliverConsecutive (e : Entity) (count : Nat) : List Sdu → Entity × Nat
  | [] => (e, count)
  | cur :: next =>
    if count = cur.count then deliverConsecutive (e.deliverHead cur next) (u32 (count + 1)) next
    else (e, count)

/-- "deliver all SDUs with count < rx_reord". -/
def deliverBelow (e : Entity) (bound : Nat) : List Sdu → Entity
  | [] => e
  | cur :: next =>
    if cur.count < bound then deliverBelow (e.deliverHead cur next) bound next else e

/-- (Re)start t-Reordering when something before `rx_next` is still missing. -/
def startReordering (e : Entity) : Entity :=
  if e.rxDeliv < e.rxNext then
    { e with rxReord := e.rxNext, tReorderingStart := e.tCurrent }
  else e

/-- The end of `recv_pdu`: stop, then restart t-Reordering. -/
def updateReordering (e : Entity) : Entity :=
  let e := if e.tReorderingStart ≠ 0 ∧ e.rxReord ≤ e.rxDeliv then
      { e with tReorderingStart := 0 } else e
  if e.tReorderingStart = 0 then e.startReordering else e

/-- The received SDU goes into the list. -/
def store (e : Entity) (sdu : Sdu) (size : Nat) : Entity :=
  { e with
    rxList := sduListAdd e.rxList sdu
    rxSize := e.rxSize + size
    rxNext := if e.rxNext ≤ sdu.count then u32 (sdu.count + 1) else e.rxNext }

/-- Delivery of everything that became consecutive with `rx_deliv`. -/
def deliverStored (e : Entity) (count : Nat) : Entity :=
  if count = e.rxDeliv then
    let r := e.deliverConsecutive e.rxDeliv e.rxList
    { r.1 with rxDeliv := r.2 }
  else e

/-- `nr_pdcp_entity_recv_pdu` -/
def recvPdu (c : Crypto) (e : Entity) (buffer : List UInt8) : Entity :=
  if e.entitySuspended then e
  else if buffer.length < 1 then e
  else
    let buffer := e.forceDcBit buffer
    let rcvdSn := e.rcvdSn buffer
    if buffer.length < e.headerSize + e.sdapHeaderSizeRx + e.integritySize + 1 then e
    else
      let rcvdCount := e.rcvdCount rcvdSn
      let clear := e.decipher c rcvdCount buffer
      if !e.integrityOk c rcvdCount clear then e
      else if rcvdCount < e.rxDeliv ∨ sduInList e.rxList rcvdCount then e
      else
        let sdu : Sdu :=
          { count := rcvdCount
            buffer := (clear.drop e.headerSize).take
              (clear.length - e.headerSize - e.integritySize)
            msgIntegrity := e.msgIntegrity rcvdCount buffer }
        ((e.store sdu (buffer.length - e.headerSize)).deliverStored rcvdCount).updateReordering

/-! ## Transmission -/

/-- D/C bit (DRBs only) and SN. -/
def header (e : Entity) (sn : Nat) : List UInt8 :=
  let dcBit := if e.type = .drbAm ∨ e.type = .drbUm then 0x80 else 0
  if e.snSize = shortSnSize then
    [UInt8.ofNat (dcBit ||| ((sn >>> 8) &&& 0xf)), UInt8.ofNat (sn &&& 0xff)]
  else
    [UInt8.ofNat (dcBit ||| ((sn >>> 16) &&& 0x3)), UInt8.ofNat ((sn >>> 8) &&& 0xff),
     UInt8.ofNat (sn &&& 0xff)]

/-- The MAC-I appended to header and SDU: computed, zero (an SRB without integrity) or absent. -/
def macI (c : Crypto) (e : Entity) (count : Nat) (buf : List UInt8) : List UInt8 :=
  if e.hasIntegrity then
    c.integrity e.integrityContext.1 e.integrityContext.2 buf e.rbId count e.directionTx
  else if e.integritySize = pdcpIntegritySize then List.replicate pdcpIntegritySize 0
  else []

/-- Ciphering in place, after the PDCP and SDAP headers. -/
def encipher (c : Crypto) (e : Entity) (count : Nat) (buf : List UInt8) : List UInt8 :=
  if e.hasCiphering then
    let clear := e.headerSize + e.sdapHeaderSizeTx
    buf.take clear
      ++ c.cipher e.securityContext.1 e.securityContext.2 (buf.drop clear) e.rbId count
          e.directionTx
  else buf

/-- The PDU that `nr_pdcp_entity_process_sdu` makes of an SDU. -/
def txPdu (c : Crypto) (e : Entity) (buffer : List UInt8) : List UInt8 :=
  let plain := e.header (e.txNext &&& e.snMax) ++ buffer
  e.encipher c e.txNext (plain ++ e.macI c e.txNext plain)

/-- `nr_pdcp_entity_process_sdu`: `none` when the assertion on the output buffer fails, an inner `none`
for the `-1` of a suspended entity, else the PDU written. -/
def processSdu (c : Crypto) (e : Entity) (buffer : List UInt8) (pduMaxSize : Nat) :
    Option (Entity × Option (List UInt8)) :=
  if nrMaxPdcpPduSize buffer.length ≤ pduMaxSize then
    if e.entitySuspended then some (e, none)
    else some ({ e with txNext := u32 (e.txNext + 1) }, some (e.txPdu c buffer))
  else none

variable {e e' : Entity} {p : SecurityKeysAndAlgos}

theorem processSdu_cases {c : Crypto} {buffer : List UInt8} {pduMaxSize : Nat}
    {r : Entity × Option (List UInt8)} (h : e.processSdu c buffer pduMaxSize = some r) :
    (e.entitySuspended = true ∧ r = (e, none)) ∨
      (e.entitySuspended = false ∧
        r = ({ e with txNext := u32 (e.txNext + 1) }, some (e.txPdu c buffer))) := by
  unfold processSdu at h
  split at h
  · cases hsusp : e.entitySuspended <;> simp only [hsusp] at h <;> cases h
    · exact .inr ⟨rfl, rfl⟩
    · exact .inl ⟨rfl, rfl⟩
  · cases h

/-! ## Security, timers, suspension and re-establishment -/

/-- The first half of `nr_pdcp_entity_set_security`; `none` is a failed assertion. -/
def setIntegrity (e : Entity) (p : SecurityKeysAndAlgos) : Option Entity :=
  let stored := { e.securityKeysAndAlgos with
    integrityAlgorithm := p.integrityAlgorithm, integrityKey := p.integrityKey }
  if p.integrityAlgorithm = -1 then some e
  else if p.integrityAlgorithm = 0 then
    some { e with securityKeysAndAlgos := stored, hasIntegrity := false }
  else if p.integrityAlgorithm = 2 ∨ p.integrityAlgorithm = 1 then
    some { e with
      securityKeysAndAlgos := stored
      hasIntegrity := true
      integrityContext := (p.integrityAlgorithm, p.integrityKey) }
  else none

/-- The second half; `none` is a failed assertion. -/
def setCiphering (e : Entity) (p : SecurityKeysAndAlgos) : Option Entity :=
  let stored := { e.securityKeysAndAlgos with
    cipheringAlgorithm := p.cipheringAlgorithm, cipheringKey := p.cipheringKey }
  if p.cipheringAlgorithm = -1 then some e
  else if p.cipheringAlgorithm = 0 then
    some { e with securityKeysAndAlgos := stored, hasCiphering := false }
  else if p.cipheringAlgorithm = 2 ∨ p.cipheringAlgorithm = 1 then
    some { e with
      securityKeysAndAlgos := stored
      hasCiphering := true
      securityContext := (p.cipheringAlgorithm, p.cipheringKey) }
  else none

/-- `nr_pdcp_entity_set_security`: only NIA1/NIA2 and NEA1/NEA2 are supported, any other
algorithm is fatal. -/
def setSecurity (e : Entity) (p : SecurityKeysAndAlgos) : Option Entity :=
  (e.setIntegrity p).bind fun e => e.setCiphering p

/-- The three outcomes of a security half: keep (`-1`), switch off, or a new context. -/
inductive Secured (algorithm : Int) (key : Key) (has : Bool) (ctx : Int × Key) :
    Bool → Int × Key → Prop
  | keep : algorithm = -1 → Secured algorithm key has ctx has ctx
  | off : algorithm = 0 → Secured algorithm key has ctx false ctx
  | on : algorithm ≠ -1 → algorithm ≠ 0 → Secured algorithm key has ctx true (algorithm, key)

lemma setIntegrity_cases (h : e.setIntegrity p = some e') : ∃ keys hi ic,
      e' = { e with securityKeysAndAlgos := keys, hasIntegrity := hi, integrityContext := ic } ∧
      Secured p.integrityAlgorithm p.integrityKey e.hasIntegrity e.integrityContext hi ic := by
  simp only [setIntegrity] at h
  split at h
  · rename_i h1
    cases h; exact ⟨_, _, _, rfl, .keep h1⟩
  rename_i h1
  split at h
  · rename_i h0
    cases h; exact ⟨_, _, _, rfl, .off h0⟩
  rename_i h0
  split at h <;> cases h
  exact ⟨_, _, _, rfl, .on h1 h0⟩

lemma setCiphering_cases (h : e.setCiphering p = some e') : ∃ keys hc sc,
      e' = { e with securityKeysAndAlgos := keys, hasCiphering := hc, securityContext := sc } ∧
      Secured p.cipheringAlgorithm p.cipheringKey e.hasCiphering e.securityContext hc sc := by
  simp only [setCiphering] at h
  split at h
  · rename_i h1
    cases h; exact ⟨_, _, _, rfl, .keep h1⟩
  rename_i h1
  split at h
  · rename_i h0
    cases h; exact ⟨_, _, _, rfl, .off h0⟩
  rename_i h0
  split at h <;> cases h
  exact ⟨_, _, _, rfl, .on h1 h0⟩

theorem setSecurity_cases (h : e.setSecurity p = some e') : ∃ keys hc sc hi ic,
      e' = { e with
        securityKeysAndAlgos := keys, hasCiphering := hc, securityContext := sc
        hasIntegrity := hi, integrityContext := ic } ∧
      Secured p.cipheringAlgorithm p.cipheringKey e.hasCiphering e.securityContext hc sc ∧
      Secured p.integrityAlgorithm p.integrityKey e.hasIntegrity e.integrityContext hi ic := by
  obtain ⟨e1, h1, h2⟩ := Option.bind_eq_some_iff.mp h
  obtain ⟨keys, hi, ic, rfl, hint⟩ := setIntegrity_cases h1
  obtain ⟨keys', hc, sc, rfl, hciph⟩ := setCiphering_cases h2
  exact ⟨_, _, _, _, _, rfl, hciph, hint⟩

/-- What `check_t_reordering` does when the timer has expired. -/
def expireReordering (e : Entity) : Entity :=
  let e := e.deliverBelow e.rxReord e.rxList
  let r := e.deliverConsecutive e.rxReord e.rxList
  startReordering { r.1 with rxDeliv := r.2 }

/-- `check_t_reordering`; `t_reordering = -1` means infinity. -/
def checkTReordering (e : Entity) : Entity :=
  if e.tReordering = -1 then e
  else if e.tReorderingStart = 0 ∨
      (e.tCurrent : Int) ≤ ((e.tReorderingStart : Int) + e.tReordering) % 2 ^ 64 then e
  else expireReordering { e with tReorderingStart := 0 }

/-- `nr_pdcp_entity_set_time` -/
def setTime (e : Entity) (now : Nat) : Entity := checkTReordering { e with tCurrent := now }

/-- `deliver_all_sdus` -/
def deliverAllSdus (e : Entity) : List Sdu → Entity
  | [] => e
  | cur :: next => deliverAllSdus (e.deliverHead cur next) next

/-- `nr_pdcp_entity_release` -/
def release (e : Entity) : Entity := e.deliverAllSdus e.rxList

/-- `free_rx_list` -/
def freeRxList (e : Entity) : Entity := { e with rxList := [], rxSize := 0 }

/-- `nr_pdcp_entity_suspend` -/
def suspend (e : Entity) : Entity :=
  let e := { e with txNext := 0 }
  let e := if e.tReorderingStart ≠ 0 then
      { e with tReorderingStart := 0 }.deliverAllSdus e.rxList else e
  { e with rxNext := 0, rxDeliv := 0, entitySuspended := true }

/-- `nr_pdcp_entity_reestablish_drb_am` -/
def reestablishDrbAm (e : Entity) (p : SecurityKeysAndAlgos) : Option Entity :=
  (e.setSecurity p).map fun e => { e with entitySuspended := false }

/-- `nr_pdcp_entity_reestablish_drb_um` -/
def reestablishDrbUm (e : Entity) (p : SecurityKeysAndAlgos) : Option Entity :=
  let e := { e with txNext := 0 }
  let e := if e.tReorderingStart ≠ 0 then e.deliverAllSdus e.rxList else e
  let e := { e with tReorderingStart := 0, rxNext := 0, rxDeliv := 0 }
  (e.setSecurity p).map fun e => { e with entitySuspended := false }

/-- `nr_pdcp_entity_reestablish_srb` -/
def reestablishSrb (e : Entity) (p : SecurityKeysAndAlgos) : Option Entity :=
  let e := ({ e with txNext := 0 } : Entity).freeRxList
  let e := { e with tReorderingStart := 0, rxNext := 0, rxDeliv := 0 }
  (e.setSecurity p).map fun e => { e with entitySuspended := false }

/-- The `reestablish_entity` pointer that `new_nr_pdcp_entity` installs for the bearer type. -/
def reestablishEntity (e : Entity) (p : SecurityKeysAndAlgos) : Option Entity :=
  match e.type with
  | .drbAm => e.reestablishDrbAm p
  | .drbUm => e.reestablishDrbUm p
  | .srb => e.reestablishSrb p

end Entity

lemma Entity.Secured.unique {algorithm : Int} {key : Key} {has : Bool} {ctx : Int × Key}
    {hc hc' : Bool} {sc sc' : Int × Key} (h : Secured algorithm key has ctx hc sc)
    (h' : Secured algorithm key has ctx hc' sc') : hc = hc' ∧ sc = sc' := by
  cases h <;> cases h' <;> first | exact ⟨rfl, rfl⟩ | (exfalso; omega)

/-- `new_nr_pdcp_entity`: a zeroed entity, configured, then `set_security`. -/
def newNrPdcpEntity (type : EntityType) (isGnb : Bool) (rbId : Int) (hasSdapRx hasSdapTx : Bool)
    (snSize : Nat) (tReordering : Int) (security : SecurityKeysAndAlgos) : Option Entity :=
  Entity.setSecurity
    { type := type, rbId := rbId, hasSdapRx := hasSdapRx, hasSdapTx := hasSdapTx
      snSize := snSize, tReordering := tReordering
      snMax := 2 ^ snSize - 1, windowSize := 2 ^ (snSize - 1)
      txNext := 0, rxNext := 0, rxDeliv := 0, rxReord := 0, tCurrent := 0, tReorderingStart := 0
      hasCiphering := false, hasIntegrity := false
      securityKeysAndAlgos := ⟨0, 0, [], []⟩, securityContext := (0, []), integrityContext := (0, [])
      isGnb := isGnb, rxList := [], rxSize := 0, entitySuspended := false, delivered := [] }
    security

end NrStack.Pdcp
