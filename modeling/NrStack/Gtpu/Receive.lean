/-
  What a GTP-U packet can do to the receiver.

  PROGRAM   `gtpv1uReceiver` hands a UDP payload of `n` bytes to a handler; `Gtpv1uHandleGpdu` walks the
            extension headers with `gtp_lock` held and gives the rest to the upper layer.  `none` is a
            walk that does not end.
  RESULT    the receiver is `Robust` exactly for the packets of `PacketOk`.  Else a header of length 0 is
            walked forever, a malformed one leaves with the lock held, or a late check lets bytes at `n`
            be read.
-/
import NrStack.Lib.Probe
import NrStack.Gtpu.Tunnels

namespace NrStack.Gtpu

open Probing

/-! ## Program -/

/-- `PDU_SESSION_CONTAINER` -/
def pduSessionContainer : Nat := 0x85

/-- `NR_RAN_CONTAINER` -/
def nrRanContainer : Nat := 0x84

/-- The message types that `gtpv1uReceiver` tells apart. -/
inductive MsgType
  | echoReq | echoRsp | errorIndication | supportedExtensionHeaderIndication | endMarker | gpdu
  | unknown (code : Nat)
deriving DecidableEq

/-- The type with a code. -/
def MsgType.ofCode (c : Nat) : MsgType :=
  if c = 1 then .echoReq
  else if c = 2 then .echoRsp
  else if c = 26 then .errorIndication
  else if c = 31 then .supportedExtensionHeaderIndication
  else if c = 254 then .endMarker
  else if c = 255 then .gpdu
  else .unknown c

/-- The first byte of `Gtpv1uMsgHeaderT`. -/
structure Flags where
  pn : Bool
  s : Bool
  e : Bool
  pt : Bool
  version : Nat
deriving DecidableEq

/-- The first byte, as the bit fields of `Gtpv1uMsgHeaderT`. -/
def Flags.ofByte (b : Nat) : Flags where
  pn := b.testBit 0
  s := b.testBit 1
  e := b.testBit 2
  pt := b.testBit 4
  version := b / 32

/-- A GTP header: version 1, and not GTP'. -/
def Flags.isGtp (f : Flags) : Bool := f.version = 1 && f.pt

/-- What is handed up: a packet, with or without its QoS flow, or the end of a tunnel. -/
inductive Upcall
  | data (ueId rbId offset size : Nat)
  | dataSDAP (ueId rbId offset size : Nat) (qfi : Int) (rqi : Bool) (pdusessionId : Nat)
  | endMarker (ueId rbId : Nat)
deriving DecidableEq

/-- What is sent back to the peer. -/
inductive Reply
  | echo (teid seq : Nat)
  | deliveryStatus (outgoingTeid : UInt32) (nrPdcpPduSn : Nat)
deriving DecidableEq

/-- What a handler returns and does; `locked` if it leaves without releasing the mutex. -/
structure Outcome where
  ret : Int := gtpNok
  locked : Bool := false
  up : List Upcall := []
  reply : List Reply := []
deriving DecidableEq

/-- What the extension headers have told. -/
structure ExtInfo where
  qfi : Int := -1
  rqi : Bool := false
  nrPdcpPduSn : Nat := 0
deriving DecidableEq

section Program

variable (mem : Nat → UInt8) (n : Nat)

/-- `case PDU_SESSION_CONTAINER`; `none` is the return for a malformed header. -/
def readPduSessionContainer (offset : Nat) (info : ExtInfo) : Probe (Option ExtInfo) :=
  if offset + 2 > n then pure none
  else do
    let b ← read mem (offset + 2)
    pure (some { info with qfi := (b % 64 : Nat), rqi := b.testBit 6 })

/-- Where the PDCP SN is in a DL user data frame with flags `b`. -/
def additionalOffset (b : Nat) : Nat :=
  6 + (if b.testBit 2 then 9 else 0) + (if b.testBit 1 then 3 else 0)

/-- A DL user data frame: the SN to report on, if a report is asked for. -/
def readDlUserData (offset b : Nat) (info : ExtInfo) : Probe ExtInfo := do
  let c ← read mem (offset + 2)
  if c.testBit 3 then do
    let x ← read mem (offset + additionalOffset b)
    let y ← read mem (offset + additionalOffset b + 1)
    let z ← read mem (offset + additionalOffset b + 2)
    pure { info with nrPdcpPduSn := x * 65536 + y * 256 + z }
  else pure info

/-- `case NR_RAN_CONTAINER` -/
def readNrRanContainer (offset : Nat) (info : ExtInfo) : Probe (Option ExtInfo) :=
  if offset + 1 > n then pure none
  else do
    let b ← read mem (offset + 1)
    if b / 16 = 0 then do
      let info ← readDlUserData mem offset b info
      pure (some info)
    else pure (some info)

/-- The `switch` on the type of an extension header. -/
def readExtension (type offset : Nat) (info : ExtInfo) : Probe (Option ExtInfo) :=
  if type = pduSessionContainer then readPduSessionContainer mem n offset info
  else if type = nrRanContainer then readNrRanContainer mem n offset info
  else pure (some info)

/-- The loop over the extension headers: `none` without fuel, `some none` at a malformed header, else
where they end. -/
def extLoop : Nat → Nat → ExtInfo → Probe (Option (Option (Nat × ExtInfo)))
  | 0, _, _ => pure none
  | fuel + 1, offset, info => do
    let type ← read mem (offset - 1)
    if type = 0 then pure (some (some (offset, info)))
    else do
      let extensionHeaderLength ← read mem offset
      let r ← readExtension mem n type offset info
      match r with
      | none => pure (some none)
      | some info =>
        if offset + extensionHeaderLength * 4 > n then pure (some none)
        else extLoop fuel (offset + extensionHeaderLength * 4) info

/-- `ntohl(msgHdr->teid)` -/
def readTeid : Probe Nat := do
  let a ← read mem 4
  let b ← read mem 5
  let c ← read mem 6
  let d ← read mem 7
  pure (a * 2 ^ 24 + b * 2 ^ 16 + c * 2 ^ 8 + d)

/-- The end of `Gtpv1uHandleGpdu`, from the unlock on. -/
def deliver (tunnel : UeidData) (offset : Nat) (info : ExtInfo) : Outcome where
  ret := gtpOk
  locked := false
  up :=
    -- sdu_buffer_size is signed
    if n - offset > 0 then
      if info.qfi ≠ -1 ∧ tunnel.callBackSDAP ≠ 0 then
        [.dataSDAP tunnel.ueId tunnel.incomingRbId offset (n - offset) info.qfi info.rqi
          tunnel.pdusessionId]
      else [.data tunnel.ueId tunnel.incomingRbId offset (n - offset)]
    else []
  reply :=
    if info.nrPdcpPduSn > 0 ∧ info.nrPdcpPduSn % 5 = 0 then
      [.deliveryStatus tunnel.outgoingTeid info.nrPdcpPduSn]
    else []

/-- The optional fields come all together, or not at all. -/
def Flags.headerSize (f : Flags) : Nat := if f.e || f.s || f.pn then 12 else 8

/-- The tunnel a handler finds under the lock: the socket is the instance. -/
def findTunnel (s : State) (h teid : Nat) : Option UeidData :=
  match s.instances.lookup (compatInst s h) with
  | none => none
  | some _ => s.te2ueMapping.lookup teid

/-- `Gtpv1uHandleGpdu`; `none`: the fuel for the extension headers is used up. -/
def gtpv1uHandleGpdu (st : State) (h fuel : Nat) : Probe (Option Outcome) := do
  let b ← read mem 0
  let f := Flags.ofByte b
  if !f.isGtp then pure (some {})
  else do
    let teid ← readTeid mem
    match findTunnel st h teid with
    | none => pure (some {})
    | some tunnel =>
      if f.e then do
        let r ← extLoop mem n fuel f.headerSize {}
        match r with
        | none => pure none
        -- the returns out of the loop do not unlock
        | some none => pure (some { locked := true })
        | some (some (offset, info)) => pure (some (deliver n tunnel offset info))
      else pure (some (deliver n tunnel f.headerSize {}))

/-- `Gtpv1uHandleEndMarker` -/
def gtpv1uHandleEndMarker (st : State) (h : Nat) : Probe Outcome := do
  let b ← read mem 0
  if !(Flags.ofByte b).isGtp then pure {}
  else do
    let teid ← readTeid mem
    match findTunnel st h teid with
    | none => pure {}
    | some tunnel => pure { ret := gtpOk, up := [.endMarker tunnel.ueId tunnel.incomingRbId] }

/-- `Gtpv1uHandleEchoReq` -/
def gtpv1uHandleEchoReq : Probe Outcome := do
  let b ← read mem 0
  let f := Flags.ofByte b
  if !f.isGtp then pure {}
  else if !f.s then pure {}
  else do
    let hi ← read mem 8
    let lo ← read mem 9
    let teid ← readTeid mem
    pure { ret := gtpOk, reply := [.echo teid (hi * 256 + lo)] }

/-- The `switch` of `gtpv1uReceiver`. -/
def dispatch (st : State) (h fuel : Nat) : MsgType → Probe (Option Outcome)
  | .echoRsp => pure (some {})
  | .echoReq => do
    let out ← gtpv1uHandleEchoReq mem
    pure (some out)
  | .errorIndication => pure (some {})
  | .supportedExtensionHeaderIndication => pure (some {})
  | .endMarker => do
    let out ← gtpv1uHandleEndMarker mem st h
    pure (some out)
  | .gpdu => gtpv1uHandleGpdu mem n st h fuel
  | .unknown _ => pure (some {})

/-- `gtpv1uReceiver`, on a payload of `n` bytes. -/
def gtpv1uReceiver (st : State) (h fuel : Nat) : Probe (Option Outcome) :=
  if n < 8 then pure (some {})
  else do
    let hi ← read mem 2
    let lo ← read mem 3
    if hi * 256 + lo + 8 ≠ n then pure (some {})
    else do
      let c ← read mem 1
      dispatch mem n st h fuel (MsgType.ofCode c)

end Program

/-! ## Specification -/

/-- The extension headers from `offset` on end at `e`. -/
inductive ExtChain (mem : Nat → UInt8) : Nat → Nat → Prop
  | last {offset : Nat} : mem (offset - 1) = 0 → ExtChain mem offset offset
  | more {offset e : Nat} : mem (offset - 1) ≠ 0 →
      ExtChain mem (offset + (mem offset).toNat * 4) e → ExtChain mem offset e

/-- Where the content of a G-PDU starts. -/
def ContentAt (mem : Nat → UInt8) (offset : Nat) : Prop :=
  let f := Flags.ofByte (mem 0).toNat
  if f.e then ExtChain mem 12 offset else offset = f.headerSize

/-- A slice given to the upper layer is the content of the packet, all of it. -/
def Upcall.Ok (mem : Nat → UInt8) (n : Nat) : Upcall → Prop
  | .data _ _ offset size => offset ≤ n ∧ offset + size = n ∧ ContentAt mem offset
  | .dataSDAP _ _ offset size _ _ _ => offset ≤ n ∧ offset + size = n ∧ ContentAt mem offset
  | .endMarker _ _ => True

/-- A handler returns, having read below `n` only, with the lock released, and gave the upper layer
what it should. -/
def Copes (mem : Nat → UInt8) (n : Nat) (handler : Nat → Probe (Option Outcome)) : Prop :=
  ∃ fuel out, (handler fuel).val = some out ∧ Within n (handler fuel) ∧ out.locked = false ∧
    ∀ u ∈ out.up, u.Ok mem n

/-- **What the receiver owes for every packet.** -/
def Robust (st : State) (h : Nat) (mem : Nat → UInt8) (n : Nat) : Prop :=
  Copes mem n fun fuel => gtpv1uReceiver mem n st h fuel

/-- The bytes that the handling of an extension header looks at are there. -/
def ExtensionFits (mem : Nat → UInt8) (n offset : Nat) : Prop :=
  ((mem (offset - 1)).toNat = pduSessionContainer → offset + 2 < n) ∧
  ((mem (offset - 1)).toNat = nrRanContainer →
    offset + 1 < n ∧ ((mem (offset + 1)).toNat / 16 = 0 →
      offset + 2 < n ∧ ((mem (offset + 2)).toNat.testBit 3 = true →
        offset + additionalOffset (mem (offset + 1)).toNat + 2 < n)))

/-- The extension headers from `offset` on: each has a length and lies in the packet with all that is
looked at. -/
inductive ExtOk (mem : Nat → UInt8) (n : Nat) : Nat → Prop
  | last {offset : Nat} : mem (offset - 1) = 0 → ExtOk mem n offset
  | more {offset : Nat} : mem (offset - 1) ≠ 0 → offset < n → ExtensionFits mem n offset →
      0 < (mem offset).toNat → offset + (mem offset).toNat * 4 ≤ n →
      ExtOk mem n (offset + (mem offset).toNat * 4) → ExtOk mem n offset

/-- `msgLength` of the header. -/
def lengthField (mem : Nat → UInt8) : Nat := (mem 2).toNat * 256 + (mem 3).toNat

/-- **The packets the receiver copes with.** -/
def PacketOk (st : State) (h : Nat) (mem : Nat → UInt8) (n : Nat) : Prop :=
  let f := Flags.ofByte (mem 0).toNat
  8 ≤ n → lengthField mem + 8 = n →
    match MsgType.ofCode (mem 1).toNat with
    | .echoReq => f.isGtp → f.s → 10 ≤ n
    | .gpdu => f.isGtp → (findTunnel st h (readTeid mem).val).isSome → f.e →
      12 ≤ n ∧ ExtOk mem n 12
    | _ => True

/-! ## The walk -/

section Walk

variable {mem : Nat → UInt8} {n : Nat}

lemma toNat_ne_zero {b : UInt8} : b.toNat ≠ 0 ↔ b ≠ 0 :=
  not_congr ⟨fun h => UInt8.toNat_inj.mp h, fun h => by rw [h]; rfl⟩

lemma within_readDlUserData (offset b : Nat) (info : ExtInfo) :
    Within n (readDlUserData mem offset b info) ↔
      offset + 2 < n ∧ ((mem (offset + 2)).toNat.testBit 3 = true →
        offset + additionalOffset b + 2 < n) := by
  unfold readDlUserData
  rw [within_bind, within_read, val_read]
  refine and_congr_right fun _ => ?_
  split
  · rename_i hbit
    simp only [within_bind, within_read, within_pure, and_true, hbit, true_implies]
    omega
  · rename_i hbit
    exact iff_of_true (within_pure _) fun h => absurd h hbit

variable {offset : Nat}

lemma readExtension_isSome (info : ExtInfo) (h : ExtensionFits mem n offset) :
    (readExtension mem n (mem (offset - 1)).toNat offset info).val.isSome := by
  unfold readExtension
  split
  · rename_i h85
    have := h.1 h85
    unfold readPduSessionContainer
    rw [if_neg (by omega)]
    rfl
  · split
    · rename_i h84
      have := (h.2 h84).1
      unfold readNrRanContainer
      rw [if_neg (by omega), val_bind]
      split <;> rfl
    · rfl

lemma within_readExtension {info : ExtInfo}
    (hval : (readExtension mem n (mem (offset - 1)).toNat offset info).val.isSome) :
    Within n (readExtension mem n (mem (offset - 1)).toNat offset info) ↔
      ExtensionFits mem n offset := by
  unfold readExtension ExtensionFits at *
  by_cases h85 : (mem (offset - 1)).toNat = pduSessionContainer
  · have hne : (mem (offset - 1)).toNat ≠ nrRanContainer := by
      rw [h85]
      decide
    rw [if_pos h85] at hval ⊢
    unfold readPduSessionContainer at hval ⊢
    by_cases hn : offset + 2 > n
    · rw [if_pos hn] at hval
      cases hval
    · rw [if_neg hn]
      simp only [within_bind, within_read, within_pure, and_true, h85, true_implies]
      exact ⟨fun h => ⟨h, fun hc => absurd hc (by decide)⟩, fun h => h.1⟩
  · rw [if_neg h85] at hval ⊢
    simp only [h85, false_implies, true_and]
    by_cases h84 : (mem (offset - 1)).toNat = nrRanContainer
    · rw [if_pos h84] at hval ⊢
      unfold readNrRanContainer at hval ⊢
      by_cases hn : offset + 1 > n
      · rw [if_pos hn] at hval
        cases hval
      · rw [if_neg hn, within_bind, within_read, val_read]
        simp only [h84, true_implies]
        refine and_congr_right fun _ => ?_
        split
        · rename_i htype
          simp [htype, within_readDlUserData]
        · rename_i htype
          simp [htype]
    · rw [if_neg h84]
      simp [h84]

/-- On a well-formed chain the walk ends inside the packet. -/
theorem extLoop_returns (hok : ExtOk mem n offset) (hpos : 0 < offset)
    (hle : offset ≤ n) (info : ExtInfo) :
    ∃ fuel e info', (extLoop mem n fuel offset info).val = some (some (e, info')) ∧
      Within n (extLoop mem n fuel offset info) ∧ e ≤ n ∧ ExtChain mem offset e := by
  induction hok generalizing info with
  | @last offset hlast =>
    refine ⟨1, offset, info, ?_, ?_, hle, .last hlast⟩
    · rw [extLoop, val_bind, val_read, hlast]
      rfl
    · rw [extLoop, within_bind, within_read, val_read, hlast]
      exact ⟨by omega, within_pure _⟩
  | @more offset htype hlt hfits hlen hend hrest ih =>
    obtain ⟨info₁, hinfo⟩ := Option.isSome_iff_exists.mp (readExtension_isSome info hfits)
    have hreads : Within n (readExtension mem n (mem (offset - 1)).toNat offset info) :=
      (within_readExtension (by rw [hinfo]; rfl)).mpr hfits
    obtain ⟨fuel, e, info', hval, hwithin, hen, hchain⟩ := ih (by omega) hend info₁
    refine ⟨fuel + 1, e, info', ?_, ?_, hen, .more htype hchain⟩
    · rw [extLoop, val_bind, val_read, if_neg (toNat_ne_zero.mpr htype), val_bind, val_read,
        val_bind, hinfo]
      dsimp only
      rw [if_neg (not_lt.mpr hend)]
      exact hval
    · rw [extLoop, within_bind, within_read, val_read, if_neg (toNat_ne_zero.mpr htype),
        within_bind, within_read, val_read, within_bind, hinfo]
      dsimp only
      rw [if_neg (not_lt.mpr hend)]
      exact ⟨by omega, hlt, hreads, hwithin⟩

/-- A walk that ends inside the packet has met a well-formed chain. -/
theorem extLoop_ok {fuel e : Nat} {info info' : ExtInfo}
    (hval : (extLoop mem n fuel offset info).val = some (some (e, info')))
    (hwithin : Within n (extLoop mem n fuel offset info)) : ExtOk mem n offset := by
  induction fuel generalizing offset info with
  | zero => cases hval
  | succ fuel ih =>
    rw [extLoop, val_bind, val_read] at hval
    rw [extLoop, within_bind, within_read, val_read] at hwithin
    by_cases htype : mem (offset - 1) = 0
    · exact .last htype
    · rw [if_neg (toNat_ne_zero.mpr htype), val_bind, val_read, val_bind] at hval
      rw [if_neg (toNat_ne_zero.mpr htype), within_bind, within_read, val_read, within_bind]
        at hwithin
      cases hinfo : (readExtension mem n (mem (offset - 1)).toNat offset info).val with
      | none =>
        rw [hinfo] at hval
        cases hval
      | some info₁ =>
        rw [hinfo] at hval hwithin
        dsimp only at hval hwithin
        by_cases hend : offset + (mem offset).toNat * 4 > n
        · rw [if_pos hend] at hval
          cases hval
        · rw [if_neg hend] at hval hwithin
          obtain ⟨-, hlt, hreads, hrest⟩ := hwithin
          have hok := ih hval hrest
          have hfits := (within_readExtension (by rw [hinfo]; rfl)).mp hreads
          -- a header of length 0 would be walked again, and would have to have a length then
          have hlen : 0 < (mem offset).toNat := by
            by_contra hzero
            have hsame : offset + (mem offset).toNat * 4 = offset := by omega
            rw [hsame] at hok
            cases hok with
            | last hlast => exact htype hlast
            | more _ _ _ hlen _ _ => exact hzero hlen
          exact .more htype hlt hfits hlen (not_lt.mp hend) hok

/-- An unknown extension of length 0 is walked for ever. -/
theorem extLoop_stuck (htype : mem (offset - 1) ≠ 0)
    (hskip : (mem (offset - 1)).toNat ≠ pduSessionContainer ∧ (mem (offset - 1)).toNat ≠ nrRanContainer)
    (hlen : mem offset = 0) (hle : offset ≤ n) (fuel : Nat) (info : ExtInfo) :
    (extLoop mem n fuel offset info).val = none := by
  induction fuel with
  | zero => rfl
  | succ fuel ih =>
    rw [extLoop, val_bind, val_read, if_neg (toNat_ne_zero.mpr htype), val_bind, val_read, val_bind]
    unfold readExtension
    rw [if_neg hskip.1, if_neg hskip.2, hlen, val_pure]
    change (if offset + 0 > n then _ else extLoop mem n fuel (offset + 0) info).val = none
    rw [Nat.add_zero, if_neg (not_lt.mpr hle)]
    exact ih

end Walk

/-! ## The receiver -/

section Receiver

variable {mem : Nat → UInt8} {n : Nat}

lemma within_readTeid : Within n (readTeid mem) ↔ 7 < n := by
  unfold readTeid
  simp only [within_bind, within_read, within_pure, and_true]
  omega

lemma deliver_ok {tunnel : UeidData} {offset : Nat} {info : ExtInfo}
    (hcontent : ContentAt mem offset) : ∀ u ∈ (deliver n tunnel offset info).up, u.Ok mem n := by
  intro u hu
  unfold deliver at hu
  split at hu
  · rename_i hpos
    split at hu
    · rw [List.mem_singleton.mp hu]
      exact ⟨by omega, by omega, hcontent⟩
    · rw [List.mem_singleton.mp hu]
      exact ⟨by omega, by omega, hcontent⟩
  · cases hu

lemma copes_bind {α : Type} (x : Probe α) (f : Nat → α → Probe (Option Outcome)) :
    Copes mem n (fun fuel => x >>= f fuel) ↔ Within n x ∧ Copes mem n fun fuel => f fuel x.val := by
  refine ⟨fun ⟨fuel, out, hval, hwithin, hout⟩ => ?_, fun ⟨hx, fuel, out, hval, hwithin, hout⟩ => ?_⟩
  · obtain ⟨hx, hf⟩ := (within_bind _ _).mp hwithin
    exact ⟨hx, fuel, out, hval, hf, hout⟩
  · exact ⟨fuel, out, hval, (within_bind _ _).mpr ⟨hx, hwithin⟩, hout⟩

lemma copes_pure {out : Outcome} (hlock : out.locked = false) (hup : ∀ u ∈ out.up, u.Ok mem n) :
    Copes mem n fun _ => pure (some out) := ⟨0, out, rfl, within_pure _, hlock, hup⟩

lemma copes_return : Copes mem n fun _ => pure (some {}) := copes_pure rfl fun _ hu => (nomatch hu)

theorem copes_gpdu (st : State) (h : Nat) (hn : 8 ≤ n) :
    Copes mem n (fun fuel => gtpv1uHandleGpdu mem n st h fuel) ↔
      ((Flags.ofByte (mem 0).toNat).isGtp → (findTunnel st h (readTeid mem).val).isSome →
        (Flags.ofByte (mem 0).toNat).e → 12 ≤ n ∧ ExtOk mem n 12) := by
  unfold gtpv1uHandleGpdu
  rw [copes_bind, within_read, val_read, and_iff_right (by omega)]
  set f := Flags.ofByte (mem 0).toNat with hf
  dsimp only
  by_cases hgtp : f.isGtp
  · rw [hgtp]
    simp only [Bool.not_true, Bool.false_eq_true, if_false, true_implies]
    rw [copes_bind, within_readTeid, and_iff_right (by omega)]
    cases htunnel : findTunnel st h (readTeid mem).val with
    | none => exact iff_of_true copes_return nofun
    | some tunnel =>
      simp only [Option.isSome_some, true_implies]
      by_cases he : f.e
      · have hsize : f.headerSize = 12 := by
          unfold Flags.headerSize
          rw [he]
          rfl
        simp only [he, if_true, true_implies, hsize]
        refine ⟨fun ⟨fuel, out, hval, hwithin, hlock, _⟩ => ?_, fun ⟨hlong, hok⟩ => ?_⟩
        · rw [val_bind] at hval
          rw [within_bind] at hwithin
          cases hloop : (extLoop mem n fuel 12 {}).val with
          | none =>
            rw [hloop] at hval
            cases hval
          | some r =>
            cases r with
            | none =>
              -- the lock is held
              rw [hloop] at hval
              cases hval
              cases hlock
            | some r =>
              have hok := extLoop_ok hloop hwithin.1
              refine ⟨?_, hok⟩
              -- the first type is at 11
              cases fuel with
              | zero => cases hloop
              | succ fuel =>
                have hfirst := hwithin.1
                rw [extLoop, within_bind, within_read] at hfirst
                omega
        · obtain ⟨fuel, e, info, hval, hwithin, hle, hchain⟩ :=
            extLoop_returns hok (by decide) hlong {}
          refine ⟨fuel, deliver n tunnel e info, ?_, ?_, rfl, deliver_ok ?_⟩
          · rw [val_bind, hval]
            rfl
          · rw [within_bind, hval]
            exact ⟨hwithin, within_pure _⟩
          · unfold ContentAt
            rw [← hf, if_pos he]
            exact hchain
      · simp only [he]
        refine iff_of_true (copes_pure rfl (deliver_ok ?_)) nofun
        unfold ContentAt
        rw [← hf, if_neg he]
  · rw [Bool.not_eq_true] at hgtp
    rw [hgtp]
    exact iff_of_true copes_return nofun

lemma copes_endMarker (st : State) (h : Nat) (hn : 8 ≤ n) :
    Copes mem n fun _ => gtpv1uHandleEndMarker mem st h >>= fun out => pure (some out) := by
  rw [copes_bind]
  unfold gtpv1uHandleEndMarker
  rw [within_bind, within_read, val_bind, val_read]
  split
  · exact ⟨⟨by omega, within_pure _⟩, copes_return⟩
  · rw [within_bind, within_readTeid, val_bind]
    split
    · exact ⟨⟨by omega, by omega, within_pure _⟩, copes_return⟩
    · refine ⟨⟨by omega, by omega, within_pure _⟩, copes_pure rfl fun u hu => ?_⟩
      rw [List.mem_singleton.mp hu]
      trivial

lemma copes_echoReq (hn : 8 ≤ n) :
    (Copes mem n fun _ => gtpv1uHandleEchoReq mem >>= fun out => pure (some out)) ↔
      ((Flags.ofByte (mem 0).toNat).isGtp → (Flags.ofByte (mem 0).toNat).s → 10 ≤ n) := by
  rw [copes_bind]
  unfold gtpv1uHandleEchoReq
  rw [within_bind, within_read, val_bind, val_read, and_iff_right (by omega : 0 < n)]
  dsimp only
  cases hgtp : (Flags.ofByte (mem 0).toNat).isGtp with
  | false => exact iff_of_true ⟨within_pure _, copes_return⟩ (by simp)
  | true =>
    cases hs : (Flags.ofByte (mem 0).toNat).s with
    | false => exact iff_of_true ⟨within_pure _, copes_return⟩ (by simp)
    | true =>
      simp only [Bool.not_true, Bool.false_eq_true, if_false, true_implies, within_bind, within_read,
        within_readTeid, within_pure, and_true]
      refine ⟨fun hw => ?_, fun hlong => ⟨by omega, copes_pure rfl (by simp)⟩⟩
      omega

/-- **The receive path.**  Whatever the payload, the maps and the socket: the receiver returns, reads
below `n` only, leaves `gtp_lock` released and hands up nothing but `[offset, n)` behind the last
extension header, if and only if the packet is one of `PacketOk`. -/
theorem gtpu_receive_robust_iff (st : State) (h : Nat) (mem : Nat → UInt8) (n : Nat) :
    Robust st h mem n ↔ PacketOk st h mem n := by
  unfold Robust PacketOk gtpv1uReceiver
  by_cases hn : n < 8
  · simp only [hn, if_true]
    exact iff_of_true copes_return fun hc => absurd hn (by omega)
  · simp only [hn, if_false]
    have hn8 : 8 ≤ n := not_lt.mp hn
    rw [copes_bind, copes_bind, within_read, within_read, val_read, val_read,
      and_iff_right (by omega), and_iff_right (by omega)]
    change (Copes mem n fun fuel => if lengthField mem + 8 ≠ n then _ else _) ↔ _
    by_cases hlen : lengthField mem + 8 = n
    · simp only [hlen, hn8, true_implies, ne_eq, not_true_eq_false, if_false]
      rw [copes_bind, within_read, val_read, and_iff_right (by omega)]
      cases MsgType.ofCode (mem 1).toNat with
      | echoReq => exact copes_echoReq hn8
      | echoRsp => exact iff_of_true copes_return trivial
      | errorIndication => exact iff_of_true copes_return trivial
      | supportedExtensionHeaderIndication => exact iff_of_true copes_return trivial
      | endMarker => exact iff_of_true (copes_endMarker st h hn8) trivial
      | gpdu => exact copes_gpdu st h hn8
      | unknown c => exact iff_of_true copes_return trivial
    · simp only [hlen, ne_eq, not_false_eq_true, if_true]
      exact iff_of_true copes_return nofun

lemma gtpv1uReceiver_stuck {st : State} {h fuel : Nat} {tunnel : UeidData} (hn : ¬n < 8)
    (hlen : ¬(mem 2).toNat * 256 + (mem 3).toNat + 8 ≠ n)
    (htype : MsgType.ofCode (mem 1).toNat = .gpdu)
    (hgtp : (Flags.ofByte (mem 0).toNat).isGtp = true) (he : (Flags.ofByte (mem 0).toNat).e = true)
    (htunnel : findTunnel st h (readTeid mem).val = some tunnel)
    (hloop : (extLoop mem n fuel 12 {}).val = none) :
    (gtpv1uReceiver mem n st h fuel).val = none := by
  have hsize : (Flags.ofByte (mem 0).toNat).headerSize = 12 := by
    unfold Flags.headerSize
    rw [he]
    rfl
  unfold gtpv1uReceiver
  rw [if_neg hn, val_bind, val_bind, val_read, val_read, if_neg hlen, val_bind, val_read, htype]
  unfold dispatch gtpv1uHandleGpdu
  simp [hgtp, he, htunnel, hsize, hloop]

end Receiver

/-- One tunnel, with TEID 1, to UE 5. -/
def oneTunnel : State := ⟨AList.singleton 7 ∅, AList.singleton 1 { ueId := 5, callBack := 1 }, 7⟩

/-- A G-PDU for TEID 1 with the bytes of an extension header. -/
def gpduWith (extension : List UInt8) (i : Nat) : UInt8 :=
  ([0x34, 0xff, 0, (3 + extension.length).toUInt8, 0, 0, 0, 1, 0, 0, 0] ++ extension).getD i 0

/-- **Three packets**: an extension header of length 0 is never left; one that is longer than the
packet leaves the lock held; one that is only announced is looked for behind the packet. -/
theorem gtpu_receive_three_packets :
    (∀ fuel, (gtpv1uReceiver (gpduWith [0x20, 0, 0, 0, 0]) 16 oneTunnel 7 fuel).val = none) ∧
    (gtpv1uReceiver (gpduWith [0x20, 2, 0, 0, 0]) 16 oneTunnel 7 1).val = some { locked := true } ∧
    ¬Within 12 (gtpv1uReceiver (gpduWith [0x20]) 12 oneTunnel 7 1) := by
  refine ⟨fun fuel => ?_, by decide +kernel, by decide +kernel⟩
  have hstuck : (extLoop (gpduWith [0x20, 0, 0, 0, 0]) 16 fuel 12 {}).val = none :=
    extLoop_stuck (by decide) (by decide) (by decide) (by decide) fuel {}
  exact gtpv1uReceiver_stuck (by decide) (by decide) (by decide) (by decide) (by decide)
    (by decide +kernel : _ = some { ueId := 5, callBack := 1 }) hstuck

end NrStack.Gtpu
