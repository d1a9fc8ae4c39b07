/-
  Downlink counting at the UE under an active attacker.

  SYSTEM    an AMF that protects each message with its own count, a link that loses, replays and forges,
            `nas_security_rx_process` at the UE.  The MAC is ideal (`IdealMac`).
  WANTED    every genuine message that arrives is accepted, nothing else is, and what is turned away
            leaves the UE's state as it was (`Delivery.Right`).
  FOUND     the stored count is moved to the sequence number of a message BEFORE its MAC is checked, and
            not moved back: at count 5 a forged octet 4 sets it to 260, and the message 5 is lost.
-/
import NrStack.Lib.Machine
import NrStack.Nas.Security

namespace NrStack.Nas

open Machine

variable {κ : Type}

/-! ## The link -/

/-- Only what the AMF produced with a count verifies under it. -/
def IdealMac (A : StreamAlgorithms κ) (container : SecurityContainer κ)
    (amf : List UInt8 → Option Nat) : Prop :=
  ∀ computedMac n pdu, n ≤ maxNasCount → verifies A computedMac container n pdu = true →
    amf pdu = some n

/-- Sent by the AMF, made up by somebody else, or heard before. -/
inductive DeliveryKind
  | genuine | forged | replayed
  deriving DecidableEq, Repr

/-- A message handed to the UE, with what the stack holds where `computed_mac` will be. -/
structure Delivery where
  kind : DeliveryKind
  pdu : List UInt8
  computedMac : List UInt8
  deriving DecidableEq, Repr

/-- The UE, the least count the AMF's next message can have, and the messages that got through. -/
structure Link (κ : Type) where
  nas : UeNas κ
  next : Nat
  delivered : List (List UInt8)

/-- A message the AMF built with count `n`: protected and ciphered, its sequence number the low octet of
the count, its MAC computed with the count. -/
structure Genuine (A : StreamAlgorithms κ) (container : SecurityContainer κ)
    (amf : List UInt8 → Option Nat) (pdu : List UInt8) (n : Nat) : Prop where
  produced : amf pdu = some n
  checked : Checked pdu
  sqn : (pdu.getD 6 0).toNat = n % 256
  mac : ∀ computedMac, verifies A computedMac container n pdu = true

/-- A genuine message whose count is at most 255 ahead of the one expected, one the AMF never produced,
or a copy of one delivered before. -/
def Delivery.Allowed (A : StreamAlgorithms κ) (container : SecurityContainer κ)
    (amf : List UInt8 → Option Nat) (s : Link κ) (d : Delivery) : Prop :=
  match d.kind with
  | .genuine => ∃ n, Genuine A container amf d.pdu n ∧ s.next ≤ n ∧ n ≤ s.next + 255 ∧ n < 2 ^ 24
  | .forged => amf d.pdu = none
  | .replayed => d.pdu ∈ s.delivered

/-- One delivery; the link keeps the books on what was genuine. -/
def Link.deliver (A : StreamAlgorithms κ) (amf : List UInt8 → Option Nat) (s : Link κ)
    (d : Delivery) : Option (Link κ) :=
  (nasSecurityRxProcess A d.computedMac s.nas d.pdu).map fun r =>
    match d.kind, amf d.pdu with
    | .genuine, some n => ⟨r.2.1, n + 1, d.pdu :: s.delivered⟩
    | _, _ => { s with nas := r.2.1 }

/-- Any link state can be the start of a run: the results ask for `Synchronised` where they need it. -/
def linkMachine (A : StreamAlgorithms κ) (container : SecurityContainer κ)
    (amf : List UInt8 → Option Nat) : Spec (Link κ) Delivery where
  init := fun _ => True
  guard := Delivery.Allowed A container amf
  step := Link.deliver A amf

/-- Accepted where it is genuine; otherwise turned away, count and keys as they were. -/
def Delivery.Right (A : StreamAlgorithms κ) (s : Link κ) (d : Delivery) : Prop :=
  ∃ st nas pdu, nasSecurityRxProcess A d.computedMac s.nas d.pdu = some (st, nas, pdu) ∧
    match d.kind with
    | .genuine => st = .integrityPassed
    | _ => st ≠ .integrityPassed ∧ nas = s.nas

/-- The message has its two header octets and, where it is checked, its sequence number is the one the
UE expects and the count is not used up. -/
def Delivery.Undisturbing (s : Link κ) (d : Delivery) : Prop :=
  d.kind ≠ .genuine →
    2 ≤ d.pdu.length ∧
      (Checked d.pdu → (d.pdu.getD 6 0).toNat = s.nas.security.nasCountDl % 256 ∧
        s.nas.security.nasCountDl ≤ maxNasCount)

/-! ## One delivery -/

/-- The stored count is the one after the last genuine message, and everything delivered so far has
one of the counts before it. -/
structure Synchronised (container : SecurityContainer κ) (amf : List UInt8 → Option Nat)
    (s : Link κ) : Prop where
  container : s.nas.securityContainer = some container
  count : s.nas.security.nasCountDl = s.next
  past : ∀ pdu ∈ s.delivered, ∃ n < s.next, amf pdu = some n

variable {A : StreamAlgorithms κ} {container : SecurityContainer κ} {amf : List UInt8 → Option Nat}

variable {mac pdu : List UInt8} {nas : UeNas κ} {s : Link κ} {d : Delivery}

lemma genuine_passed {n : Nat} (hc : nas.securityContainer = some container)
    (hg : Genuine A container amf pdu n) (hle : nas.security.nasCountDl ≤ n)
    (hahead : n ≤ nas.security.nasCountDl + 255) (hn : n < 2 ^ 24) :
    nasSecurityRxProcess A mac nas pdu =
      some (.integrityPassed, nas.setCountDl (n + 1), decipher A container n pdu) := by
  have hmax : n ≤ maxNasCount := by unfold maxNasCount; omega
  rw [nasSecurityRxProcess_checked hc hg.checked, hg.sqn]
  unfold checkIntegrity
  rw [synchronise_ahead hle hahead hmax]
  rw [if_neg (Nat.not_lt.mpr hmax), if_neg (by simp [hg.mac mac]), Nat.mod_eq_of_lt (by omega),
    setCountDl_setCountDl]

lemma expected_sqn_failed (hideal : IdealMac A container amf)
    (hc : nas.securityContainer = some container) (hchk : Checked pdu)
    (hsqn : (pdu.getD 6 0).toNat = nas.security.nasCountDl % 256)
    (hmax : nas.security.nasCountDl ≤ maxNasCount) (hamf : amf pdu ≠ some nas.security.nasCountDl) :
    nasSecurityRxProcess A mac nas pdu = some (.integrityFailed, nas, pdu) := by
  rw [nasSecurityRxProcess_checked hc hchk]
  unfold checkIntegrity
  rw [synchronise_of_eq hsqn]
  rw [if_neg (Nat.not_lt.mpr hmax), if_pos fun h => hamf (hideal mac _ _ hmax h), setCountDl_self]

lemma checked_kept {nas' : UeNas κ} {pdu' : List UInt8} {st : SecurityState}
    (hc : nas.securityContainer = some container) (hchk : Checked pdu)
    (h : nasSecurityRxProcess A mac nas pdu = some (st, nas', pdu')) (hst : st ≠ .integrityPassed) :
    nas' = nas.setCountDl (synchronise nas.security.nasCountDl (pdu.getD 6 0).toNat) ∧
      synchronise nas.security.nasCountDl (pdu.getD 6 0).toNat ≤ maxNasCount := by
  rw [nasSecurityRxProcess_checked hc hchk] at h
  unfold checkIntegrity at h
  dsimp only at h
  split at h
  · cases h
  · rename_i hmax
    split at h
    · cases h
      exact ⟨rfl, Nat.not_lt.mp hmax⟩
    · cases h
      exact absurd rfl hst

section

variable (hs : Synchronised container amf s) (ha : d.Allowed A container amf s)
include hs ha

lemma Synchronised.amf_ne
    (hk : d.kind ≠ .genuine) : amf d.pdu ≠ some s.nas.security.nasCountDl := by
  intro h
  rw [hs.count] at h
  unfold Delivery.Allowed at ha
  cases hkind : d.kind with
  | genuine => exact hk hkind
  | forged =>
    rw [hkind] at ha
    rw [show amf d.pdu = none from ha] at h
    cases h
  | replayed =>
    rw [hkind] at ha
    obtain ⟨n, hlt, hn⟩ := hs.past d.pdu ha
    rw [hn] at h
    exact Nat.ne_of_lt hlt (Option.some.inj h)

lemma right_genuine (hk : d.kind = .genuine) :
    ∃ n, amf d.pdu = some n ∧ s.next ≤ n ∧
      nasSecurityRxProcess A d.computedMac s.nas d.pdu =
        some (.integrityPassed, s.nas.setCountDl (n + 1), decipher A container n d.pdu) := by
  unfold Delivery.Allowed at ha
  rw [hk] at ha
  obtain ⟨n, hg, hle, hahead, hn⟩ := ha
  refine ⟨n, hg.produced, hle, genuine_passed hs.container hg ?_ ?_ hn⟩
  · rw [hs.count]
    exact hle
  · rw [hs.count]
    exact hahead

end

lemma Delivery.Undisturbing.turned_away (hideal : IdealMac A container amf)
    (hs : Synchronised container amf s) (ha : d.Allowed A container amf s) (hk : d.kind ≠ .genuine)
    (hu : d.Undisturbing s) :
    ∃ st, st ≠ .integrityPassed ∧
      nasSecurityRxProcess A d.computedMac s.nas d.pdu = some (st, s.nas, d.pdu) := by
  obtain ⟨hlen, hsync⟩ := hu hk
  by_cases hchk : Checked d.pdu
  · obtain ⟨hsqn, hmax⟩ := hsync hchk
    exact ⟨_, by decide,
      expected_sqn_failed hideal hs.container hchk hsqn hmax (hs.amf_ne ha hk)⟩
  · rcases nasSecurityRxProcess_unchecked hs.container hlen hchk with h | h
    · exact ⟨_, by decide, h⟩
    · exact ⟨_, by decide, h⟩

lemma undisturbing_of_kept {st : SecurityState} (hs : Synchronised container amf s)
    (hst : st ≠ .integrityPassed)
    (h : nasSecurityRxProcess A d.computedMac s.nas d.pdu = some (st, s.nas, pdu)) :
    d.Undisturbing s := by
  intro _
  refine ⟨?_, fun hchk => ?_⟩
  · by_contra hlen
    rw [nasSecurityRxProcess_short hs.container (by omega)] at h
    cases h
  · obtain ⟨hkept, hmax⟩ := checked_kept hs.container hchk h hst
    have hself := congrArg (fun nas => nas.security.nasCountDl) hkept
    rw [setCountDl_nasCountDl] at hself
    rw [← hself] at hmax
    exact ⟨(synchronise_eq_self_iff (UInt8.toNat_lt _)).mp hself.symm, hmax⟩

lemma right_iff_undisturbing (hideal : IdealMac A container amf) (s : Link κ) (d : Delivery)
    (hs : Synchronised container amf s) (ha : d.Allowed A container amf s) :
    d.Right A s ↔ d.Undisturbing s := by
  unfold Delivery.Right
  by_cases hk : d.kind = .genuine
  · obtain ⟨n, -, -, h⟩ := right_genuine hs ha hk
    rw [hk]
    exact ⟨fun _ hne => absurd hk hne, fun _ => ⟨_, _, _, h, rfl⟩⟩
  · constructor
    · rintro ⟨st, nas, pdu, h, hwanted⟩
      have hboth : st ≠ .integrityPassed ∧ nas = s.nas := by
        cases hkind : d.kind with
        | genuine => exact absurd hkind hk
        | forged => rw [hkind] at hwanted; exact hwanted
        | replayed => rw [hkind] at hwanted; exact hwanted
      rw [hboth.2] at h
      exact undisturbing_of_kept hs hboth.1 h
    · intro hu
      obtain ⟨st, hst, h⟩ := hu.turned_away hideal hs ha hk
      refine ⟨st, _, _, h, ?_⟩
      cases hkind : d.kind with
      | genuine => exact absurd hkind hk
      | forged => exact ⟨hst, rfl⟩
      | replayed => exact ⟨hst, rfl⟩

/-! ## Whole runs -/

lemma Synchronised.deliver (hideal : IdealMac A container amf) (s : Link κ) (d : Delivery)
    (s' : Link κ) (hs : Synchronised container amf s) (ha : d.Allowed A container amf s)
    (hr : d.Right A s) (hstep : s.deliver A amf d = some s') : Synchronised container amf s' := by
  unfold Link.deliver at hstep
  by_cases hk : d.kind = .genuine
  · obtain ⟨n, hamf, hle, h⟩ := right_genuine hs ha hk
    rw [h, hk, hamf] at hstep
    cases hstep
    refine ⟨hs.container, rfl, fun pdu hmem => ?_⟩
    rcases List.mem_cons.mp hmem with rfl | hmem
    · exact ⟨n, Nat.lt_succ_self n, hamf⟩
    · obtain ⟨k, hlt, hk'⟩ := hs.past pdu hmem
      exact ⟨k, Nat.lt_succ_of_lt (Nat.lt_of_lt_of_le hlt hle), hk'⟩
  · obtain ⟨st, -, h⟩ :=
      ((right_iff_undisturbing hideal s d hs ha).mp hr).turned_away hideal hs ha hk
    rw [h] at hstep
    have : s' = s := by
      cases hkind : d.kind with
      | genuine => exact absurd hkind hk
      | forged => rw [hkind] at hstep; cases hstep; rfl
      | replayed => rw [hkind] at hstep; cases hstep; rfl
    rw [this]
    exact hs

/-- **Downlink counting.** Under an ideal MAC, along every run of genuine messages in order (each at
most 255 ahead of the count the UE expects, below 2^24) interleaved with forged and replayed ones: each
genuine message is accepted, no other is, and what is turned away leaves count and keys, exactly when no
forged or replayed message disturbs the count. -/
theorem nas_downlink_count_iff (A : StreamAlgorithms κ) (container : SecurityContainer κ)
    (amf : List UInt8 → Option Nat) (hideal : IdealMac A container amf) (s : Link κ)
    (hs : Synchronised container amf s) (ds : List Delivery)
    (hrun : (linkMachine A container amf).Along (linkMachine A container amf).guard s ds) :
    (linkMachine A container amf).Along (Delivery.Right A) s ds ↔
      (linkMachine A container amf).Along Delivery.Undisturbing s ds :=
  Spec.along_iff_of (fun s d hs ha => right_iff_undisturbing hideal s d hs ha)
    (fun s d s' hs ha hr hstep => hs.deliver hideal s d s' ha hr hstep) ds hs hrun

/-! ## A run of each kind -/

/-- A MAC that shows the count it was computed with. -/
def tagAlgorithms : StreamAlgorithms Unit where
  eia1 := fun _ => []
  eia2 := fun sc =>
    [.ofNat (sc.count / 2 ^ 24), .ofNat (sc.count / 2 ^ 16), .ofNat (sc.count / 2 ^ 8), .ofNat sc.count]
  eea1 := fun sc => sc.message
  eea2 := fun sc => sc.message
  eea1_length := fun _ => rfl
  eea2_length := fun _ => rfl

/-- A security context with integrity protection and ciphering. -/
def tagContainer : SecurityContainer Unit := ⟨.eia2, .eea2, some (), some ()⟩

/-- The COUNT that a MAC of the toy integrity algorithm stands for. -/
def tagAmf (pdu : List UInt8) : Option Nat :=
  match (pdu.drop 2).take 4 with
  | [0, b, c, d] => some (2 ^ 16 * b.toNat + 2 ^ 8 * c.toNat + d.toNat)
  | _ => none

lemma tag_idealMac : IdealMac tagAlgorithms tagContainer tagAmf := by
  intro mac n pdu hmax h
  have htag := eq_of_beq h
  unfold maxNasCount at hmax
  have hzero : UInt8.ofNat (n / 2 ^ 24) = 0 := by
    rw [Nat.div_eq_of_lt (by omega)]
    rfl
  unfold tagAmf
  rw [htag]
  simp only [streamComputeIntegrity, tagContainer, tagAlgorithms, downlinkCipher, hzero]
  simp only [UInt8.toNat_ofNat', Option.some.injEq]
  omega

/-- The UE expects COUNT 5, and the AMF is about to send it. -/
def expectingFive : Link Unit :=
  ⟨⟨⟨[], [], [], [], [], [], [], [], 0, 5⟩, some tagContainer⟩, 5, []⟩

/-- The PDU with COUNT 5. -/
def genuineFive : Delivery := ⟨.genuine, [0x7e, 2, 0, 0, 0, 5, 5, 0xaa], []⟩

/-- A PDU with a sequence number and a wrong MAC. -/
def forgedWith (sqn : UInt8) : Delivery := ⟨.forged, [0x7e, 2, 0xff, 0, 0, 0, sqn, 0xaa], []⟩

lemma expectingFive_synchronised : Synchronised tagContainer tagAmf expectingFive :=
  ⟨rfl, rfl, fun _ h => absurd h List.not_mem_nil⟩

lemma genuineFive_genuine : Genuine tagAlgorithms tagContainer tagAmf genuineFive.pdu 5 :=
  ⟨by decide, by decide, by decide, fun _ => rfl⟩

lemma forged_then_five_allowed (sqn : UInt8) :
    (linkMachine tagAlgorithms tagContainer tagAmf).Along
      (linkMachine tagAlgorithms tagContainer tagAmf).guard expectingFive
      [forgedWith sqn, genuineFive] := by
  refine ⟨rfl, fun s' hs' => ⟨⟨5, genuineFive_genuine, ?_⟩, fun _ _ => trivial⟩⟩
  obtain ⟨r, -, rfl⟩ := Option.map_eq_some_iff.mp hs'
  exact ⟨Nat.le_refl 5, Nat.le_add_right 5 255, by decide⟩

theorem nas_downlink_count_expected_sqn :
    (linkMachine tagAlgorithms tagContainer tagAmf).Along (Delivery.Right tagAlgorithms) expectingFive
      [forgedWith 5, genuineFive] := by
  refine (nas_downlink_count_iff tagAlgorithms tagContainer tagAmf tag_idealMac expectingFive
    expectingFive_synchronised [forgedWith 5, genuineFive] (forged_then_five_allowed 5)).mpr ?_
  exact ⟨fun _ => ⟨by decide, fun _ => ⟨by decide, by decide⟩⟩,
    fun _ _ => ⟨fun h => absurd rfl h, fun _ _ => trivial⟩⟩

theorem nas_downlink_count_forged_sqn :
    (linkMachine tagAlgorithms tagContainer tagAmf).Along
        (linkMachine tagAlgorithms tagContainer tagAmf).guard expectingFive
        [forgedWith 4, genuineFive] ∧
      (nasSecurityRxProcess tagAlgorithms [] expectingFive.nas (forgedWith 4).pdu).map
          (fun r => (r.1, r.2.1.security.nasCountDl)) = some (.integrityFailed, 260) ∧
      (nasSecurityRxProcess tagAlgorithms [] (expectingFive.nas.setCountDl 260) genuineFive.pdu).map
          (fun r => (r.1, r.2.1.security.nasCountDl)) = some (.integrityFailed, 261) ∧
      ¬ (linkMachine tagAlgorithms tagContainer tagAmf).Along (Delivery.Right tagAlgorithms)
        expectingFive [forgedWith 4, genuineFive] := by
  refine ⟨forged_then_five_allowed 4, by decide +kernel, by decide +kernel, fun h => ?_⟩
  obtain ⟨⟨st, nas, pdu, hp, -, hkept⟩, -⟩ := h
  have hcount := congrArg (Option.map fun r => r.2.1.security.nasCountDl) hp
  rw [hkept] at hcount
  have hmoved : (nasSecurityRxProcess tagAlgorithms [] expectingFive.nas (forgedWith 4).pdu).map
      (fun r => r.2.1.security.nasCountDl) = some 260 := by decide +kernel
  rw [show (forgedWith 4).computedMac = [] from rfl, hmoved] at hcount
  exact absurd hcount (by simp [expectingFive])

end NrStack.Nas
