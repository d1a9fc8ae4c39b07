/-
  The receive window of the PDCP entity.

  `recv_pdu` rebuilds the COUNT of a PDU from its SN: the HFN is that of `rx_deliv`, one more or one less.
  Over the integers this picks the ONE count within half a circle of `rx_deliv` (`rcvdCount_near`).  In
  `uint32_t`, in HFN 0, the "one less" branch wraps to the top of the COUNT space, and an old PDU is taken
  for the newest of all.

  * `window_of_no_underflow` — `WindowInv` holds along every run without such a PDU (`Underflows`);
  * `window_fails_in_hfn_zero` — one is enough to break it.
-/
import NrStack.Lib.Machine
import NrStack.Pdcp.Entity

namespace NrStack.Pdcp

open List Machine

/-! ## The configuration invariant -/

/-- The SN size is one of the two legal ones and the derived fields are those of
`new_nr_pdcp_entity`. -/
structure SnConfig (e : Entity) : Prop where
  size : e.snSize = shortSnSize ∨ e.snSize = longSnSize
  max : e.snMax = 2 ^ e.snSize - 1
  window : e.windowSize = 2 ^ (e.snSize - 1)

namespace SnConfig

variable {e : Entity}

section

variable (h : SnConfig e)
include h

lemma two_window : 2 ^ e.snSize = 2 * e.windowSize := by
  rw [h.window]
  rcases h.size with hs | hs <;> rw [hs] <;> rfl

lemma cases :
    (e.snSize = 12 ∧ e.windowSize = 2048) ∨ (e.snSize = 18 ∧ e.windowSize = 131072) := by
  rcases h.size with hs | hs
  · exact .inl ⟨hs, by rw [h.window, hs]; rfl⟩
  · exact .inr ⟨hs, by rw [h.window, hs]; rfl⟩

lemma rxDelivSn_eq : e.rxDelivSn = e.rxDeliv % (2 * e.windowSize) := by
  rw [Entity.rxDelivSn, h.max, Nat.and_two_pow_sub_one_eq_mod, h.two_window]

lemma rxDelivHfn_eq : e.rxDelivHfn = e.rxDeliv / (2 * e.windowSize) := by
  rw [Entity.rxDelivHfn, Nat.shiftRight_eq_div_pow, h.two_window]

lemma hfn_or_sn (hfn sn : Nat) (hsn : sn < 2 * e.windowSize) :
    u32 (hfn <<< e.snSize) ||| sn = u32 (hfn * (2 * e.windowSize)) + sn := by
  have hpow : (2 : Nat) ^ 32 = 2 ^ (32 - e.snSize) * 2 ^ e.snSize := by
    rcases h.size with hs | hs <;> rw [hs] <;> rfl
  have hwrap : u32 (hfn <<< e.snSize) = (hfn % 2 ^ (32 - e.snSize)) <<< e.snSize := by
    rw [u32, Nat.shiftLeft_eq, Nat.shiftLeft_eq, hpow, Nat.mul_mod_mul_right]
  rw [hwrap, ← Nat.shiftLeft_add_eq_or_of_lt (by rw [h.two_window]; exact hsn), ← hwrap,
    Nat.shiftLeft_eq, h.two_window]

end

end SnConfig

/-! ## COUNT reconstruction -/

namespace Entity

/-- The SN lies half a circle or more ahead of the SN of `rx_deliv`. -/
def FarAhead (e : Entity) (sn : Nat) : Prop := e.rxDelivSn + e.windowSize ≤ sn
deriving Decidable

end Entity

variable {e : Entity} {l : List Sdu} {buffer : List UInt8}

theorem rcvdCount_near (h : SnConfig e) (hd : e.rxDeliv < 2 ^ 32) {count : Nat}
    (hc : count < 2 ^ 32) (hlo : e.rxDeliv ≤ count + e.windowSize)
    (hhi : count < e.rxDeliv + e.windowSize) :
    e.rcvdCount (count % (2 * e.windowSize)) = count := by
  have hw : 0 < 2 * e.windowSize := by rcases h.cases with ⟨-, hw⟩ | ⟨-, hw⟩ <;> omega
  rw [Entity.rcvdCount, h.hfn_or_sn _ _ (Nat.mod_lt _ hw)]
  unfold Entity.rcvdHfn
  rw [h.rxDelivSn_eq, h.rxDelivHfn_eq]
  -- both circles are literal now, and the three branches are linear arithmetic
  rcases h.cases with ⟨-, hw⟩ | ⟨-, hw⟩
  all_goals
    rw [hw] at hlo hhi ⊢
    split
    · unfold u32; omega
    · split <;> (unfold u32; omega)

section

variable (h : SnConfig e) (hd : e.rxDeliv + e.windowSize < 2 ^ 32) {sn : Nat}
  (hsn : sn < 2 * e.windowSize)
include h hd hsn

lemma rcvdCount_window (hok : ¬ (e.rxDelivHfn = 0 ∧ e.FarAhead sn)) :
    e.rxDeliv ≤ e.rcvdCount sn + e.windowSize ∧ e.rcvdCount sn < e.rxDeliv + e.windowSize := by
  rw [Entity.FarAhead, h.rxDelivSn_eq, h.rxDelivHfn_eq] at hok
  rw [Entity.rcvdCount, h.hfn_or_sn _ _ hsn]
  unfold Entity.rcvdHfn
  rw [h.rxDelivSn_eq, h.rxDelivHfn_eq]
  rcases h.cases with ⟨-, hw⟩ | ⟨-, hw⟩
  all_goals
    rw [hw] at hd hsn hok ⊢
    split
    · unfold u32; omega
    · split <;> (unfold u32; omega)

lemma rcvdCount_old (hfar : e.FarAhead sn) (hhfn : e.rxDelivHfn ≠ 0) :
    e.rcvdCount sn < e.rxDeliv := by
  rw [Entity.FarAhead, h.rxDelivSn_eq] at hfar
  rw [h.rxDelivHfn_eq] at hhfn
  rw [Entity.rcvdCount, h.hfn_or_sn _ _ hsn]
  unfold Entity.rcvdHfn
  rw [h.rxDelivSn_eq, h.rxDelivHfn_eq]
  rcases h.cases with ⟨-, hw⟩ | ⟨-, hw⟩
  all_goals
    rw [hw] at hd hsn hfar hhfn ⊢
    split
    · unfold u32; omega
    · split <;> (unfold u32; omega)

end

lemma rcvdSn_lt (h : SnConfig e) (buffer : List UInt8) : e.rcvdSn buffer < 2 * e.windowSize := by
  have h1 := (buffer.getD 1 0).toNat_lt
  have h2 := (buffer.getD 2 0).toNat_lt
  rw [← h.two_window, Entity.rcvdSn]
  rcases h.cases with ⟨hs, -⟩ | ⟨hs, -⟩
  · rw [hs, if_pos (by decide)]
    have h0 : (buffer.getD 0 0).toNat &&& 0xf ≤ 0xf := Nat.and_le_right
    refine Nat.or_lt_two_pow ?_ (by omega)
    rw [Nat.shiftLeft_eq]; omega
  · rw [hs, if_neg (by decide)]
    have h0 : (buffer.getD 0 0).toNat &&& 0x3 ≤ 0x3 := Nat.and_le_right
    refine Nat.or_lt_two_pow (Nat.or_lt_two_pow ?_ ?_) (by omega)
    · rw [Nat.shiftLeft_eq]; omega
    · rw [Nat.shiftLeft_eq]; omega

/-! ## The reordering buffer -/

/-- `rx_list` in strictly increasing count order. -/
def CountSorted (l : List Sdu) : Prop := l.Pairwise fun a b => a.count < b.count

lemma sduListAdd_perm (l : List Sdu) (sdu : Sdu) : sduListAdd l sdu ~ sdu :: l := by
  induction l with
  | nil => exact Perm.refl _
  | cons a l ih =>
    unfold sduListAdd
    split
    · exact Perm.refl _
    · exact (ih.cons a).trans (Perm.swap sdu a l)

lemma mem_sduListAdd {sdu x : Sdu} : x ∈ sduListAdd l sdu ↔ x = sdu ∨ x ∈ l :=
  (sduListAdd_perm l sdu).mem_iff.trans mem_cons

lemma sduListAdd_sorted {sdu : Sdu} (hl : CountSorted l) (hnew : ∀ s ∈ l, s.count ≠ sdu.count) :
    CountSorted (sduListAdd l sdu) := by
  induction l with
  | nil => exact pairwise_singleton _ _
  | cons a l ih =>
    obtain ⟨ha, hl⟩ := pairwise_cons.mp hl
    unfold sduListAdd
    split
    · rename_i hlt
      refine pairwise_cons.mpr ⟨?_, pairwise_cons.mpr ⟨ha, hl⟩⟩
      intro s hs
      rcases mem_cons.mp hs with rfl | hs
      · exact hlt
      · exact Nat.lt_trans hlt (ha s hs)
    · rename_i hge
      have hne := hnew a mem_cons_self
      refine pairwise_cons.mpr ⟨?_, ih hl fun s hs => hnew s (mem_cons_of_mem _ hs)⟩
      intro s hs
      rcases mem_sduListAdd.mp hs with rfl | hs
      · omega
      · exact ha s hs

lemma sduInList_iff {count : Nat} : sduInList l count = true ↔ ∃ s ∈ l, s.count = count := by
  simp [sduInList]

/-- The bytes of the SDUs in a list. -/
def bytes (l : List Sdu) : Int := (l.map fun s => (s.buffer.length : Int)).sum

@[simp] lemma bytes_nil : bytes [] = 0 := rfl

@[simp] lemma bytes_cons (a : Sdu) (l : List Sdu) : bytes (a :: l) = a.buffer.length + bytes l := by
  rfl

@[simp] lemma bytes_append (l l' : List Sdu) : bytes (l ++ l') = bytes l + bytes l' := by
  rw [bytes, map_append, sum_append]
  rfl

/-- What a delivery loop does to the entity: `d` handed over, `rest` still stored. -/
def Entity.handedOver (e : Entity) (d rest : List Sdu) (size : Int) : Entity :=
  { e with rxList := rest, rxSize := size, delivered := e.delivered ++ d }

lemma handedOver_nil (h : e.rxList = l) : e.handedOver [] l (e.rxSize - bytes []) = e := by
  subst h; simp [Entity.handedOver]

lemma deliverHead_handedOver (e : Entity) (a : Sdu) (l d rest : List Sdu) :
    (e.deliverHead a l).handedOver d rest ((e.deliverHead a l).rxSize - bytes d) =
      e.handedOver (a :: d) rest (e.rxSize - bytes (a :: d)) := by
  simp [Entity.handedOver, Entity.deliverHead, Int.sub_sub]

/-- The consecutive SDUs at the front are handed over, the rest stays. -/
theorem deliverConsecutive_spec :
    ∀ (e : Entity) (count : Nat), e.rxList = l → CountSorted l → (∀ s ∈ l, count ≤ s.count) →
      (∀ s ∈ l, s.count + 1 < 2 ^ 32) →
      ∃ d rest, l = d ++ rest ∧
        e.deliverConsecutive count l =
          (e.handedOver d rest (e.rxSize - bytes d), count + d.length) ∧
        (∀ s ∈ d, count ≤ s.count ∧ s.count < count + d.length) ∧
        (∀ s ∈ rest, count + d.length < s.count) ∧
        (∀ bound, count ≤ bound → (∀ s ∈ l, s.count < bound) → count + d.length ≤ bound) := by
  induction l with
  | nil =>
    intro e count he _ _ _
    refine ⟨[], [], rfl, ?_, by simp, by simp, fun bound h _ => h⟩
    rw [handedOver_nil he]; rfl
  | cons a l ih =>
    intro e count he hsort hlo hhi
    obtain ⟨ha, hl⟩ := pairwise_cons.mp hsort
    by_cases heq : count = a.count
    · -- the head is next in order: hand it over and go on with `count + 1`
      have hstep : u32 (count + 1) = count + 1 :=
        Nat.mod_eq_of_lt (by have := hhi a mem_cons_self; omega)
      obtain ⟨d, rest, hsplit, hres, hd, hrest, hbound⟩ :=
        ih (e.deliverHead a l) (count + 1) rfl hl
          (fun s hs => by have := ha s hs; omega)
          (fun s hs => hhi s (mem_cons_of_mem _ hs))
      refine ⟨a :: d, rest, by rw [hsplit]; rfl, ?_, ?_, ?_, ?_⟩
      · rw [Entity.deliverConsecutive, if_pos heq, hstep, hres, deliverHead_handedOver,
          length_cons, Nat.add_assoc, Nat.add_comm 1]
      · intro s hs
        rw [length_cons]
        rcases mem_cons.mp hs with rfl | hs
        · omega
        · have := hd s hs; omega
      · intro s hs
        rw [length_cons]
        have := hrest s hs; omega
      · intro bound _ hb
        have h1 := hb a mem_cons_self
        have h2 := hbound bound (by omega) fun s hs => hb s (mem_cons_of_mem _ hs)
        rw [length_cons]
        omega
    · -- a gap: nothing moves
      refine ⟨[], a :: l, rfl, ?_, by simp, ?_, fun bound h _ => h⟩
      · rw [Entity.deliverConsecutive, if_neg heq, handedOver_nil he]; rfl
      · intro s hs
        have h0 := hlo a mem_cons_self
        rcases mem_cons.mp hs with rfl | hs
        · simp; omega
        · have := ha s hs; simp; omega

theorem deliverBelow_spec :
    ∀ (e : Entity) (bound : Nat), e.rxList = l → CountSorted l →
      ∃ d rest, l = d ++ rest ∧
        e.deliverBelow bound l = e.handedOver d rest (e.rxSize - bytes d) ∧
        (∀ s ∈ d, s.count < bound) ∧ (∀ s ∈ rest, bound ≤ s.count) := by
  induction l with
  | nil =>
    intro e bound he _
    refine ⟨[], [], rfl, ?_, by simp, by simp⟩
    rw [handedOver_nil he]; rfl
  | cons a l ih =>
    intro e bound he hsort
    obtain ⟨ha, hl⟩ := pairwise_cons.mp hsort
    by_cases hlt : a.count < bound
    · obtain ⟨d, rest, hsplit, hres, hd, hrest⟩ := ih (e.deliverHead a l) bound rfl hl
      refine ⟨a :: d, rest, by rw [hsplit]; rfl, ?_, ?_, hrest⟩
      · rw [Entity.deliverBelow, if_pos hlt, hres, deliverHead_handedOver]
      · intro s hs
        rcases mem_cons.mp hs with rfl | hs
        · exact hlt
        · exact hd s hs
    · refine ⟨[], a :: l, rfl, ?_, by simp, ?_⟩
      · rw [Entity.deliverBelow, if_neg hlt, handedOver_nil he]
      · intro s hs
        rcases mem_cons.mp hs with rfl | hs
        · omega
        · have := ha s hs; omega

/-! ## What `recv_pdu` can do -/

namespace Entity

variable (c : Crypto) (e : Entity) (buffer : List UInt8)

/-- The count the entity computes for a received buffer. -/
def rxCount : Nat := e.rcvdCount (e.rcvdSn (e.forceDcBit buffer))

/-- The received PDU, deciphered. -/
def rxClear : List UInt8 := e.decipher c (e.rxCount buffer) (e.forceDcBit buffer)

/-- The SDU that would be stored for a received buffer. -/
def rxSdu : Sdu where
  count := e.rxCount buffer
  buffer := ((e.rxClear c buffer).drop e.headerSize).take
    ((e.rxClear c buffer).length - e.headerSize - e.integritySize)
  msgIntegrity := e.msgIntegrity (e.rxCount buffer) (e.forceDcBit buffer)

/-- The buffer passes the suspension, length and integrity tests. -/
def Admitted : Prop :=
  e.entitySuspended = false ∧
  e.headerSize + e.sdapHeaderSizeRx + e.integritySize + 1 ≤ (e.forceDcBit buffer).length ∧
  e.integrityOk c (e.rxCount buffer) (e.rxClear c buffer) = true
deriving Decidable

/-- The entity after a PDU that it takes. -/
def accept : Entity :=
  ((e.store (e.rxSdu c buffer) ((e.forceDcBit buffer).length - e.headerSize)).deliverStored
    (e.rxCount buffer)).updateReordering

/-- An old PDU is taken for the newest: an admitted buffer, in HFN 0, with an SN half a circle or more
ahead. -/
def Underflows : Prop :=
  e.Admitted c buffer ∧ e.rxDelivHfn = 0 ∧ e.FarAhead (e.rcvdSn (e.forceDcBit buffer))
deriving Decidable

end Entity

theorem recvPdu_cases (c : Crypto) (e : Entity) (buffer : List UInt8) :
    e.recvPdu c buffer = e ∨
      (e.Admitted c buffer ∧ e.rxDeliv ≤ e.rxCount buffer ∧
        (∀ s ∈ e.rxList, s.count ≠ e.rxCount buffer) ∧ e.recvPdu c buffer = e.accept c buffer) := by
  unfold Entity.recvPdu
  split
  · exact .inl rfl
  rename_i hsusp
  split
  · exact .inl rfl
  dsimp only
  split
  · exact .inl rfl
  rename_i hlen
  split
  · exact .inl rfl
  rename_i hint
  split
  · exact .inl rfl
  rename_i hnew
  obtain ⟨hold, hdup⟩ := not_or.mp hnew
  rw [Bool.not_eq_true', Bool.not_eq_false] at hint
  refine .inr ⟨⟨by simpa using hsusp, Nat.not_lt.mp hlen, hint⟩, Nat.not_lt.mp hold, ?_, rfl⟩
  intro s hs heq
  exact hdup (sduInList_iff.mpr ⟨s, hs, heq⟩)

lemma recvPdu_old (c : Crypto) (h : e.rxCount buffer < e.rxDeliv) : e.recvPdu c buffer = e := by
  rcases recvPdu_cases c e buffer with h0 | ⟨-, hge, -, -⟩
  · exact h0
  · omega

/-! ## The invariant -/

/-- What every step keeps of the receive window. -/
structure WindowCore (e : Entity) : Prop where
  config : SnConfig e
  sorted : CountSorted e.rxList
  stored : ∀ s ∈ e.rxList, e.rxDeliv < s.count ∧ s.count < e.rxNext
  next : e.rxDeliv ≤ e.rxNext
  window : e.rxNext ≤ e.rxDeliv + e.windowSize
  order : CountSorted e.delivered
  below : ∀ s ∈ e.delivered, s.count < e.rxDeliv

/-- **The window invariant**: the core, and `rx_reord` ahead of `rx_deliv` while t-Reordering
runs. -/
structure WindowInv (e : Entity) : Prop extends WindowCore e where
  reord : e.tReorderingStart ≠ 0 → e.rxDeliv < e.rxReord ∧ e.rxReord ≤ e.rxNext

lemma startReordering_eq (e : Entity) : ∃ reord start,
    e.startReordering = { e with rxReord := reord, tReorderingStart := start } ∧
      (e.tReorderingStart = 0 → start ≠ 0 → e.rxDeliv < reord ∧ reord = e.rxNext) := by
  unfold Entity.startReordering
  split
  · rename_i h
    exact ⟨_, _, rfl, fun _ _ => ⟨h, rfl⟩⟩
  · exact ⟨e.rxReord, e.tReorderingStart, rfl, fun h0 h1 => absurd h0 h1⟩

lemma WindowCore.timer (h : WindowCore e) (reord start : Nat) :
    WindowCore { e with rxReord := reord, tReorderingStart := start } :=
  { h with config := ⟨h.config.size, h.config.max, h.config.window⟩ }

lemma startReordering_inv (h : WindowCore e) (h0 : e.tReorderingStart = 0) :
    WindowInv e.startReordering := by
  obtain ⟨reord, start, heq, hr⟩ := startReordering_eq e
  rw [heq]
  refine ⟨h.timer reord start, fun hs => ?_⟩
  obtain ⟨hlt, hreq⟩ := hr h0 hs
  exact ⟨hlt, Nat.le_of_eq hreq⟩

lemma updateReordering_inv (h : WindowCore e) (hr : e.tReorderingStart ≠ 0 → e.rxReord ≤ e.rxNext) :
    WindowInv e.updateReordering := by
  simp only [Entity.updateReordering]
  by_cases hstop : e.tReorderingStart ≠ 0 ∧ e.rxReord ≤ e.rxDeliv
  · rw [if_pos hstop, if_pos rfl]
    exact startReordering_inv (h.timer e.rxReord 0) rfl
  · rw [if_neg hstop]
    split
    · rename_i h0
      exact startReordering_inv h h0
    · rename_i h0
      refine ⟨h, fun hs => ⟨?_, hr hs⟩⟩
      rcases Nat.lt_or_ge e.rxDeliv e.rxReord with hlt | hge
      · exact hlt
      · exact absurd ⟨hs, hge⟩ hstop

lemma WindowCore.advance (hcfg : SnConfig e) (hsort : CountSorted e.rxList)
    (hdel : CountSorted e.delivered) (deliv : Nat) (hbelow : ∀ s ∈ e.delivered, s.count < deliv)
    {d rest : List Sdu} {size : Int} {deliv' : Nat} (hsplit : e.rxList = d ++ rest)
    (hd : ∀ s ∈ d, deliv ≤ s.count ∧ s.count < deliv') (hle : deliv ≤ deliv')
    (hrest : ∀ s ∈ rest, deliv' < s.count ∧ s.count < e.rxNext) (hnext : deliv' ≤ e.rxNext)
    (hwin : e.rxNext ≤ deliv' + e.windowSize) :
    WindowCore { e.handedOver d rest size with rxDeliv := deliv' } := by
  rw [hsplit] at hsort
  obtain ⟨hsd, hsr, -⟩ := pairwise_append.mp hsort
  refine ⟨{ hcfg with }, hsr, hrest, hnext, hwin, ?_, ?_⟩
  · refine pairwise_append.mpr ⟨hdel, hsd, fun a ha b hb => ?_⟩
    have h1 := hbelow a ha
    have h2 := (hd b hb).1
    omega
  · intro s hs
    rcases mem_append.mp hs with hs | hs
    · exact Nat.lt_of_lt_of_le (hbelow s hs) hle
    · exact (hd s hs).2

/-! ## One step keeps the invariant -/

lemma store_spec (h : WindowInv e) (sdu : Sdu) (hc : sdu.count + 1 < 2 ^ 32)
    (hlo : e.rxDeliv ≤ sdu.count) (hnew : ∀ s ∈ e.rxList, s.count ≠ sdu.count) (size : Nat) :
    (e.store sdu size).rxNext = max e.rxNext (sdu.count + 1) ∧
      CountSorted (e.store sdu size).rxList ∧
      (∀ s ∈ (e.store sdu size).rxList, e.rxDeliv ≤ s.count ∧ s.count < (e.store sdu size).rxNext) ∧
      ((e.store sdu size).tReorderingStart ≠ 0 →
        (e.store sdu size).rxReord ≤ (e.store sdu size).rxNext) := by
  have hnext : (e.store sdu size).rxNext = max e.rxNext (sdu.count + 1) := by
    have hu : u32 (sdu.count + 1) = sdu.count + 1 := Nat.mod_eq_of_lt hc
    simp only [Entity.store, hu]
    split <;> omega
  refine ⟨hnext, sduListAdd_sorted h.sorted hnew, ?_, ?_⟩
  · intro s hs
    rcases mem_sduListAdd.mp hs with rfl | hs
    · omega
    · have := h.stored s hs; omega
  · intro hs
    rw [hnext]
    have : e.rxReord ≤ e.rxNext := (h.reord hs).2
    exact Nat.le_trans this (Nat.le_max_left _ _)

lemma updateReordering_rxDeliv (e : Entity) : e.updateReordering.rxDeliv = e.rxDeliv := by
  simp only [Entity.updateReordering, Entity.startReordering]
  split <;> split <;> first | rfl | (split <;> rfl)

lemma accept_inv (c : Crypto) (h : WindowInv e) (hn : e.rxNext < 2 ^ 32)
    (hc : e.rxCount buffer + 1 < 2 ^ 32) (hlo : e.rxDeliv ≤ e.rxCount buffer)
    (hhi : e.rxCount buffer < e.rxDeliv + e.windowSize)
    (hnew : ∀ s ∈ e.rxList, s.count ≠ e.rxCount buffer) :
    WindowInv (e.accept c buffer) ∧ e.rxDeliv ≤ (e.accept c buffer).rxDeliv := by
  have hwin := h.window
  rw [Entity.accept, updateReordering_rxDeliv]
  obtain ⟨hnext, hsort, hmem, hreord⟩ := store_spec h (e.rxSdu c buffer) hc hlo hnew
    ((e.forceDcBit buffer).length - e.headerSize)
  generalize hsize : (e.forceDcBit buffer).length - e.headerSize = size at *
  generalize he1 : e.store (e.rxSdu c buffer) size = e1 at *
  have hcfg : SnConfig e1 := by
    rw [← he1]; exact { h.config with }
  have hfix : e1.rxDeliv = e.rxDeliv ∧ e1.delivered = e.delivered ∧
      e1.windowSize = e.windowSize := by
    rw [← he1]; exact ⟨rfl, rfl, rfl⟩
  obtain ⟨hfd, hfl, hfw⟩ := hfix
  change e1.rxNext = max e.rxNext (e.rxCount buffer + 1) at hnext
  by_cases heq : e.rxCount buffer = e.rxDeliv
  · -- the count `rx_deliv` was waiting for: a consecutive prefix is handed over
    obtain ⟨d, rest, hsplit, hres, hdm, hrest, hbound⟩ :=
      deliverConsecutive_spec e1 e1.rxDeliv rfl hsort (fun s hs => by rw [hfd]; exact (hmem s hs).1)
        (fun s hs => by have := hmem s hs; rw [hnext] at this; omega)
    have hst : e1.deliverStored (e.rxCount buffer) =
        { e1.handedOver d rest (e1.rxSize - bytes d) with rxDeliv := e1.rxDeliv + d.length } := by
      simp only [Entity.deliverStored]
      rw [if_pos (by rw [hfd]; exact heq), hres]
    have hb := hbound e1.rxNext (by rw [hfd, hnext]; omega) fun s hs => (hmem s hs).2
    rw [hst]
    refine ⟨updateReordering_inv ?_ hreord, by show e.rxDeliv ≤ e1.rxDeliv + d.length; omega⟩
    refine WindowCore.advance hcfg hsort (by rw [hfl]; exact h.order) e1.rxDeliv
      (by rw [hfl, hfd]; exact h.below) hsplit hdm (by omega) ?_ hb ?_
    · intro s hs
      exact ⟨hrest s hs, (hmem s (by rw [hsplit]; exact mem_append_right _ hs)).2⟩
    · rw [hfw, hnext, hfd]; omega
  · -- a later count: it only waits in the list
    have hst : e1.deliverStored (e.rxCount buffer) = e1 := by
      simp only [Entity.deliverStored]
      rw [if_neg (by rw [hfd]; exact heq)]
    rw [hst]
    refine ⟨updateReordering_inv ⟨hcfg, hsort, ?_, by rw [hfd, hnext]; omega,
      by rw [hfd, hfw, hnext]; omega, by rw [hfl]; exact h.order,
      by rw [hfl, hfd]; exact h.below⟩ hreord, Nat.le_of_eq hfd.symm⟩
    intro s hs
    rw [hfd]
    refine ⟨?_, (hmem s hs).2⟩
    rw [← he1] at hs
    rcases mem_sduListAdd.mp hs with rfl | hs
    · show e.rxDeliv < e.rxCount buffer
      omega
    · exact (h.stored s hs).1

/-- Without an underflow every PDU keeps the window. -/
theorem recvPdu_inv (c : Crypto) (h : WindowInv e) (hd : e.rxDeliv + e.windowSize < 2 ^ 32)
    (hok : ¬ e.Underflows c buffer) :
    WindowInv (e.recvPdu c buffer) ∧ e.rxDeliv ≤ (e.recvPdu c buffer).rxDeliv := by
  rcases recvPdu_cases c e buffer with h0 | ⟨hadm, hge, hnew, h0⟩
  · rw [h0]; exact ⟨h, Nat.le_refl _⟩
  · rw [h0]
    have hwin := rcvdCount_window h.config hd (rcvdSn_lt h.config (e.forceDcBit buffer))
      fun hu => hok ⟨hadm, hu⟩
    have hnx := h.window
    have hlt : e.rxCount buffer < e.rxDeliv + e.windowSize := hwin.2
    exact accept_inv c h (by omega) (by omega) hge hlt hnew

lemma handedOver_handedOver (e : Entity) (d d' rest rest' : List Sdu) (size size' : Int) :
    (e.handedOver d rest size).handedOver d' rest' size' = e.handedOver (d ++ d') rest' size' := by
  simp [Entity.handedOver]

theorem expireReordering_spec (hsort : CountSorted e.rxList)
    (hhi : ∀ s ∈ e.rxList, s.count + 1 < 2 ^ 32) :
    ∃ d rest deliv, e.rxList = d ++ rest ∧
      e.expireReordering = Entity.startReordering
        { e.handedOver d rest (e.rxSize - bytes d) with rxDeliv := deliv } ∧
      e.rxReord ≤ deliv ∧ (∀ s ∈ d, s.count < deliv) ∧ (∀ s ∈ rest, deliv < s.count) ∧
      (∀ bound, e.rxReord ≤ bound → (∀ s ∈ e.rxList, s.count < bound) → deliv ≤ bound) := by
  obtain ⟨d, rest, hsplit, hres, hdm, hrest⟩ := deliverBelow_spec e e.rxReord rfl hsort
  have hmem : ∀ s ∈ rest, s ∈ e.rxList := fun s hs => by rw [hsplit]; exact mem_append_right _ hs
  rw [hsplit] at hsort
  obtain ⟨-, hsr, -⟩ := pairwise_append.mp hsort
  obtain ⟨d', rest', hsplit', hres', hdm', hrest', hbound⟩ :=
    deliverConsecutive_spec (l := rest) (e.handedOver d rest (e.rxSize - bytes d)) e.rxReord rfl hsr
      hrest (fun s hs => hhi s (hmem s hs))
  have hsize : (e.handedOver d rest (e.rxSize - bytes d)).rxSize - bytes d' =
      e.rxSize - bytes (d ++ d') := by
    rw [bytes_append, ← Int.sub_sub]
    rfl
  rw [handedOver_handedOver, hsize] at hres'
  refine ⟨d ++ d', rest', e.rxReord + d'.length, by rw [append_assoc, ← hsplit', hsplit], ?_,
    Nat.le_add_right _ _, ?_, hrest', fun bound hle hb => hbound bound hle fun s hs => hb s (hmem s hs)⟩
  · simp only [Entity.expireReordering]
    rw [hres]
    show Entity.startReordering
      { ((e.handedOver d rest (e.rxSize - bytes d)).deliverConsecutive e.rxReord rest).1 with
        rxDeliv :=
          ((e.handedOver d rest (e.rxSize - bytes d)).deliverConsecutive e.rxReord rest).2 } = _
    rw [hres']
  · intro s hs
    rcases mem_append.mp hs with hs | hs
    · exact Nat.lt_of_lt_of_le (hdm s hs) (Nat.le_add_right _ _)
    · exact (hdm' s hs).2

theorem expireReordering_inv (h : WindowCore e) (h0 : e.tReorderingStart = 0)
    (hn : e.rxNext < 2 ^ 32) (hlt : e.rxDeliv < e.rxReord) (hle : e.rxReord ≤ e.rxNext) :
    WindowInv e.expireReordering ∧ e.rxReord ≤ e.expireReordering.rxDeliv := by
  have hwin := h.window
  obtain ⟨d, rest, deliv, hsplit, hexp, hge, hdm, hrest, hbound⟩ := expireReordering_spec h.sorted
    (fun s hs => by have := h.stored s hs; omega)
  have hb := hbound e.rxNext hle fun s hs => (h.stored s hs).2
  have hcore : WindowCore { e.handedOver d rest (e.rxSize - bytes d) with rxDeliv := deliv } := by
    refine WindowCore.advance h.config h.sorted h.order e.rxDeliv h.below hsplit ?_ (by omega) ?_ hb
      (by omega)
    · intro s hs
      have := (h.stored s (by rw [hsplit]; exact mem_append_left _ hs)).1
      exact ⟨Nat.le_of_lt this, hdm s hs⟩
    · intro s hs
      exact ⟨hrest s hs, (h.stored s (by rw [hsplit]; exact mem_append_right _ hs)).2⟩
  obtain ⟨reord, start, heq, -⟩ := startReordering_eq
    { e.handedOver d rest (e.rxSize - bytes d) with rxDeliv := deliv }
  rw [hexp]
  exact ⟨startReordering_inv hcore h0, by rw [heq]; exact hge⟩

theorem checkTReordering_inv (h : WindowInv e) (hn : e.rxNext < 2 ^ 32) :
    WindowInv e.checkTReordering ∧ e.rxDeliv ≤ e.checkTReordering.rxDeliv := by
  unfold Entity.checkTReordering
  split
  · exact ⟨h, Nat.le_refl _⟩
  split
  · exact ⟨h, Nat.le_refl _⟩
  rename_i hexp
  have hrun : e.tReorderingStart ≠ 0 := fun h0 => hexp (.inl h0)
  obtain ⟨hlt, hle⟩ := h.reord hrun
  obtain ⟨hinv, hmono⟩ := expireReordering_inv (h.toWindowCore.timer e.rxReord 0) rfl hn hlt hle
  exact ⟨hinv, Nat.le_trans (Nat.le_of_lt hlt) hmono⟩

lemma setTime_inv (h : WindowInv e) (now : Nat) (hn : e.rxNext < 2 ^ 32) :
    WindowInv (e.setTime now) ∧ e.rxDeliv ≤ (e.setTime now).rxDeliv :=
  checkTReordering_inv (e := { e with tCurrent := now })
    { config := { h.config with }, sorted := h.sorted
      stored := h.stored, next := h.next, window := h.window, order := h.order, below := h.below
      reord := h.reord } hn

/-! ## Whole runs -/

/-- What the receiving side is given. -/
inductive RxInput
  | recvPdu (buffer : List UInt8)
  | setTime (now : Nat)

/-- One step of the receiving side. -/
def Entity.rxStep (c : Crypto) (e : Entity) : RxInput → Option Entity
  | .recvPdu buffer => some (e.recvPdu c buffer)
  | .setTime now => some (e.setTime now)

/-- A receiver from its creation on: arbitrary buffers and times, while COUNT stays a window below the
top.  `ok` is what else the environment promises. -/
def rxMachine (c : Crypto) (ok : Entity → RxInput → Prop) : Spec Entity RxInput where
  init e := ∃ type isGnb rbId sdapRx sdapTx snSize tReordering security,
    (snSize = shortSnSize ∨ snSize = longSnSize) ∧
      newNrPdcpEntity type isGnb rbId sdapRx sdapTx snSize tReordering security = some e
  guard e i := e.rxDeliv < 2 ^ 32 - e.windowSize ∧ ok e i
  step := Entity.rxStep c

/-- The window property of a state, together with what the next allowed input does to it. -/
structure WindowClaim (c : Crypto) (ok : Entity → RxInput → Prop) (e : Entity) : Prop where
  increasing : CountSorted e.rxList
  stored : ∀ s ∈ e.rxList, e.rxDeliv < s.count ∧ s.count < e.rxNext
  window : e.rxNext ≤ e.rxDeliv + e.windowSize
  delivered : CountSorted e.delivered
  monotone : ∀ i e', (rxMachine c ok).guard e i → e.rxStep c i = some e' → e.rxDeliv ≤ e'.rxDeliv
  discarded : ∀ buffer, (rxMachine c ok).guard e (.recvPdu buffer) →
    e.FarAhead (e.rcvdSn (e.forceDcBit buffer)) → e.recvPdu c buffer = e

/-- No PDU that passes the suspension, length and integrity tests carries, while `rx_deliv` is
in HFN 0, an SN half a circle or more ahead of it. -/
def NoUnderflow (c : Crypto) (e : Entity) (i : RxInput) : Prop :=
  ∀ buffer, i = .recvPdu buffer → ¬ e.Underflows c buffer

lemma newNrPdcpEntity_inv {type : EntityType} {isGnb : Bool} {rbId : Int} {sdapRx sdapTx : Bool}
    {snSize : Nat} {tReordering : Int} {security : SecurityKeysAndAlgos}
    (hs : snSize = shortSnSize ∨ snSize = longSnSize)
    (h : newNrPdcpEntity type isGnb rbId sdapRx sdapTx snSize tReordering security = some e) :
    WindowInv e := by
  obtain ⟨keys, hc, sc, hi, ic, rfl, -, -⟩ := Entity.setSecurity_cases h
  exact
    { config := ⟨hs, rfl, rfl⟩, sorted := List.Pairwise.nil, stored := nofun
      next := Nat.le_refl _, window := Nat.zero_le _, order := List.Pairwise.nil
      below := nofun, reord := fun h0 => absurd rfl h0 }

lemma reach_inv {c : Crypto} (h : Reach (rxMachine c (NoUnderflow c)) e) : WindowInv e := by
  refine h.invariant ?_ ?_
  · rintro e ⟨type, isGnb, rbId, sdapRx, sdapTx, snSize, tReordering, security, hs, hnew⟩
    exact newNrPdcpEntity_inv hs hnew
  · intro e i e' _ hinv hg hstep
    obtain ⟨hcount, hok⟩ := hg
    cases i with
    | recvPdu buffer =>
      cases hstep
      exact (recvPdu_inv c hinv (by omega) (hok buffer rfl)).1
    | setTime now =>
      cases hstep
      exact (setTime_inv hinv now (by have := hinv.window; omega)).1

/-- **The receive window along every run without an underflowing PDU.** -/
theorem window_of_no_underflow (c : Crypto) {e : Entity}
    (h : Reach (rxMachine c (NoUnderflow c)) e) : WindowClaim c (NoUnderflow c) e := by
  have hinv := reach_inv h
  refine ⟨hinv.sorted, hinv.stored, hinv.window, hinv.order, ?_, ?_⟩
  · intro i e' hg hstep
    obtain ⟨hcount, hok⟩ := hg
    cases i with
    | recvPdu buffer =>
      cases hstep
      exact (recvPdu_inv c hinv (by omega) (hok buffer rfl)).2
    | setTime now =>
      cases hstep
      exact (setTime_inv hinv now (by have := hinv.window; omega)).2
  · intro buffer hg hfar
    obtain ⟨hcount, hok⟩ := hg
    by_cases hhfn : e.rxDelivHfn = 0
    · -- in HFN 0 only a buffer that is not admitted is left, and that one is dropped
      rcases recvPdu_cases c e buffer with h0 | ⟨hadm, -, -, -⟩
      · exact h0
      · exact absurd ⟨hadm, hhfn, hfar⟩ (hok buffer rfl)
    · exact recvPdu_old c (rcvdCount_old hinv.config (by omega) (rcvdSn_lt hinv.config _) hfar hhfn)

/-- An AM bearer without security. -/
def plainDrb : Entity :=
  (newNrPdcpEntity .drbAm true 1 false false shortSnSize 100 ⟨0, 0, [], []⟩).get (by decide)

lemma plainDrb_reach (ok : Entity → RxInput → Prop) : Reach (rxMachine .null ok) plainDrb :=
  .start ⟨.drbAm, true, 1, false, false, shortSnSize, 100, ⟨0, 0, [], []⟩, .inl rfl, by decide⟩

theorem window_of_no_underflow_plainDrb :
    (plainDrb.recvPdu .null [0x80, 0x01, 0x2a]).rxList.length = 1 ∧
      WindowClaim .null (NoUnderflow .null) (plainDrb.recvPdu .null [0x80, 0x01, 0x2a]) :=
  ⟨by decide, window_of_no_underflow .null
    ((plainDrb_reach _).next (i := .recvPdu [0x80, 0x01, 0x2a])
      ⟨by decide, fun buffer hb => by cases hb; decide⟩ rfl)⟩

/-- **The window breaks in HFN 0**: the first PDU a fresh receiver gets carries SN 4094; it is
stored with COUNT `2^32 - 2` and `rx_next` jumps to `2^32 - 1`. -/
theorem window_fails_in_hfn_zero :
    ¬ ∀ e, Reach (rxMachine .null fun _ _ => True) e → WindowClaim .null (fun _ _ => True) e := by
  intro h
  have hreach : Reach (rxMachine .null fun _ _ => True) (plainDrb.recvPdu .null [0x8f, 0xfe, 0x2a]) :=
    (plainDrb_reach _).next (i := .recvPdu [0x8f, 0xfe, 0x2a]) ⟨by decide, trivial⟩ rfl
  exact absurd (h _ hreach).window (by decide)

end NrStack.Pdcp
