/-
  What `rx_list` holds when the peer sends segments of a fixed family of SDUs.

  The SDUs `D 0, D 1, ..` are numbered without end; the SN of SDU `n` is `n` modulo `M`.  The receiver
  stands at number `N`, and an SN of its window has the `number` less than `M` ahead of `N`
  (`number_of_window`).

  `Content`: every entry is a part of the SDU of its number, and its data is freed exactly when every byte
  of that SDU has arrived.  `Log` reads the buffers handed to `deliver_sdu` back as numbers without
  repetition: those passed by `rx_next`, and those complete above it.
-/
import NrStack.Rlc.AmReceive

namespace NrStack.Rlc.Am

open List Circular

/-! ## Definitions -/

/-- The entry is a part of the SDU `D`. -/
structure Part (D : List UInt8) (l : RxPdu) : Prop where
  pos : 0 < l.size
  within : l.so + l.size ≤ D.length
  first : l.isFirst = true ↔ l.so = 0
  last : l.isLast = true ↔ l.so + l.size = D.length
  data : l.data = none ∨ l.data = some ((D.drop l.so).take l.size)

/-- The number of the SDU an entry belongs to, for a receiver at number `N`. -/
def number (M N : Nat) (l : RxPdu) : Nat := lift M N l.sn

/-- Byte `b` of SDU `n` is in the list. -/
def Got (M N : Nat) (list : List RxPdu) (n b : Nat) : Prop :=
  ∃ l ∈ list, number M N l = n ∧ l.so ≤ b ∧ b < l.so + l.size

/-- All bytes of SDU `n` are in the list. -/
def Complete (M N : Nat) (D : Nat → List UInt8) (list : List RxPdu) (n : Nat) : Prop :=
  ∀ b < (D n).length, Got M N list n b

/-- The list holds parts of the SDUs, and the complete ones have been freed. -/
structure Content (M N : Nat) (D : Nat → List UInt8) (list : List RxPdu) : Prop where
  part : ∀ l ∈ list, Part (D (number M N l)) l
  freed : ∀ l ∈ list, l.data = none ↔ Complete M N D list (number M N l)

/-- SDU `n` was delivered: `rx_next` has passed it, or its data is freed. -/
def Done (M N : Nat) (list : List RxPdu) (n : Nat) : Prop :=
  n < N ∨ ∃ l ∈ list, number M N l = n ∧ l.data = none

/-- The delivered buffers are SDUs of the family, each once: those that are `Done`. -/
def Log (M N : Nat) (D : Nat → List UInt8) (list : List RxPdu)
    (delivered : List (List (Option UInt8))) : Prop :=
  ∃ numbers : List Nat, numbers.Nodup ∧ delivered = numbers.map (fun n => (D n).map some) ∧
    ∀ n, n ∈ numbers ↔ Done M N list n

/-! ## Numbers -/

section Numbers

variable {M N h : Nat} {list : List RxPdu}

lemma number_mod {l : RxPdu} (hsn : l.sn < M) : number M N l % M = l.sn := lift_mod N hsn

lemma le_number (l : RxPdu) : N ≤ number M N l := le_lift N

lemma number_eq_iff {x y : RxPdu} (hx : x.sn < M) (hy : y.sn < M) :
    number M N x = number M N y ↔ x.sn = y.sn := by
  constructor
  · intro heq
    rw [← number_mod hx, heq, number_mod hy]
  · intro heq
    rw [number, heq, number]

theorem number_of_window {W n : Nat} {pdu : RxPdu} (hMW : M = 2 * W) (hlow : N ≤ n + W)
    (hhigh : n < N + M) (hsn : pdu.sn = n % M) (hwin : dist M (N % M) pdu.sn < W) :
    number M N pdu = n := by
  have hM : 0 < M := by omega
  rw [number, hsn]
  rcases lt_or_ge n N with hlt | hge
  · exfalso
    have hbehind := dist_mod (A := n + M) (B := N) hM (by omega) (by omega)
    rw [Nat.add_mod_right, ← hsn] at hbehind
    omega
  · exact lift_of_mod hM hge hhigh

lemma number_add {k : Nat} {l : RxPdu} (hsn : l.sn < M) (hk : k ≤ dist M (N % M) l.sn) :
    number M (N + k) l = number M N l := by
  have hM : 0 < M := by omega
  have hmove := dist_add_left hsn (Nat.mod_lt N hM) hk
  rw [Nat.mod_add_mod] at hmove
  rw [number, number, lift, lift, hmove]
  omega

end Numbers

/-! ## Segments that bring nothing new -/

variable {list : List RxPdu}

theorem alreadyReceivedLoop_covered {sn : Nat}
    (hsort : list.Pairwise fun x y => x.sn = sn → y.sn = sn → x.so ≤ y.so) :
    ∀ so size : Int, (∀ b : Int, so ≤ b → b < so + size →
      ∃ l ∈ list, l.sn = sn ∧ (l.so : Int) ≤ b ∧ b < l.so + l.size) →
      alreadyReceivedLoop sn list so size = true := by
  induction list with
  | nil =>
    intro so size hcov
    rw [alreadyReceivedLoop, decide_eq_true_eq]
    by_contra hpos
    obtain ⟨l, hl, -⟩ := hcov so (Int.le_refl _) (by omega)
    cases hl
  | cons l rest ih =>
    intro so size hcov
    obtain ⟨hhead, htail⟩ := pairwise_cons.mp hsort
    rw [alreadyReceivedLoop]
    split
    · rfl
    next hpos =>
    -- the entry that covers the first byte
    obtain ⟨x, hx, hxsn, hxle, hxlt⟩ := hcov so (Int.le_refl _) (by omega)
    split
    · next hfront =>
      -- what is left starts behind l
      apply ih htail _ _
      intro b hb hb'
      obtain ⟨y, hy, hysn, hyle, hylt⟩ := hcov b (by omega) (by omega)
      rcases mem_cons.mp hy with rfl | hy
      · omega
      · exact ⟨y, hy, hysn, hyle, hylt⟩
    next hfront =>
    have hxrest : x ∈ rest := by
      rcases mem_cons.mp hx with rfl | hx
      · exact absurd ⟨hxsn, hxle, hxlt⟩ hfront
      · exact hx
    split
    · next hback =>
      -- an entry that covers the end starts no later than x, so it covers the front as well
      obtain ⟨hlsn, hle, hlt⟩ := hback
      have hso := hhead x hxrest hlsn hxsn
      exact absurd ⟨hlsn, by omega, by omega⟩ hfront
    next hback =>
    apply ih htail _ _
    intro b hb hb'
    obtain ⟨y, hy, hysn, hyle, hylt⟩ := hcov b hb hb'
    rcases mem_cons.mp hy with rfl | hy
    · have hso := hhead x hxrest hysn hxsn
      exact absurd ⟨hysn, by omega, by omega⟩ hfront
    · exact ⟨y, hy, hysn, hyle, hylt⟩

theorem covered_of_alreadyReceivedLoop {sn : Nat} :
    ∀ so size : Int, alreadyReceivedLoop sn list so size = true →
      ∀ b : Int, so ≤ b → b < so + size →
        ∃ l ∈ list, l.sn = sn ∧ (l.so : Int) ≤ b ∧ b < l.so + l.size := by
  induction list with
  | nil =>
    intro so size hall b hb hb'
    rw [alreadyReceivedLoop, decide_eq_true_eq] at hall
    omega
  | cons l rest ih =>
    intro so size hall b hb hb'
    have hin : (∃ x ∈ rest, x.sn = sn ∧ (x.so : Int) ≤ b ∧ b < x.so + x.size) →
        ∃ x ∈ l :: rest, x.sn = sn ∧ (x.so : Int) ≤ b ∧ b < x.so + x.size := by
      rintro ⟨x, hx, hcov⟩
      exact ⟨x, mem_cons_of_mem _ hx, hcov⟩
    rw [alreadyReceivedLoop, if_neg (by omega)] at hall
    split at hall
    · next hfront =>
      by_cases hbl : b < l.so + l.size
      · exact ⟨l, mem_cons_self, hfront.1, by omega, hbl⟩
      · exact hin (ih _ _ hall b (by omega) (by omega))
    split at hall
    · next hback =>
      by_cases hbl : (l.so : Int) ≤ b
      · exact ⟨l, mem_cons_self, hback.1, hbl, by omega⟩
      · exact hin (ih _ _ hall b hb (by omega))
    · exact hin (ih _ _ hall b hb hb')

/-- **Duplicate detection is exact**: in a list whose entries of each SN stand in the order of their
offsets, a segment is already received when every byte of it lies in an entry of its SN, and only
then. -/
theorem segmentAlreadyReceived_iff {list : List RxPdu}
    (hsort : list.Pairwise fun x y => x.sn = y.sn → x.so ≤ y.so) (sn so size : Nat) :
    segmentAlreadyReceived list sn so size = true ↔
      ∀ b, so ≤ b → b < so + size → ∃ l ∈ list, l.sn = sn ∧ l.so ≤ b ∧ b < l.so + l.size := by
  constructor
  · intro hold b hb hb'
    obtain ⟨l, hl, hsn, hle, hlt⟩ :=
      covered_of_alreadyReceivedLoop _ _ hold b (by omega) (by omega)
    exact ⟨l, hl, hsn, by omega, by omega⟩
  · intro hcov
    have hsort' : list.Pairwise fun x y => x.sn = sn → y.sn = sn → x.so ≤ y.so :=
      hsort.imp fun hxy hx hy => hxy (hx.trans hy.symm)
    apply alreadyReceivedLoop_covered hsort' _ _
    intro b hb hb'
    obtain ⟨l, hl, hsn, hle, hlt⟩ := hcov b.toNat (by omega) (by omega)
    exact ⟨l, hl, hsn, by omega, by omega⟩

theorem segmentAlreadyReceived_overlap :
    ∃ list : List RxPdu, list.map (fun l => (l.sn, l.so, l.size)) =
        [(3, 0, 20), (7, 0, 5), (7, 3, 6), (7, 9, 3)] ∧
      segmentAlreadyReceived list 7 2 10 = true ∧ ¬ segmentAlreadyReceived list 7 2 11 = true := by
  refine ⟨[⟨3, none, 20, 0, true, false⟩, ⟨7, none, 5, 0, true, false⟩, ⟨7, none, 6, 3, false, false⟩,
    ⟨7, none, 3, 9, false, false⟩], rfl, ?_, ?_⟩
  · refine (segmentAlreadyReceived_iff (by decide) 7 2 10).mpr ?_
    intro b hb hb'
    interval_cases b <;> decide
  · rw [segmentAlreadyReceived_iff (by decide)]
    intro hall
    have hbyte := hall 12 (by decide) (by decide)
    revert hbyte
    decide

lemma Ordered.offsets {M base h : Nat} (hord : Ordered M base h list) (sn : Nat) :
    list.Pairwise fun x y => x.sn = sn → y.sn = sn → x.so ≤ y.so := by
  apply hord.sorted.imp
  intro x y hxy hx hy
  rcases hxy with hlt | ⟨-, hle⟩
  · have hlt' : dist M base x.sn < dist M base y.sn := hlt
    rw [hx, hy] at hlt'
    exact absurd hlt' (lt_irrefl _)
  · exact hle

section Steps

variable {M N W h n : Nat} {D : Nat → List UInt8} {list : List RxPdu}

variable {pdu : RxPdu}

lemma not_complete_of_fresh (hord : Ordered M (N % M) h list) (hsn : pdu.sn < M)
    (hnum : number M N pdu = n) (hwithin : pdu.so + pdu.size ≤ (D n).length)
    (hfresh : segmentAlreadyReceived list pdu.sn pdu.so pdu.size = false) :
    ¬ Complete M N D list n := by
  intro hall
  have htrue : segmentAlreadyReceived list pdu.sn pdu.so pdu.size = true := by
    apply alreadyReceivedLoop_covered (hord.offsets pdu.sn) _ _
    intro b hb hb'
    obtain ⟨l, hl, hln, hle, hlt⟩ := hall b.toNat (by omega)
    refine ⟨l, hl, ?_, by omega, by omega⟩
    exact (number_eq_iff (hord.within l hl).1 hsn).mp (hln.trans hnum.symm)
  rw [htrue] at hfresh
  cases hfresh

variable {snCompare : Nat → Nat → Int} {m b : Nat}

lemma got_pduListAdd :
    Got M N (pduListAdd snCompare list pdu) m b ↔
      (number M N pdu = m ∧ pdu.so ≤ b ∧ b < pdu.so + pdu.size) ∨ Got M N list m b := by
  constructor
  · rintro ⟨l, hl, hrest⟩
    rcases mem_pduListAdd.mp hl with rfl | hl
    · exact .inl hrest
    · exact .inr ⟨l, hl, hrest⟩
  · rintro (hrest | ⟨l, hl, hrest⟩)
    · exact ⟨pdu, mem_pduListAdd.mpr (.inl rfl), hrest⟩
    · exact ⟨l, mem_pduListAdd.mpr (.inr hl), hrest⟩

/-- The list a fresh segment of SDU `n` is in, its SDU not yet looked at: all entries of `n` still
have their data, and the other SDUs are as before. -/
structure Pending (M N : Nat) (D : Nat → List UInt8) (list : List RxPdu) (n : Nat) : Prop where
  part : ∀ l ∈ list, Part (D (number M N l)) l
  held : ∀ l ∈ list, number M N l = n → l.data ≠ none
  freed : ∀ l ∈ list, number M N l ≠ n →
    (l.data = none ↔ Complete M N D list (number M N l))

lemma Content.insert (hc : Content M N D list)
    (hpart : Part (D n) pdu) (hdata : pdu.data ≠ none) (hnum : number M N pdu = n)
    (hnot : ¬ Complete M N D list n) : Pending M N D (pduListAdd snCompare list pdu) n := by
  refine ⟨?_, ?_, ?_⟩
  · intro l hl
    rcases mem_pduListAdd.mp hl with rfl | hl
    · rw [hnum]
      exact hpart
    · exact hc.part l hl
  · intro l hl hln
    rcases mem_pduListAdd.mp hl with rfl | hl
    · exact hdata
    · intro hnone
      exact hnot (hln ▸ (hc.freed l hl).mp hnone)
  · intro l hl hln
    rcases mem_pduListAdd.mp hl with rfl | hl
    · exact absurd hnum hln
    · rw [hc.freed l hl]
      constructor
      · intro hall b hb
        exact got_pduListAdd.mpr (.inr (hall b hb))
      · intro hall b hb
        rcases got_pduListAdd.mp (hall b hb) with ⟨hpn, -⟩ | hgot
        · exact absurd (hpn.symm.trans hnum) hln
        · exact hgot

section

variable (hp : Pending M N D list n) (hord : Ordered M (N % M) h list)
include hp hord

lemma Pending.pieces (hsn : pdu.sn < M) (hnum : number M N pdu = n) :
    (∀ l ∈ list.filter (hasSn pdu.sn), Piece (D n) l) ∧
      (list.filter (hasSn pdu.sn)).Pairwise (fun x y => x.so ≤ y.so) ∧
      ∀ b, Covered b (list.filter (hasSn pdu.sn)) ↔ Got M N list n b := by
  have hmem : ∀ l, l ∈ list.filter (hasSn pdu.sn) ↔ l ∈ list ∧ number M N l = n := by
    intro l
    rw [mem_filter]
    constructor
    · rintro ⟨hl, hlsn⟩
      exact ⟨hl, ((number_eq_iff (hord.within l hl).1 hsn).mpr (hasSn_iff.mp hlsn)).trans hnum⟩
    · rintro ⟨hl, hln⟩
      exact ⟨hl, hasSn_iff.mpr ((number_eq_iff (hord.within l hl).1 hsn).mp (hln.trans hnum.symm))⟩
  refine ⟨?_, ?_, ?_⟩
  · intro l hl
    obtain ⟨hl, hln⟩ := (hmem l).mp hl
    have hpart := hp.part l hl
    rw [hln] at hpart
    exact { hpart with data := hpart.data.resolve_left (hp.held l hl hln) }
  · refine ((hord.offsets pdu.sn).filter (hasSn pdu.sn)).imp_of_mem ?_
    intro x y hx hy hxy
    exact hxy (hasSn_iff.mp (mem_filter.mp hx).2) (hasSn_iff.mp (mem_filter.mp hy).2)
  · intro b
    constructor
    · rintro ⟨l, hl, hb⟩
      obtain ⟨hl, hln⟩ := (hmem l).mp hl
      exact ⟨l, hl, hln, hb⟩
    · rintro ⟨l, hl, hln, hb⟩
      exact ⟨l, (hmem l).mpr ⟨hl, hln⟩, hb⟩

lemma Pending.sduFull_iff (hmem : pdu ∈ list) (hnum : number M N pdu = n) :
    sduFull list pdu.sn = true ↔ Complete M N D list n := by
  have hsn := (hord.within pdu hmem).1
  have hbase : N % M < M := Nat.mod_lt N (by omega)
  obtain ⟨hpiece, hsort, hcov⟩ := hp.pieces hord hsn hnum
  have hpart := hp.part pdu hmem
  rw [hnum] at hpart
  have hlen : 0 < (D n).length := by
    have := hpart.pos
    have := hpart.within
    omega
  have hin : pdu ∈ list.filter (hasSn pdu.sn) := mem_filter.mpr ⟨hmem, hasSn_iff.mpr rfl⟩
  have hfull : sduFull list pdu.sn = fullFrom 0 (list.filter (hasSn pdu.sn)) := by
    rw [sduFull, hord.segmentsOf_eq hbase]
    cases hf : list.filter (hasSn pdu.sn) with
    | nil =>
      rw [hf] at hin
      cases hin
    | cons l rest =>
      have hdata := (hpiece l (by rw [hf]; exact mem_cons_self)).data
      show (if l.data = none then false else fullFrom 0 (l :: rest)) = _
      rw [if_neg (by rw [hdata]; exact Option.some_ne_none _)]
  rw [hfull, fullFrom_iff hpiece hsort hlen]
  constructor
  · intro hall b hb
    exact (hcov b).mp (hall b (Nat.zero_le _) hb)
  · intro hall b _ hb
    exact (hcov b).mpr (hall b hb)

lemma Pending.reassemble_eq
    (hmem : pdu ∈ list) (hnum : number M N pdu = n) (hall : Complete M N D list n)
    (hmax : (D n).length ≤ nrSduMax) : reassemble list pdu.sn = some ((D n).map some) := by
  have hsn := (hord.within pdu hmem).1
  have hbase : N % M < M := Nat.mod_lt N (by omega)
  obtain ⟨hpiece, hsort, hcov⟩ := hp.pieces hord hsn hnum
  have hloop := reassembleLoop_covered hmax hpiece hsort (Nat.zero_le (D n).length)
    (fun b _ hb => (hcov b).mpr (hall b hb))
  rw [take_zero, map_nil] at hloop
  rw [reassemble, hord.segmentsOf_eq hbase, hloop]

end

lemma Pending.content (hp : Pending M N D list n) (hnot : ¬ Complete M N D list n) :
    Content M N D list := by
  refine ⟨hp.part, ?_⟩
  intro l hl
  by_cases hln : number M N l = n
  · rw [hln]
    exact ⟨fun hnone => absurd hnone (hp.held l hl hln), fun hall => absurd hall hnot⟩
  · exact hp.freed l hl hln

lemma freeSn_sn (sn : Nat) (l : RxPdu) : (freeSn sn l).sn = l.sn := by
  rw [freeSn]
  split <;> rfl

lemma freeSn_span (sn : Nat) (l : RxPdu) :
    (freeSn sn l).so = l.so ∧ (freeSn sn l).size = l.size := by
  rw [freeSn]
  split <;> exact ⟨rfl, rfl⟩

lemma number_freeSn (sn : Nat) (l : RxPdu) : number M N (freeSn sn l) = number M N l := by
  rw [number, freeSn_sn, number]

lemma got_map_freeSn {sn : Nat} :
    Got M N (list.map (freeSn sn)) m b ↔ Got M N list m b := by
  constructor
  · rintro ⟨l, hl, hln, hle, hlt⟩
    obtain ⟨l, hin, rfl⟩ := mem_map.mp hl
    obtain ⟨hso, hsize⟩ := freeSn_span sn l
    rw [number_freeSn] at hln
    exact ⟨l, hin, hln, by omega, by omega⟩
  · rintro ⟨l, hl, hln, hle, hlt⟩
    obtain ⟨hso, hsize⟩ := freeSn_span sn l
    exact ⟨freeSn sn l, mem_map_of_mem hl, by rw [number_freeSn]; exact hln, by omega,
      by omega⟩

lemma done_map_freeSn_iff (hord : Ordered M (N % M) h list) (hmem : pdu ∈ list) (m : Nat) :
    Done M N (list.map (freeSn pdu.sn)) m ↔ Done M N list m ∨ m = number M N pdu := by
  rw [Done, Done, or_assoc]
  apply or_congr_right
  constructor
  · rintro ⟨l, hl, rfl, hnone⟩
    obtain ⟨l, hin, rfl⟩ := mem_map.mp hl
    rw [number_freeSn]
    by_cases hlsn : l.sn = pdu.sn
    · exact .inr ((number_eq_iff (hord.within l hin).1 (hord.within pdu hmem).1).mpr hlsn)
    · rw [freeSn, if_neg hlsn] at hnone
      exact .inl ⟨l, hin, rfl, hnone⟩
  · rintro (⟨l, hl, rfl, hnone⟩ | rfl)
    · refine ⟨freeSn pdu.sn l, mem_map_of_mem hl, number_freeSn _ l, ?_⟩
      rw [freeSn]
      split
      · rfl
      · exact hnone
    · refine ⟨freeSn pdu.sn pdu, mem_map_of_mem hmem, number_freeSn _ pdu, ?_⟩
      rw [freeSn, if_pos rfl]
      rfl

lemma Pending.free (hp : Pending M N D list n) (hord : Ordered M (N % M) h list)
    (hsn : pdu.sn < M) (hnum : number M N pdu = n) (hall : Complete M N D list n) :
    Content M N D (list.map (freeSn pdu.sn)) := by
  have hcomplete : ∀ m, Complete M N D (list.map (freeSn pdu.sn)) m ↔ Complete M N D list m :=
    fun m => forall₂_congr fun b _ => got_map_freeSn
  have hiff : ∀ l ∈ list, number M N l = n ↔ l.sn = pdu.sn := fun l hl => by
    rw [← hnum]
    exact number_eq_iff (hord.within l hl).1 hsn
  constructor
  · intro l hl
    obtain ⟨l, hin, rfl⟩ := mem_map.mp hl
    have hpart := hp.part l hin
    rw [freeSn]
    split
    · exact { hpart with data := .inl rfl }
    · exact hpart
  · intro l hl
    obtain ⟨l, hin, rfl⟩ := mem_map.mp hl
    rw [number_freeSn, hcomplete]
    by_cases hln : number M N l = n
    · rw [freeSn, if_pos ((hiff l hin).mp hln), hln]
      exact ⟨fun _ => hall, fun _ => rfl⟩
    · rw [freeSn, if_neg fun heq => hln ((hiff l hin).mpr heq)]
      exact hp.freed l hin hln

end Steps

/-! ## Passing delivered SDUs -/

section Pass

variable {M N h k n : Nat} {D : Nat → List UInt8} {list dropped kept : List RxPdu}

section

variable (hf : Freed M (N % M) h list k dropped kept)
include hf

lemma Freed.mem_of_kept {l : RxPdu} (hl : l ∈ kept) : l ∈ list := by
  rw [hf.split]
  exact mem_append_right _ hl

lemma Freed.number_kept (hhM : h < M) {l : RxPdu} (hl : l ∈ kept) :
    number M (N + k) l = number M N l ∧ N + k ≤ number M N l := by
  have hsn := (hf.ordered.within l hl).1
  have hM : 0 < M := by omega
  have hbase := Nat.mod_lt N hM
  have hge : k ≤ dist M (N % M) l.sn := by
    by_contra hlt
    have hlt' := (hf.ordered.within l hl).2
    rw [dist_add_left_behind hsn hbase (Nat.lt_of_not_le hlt) (by have := hf.le; omega)] at hlt'
    omega
  refine ⟨number_add hsn hge, ?_⟩
  rw [number, lift]
  omega

lemma Freed.number_dropped {l : RxPdu}
    (hl : l ∈ dropped) : number M N l < N + k := by
  have := hf.below l hl
  rw [number, lift]
  omega

lemma Freed.got_iff (hhM : h < M) {m b : Nat} (hm : N + k ≤ m) :
    Got M (N + k) kept m b ↔ Got M N list m b := by
  constructor
  · rintro ⟨l, hl, hln, hb⟩
    exact ⟨l, hf.mem_of_kept hl, (hf.number_kept hhM hl).1.symm.trans hln, hb⟩
  · rintro ⟨l, hl, hln, hb⟩
    rw [hf.split] at hl
    rcases mem_append.mp hl with hl | hl
    · have := hf.number_dropped hl
      omega
    · exact ⟨l, hl, (hf.number_kept hhM hl).1.trans hln, hb⟩

lemma Freed.content (hhM : h < M) (hc : Content M N D list) :
    Content M (N + k) D kept := by
  constructor
  · intro l hl
    rw [(hf.number_kept hhM hl).1]
    exact hc.part l (hf.mem_of_kept hl)
  · intro l hl
    obtain ⟨heq, hge⟩ := hf.number_kept hhM hl
    rw [heq, hc.freed l (hf.mem_of_kept hl)]
    exact forall₂_congr fun b _ => (hf.got_iff hhM hge).symm

end

lemma exists_freed_of_sduDelivered {sn : Nat} (hdel : sduDelivered list sn = true) :
    ∃ l ∈ list, l.sn = sn ∧ l.data = none := by
  rw [sduDelivered] at hdel
  cases hfind : list.find? (hasSn sn) with
  | none =>
    rw [hfind] at hdel
    cases hdel
  | some l =>
    rw [hfind] at hdel
    exact ⟨l, mem_of_find?_eq_some hfind, hasSn_iff.mp (find?_some hfind),
      of_decide_eq_true hdel⟩

lemma Freed.done_iff (hf : Freed M (N % M) h list k dropped kept)
    (hhM : h < M) (m : Nat) :
    Done M (N + k) kept m ↔ Done M N list m := by
  have hM : 0 < M := by omega
  constructor
  · rintro (hlt | ⟨l, hl, hln, hnone⟩)
    · rcases lt_or_ge m N with hlow | hge
      · exact .inl hlow
      · have hkh := hf.le
        have hdist := dist_mod hM hge (by omega : m < N + M)
        obtain ⟨l, hl, hsn, hnone⟩ := exists_freed_of_sduDelivered
          (hf.delivered (m % M) (Nat.mod_lt m hM) (by omega))
        refine .inr ⟨l, hl, ?_, hnone⟩
        rw [number, hsn]
        exact lift_of_mod hM hge (by omega)
    · exact .inr ⟨l, hf.mem_of_kept hl, (hf.number_kept hhM hl).1.symm.trans hln, hnone⟩
  · rintro (hlt | ⟨l, hl, hln, hnone⟩)
    · exact .inl (by omega)
    · rw [hf.split] at hl
      rcases mem_append.mp hl with hl | hl
      · have := hf.number_dropped hl
        exact .inl (by omega)
      · exact .inr ⟨l, hl, (hf.number_kept hhM hl).1.trans hln, hnone⟩

end Pass

/-! ## The receiver of a family of SDUs -/

/-- The receiver, when `N` is the number of the SDU at `rx_next`. -/
structure RxState (cfg : Config) (D : Nat → List UInt8) (N : Nat) (rx : Rx) : Prop where
  inv : RxInv cfg rx
  timer : TimerInv cfg rx
  base : rx.rxNext = N % cfg.snModulus
  content : Content cfg.snModulus N D rx.rxList
  log : Log cfg.snModulus N D rx.rxList rx.delivered

/-- Byte `b` of SDU `n` has come. -/
def Received (M N : Nat) (list : List RxPdu) (n b : Nat) : Prop := n < N ∨ Got M N list n b

/-- The number at `rx_next_highest`. -/
def highest (cfg : Config) (N : Nat) (rx : Rx) : Nat := N + modulusRx cfg rx rx.rxNextHighest

/-- A segment of SDU `n`: the bytes from `so` on, `size` of them. -/
structure SegmentOf (D : List UInt8) (so size : Nat) : Prop where
  pos : 0 < size
  within : so + size ≤ D.length

/-- The entry for a part of SDU `n`. -/
def entryOf (M : Nat) (D : Nat → List UInt8) (n so size : Nat) : RxPdu :=
  newPdu (n % M) so (decide (so = 0)) (decide (so + size = (D n).length))
    (((D n).drop so).take size)

section Entry

variable {M : Nat} {D : Nat → List UInt8} {n so size : Nat}

lemma size_entryOf (hseg : SegmentOf (D n) so size) : (entryOf M D n so size).size = size := by
  have := hseg.within
  show (((D n).drop so).take size).length = size
  rw [length_take, length_drop]
  omega

lemma part_entryOf (hseg : SegmentOf (D n) so size) : Part (D n) (entryOf M D n so size) := by
  have hsize := size_entryOf (M := M) hseg
  refine ⟨by rw [hsize]; exact hseg.pos, by rw [hsize]; exact hseg.within, ?_, ?_, .inr ?_⟩
  · exact decide_eq_true_iff
  · rw [hsize]
    exact decide_eq_true_iff
  · rw [hsize]
    rfl

end Entry

section Reception

variable {cfg : Config} {D : Nat → List UInt8} {N n so size : Nat} {rx rx' : Rx}

lemma Done.pduListAdd_iff {M : Nat} {list : List RxPdu} {snCompare : Nat → Nat → Int}
    {pdu : RxPdu} (hdata : pdu.data ≠ none) (m : Nat) :
    Done M N (pduListAdd snCompare list pdu) m ↔ Done M N list m := by
  apply or_congr_right
  constructor
  · rintro ⟨l, hl, hln, hnone⟩
    rcases mem_pduListAdd.mp hl with rfl | hl
    · exact absurd hnone hdata
    · exact ⟨l, hl, hln, hnone⟩
  · rintro ⟨l, hl, hrest⟩
    exact ⟨l, mem_pduListAdd.mpr (.inr hl), hrest⟩

/-- The receiver at number `N` has room for `size` bytes of SDU `n`, which is in its window. -/
def Takes (cfg : Config) (N : Nat) (rx : Rx) (n size : Nat) : Prop :=
  rx.rxSize + size ≤ cfg.rxMaxsize ∧ N ≤ n ∧ n < N + cfg.windowSize

/-- The PDU brings byte `b` of SDU `m`. -/
def Brings (cfg : Config) (N : Nat) (rx : Rx) (n so size m b : Nat) : Prop :=
  Takes cfg N rx n size ∧ m = n ∧ so ≤ b ∧ b < so + size

lemma RxState.not_accepted (hcfg : cfg.Legal) (h : RxState cfg D N rx)
    (hseg : SegmentOf (D n) so size)
    (hnot : ¬ Accepted cfg rx (entryOf cfg.snModulus D n so size)) {m b : Nat}
    (hbrings : Brings cfg N rx n so size m b) : Got cfg.snModulus N rx.rxList m b := by
  have hMW := hcfg.window
  have hW := hcfg.windowSize_ge
  have hM : 0 < cfg.snModulus := by omega
  obtain ⟨⟨hroom, hge, hlt⟩, rfl, hso, hend⟩ := hbrings
  have hsize := size_entryOf (M := cfg.snModulus) hseg
  have hold : segmentAlreadyReceived rx.rxList (m % cfg.snModulus) so size = true := by
    by_contra hfresh
    refine hnot ⟨by rw [hsize]; exact hseg.pos, by rw [hsize]; exact hroom, ?_, ?_⟩
    · show modulusRx cfg rx (m % cfg.snModulus) < _
      rw [modulusRx, h.base, dist_mod hM hge (by omega)]
      omega
    · rw [hsize]
      exact Bool.not_eq_true _ ▸ hfresh
  obtain ⟨l, hl, hlsn, hle, hlt'⟩ := covered_of_alreadyReceivedLoop _ _ hold b (by omega) (by omega)
  refine ⟨l, hl, ?_, by omega, by omega⟩
  rw [number, hlsn]
  exact lift_of_mod hM hge (by omega)

/-- A segment adds the bytes it brings, and nothing else. -/
theorem RxState.reception (hcfg : cfg.Legal) (h : RxState cfg D N rx)
    (hmax : (D n).length ≤ nrSduMax) (hseg : SegmentOf (D n) so size)
    (hlow : N ≤ n + cfg.windowSize) (hhigh : n < N + cfg.snModulus) (hinv : RxInv cfg rx')
    (htimer : TimerInv cfg rx')
    (hrec : Reception cfg rx (entryOf cfg.snModulus D n so size) rx') :
    ∃ k, k < cfg.snModulus ∧ RxState cfg D (N + k) rx' ∧
      (∀ m b, b < (D m).length → (Received cfg.snModulus (N + k) rx'.rxList m b ↔
        Received cfg.snModulus N rx.rxList m b ∨ Brings cfg N rx n so size m b)) ∧
      highest cfg (N + k) rx' ≤ max (highest cfg N rx) (n + 1) := by
  have hMW := hcfg.window
  have hM : 0 < cfg.snModulus := by omega
  obtain ⟨pdu, hpdu⟩ : ∃ pdu, pdu = entryOf cfg.snModulus D n so size := ⟨_, rfl⟩
  have hpart : Part (D n) pdu := hpdu ▸ part_entryOf hseg
  have hdata : pdu.data ≠ none := hpdu ▸ Option.some_ne_none _
  have hsn : pdu.sn = n % cfg.snModulus := hpdu ▸ rfl
  have hsnM : pdu.sn < cfg.snModulus := hsn ▸ Nat.mod_lt n hM
  have hord := h.inv.ordered
  rw [h.base] at hord
  rw [← hpdu] at hrec
  -- what an accepted segment is
  have haccept : Accepted cfg rx pdu → number cfg.snModulus N pdu = n ∧
      Pending cfg.snModulus N D (stored cfg rx pdu).rxList n ∧ RxInv cfg (stored cfg rx pdu) ∧
      Ordered cfg.snModulus (N % cfg.snModulus)
        (modulusRx cfg rx (stored cfg rx pdu).rxNextHighest) (stored cfg rx pdu).rxList ∧
      highest cfg N (stored cfg rx pdu) = max (highest cfg N rx) (n + 1) ∧
      ¬ Done cfg.snModulus N rx.rxList n ∧
      (∀ m b, Got cfg.snModulus N (stored cfg rx pdu).rxList m b ↔
        Got cfg.snModulus N rx.rxList m b ∨ Brings cfg N rx n so size m b) := by
    intro hacc
    have hwin := hacc.window
    rw [modulusRx, h.base] at hwin
    have hnum := number_of_window hMW hlow hhigh hsn hwin
    have hnot := not_complete_of_fresh hord hsnM hnum hpart.within hacc.fresh
    have hstored := h.inv.stored hcfg hsnM hacc.window hdata
    have hordS := hstored.ordered
    obtain ⟨-, hmod⟩ := modulusRx_highestAfter hcfg h.inv hsnM hacc.window
    rw [modulusRx, stored_next, h.base] at hordS
    have hNn : N ≤ n := by rw [← hnum]; exact le_number pdu
    have hdist : modulusRx cfg rx pdu.sn = n - N := by
      rw [modulusRx, h.base]
      have : number cfg.snModulus N pdu = N + dist cfg.snModulus (N % cfg.snModulus) pdu.sn := rfl
      omega
    refine ⟨hnum, ?_, hstored, by rw [modulusRx, h.base]; exact hordS, ?_, ?_, ?_⟩
    · rw [stored_eq]
      exact h.content.insert hpart hdata hnum hnot
    · rw [highest, modulusRx, stored_next, ← modulusRx, stored_eq]
      rw [hmod, hdist, highest]
      omega
    · rintro (hlt | ⟨l, hl, hln, hnone⟩)
      · have := le_number (M := cfg.snModulus) (N := N) pdu
        omega
      · exact hnot (hln ▸ (h.content.freed l hl).mp hnone)
    · intro m b
      have hso : pdu.so = so := hpdu ▸ rfl
      have hsize : pdu.size = size := hpdu ▸ size_entryOf hseg
      have htakes : Takes cfg N rx n size := by
        have hroom := hacc.room
        have hwin := hacc.window
        exact ⟨hsize ▸ hroom, hNn, by omega⟩
      rw [stored_eq]
      rw [got_pduListAdd, hnum, hso, hsize, or_comm]
      refine or_congr_right ⟨fun hin => ⟨htakes, hin.1.symm, hin.2⟩, fun hin => ⟨hin.2.1.symm, hin.2.2⟩⟩
  cases hrec with
  | discarded hnot =>
    refine ⟨0, hM, { h with }, ?_, le_max_left _ _⟩
    intro m b _
    refine ⟨.inl, ?_⟩
    rintro (hold | hbrings)
    · exact hold
    · exact .inr (h.not_accepted hcfg hseg (hpdu ▸ hnot) hbrings)
  | kept hacc hfull =>
    obtain ⟨hnum, hpend, -, hordS, hhighest, -, hgot⟩ := haccept hacc
    have hmem : pdu ∈ (stored cfg rx pdu).rxList := by
      rw [stored_eq]
      exact mem_pduListAdd.mpr (.inl rfl)
    have hnot : ¬ Complete cfg.snModulus N D (stored cfg rx pdu).rxList n := by
      intro hall
      rw [(hpend.sduFull_iff hordS hmem hnum).mpr hall] at hfull
      cases hfull
    refine ⟨0, hM, ⟨hinv, htimer, (stored_next pdu).trans h.base, hpend.content hnot, ?_⟩, ?_,
      le_of_eq hhighest⟩
    · obtain ⟨numbers, hnodup, hdel, hiff⟩ := h.log
      refine ⟨numbers, hnodup, ?_, ?_⟩
      · show (stored cfg rx pdu).delivered = _
        rw [stored_eq]
        exact hdel
      · intro m
        rw [hiff m]
        rw [stored_eq]
        exact (Done.pduListAdd_iff hdata m).symm
    · intro m b _
      rw [Received, Received, or_assoc]
      exact or_congr_right (hgot m b)
  | @full status k dropped left start trigger hacc hfull hf =>
    obtain ⟨hnum, hpend, hstored, hordS, hhighest, hfresh, hgot⟩ := haccept hacc
    have hmem : pdu ∈ (stored cfg rx pdu).rxList := by
      rw [stored_eq]
      exact mem_pduListAdd.mpr (.inl rfl)
    have hbase : N % cfg.snModulus < cfg.snModulus := Nat.mod_lt N hM
    have hhM : modulusRx cfg rx (stored cfg rx pdu).rxNextHighest < cfg.snModulus := by
      have := hstored.highest_le
      rw [modulusRx, stored_next, ← modulusRx] at this
      omega
    have hall := (hpend.sduFull_iff hordS hmem hnum).mp hfull
    have hcontent := hpend.free hordS hsnM hnum hall
    rw [hordS.freeSegments_eq hbase] at hf
    rw [h.base] at hf
    have hkle := hf.le
    refine ⟨k, by omega, ⟨hinv, htimer, ?_, hf.content hhM hcontent, ?_⟩, ?_, ?_⟩
    · show ((stored cfg rx pdu).rxNext + k) % cfg.snModulus = _
      rw [stored_next, h.base, Nat.mod_add_mod]
    · -- the log: n is new
      obtain ⟨numbers, hnodup, hdel, hiff⟩ := h.log
      refine ⟨numbers ++ [n], ?_, ?_, ?_⟩
      · refine nodup_append.mpr ⟨hnodup, pairwise_singleton _ n, ?_⟩
        intro a ha b hb heq
        rw [mem_singleton.mp hb] at heq
        exact hfresh ((hiff n).mp (heq ▸ ha))
      · show (stored cfg rx pdu).delivered ++ (reassemble (stored cfg rx pdu).rxList pdu.sn).toList = _
        rw [hpend.reassemble_eq hordS hmem hnum hall hmax, map_append, ← hdel, stored_eq]
        rfl
      · intro m
        rw [mem_append, mem_singleton, hiff m]
        show _ ↔ Done cfg.snModulus (N + k) left m
        rw [hf.done_iff hhM m, done_map_freeSn_iff hordS hmem, hnum, stored_eq,
          Done.pduListAdd_iff hdata m]
    · intro m b hb
      rw [Received, Received, or_assoc, ← hgot m b]
      rcases lt_or_ge m (N + k) with hpassed | hge
      · -- passed: the SDU was complete, so the byte was there
        refine ⟨fun _ => ?_, fun _ => .inl hpassed⟩
        rcases (hf.done_iff hhM m).mp (.inl hpassed) with hlow | ⟨l, hl, hln, hnone⟩
        · exact .inl hlow
        · have hcomplete := (hcontent.freed l hl).mp hnone b (by rw [hln]; exact hb)
          rw [hln, got_map_freeSn] at hcomplete
          exact .inr hcomplete
      · show m < N + k ∨ Got cfg.snModulus (N + k) left m b ↔ _
        rw [hf.got_iff hhM hge, got_map_freeSn]
        exact or_congr_left (by omega)
    · -- rx_next_highest stays, the base moves towards it
      rw [← hhighest, highest, highest]
      show N + k + modulusRx cfg _ (stored cfg rx pdu).rxNextHighest ≤ _
      have hmove : dist cfg.snModulus ((rx.rxNext + k) % cfg.snModulus)
          (stored cfg rx pdu).rxNextHighest =
            modulusRx cfg rx (stored cfg rx pdu).rxNextHighest - k :=
        dist_add_left hstored.highest_lt h.inv.next_lt hkle
      show N + k + dist cfg.snModulus (((stored cfg rx pdu).rxNext + k) % cfg.snModulus) _ ≤ _
      rw [stored_next, hmove, modulusRx, modulusRx, stored_next, ← modulusRx]
      omega

end Reception

end NrStack.Rlc.Am
