/-
  The stretches of `rx_list`: what its entries say about deliveries, in any order of the list.

  `sdu_full` and `reassemble_and_deliver` look at the FIRST entry of a stretch with one SN to learn whether
  the SDU was delivered.

      first entry with data         all entries of the stretch have data
      first entry without data      it starts at offset 0; a late segment may stand behind it
-/
import NrStack.Rlc.AmRxList

namespace NrStack.Rlc

open List Option

/-! ## The walk -/

/-- The stretch that an entry belongs to. -/
def enter (cur : Option Nat × Bool) (l : RxPdu) : Option Nat × Bool :=
  if cur.1 = some l.sn then cur else (some l.sn, l.data.isSome)

/-- What an entry must be, behind the stretch `cur`. -/
def Follows (cur : Option Nat × Bool) (l : RxPdu) : Prop :=
  if cur.1 = some l.sn then cur.2 = true → l.data ≠ none else l.data = none → l.so = 0

/-- Each stretch of one sequence number is delivered as a whole, or not at all. -/
def StretchesFrom : Option Nat × Bool → List RxPdu → Prop
  | _, [] => True
  | cur, l :: rest => Follows cur l ∧ StretchesFrom (enter cur l) rest

section Walk

variable {list xs ys : List RxPdu} {cur : Option Nat × Bool} {l : RxPdu} {sn : Nat} {b : Bool}

lemma stretchesFrom_append :
    StretchesFrom cur (xs ++ ys) ↔ StretchesFrom cur xs ∧ StretchesFrom (xs.foldl enter cur) ys := by
  induction xs generalizing cur with
  | nil => exact ⟨fun h => ⟨trivial, h⟩, And.right⟩
  | cons x xs ih => rw [cons_append, StretchesFrom, ih, ← and_assoc]; rfl

lemma enter_new (h : cur.1 ≠ some l.sn) : enter cur l = (some l.sn, l.data.isSome) := if_neg h

lemma follows_new (h : cur.1 ≠ some l.sn) : Follows cur l ↔ (l.data = none → l.so = 0) := by
  rw [Follows, if_neg h]

lemma foldl_enter_ne (hcur : cur.1 ≠ some sn) (hxs : ∀ x ∈ xs, x.sn ≠ sn) :
    (xs.foldl enter cur).1 ≠ some sn := by
  induction xs generalizing cur with
  | nil => exact hcur
  | cons x xs ih =>
    refine ih ?_ fun y hy => hxs y (mem_cons_of_mem x hy)
    rw [enter]
    split
    · exact hcur
    · exact fun heq => hxs x mem_cons_self (Option.some.inj heq)

lemma stretchesFrom_run (hxs : ∀ x ∈ xs, x.sn = sn) :
    xs.foldl enter (some sn, b) = (some sn, b) ∧
      (StretchesFrom (some sn, b) xs ↔ (b = true → ∀ x ∈ xs, x.data ≠ none)) := by
  induction xs with
  | nil => exact ⟨rfl, nofun, fun _ => trivial⟩
  | cons x xs ih =>
    obtain ⟨hfold, hruns⟩ := ih fun y hy => hxs y (mem_cons_of_mem x hy)
    have hx : (some sn, b).1 = some x.sn := by rw [hxs x mem_cons_self]
    rw [foldl_cons, StretchesFrom, Follows, if_pos hx, enter, if_pos hx, hruns]
    refine ⟨hfold, fun h hb => ?_, fun h => ⟨fun hb => h hb x mem_cons_self, fun hb y hy => ?_⟩⟩
    · exact forall_mem_cons.mpr ⟨h.1 hb, h.2 hb⟩
    · exact h hb y (mem_cons_of_mem x hy)

lemma StretchesFrom.forget (h : StretchesFrom (some sn, b) list) :
    StretchesFrom (some sn, false) list := by
  induction list with
  | nil => trivial
  | cons x rest ih =>
    rw [StretchesFrom, Follows, enter] at h ⊢
    by_cases hx : some sn = some x.sn
    · rw [if_pos hx, if_pos hx] at h ⊢
      exact ⟨nofun, ih h.2⟩
    · rw [if_neg hx, if_neg hx] at h ⊢
      exact h

lemma StretchesFrom.restart {cur' : Option Nat × Bool} (h : StretchesFrom cur list)
    (hnew : ∀ l ∈ list.head?, cur.1 ≠ some l.sn) (hnew' : ∀ l ∈ list.head?, cur'.1 ≠ some l.sn) :
    StretchesFrom cur' list := by
  cases list with
  | nil => trivial
  | cons l rest =>
    rw [StretchesFrom, follows_new (hnew l rfl), enter_new (hnew l rfl)] at h
    rw [StretchesFrom, follows_new (hnew' l rfl), enter_new (hnew' l rfl)]
    exact h

theorem StretchesFrom.pduListAdd {snCompare : Nat → Nat → Int} {pdu : RxPdu}
    (hself : ∀ a, snCompare a a ≤ 0) (hdata : pdu.data ≠ none) (h : StretchesFrom cur list)
    (hprev : ∀ sn, cur.1 = some sn → ¬ snCompare sn pdu.sn > 0) :
    StretchesFrom cur (pduListAdd snCompare list pdu) := by
  have hsome : pdu.data.isSome = true := isSome_iff_ne_none.mpr hdata
  -- the PDU, in front of a list that does not go on with another stretch
  have hput : ∀ {cur : Option Nat × Bool} {list : List RxPdu}, StretchesFrom cur list →
      (cur.1 ≠ some pdu.sn → StretchesFrom (some pdu.sn, true) list) →
      StretchesFrom cur (pdu :: list) := by
    intro cur list h hnew
    rw [StretchesFrom, Follows, enter]
    split
    · exact ⟨fun _ => hdata, h⟩
    · next hcur =>
      rw [hsome]
      exact ⟨fun hnone => absurd hnone hdata, hnew hcur⟩
  induction list generalizing cur with
  | nil => exact hput trivial fun _ => trivial
  | cons x rest ih =>
    rw [NrStack.Rlc.pduListAdd]
    split
    · next hinsert =>
      refine hput h fun hcur => ?_
      by_cases hx : x.sn = pdu.sn
      · -- x heads its stretch, and not at offset 0
        rw [StretchesFrom, follows_new (hx ▸ hcur), enter_new (hx ▸ hcur)] at h
        have hso : x.so > pdu.so := by
          rcases hinsert with hgt | ⟨-, hso⟩
          · rw [hx] at hgt
            have := hself pdu.sn
            omega
          · exact hso
        have hxdata : x.data ≠ none := by
          intro hnone
          have := h.1 hnone
          omega
        rw [StretchesFrom, Follows, if_pos (by rw [hx]), enter, if_pos (by rw [hx]), ← hx,
          ← isSome_iff_ne_none.mpr hxdata]
        exact ⟨fun _ => hxdata, h.2⟩
      · -- x heads its stretch, or the PDU had gone in front of the entry before
        refine h.restart ?_ ?_
        · intro l hl hcur'
          obtain rfl := Option.some.inj hl
          rcases hinsert with hgt | ⟨heq, -⟩
          · exact hprev x.sn hcur' hgt
          · exact hx heq
        · intro l hl heq
          obtain rfl := Option.some.inj hl
          exact hx (Option.some.inj heq).symm
    · next hlater =>
      refine ⟨h.1, ih h.2 fun sn hsn => ?_⟩
      rw [enter] at hsn
      split at hsn
      · exact hprev sn hsn
      · exact Option.some.inj hsn ▸ fun hgt => hlater (.inl hgt)

lemma StretchesFrom.front (h : StretchesFrom cur list) (hcur : cur.1 ≠ some sn)
    (hfind : list.find? (hasSn sn) = some l) : l.data = none → l.so = 0 := by
  obtain ⟨hl, xs, ys, rfl, hxs⟩ := find?_eq_some_iff_append.mp hfind
  have hne : (xs.foldl enter cur).1 ≠ some l.sn := by
    rw [hasSn_iff.mp hl]
    refine foldl_enter_ne hcur fun x hx heq => ?_
    have hnot := hxs x hx
    rw [hasSn_iff.mpr heq] at hnot
    cases hnot
  exact (follows_new hne).mp (stretchesFrom_append.mp h).2.1

lemma StretchesFrom.data_segmentsOf {rest : List RxPdu} (h : StretchesFrom cur list)
    (hcur : cur.1 ≠ some sn) (hseg : segmentsOf list sn = l :: rest) (hdata : l.data ≠ none) :
    ∀ x ∈ segmentsOf list sn, x.data ≠ none := by
  have hsn : ∀ x ∈ l :: rest, x.sn = sn := fun x hx => Am.mem_segmentsOf (hseg ▸ hx)
  have hl : l.sn = sn := hsn l mem_cons_self
  have hne := foldl_enter_ne hcur (Am.before_segmentsOf list sn)
  rw [Am.split_segmentsOf list sn, hseg, append_assoc, stretchesFrom_append,
    stretchesFrom_append] at h
  have hrest := h.2.1.2
  rw [enter_new (hl ▸ hne), hl, isSome_iff_ne_none.mpr hdata,
    (stretchesFrom_run fun x hx => hsn x (mem_cons_of_mem l hx)).2] at hrest
  rw [hseg]
  exact forall_mem_cons.mpr ⟨hdata, hrest rfl⟩

theorem StretchesFrom.freeSegments {free : RxPdu → RxPdu} (hsn : ∀ l, (free l).sn = l.sn)
    (hso : ∀ l, (free l).so = l.so) (hnone : ∀ l, (free l).data = none) (h : StretchesFrom cur list)
    (hcur : cur.1 ≠ some sn) (hfront : ∀ l rest, segmentsOf list sn = l :: rest → l.so = 0) :
    StretchesFrom cur (freeSegments free list sn) := by
  have hne := foldl_enter_ne hcur (Am.before_segmentsOf list sn)
  have hrun : ∀ x ∈ segmentsOf list sn, x.sn = sn := fun x hx => Am.mem_segmentsOf hx
  rw [NrStack.Rlc.freeSegments, append_assoc]
  rw [Am.split_segmentsOf list sn, append_assoc, stretchesFrom_append, stretchesFrom_append] at h
  rw [stretchesFrom_append, stretchesFrom_append]
  obtain ⟨hpre, hseg, hpost⟩ := h
  refine ⟨hpre, ?_⟩
  cases hlist : segmentsOf list sn with
  | nil =>
    rw [hlist] at hpost
    exact ⟨trivial, hpost⟩
  | cons l rest =>
    rw [hlist] at hrun hpost
    have hl : l.sn = sn := hrun l mem_cons_self
    have hrest : ∀ x ∈ rest, x.sn = sn := fun x hx => hrun x (mem_cons_of_mem l hx)
    have hfreed : ∀ x ∈ rest.map free, x.sn = sn := by
      intro x hx
      obtain ⟨y, hy, rfl⟩ := mem_map.mp hx
      rw [hsn]
      exact hrest y hy
    have hfree : (free l).sn = sn := (hsn l).trans hl
    rw [foldl_cons, enter_new (hl ▸ hne), hl, (stretchesFrom_run hrest).1] at hpost
    rw [map_cons, StretchesFrom, follows_new (hfree ▸ hne), foldl_cons, enter_new (hfree ▸ hne), hfree,
      hnone, (stretchesFrom_run hfreed).1, (stretchesFrom_run hfreed).2, hso]
    exact ⟨⟨fun _ => hfront l rest hlist, by simp⟩, hpost.forget⟩

lemma StretchesFrom.drop (h : StretchesFrom cur (xs ++ ys)) (hcur : cur.1 = none)
    (hapart : ∀ x ∈ xs, ∀ y ∈ ys.head?, x.sn ≠ y.sn) : StretchesFrom cur ys := by
  have hstart : ∀ y ∈ ys.head?, cur.1 ≠ some y.sn := fun y _ heq => by
    rw [hcur] at heq
    cases heq
  exact (stretchesFrom_append.mp h).2.restart
    (fun y hy => foldl_enter_ne (hstart y hy) fun x hx => hapart x hx y hy) hstart

end Walk

/-! ## The invariant -/

/-- The entry has its data, as many bytes as its size. -/
def RxPdu.Whole (l : RxPdu) : Prop := ∃ data, l.data = some data ∧ data.length = l.size

lemma newPdu_whole (sn so : Nat) (isFirst isLast : Bool) (data : List UInt8) :
    (newPdu sn so isFirst isLast data).Whole := ⟨data, rfl, rfl⟩

lemma RxPdu.Whole.ne_none {l : RxPdu} (h : l.Whole) : l.data ≠ none := by
  obtain ⟨data, hdata, -⟩ := h
  rw [hdata]
  exact some_ne_none _

/-- What is true of `rx_list` at any time; an entry with data has as many bytes as its size, and at
least one. -/
structure Stretches (list : List RxPdu) : Prop where
  runs : StretchesFrom (none, false) list
  sized : ∀ l ∈ list, ∀ data, l.data = some data → data.length = l.size ∧ 0 < l.size

lemma front_of_sduFull {list : List RxPdu} {sn : Nat} (hfull : sduFull list sn = true) :
    ∃ l rest, segmentsOf list sn = l :: rest ∧ l.data ≠ none ∧ l.so = 0 := by
  rw [sduFull] at hfull
  cases hseg : segmentsOf list sn with
  | nil =>
    rw [hseg] at hfull
    cases hfull
  | cons l rest =>
    simp only [hseg] at hfull
    split at hfull
    · cases hfull
    · next hdata =>
      refine ⟨l, rest, rfl, hdata, ?_⟩
      rw [fullFrom] at hfull
      split at hfull
      · cases hfull
      · omega

namespace Stretches

variable {list dropped kept : List RxPdu} {sn : Nat}

lemma nil : Stretches [] := ⟨trivial, fun _ hl => (nomatch hl)⟩

lemma pduListAdd {snCompare : Nat → Nat → Int} {pdu : RxPdu} (hself : ∀ a, snCompare a a ≤ 0)
    (hwhole : pdu.Whole) (hpos : 0 < pdu.size) (h : Stretches list) :
    Stretches (NrStack.Rlc.pduListAdd snCompare list pdu) := by
  refine ⟨h.runs.pduListAdd hself hwhole.ne_none nofun, ?_⟩
  intro l hl data' hdata'
  rcases Am.mem_pduListAdd.mp hl with rfl | hl
  · obtain ⟨data, hdata, hlen⟩ := hwhole
    rw [← Option.some.inj (hdata.symm.trans hdata')]
    exact ⟨hlen, hpos⟩
  · exact h.sized l hl data' hdata'

lemma drop (h : Stretches (dropped ++ kept)) (hapart : ∀ x ∈ dropped, ∀ y ∈ kept.head?, x.sn ≠ y.sn) :
    Stretches kept :=
  ⟨h.runs.drop rfl hapart, fun l hl => h.sized l (mem_append_right _ hl)⟩

lemma dropWhile {p : RxPdu → Bool} (hp : ∀ x y : RxPdu, x.sn = y.sn → p x = p y)
    (h : Stretches list) : Stretches (list.dropWhile p) := by
  rw [← takeWhile_append_dropWhile (l := list)] at h
  refine h.drop fun x hx y hy heq => ?_
  have hnot := head?_dropWhile_not p list
  rw [mem_def.mp hy] at hnot
  have htrue : p y = true := (hp x y heq).symm.trans (mem_takeWhile_imp hx)
  exact Bool.noConfusion (htrue.symm.trans hnot)

lemma freeSegments (free : RxPdu → RxPdu) (hsn : ∀ l, (free l).sn = l.sn)
    (hso : ∀ l, (free l).so = l.so) (hnone : ∀ l, (free l).data = none)
    (hfull : sduFull list sn = true) (h : Stretches list) :
    Stretches (NrStack.Rlc.freeSegments free list sn) := by
  refine ⟨h.runs.freeSegments hsn hso hnone nofun ?_, ?_⟩
  · intro l rest hseg
    obtain ⟨l', rest', hseg', -, hzero⟩ := front_of_sduFull hfull
    rw [hseg] at hseg'
    rw [(cons.inj hseg').1]
    exact hzero
  · intro l hl data hdata
    have hin : l ∈ list := by
      rw [Am.split_segmentsOf list sn]
      rcases mem_append.mp hl with hl | hl
      · rcases mem_append.mp hl with hl | hl
        · exact mem_append_left _ (mem_append_left _ hl)
        · obtain ⟨l₀, -, rfl⟩ := mem_map.mp hl
          rw [hnone] at hdata
          cases hdata
      · exact mem_append_right _ hl
    exact h.sized l hin data hdata

lemma whole_of_full (h : Stretches list) (hfull : sduFull list sn = true) :
    ∀ l ∈ segmentsOf list sn, l.Whole := by
  obtain ⟨first, rest, hseg, hfirst, -⟩ := front_of_sduFull hfull
  have hdata := h.runs.data_segmentsOf nofun hseg hfirst
  intro l hl
  obtain ⟨data, hsome⟩ := ne_none_iff_exists'.mp (hdata l hl)
  refine ⟨data, hsome, (h.sized l ?_ data hsome).1⟩
  rw [Am.split_segmentsOf list sn]
  exact mem_append_left _ (mem_append_right _ hl)

end Stretches

end NrStack.Rlc
