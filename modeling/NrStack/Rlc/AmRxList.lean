/-
  The reception list of an AM entity: its order, and the two loops that run over delivered SDUs.

  `Ordered M base h list` is the shape of `rx_list`: every SN less than `h` ahead of `base` (`dist`), sorted
  by SN and then by offset.

      insertion          Ordered M base h list → Ordered M base h (pduListAdd .. list pdu)
      freeing            only `data` changes, the keys (sn, so) stay
      `freeDelivered`    Ordered M base h list → Ordered M (base + k) (h - k) kept
-/
import NrStack.Rlc.AmEntity
import Mathlib

namespace NrStack.Rlc.Am

open List Circular

/-! ## The order of `rx_list` -/

/-- Sequence number and offset. -/
def key (l : RxPdu) : Nat × Nat := (l.sn, l.so)

/-- The order of the keys, from `base` on. -/
def KeyBefore (M base : Nat) (x y : Nat × Nat) : Prop :=
  dist M base x.1 < dist M base y.1 ∨ (x.1 = y.1 ∧ x.2 ≤ y.2)

/-- The order of the receive list. -/
def Before (M base : Nat) (x y : RxPdu) : Prop := KeyBefore M base (key x) (key y)

/-- Every SN lies in `[base, base + h)`, and the entries are sorted by (SN, SO). -/
structure Ordered (M base h : Nat) (list : List RxPdu) : Prop where
  within : ∀ l ∈ list, l.sn < M ∧ dist M base l.sn < h
  sorted : list.Pairwise (Before M base)

section Order

variable {M base h : Nat} {list : List RxPdu}

lemma Before.trans {x y z : RxPdu} (hxy : Before M base x y) (hyz : Before M base y z) :
    Before M base x z := by
  rcases hxy with hxy | ⟨hsn, hso⟩ <;> rcases hyz with hyz | ⟨hsn', hso'⟩
  · exact .inl (lt_trans hxy hyz)
  · exact .inl (by rw [← hsn']; exact hxy)
  · exact .inl (by rw [hsn]; exact hyz)
  · exact .inr ⟨hsn.trans hsn', le_trans hso hso'⟩

lemma Ordered.mono {h' : Nat} (hord : Ordered M base h list) (hle : h ≤ h') :
    Ordered M base h' list :=
  ⟨fun l hl => ⟨(hord.within l hl).1, lt_of_lt_of_le (hord.within l hl).2 hle⟩, hord.sorted⟩

variable {list' : List RxPdu}

lemma Ordered.of_keys (hord : Ordered M base h list)
    (hkeys : list'.map key = list.map key) : Ordered M base h list' := by
  constructor
  · intro l hl
    have hmem : key l ∈ list.map key := hkeys ▸ mem_map_of_mem hl
    obtain ⟨l₀, hl₀, heq⟩ := mem_map.mp hmem
    have hsn : l₀.sn = l.sn := congrArg Prod.fst heq
    rw [← hsn]
    exact hord.within l₀ hl₀
  · have hpair : (list'.map key).Pairwise (KeyBefore M base) := by
      rw [hkeys]
      exact pairwise_map.mpr hord.sorted
    rw [pairwise_map] at hpair
    exact hpair

lemma Ordered.sublist (hord : Ordered M base h list)
    (hsub : list'.Sublist list) : Ordered M base h list' :=
  ⟨fun l hl => hord.within l (hsub.subset hl), hord.sorted.sublist hsub⟩

variable {snCompare : Nat → Nat → Int}

lemma mem_pduListAdd {pdu l : RxPdu} :
    l ∈ pduListAdd snCompare list pdu ↔ l = pdu ∨ l ∈ list :=
  (pduListAdd_perm snCompare list pdu).mem_iff.trans mem_cons

theorem Ordered.pduListAdd {pdu : RxPdu}
    (hcmp : ∀ a b, snCompare a b = (dist M base a : Int) - dist M base b) (hbase : base < M)
    (hord : Ordered M base h list) (hsn : pdu.sn < M) (hlt : dist M base pdu.sn < h) :
    Ordered M base h (pduListAdd snCompare list pdu) := by
  constructor
  · intro l hl
    rcases mem_pduListAdd.mp hl with rfl | hl
    · exact ⟨hsn, hlt⟩
    · exact hord.within l hl
  · obtain ⟨hwithin, hsorted⟩ := hord
    induction list with
    | nil => exact pairwise_singleton _ _
    | cons cur rest ih =>
      obtain ⟨hhead, htail⟩ := pairwise_cons.mp hsorted
      have hcur := hwithin cur mem_cons_self
      rw [NrStack.Rlc.pduListAdd, hcmp]
      split
      · next hgt =>
        -- the new PDU comes in front of cur, hence in front of all
        have hbefore : Before M base pdu cur := by
          rcases hgt with hgt | ⟨hsn, hso⟩
          · exact .inl (by show dist M base pdu.sn < dist M base cur.sn; omega)
          · exact .inr ⟨hsn.symm, le_of_lt hso⟩
        refine pairwise_cons.mpr ⟨?_, hsorted⟩
        intro x hx
        rcases mem_cons.mp hx with rfl | hx
        · exact hbefore
        · exact hbefore.trans (hhead x hx)
      · next hngt =>
        have hbefore : Before M base cur pdu := by
          rcases lt_or_ge (dist M base cur.sn) (dist M base pdu.sn) with hlt | hge
          · exact .inl hlt
          · have heq : dist M base cur.sn = dist M base pdu.sn := by
              by_contra hne
              exact hngt (.inl (by omega))
            have hsn' := (dist_inj hcur.1 hsn hbase).mp heq
            refine .inr ⟨hsn', ?_⟩
            by_contra hso
            exact hngt (.inr ⟨hsn', Nat.lt_of_not_le hso⟩)
        refine pairwise_cons.mpr ⟨?_, ih (fun l hl => hwithin l (mem_cons_of_mem _ hl))
          htail⟩
        intro x hx
        rcases mem_pduListAdd.mp hx with rfl | hx
        · exact hbefore
        · exact hhead x hx

end Order

/-! ## Delivered SDUs -/

section Delivered

variable {list : List RxPdu} {sn : Nat}

lemma sduDelivered_cons (l : RxPdu) (rest : List RxPdu) (sn : Nat) :
    sduDelivered (l :: rest) sn =
      if l.sn = sn then decide (l.data = none) else sduDelivered rest sn := by
  unfold sduDelivered
  split_ifs with hsn
  · rw [find?_cons_of_pos (hasSn_iff.mpr hsn)]
  · rw [find?_cons_of_neg fun hd => hsn (hasSn_iff.mp hd)]

lemma sduDelivered_skip {pre : List RxPdu} (hpre : ∀ l ∈ pre, l.sn ≠ sn) :
    sduDelivered (pre ++ list) sn = sduDelivered list sn := by
  unfold sduDelivered
  rw [find?_append, find_hasSn_none hpre, Option.none_or]

lemma exists_of_sduDelivered (h : sduDelivered list sn = true) : ∃ l ∈ list, l.sn = sn := by
  by_contra hne
  rw [sduDelivered_of_absent fun l hl hsn => hne ⟨l, hl, hsn⟩] at h
  cases h

lemma sduDelivered_pduListAdd {snCompare : Nat → Nat → Int} {pdu : RxPdu}
    (hdata : pdu.data ≠ none) (h : sduDelivered (pduListAdd snCompare list pdu) sn = true) :
    sduDelivered list sn = true := by
  induction list with
  | nil =>
    rw [pduListAdd, sduDelivered_cons] at h
    split at h
    · exact absurd (of_decide_eq_true h) hdata
    · exact h
  | cons cur rest ih =>
    rw [pduListAdd] at h
    split at h
    · rw [sduDelivered_cons] at h
      split at h
      · exact absurd (of_decide_eq_true h) hdata
      · exact h
    · rw [sduDelivered_cons] at h ⊢
      split_ifs at h ⊢ with hsn
      · exact h
      · exact ih h

lemma split_segmentsOf (list : List RxPdu) (sn : Nat) :
    list = list.takeWhile (lacksSn sn) ++ segmentsOf list sn ++
      (list.dropWhile (lacksSn sn)).dropWhile (hasSn sn) := by
  rw [append_assoc, segmentsOf, takeWhile_append_dropWhile,
    takeWhile_append_dropWhile]

lemma mem_segmentsOf {l : RxPdu} (hl : l ∈ segmentsOf list sn) : l.sn = sn :=
  hasSn_iff.mp (mem_takeWhile_imp hl)

lemma freeSegments_keys (list : List RxPdu) (sn : Nat) :
    (freeSegments freed list sn).map key = list.map key := by
  have hkey : key ∘ freed = key := rfl
  conv_rhs => rw [split_segmentsOf list sn]
  rw [freeSegments, map_append, map_append, map_map, hkey, map_append,
    map_append]

lemma sduDelivered_freeSegments {x : Nat} (hne : sn ≠ x) :
    sduDelivered (freeSegments freed list x) sn = sduDelivered list sn := by
  have hmap : ∀ l ∈ (segmentsOf list x).map freed, l.sn ≠ sn := by
    intro l hl
    obtain ⟨l₀, hl₀, rfl⟩ := mem_map.mp hl
    have hsn : l₀.sn = x := mem_segmentsOf hl₀
    exact fun h => hne (h.symm.trans hsn)
  have hseg : ∀ l ∈ segmentsOf list x, l.sn ≠ sn :=
    fun l hl h => hne (h.symm.trans (mem_segmentsOf hl))
  conv_rhs => rw [split_segmentsOf list x]
  unfold sduDelivered
  rw [freeSegments, find?_append, find?_append, find_hasSn_none hmap, find?_append,
    find?_append, find_hasSn_none hseg]

end Delivered

/-! ## The entries of one SN stand together -/

section Together

variable {M base h : Nat} {list : List RxPdu}

lemma Before.dist_le {x y : RxPdu} (h : Before M base x y) : dist M base x.sn ≤ dist M base y.sn := by
  rcases h with hlt | ⟨heq, -⟩
  · exact le_of_lt hlt
  · have heq' : x.sn = y.sn := heq
    rw [heq']

lemma Ordered.after_segmentsOf (hbase : base < M) (hord : Ordered M base h list) (sn : Nat) :
    ∀ l ∈ (list.dropWhile (lacksSn sn)).dropWhile (hasSn sn), l.sn ≠ sn := by
  intro l hl heq
  have hord' := hord.sublist (dropWhile_sublist (lacksSn sn))
  generalize hfrom : list.dropWhile (lacksSn sn) = from' at hl hord'
  cases from' with
  | nil => cases hl
  | cons first rest =>
    have hfirst : first.sn = sn := by
      have hne : ¬ lacksSn sn first = true := by
        have := head?_dropWhile_not (lacksSn sn) list
        rw [hfrom] at this
        simpa using this
      by_contra hsn
      exact hne (lacksSn_iff.mpr hsn)
    have hge : ∀ x ∈ first :: rest, dist M base sn ≤ dist M base x.sn := by
      intro x hx
      rcases mem_cons.mp hx with rfl | hx
      · rw [hfirst]
      · have := (rel_of_pairwise_cons hord'.sorted hx).dist_le
        rwa [hfirst] at this
    have hnot := not_of_mem_dropWhile hord'.sorted (by
      intro x hx y hy hxy hysn
      have hle := hxy.dist_le
      rw [hasSn_iff.mp hysn] at hle
      have hsn : sn < M := hfirst ▸ (hord'.within first mem_cons_self).1
      exact hasSn_iff.mpr ((dist_inj (hord'.within x hx).1 hsn hbase).mp
        (le_antisymm hle (hge x hx))))
    have := hnot l hl
    rw [hasSn_iff.mpr heq] at this
    cases this

lemma before_segmentsOf (list : List RxPdu) (sn : Nat) :
    ∀ l ∈ list.takeWhile (lacksSn sn), l.sn ≠ sn :=
  fun _ hl => lacksSn_iff.mp (mem_takeWhile_imp hl)

lemma Ordered.segmentsOf_eq (hbase : base < M) (hord : Ordered M base h list) (sn : Nat) :
    segmentsOf list sn = list.filter (hasSn sn) := by
  have hnone : ∀ l : List RxPdu, (∀ x ∈ l, x.sn ≠ sn) → l.filter (hasSn sn) = [] := by
    intro l hl
    exact filter_eq_nil_iff.mpr fun x hx hsn => hl x hx (hasSn_iff.mp hsn)
  have hall : (segmentsOf list sn).filter (hasSn sn) = segmentsOf list sn :=
    filter_eq_self.mpr fun x hx => hasSn_iff.mpr (mem_segmentsOf hx)
  conv_rhs => rw [split_segmentsOf list sn]
  rw [filter_append, filter_append, hnone _ (before_segmentsOf list sn),
    hnone _ (hord.after_segmentsOf hbase sn), hall, nil_append, append_nil]

/-- What freeing the data of an SDU does to each entry. -/
def freeSn (sn : Nat) (l : RxPdu) : RxPdu := if l.sn = sn then freed l else l

lemma Ordered.freeSegments_eq (hbase : base < M) (hord : Ordered M base h list) (sn : Nat) :
    freeSegments freed list sn = list.map (freeSn sn) := by
  have hother : ∀ l : List RxPdu, (∀ x ∈ l, x.sn ≠ sn) → l.map (freeSn sn) = l := by
    intro l hl
    conv_rhs => rw [← map_id l]
    exact map_congr_left fun x hx => if_neg (hl x hx)
  have hrun : (segmentsOf list sn).map (freeSn sn) = (segmentsOf list sn).map freed :=
    map_congr_left fun x hx => if_pos (mem_segmentsOf hx)
  conv_rhs => rw [split_segmentsOf list sn]
  rw [map_append, map_append, hother _ (before_segmentsOf list sn),
    hother _ (hord.after_segmentsOf hbase sn), hrun, freeSegments]

end Together

/-! ## The two loops over delivered SDUs -/

section Loops

variable {M base h : Nat} {list : List RxPdu}

/-- The entries at least `k` ahead of the base. -/
def ahead (M base : Nat) (list : List RxPdu) (k : Nat) : List RxPdu :=
  list.filter fun l => decide (k ≤ dist M base l.sn)

lemma length_ahead_succ {l : RxPdu} (hl : l ∈ list) :
    (ahead M base list (dist M base l.sn + 1)).length <
      (ahead M base list (dist M base l.sn)).length := by
  have heq : ahead M base list (dist M base l.sn + 1) =
      (ahead M base list (dist M base l.sn)).filter
        fun l' => decide (dist M base l.sn + 1 ≤ dist M base l'.sn) := by
    rw [ahead, ahead, filter_filter]
    apply filter_congr
    intro l' _
    simp only [← Bool.decide_and, decide_eq_decide]
    omega
  rw [heq, length_filter_lt_length_iff_exists]
  refine ⟨l, mem_filter.mpr ⟨hl, by simp⟩, ?_⟩
  simp

theorem skipDelivered_spec (hbase : base < M) (hM : h < M) (hord : Ordered M base h list) :
    ∀ (fuel sn : Nat), sn < M → dist M base sn ≤ h →
      (ahead M base list (dist M base sn)).length < fuel →
      ∃ n, skipDelivered list M fuel sn = some n ∧ n < M ∧ dist M base sn ≤ dist M base n ∧
        dist M base n ≤ h ∧ sduDelivered list n = false := by
  intro fuel
  induction fuel with
  | zero => intro sn _ _ hfuel; exact absurd hfuel (Nat.not_lt_zero _)
  | succ fuel ih =>
    intro sn hsn hle hfuel
    rw [skipDelivered]
    by_cases hdel : sduDelivered list sn = true
    · rw [if_pos hdel]
      obtain ⟨l, hl, rfl⟩ := exists_of_sduDelivered hdel
      have hlt := (hord.within l hl).2
      have hnext : dist M base ((l.sn + 1) % M) = dist M base l.sn + 1 :=
        dist_succ_right hsn hbase (by omega)
      have hshrink := @length_ahead_succ M base list l hl
      obtain ⟨n, hn, hnM, hge, hnh, hpend⟩ := ih ((l.sn + 1) % M) (Nat.mod_lt _ (by omega))
        (by omega) (by rw [hnext]; omega)
      exact ⟨n, hn, hnM, by omega, hnh, hpend⟩
    · rw [if_neg hdel]
      exact ⟨sn, rfl, hsn, le_refl _, hle, by simpa using hdel⟩

lemma skipDelivered_length {sn : Nat} (hbase : base < M) (hM : h < M)
    (hord : Ordered M base h list) (hsn : sn < M) (hle : dist M base sn ≤ h) :
    ∃ n, skipDelivered list M (list.length + 1) sn = some n ∧ n < M ∧
      dist M base sn ≤ dist M base n ∧ dist M base n ≤ h ∧ sduDelivered list n = false :=
  skipDelivered_spec hbase hM hord _ sn hsn hle (Nat.lt_succ_of_le (length_filter_le _ _))

lemma Ordered.succ (hbase : base < M) (hord : Ordered M base h list)
    (hfree : ∀ l ∈ list, l.sn ≠ base) : Ordered M ((base + 1) % M) (h - 1) list := by
  have hpos : ∀ l ∈ list, 1 ≤ dist M base l.sn :=
    fun l hl => dist_pos (hord.within l hl).1 hbase (hfree l hl)
  have hmove : ∀ l ∈ list, dist M ((base + 1) % M) l.sn = dist M base l.sn - 1 :=
    fun l hl => dist_add_left (hord.within l hl).1 hbase (hpos l hl)
  constructor
  · intro l hl
    have := hpos l hl
    have hlt := hord.within l hl
    exact ⟨hlt.1, by rw [hmove l hl]; omega⟩
  · refine hord.sorted.imp_of_mem ?_
    intro x y hx hy hxy
    have hx' := hpos x hx
    rcases hxy with hlt | heq
    · refine .inl ?_
      show dist M ((base + 1) % M) x.sn < dist M ((base + 1) % M) y.sn
      have hlt' : dist M base x.sn < dist M base y.sn := hlt
      rw [hmove x hx, hmove y hy]
      omega
    · exact .inr heq

/-- What the loop that frees the delivered SDUs at the head leaves behind. -/
structure Freed (M base h : Nat) (list : List RxPdu) (k : Nat) (dropped kept : List RxPdu) : Prop where
  split : list = dropped ++ kept
  le : k ≤ h
  below : ∀ l ∈ dropped, dist M base l.sn < k
  ordered : Ordered M ((base + k) % M) (h - k) kept
  pending : sduDelivered kept ((base + k) % M) = false
  delivered : ∀ sn < M, dist M base sn < k → sduDelivered list sn = true

lemma Freed.zero (hbase : base < M) (hord : Ordered M base h list)
    (hhead : ∀ l rest, list = l :: rest → ¬ (l.data = none ∧ l.sn = base)) :
    Freed M base h list 0 [] list := by
  have hmod : (base + 0) % M = base := Nat.mod_eq_of_lt hbase
  refine ⟨rfl, Nat.zero_le _, nofun, by rw [hmod]; exact hord, ?_,
    fun sn _ hlt => absurd hlt (Nat.not_lt_zero _)⟩
  rw [hmod]
  cases list with
  | nil => rfl
  | cons l rest =>
    rw [sduDelivered_cons]
    split_ifs with hsn
    · exact decide_eq_false fun hnone => hhead l rest rfl ⟨hnone, hsn⟩
    · -- all that follows is ahead of l, which is ahead of the base
      apply sduDelivered_of_absent
      intro y hy heq
      have hbefore := rel_of_pairwise_cons hord.sorted hy
      rcases hbefore with hlt | ⟨hsn', -⟩
      · have hlt' : dist M base l.sn < dist M base y.sn := hlt
        rw [heq, dist_self] at hlt'
        omega
      · exact hsn (hsn'.trans heq)

theorem freeDelivered_spec :
    ∀ (fuel base h : Nat) (list : List RxPdu), base < M → Ordered M base h list →
      list.length ≤ fuel → ∃ k dropped kept,
        freeDelivered M fuel base list = ((base + k) % M, kept) ∧
        Freed M base h list k dropped kept := by
  intro fuel
  induction fuel with
  | zero =>
    intro base h list hbase hord hlen
    obtain rfl := length_eq_zero_iff.mp (Nat.le_zero.mp hlen)
    refine ⟨0, [], [], ?_, Freed.zero hbase hord nofun⟩
    rw [freeDelivered, Nat.add_zero, Nat.mod_eq_of_lt hbase]
  | succ fuel ih =>
    intro base h list hbase hord hlen
    cases list with
    | nil =>
      refine ⟨0, [], [], ?_, Freed.zero hbase hord nofun⟩
      rw [freeDelivered, Nat.add_zero, Nat.mod_eq_of_lt hbase]
    | cons l rest =>
      rw [freeDelivered]
      split
      · next hhead =>
        obtain ⟨hnone, hsn⟩ := hhead
        -- the entries of this SDU stand together at the head
        obtain ⟨run, after, hrun, hafter, hrest⟩ : ∃ run after, (∀ x ∈ run, x.sn = base) ∧
            after = rest.dropWhile (hasSn base) ∧ rest = run ++ after :=
          ⟨rest.takeWhile (hasSn base), _, fun x hx => hasSn_iff.mp (mem_takeWhile_imp hx),
            rfl, takeWhile_append_dropWhile.symm⟩
        have hord' : Ordered M base h after := hord.sublist (by
          rw [hafter]
          exact (dropWhile_sublist _).trans (sublist_cons_self _ _))
        have hfree : ∀ x ∈ after, x.sn ≠ base := by
          have hgone := hord.after_segmentsOf hbase base
          rw [dropWhile_cons_of_neg fun hlacks => lacksSn_iff.mp hlacks hsn,
            dropWhile_cons_of_pos (hasSn_iff.mpr hsn), ← hafter] at hgone
          exact hgone
        have hpos : 0 < h := by
          have := (hord.within l mem_cons_self).2
          omega
        have hbase' : (base + 1) % M < M := Nat.mod_lt _ (by omega)
        have hlen' : after.length ≤ fuel := by
          have : (l :: rest).length = run.length + after.length + 1 := by
            rw [hrest, length_cons, length_append]
          omega
        rw [← hafter]
        obtain ⟨k, dropped, kept, hloop, hf⟩ := ih _ _ after hbase' (hord'.succ hbase hfree) hlen'
        have hbasek : ((base + 1) % M + k) % M = (base + (k + 1)) % M := by
          rw [Nat.mod_add_mod, Nat.add_assoc, Nat.add_comm 1 k]
        have hmove : ∀ sn < M, sn ≠ base → 1 ≤ dist M base sn ∧
            dist M ((base + 1) % M) sn = dist M base sn - 1 := by
          intro sn hlt hne
          have hone := dist_pos hlt hbase hne
          exact ⟨hone, dist_add_left hlt hbase hone⟩
        refine ⟨k + 1, l :: run ++ dropped, kept, by rw [hloop, hbasek], ?_, ?_, ?_, ?_, ?_, ?_⟩
        · rw [hrest, hf.split]
          simp
        · have := hf.le
          omega
        · intro x hx
          rcases mem_append.mp hx with hx | hx
          · have hxsn : x.sn = base := by
              rcases mem_cons.mp hx with rfl | hx
              · exact hsn
              · exact hrun x hx
            rw [hxsn, dist_self]
            exact Nat.succ_pos k
          · have hmem : x ∈ after := by
              rw [hf.split]
              exact mem_append_left _ hx
            have hlt := hf.below x hx
            have := hmove x.sn (hord'.within x hmem).1 (hfree x hmem)
            omega
        · rw [← hbasek, show h - (k + 1) = h - 1 - k by omega]
          exact hf.ordered
        · rw [← hbasek]
          exact hf.pending
        · intro sn hlt hk
          by_cases hne : sn = base
          · rw [sduDelivered_cons, if_pos (hsn.trans hne.symm), hnone]
            rfl
          · have hm := hmove sn hlt hne
            have hdel := hf.delivered sn hlt (by omega)
            rw [sduDelivered_cons, if_neg fun heq => hne (heq.symm.trans hsn), hrest,
              sduDelivered_skip fun x hx heq => hne (heq.symm.trans (hrun x hx))]
            exact hdel
      · next hhead =>
        refine ⟨0, [], l :: rest, by rw [Nat.add_zero, Nat.mod_eq_of_lt hbase],
          Freed.zero hbase hord ?_⟩
        intro l' rest' heq
        obtain ⟨rfl, rfl⟩ := List.cons.inj heq
        exact hhead

end Loops

end NrStack.Rlc.Am
