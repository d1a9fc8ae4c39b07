/-
  Process ids on three lists.

  Between two of the lists of a HARQ scheduler an id is IN HAND.  `Parted la lf lr n out a f r`: the lists
  hold `a`, `f`, `r`, `out` is in hand, and every id below `n` is in exactly one of these places.  The lists
  play the same part (`Parted.rotate`), so every move is stated for the first.  `Filed` adds which processes
  wait, and in which round they are.
-/
import Mathlib
import NrStack.Mac.DlHarq

namespace NrStack.Mac

open List NrList

/-! ## Loops over lists -/

lemma drain_repr {xs : List Nat} :
    ∀ {fuel : Nat} {src dst : NrList} {ys : List Nat}, src.Repr xs → dst.Repr ys →
      (∀ x ∈ xs, x ∉ ys) → src.len = dst.len → xs.length < fuel →
      ∃ src' dst', SchedCtrl.drain fuel src dst = some (src', dst') ∧ src'.Repr [] ∧
        dst'.Repr (ys ++ xs) ∧ src'.len = src.len ∧ dst'.len = dst.len := by
  induction xs with
  | nil =>
    intro fuel src dst ys hsrc hdst _ _ hfuel
    obtain ⟨m, rfl⟩ : ∃ m, fuel = m + 1 := ⟨fuel - 1, by simp at hfuel; omega⟩
    refine ⟨src, dst, ?_, hsrc, by rw [append_nil]; exact hdst, rfl, rfl⟩
    rw [SchedCtrl.drain, if_pos (by rw [hsrc.head_nil]; omega)]
  | cons x xs ih =>
    intro fuel src dst ys hsrc hdst hdisj hlen hfuel
    obtain ⟨m, rfl⟩ : ∃ m, fuel = m + 1 := ⟨fuel - 1, by simp at hfuel; omega⟩
    have hhead := hsrc.head_cons
    obtain ⟨l, hl, hrep, hllen⟩ := hsrc.removeFrontNrList
    obtain ⟨hx, -⟩ := nodup_cons.mp hsrc.nodup
    have hadd := hdst.addTailNrList (hdisj x mem_cons_self)
      (by rw [← hlen]; exact hsrc.bound x mem_cons_self)
    have hdisj' : ∀ q ∈ xs, q ∉ ys ++ [x] := by
      intro q hq hmem
      rcases mem_append.mp hmem with hmem | hmem
      · exact hdisj q (mem_cons_of_mem _ hq) hmem
      · exact hx (mem_singleton.mp hmem ▸ hq)
    obtain ⟨src', dst', hrun, h1, h2, h3, h4⟩ := ih hrep hadd hdisj'
      (by rw [hllen, hlen, addTailNrList_len]) (Nat.lt_of_succ_lt_succ hfuel)
    refine ⟨src', dst', ?_, h1, ?_, h3.trans hllen, h4.trans (addTailNrList_len _ _)⟩
    · rw [SchedCtrl.drain, if_neg (by omega), hl, hhead, Int.toNat_natCast]
      exact hrun
    · rw [append_assoc] at h2; exact h2

lemma addTail_foldl_repr (ids : List Nat) :
    ∀ {l : NrList} {xs : List Nat}, l.Repr xs → ids.Nodup → (∀ i ∈ ids, i ∉ xs ∧ i < l.len) →
      (ids.foldl NrList.addTailNrList l).Repr (xs ++ ids) ∧
        (ids.foldl NrList.addTailNrList l).len = l.len := by
  induction ids with
  | nil => exact fun h _ _ => ⟨by rw [append_nil]; exact h, rfl⟩
  | cons i ids ih =>
    intro l xs h hnodup hids
    obtain ⟨hi, hnodup⟩ := nodup_cons.mp hnodup
    obtain ⟨hxs, hlt⟩ := hids i mem_cons_self
    have hlen := addTailNrList_len l i
    obtain ⟨hrep, hl⟩ := ih (h.addTailNrList hxs hlt) hnodup fun j hj => by
      obtain ⟨hjx, hjl⟩ := hids j (mem_cons_of_mem _ hj)
      refine ⟨fun hmem => ?_, by rw [hlen]; exact hjl⟩
      rcases mem_append.mp hmem with hmem | hmem
      · exact hjx hmem
      · exact hi (mem_singleton.mp hmem ▸ hj)
    rw [append_assoc] at hrep
    exact ⟨hrep, hl.trans hlen⟩

lemma count_range' (start len q : Nat) :
    (List.range' start len).count q = if start ≤ q ∧ q < start + len then 1 else 0 := by
  have hnodup : (List.range' start len).Nodup := nodup_range'
  by_cases hq : start ≤ q ∧ q < start + len
  · rw [if_pos hq, count_eq_one_of_mem hnodup (mem_range'_1.mpr hq)]
  · rw [if_neg hq, count_eq_zero]
    exact fun hmem => hq (mem_range'_1.mp hmem)

lemma mem_of_take {q pid : Nat} {pre post : List Nat} (hq : q ∈ pre ++ post) :
    q ∈ pre ++ pid :: post := by
  rcases mem_append.mp hq with hq | hq
  · exact mem_append_left _ hq
  · exact mem_append_right _ (mem_cons_of_mem _ hq)

/-! ## The lists -/

/-- The lists `la`, `lf`, `lr` hold `a`, `f`, `r`; `out` is in hand; nothing else is configured. -/
structure Parted (la lf lr : NrList) (n : Nat) (out a f r : List Nat) : Prop where
  first : la.Repr a
  second : lf.Repr f
  third : lr.Repr r
  lens : la.len = n ∧ lf.len = n ∧ lr.len = n
  count : ∀ q, a.count q + f.count q + r.count q + out.count q = if q < n then 1 else 0

namespace Parted

variable {la lf lr l : NrList} {n pid : Nat} {out a f r pre post : List Nat}

lemma rotate (h : Parted la lf lr n out a f r) : Parted lf lr la n out f r a := by
  refine ⟨h.second, h.third, h.first, ⟨h.lens.2.1, h.lens.2.2, h.lens.1⟩, fun q => ?_⟩
  have := h.count q
  omega

lemma inHand (h : Parted la lf lr n (pid :: out) a f r) :
    pid < n ∧ pid ∉ a ∧ pid ∉ f ∧ pid ∉ r ∧ pid ∉ out := by
  have hc := h.count pid
  rw [count_cons_self] at hc
  have hlt : pid < n := by
    by_contra hge
    rw [if_neg hge] at hc
    omega
  rw [if_pos hlt] at hc
  refine ⟨hlt, ?_, ?_, ?_, ?_⟩ <;>
    (intro hmem; have := count_pos_iff.mpr hmem; omega)

lemma exclusive (h : Parted la lf lr n out a f r) {q : Nat} (hq : q ∈ a) :
    q < n ∧ q ∉ f ∧ q ∉ r ∧ q ∉ out := by
  have hc := h.count q
  have hpos := count_pos_iff.mpr hq
  have hlt : q < n := by
    by_contra hge
    rw [if_neg hge] at hc
    omega
  rw [if_pos hlt] at hc
  refine ⟨hlt, ?_, ?_, ?_⟩ <;>
    (intro hmem; have := count_pos_iff.mpr hmem; omega)

lemma cover (h : Parted la lf lr n [] a f r) {q : Nat} (hq : q < n) :
    a.count q + f.count q + r.count q = 1 := by
  have hc := h.count q
  rw [if_pos hq, count_nil] at hc
  omega

lemma take (h : Parted la lf lr n out (pre ++ pid :: post) f r) (hrep : l.Repr (pre ++ post))
    (hlen : l.len = la.len) : Parted l lf lr n (pid :: out) (pre ++ post) f r := by
  refine ⟨hrep, h.second, h.third, ⟨hlen.trans h.lens.1, h.lens.2⟩, fun q => ?_⟩
  have := h.count q
  simp only [count_append, count_cons] at this ⊢
  omega

lemma takeFront (h : Parted la lf lr n out (pid :: a) f r) :
    ∃ l, la.removeFrontNrList = some l ∧ Parted l lf lr n (pid :: out) a f r := by
  obtain ⟨l, hl, hrep, hlen⟩ := h.first.removeFrontNrList
  exact ⟨l, hl, (nil_append (pid :: a) ▸ h).take hrep hlen⟩

lemma takeId (h : Parted la lf lr n out a f r) (hmem : pid ∈ a) :
    ∃ l pre post, la.removeNrList pid = some l ∧ a = pre ++ pid :: post ∧
      Parted l lf lr n (pid :: out) (pre ++ post) f r := by
  obtain ⟨pre, post, rfl⟩ := append_of_mem hmem
  obtain ⟨l, hl, hrep, hlen⟩ := h.first.removeNrList
  exact ⟨l, pre, post, hl, rfl, h.take hrep hlen⟩

lemma put (h : Parted la lf lr n (pid :: out) a f r) :
    Parted (la.addTailNrList pid) lf lr n out (a ++ [pid]) f r := by
  obtain ⟨hlt, ha, -⟩ := h.inHand
  refine ⟨h.first.addTailNrList ha (by rw [h.lens.1]; exact hlt), h.second, h.third,
    ⟨(addTailNrList_len _ _).trans h.lens.1, h.lens.2⟩, fun q => ?_⟩
  have := h.count q
  simp only [count_append, count_cons, count_nil] at this ⊢
  omega

lemma drain (h : Parted la lf lr n [] a f r) :
    ∃ lf' la' lr' la'', SchedCtrl.drain (lf.len + 1) lf la = some (lf', la') ∧
      SchedCtrl.drain (lr.len + 1) lr la' = some (lr', la'') ∧
      Parted la'' lf' lr' n [] (a ++ f ++ r) [] [] := by
  obtain ⟨hla, hlf, hlr⟩ := h.lens
  obtain ⟨lf', la', hrun, hlf', hla', hlfl, hlal⟩ := drain_repr h.second h.first
    (fun x hx => (h.rotate.exclusive hx).2.2.1) (by omega)
    (Nat.lt_succ_of_le h.second.length_le)
  have hapart : ∀ x ∈ r, x ∉ a ++ f := by
    intro x hx hmem
    obtain ⟨-, hxa, hxf, -⟩ := h.rotate.rotate.exclusive hx
    exact (mem_append.mp hmem).elim hxa hxf
  obtain ⟨lr', la'', hrun', hlr', hla'', hlrl, hlal'⟩ := drain_repr h.third hla' hapart (by omega)
    (Nat.lt_succ_of_le h.third.length_le)
  refine ⟨lf', la', lr', la'', hrun, hrun', hla'', hlf', hlr', by omega, fun q => ?_⟩
  have := h.count q
  simp only [count_append, count_nil] at this ⊢
  omega

lemma create (n : Nat) : Parted (SchedCtrl.addIds (.createNrList n) 0 n) (.createNrList n)
    (.createNrList n) n [] (List.range' 0 n) [] [] := by
  obtain ⟨hrep, hlen⟩ := addTail_foldl_repr (List.range' 0 n) (Repr.createNrList n)
    nodup_range' fun i hi => ⟨not_mem_nil, by
      show i < n
      simpa using (mem_range'_1.mp hi).2⟩
  refine ⟨hrep, Repr.createNrList n, Repr.createNrList n, ⟨hlen, rfl, rfl⟩, fun q => ?_⟩
  simp

lemma grow (h : Parted la lf lr n [] a f r) {m : Nat} (hm : n < m) :
    Parted (SchedCtrl.addIds (la.resizeNrList m) n m) (lf.resizeNrList m) (lr.resizeNrList m) m []
      (a ++ List.range' n (m - n)) f r := by
  obtain ⟨hla, hlf, hlr⟩ := h.lens
  obtain ⟨hrep, hlen⟩ := addTail_foldl_repr (List.range' n (m - n))
    (h.first.resizeNrList (m := m) (by omega)) nodup_range' fun i hi => by
      have hi := mem_range'_1.mp hi
      refine ⟨fun hia => ?_, by show i < m; omega⟩
      have := (h.exclusive hia).1
      omega
  refine ⟨hrep, h.second.resizeNrList (by omega), h.third.resizeNrList (by omega),
    ⟨hlen, rfl, rfl⟩, fun q => ?_⟩
  have hc := h.count q
  rw [count_append, count_range']
  by_cases hqn : q < n
  · rw [if_pos hqn] at hc
    rw [if_neg (by omega), if_pos (by omega)]
    omega
  · rw [if_neg hqn] at hc
    by_cases hqm : q < m
    · rw [if_pos (by omega), if_pos hqm]
      omega
    · rw [if_neg (by omega), if_neg hqm]
      omega

end Parted

/-! ## The processes -/

/-- The lists and the processes agree: `waiting` and `round` are the flag and the round of a process. -/
structure Filed (la lf lr : NrList) (n roundMax : Nat) (waiting : Nat → Bool) (round : Nat → Nat)
    (out a f r : List Nat) : Prop where
  lists : Parted la lf lr n out a f r
  cap : n ≤ nrMaxHarqProcesses
  waits : ∀ q, q ∉ out → (waiting q = true ↔ q ∈ f)
  rounds : ∀ q ∈ r, 0 < round q ∧ round q < roundMax
  fresh : ∀ q ∈ a, round q = 0
  idle : ∀ q, n ≤ q → round q = 0

namespace Filed

variable {la lf lr : NrList} {n pid roundMax : Nat} {waiting waiting' : Nat → Bool}
  {round round' : Nat → Nat} {out a f r : List Nat}

section

variable (h : Filed la lf lr n roundMax waiting round (pid :: out) a f r)
include h

lemma change
    (hw : ∀ q, q ≠ pid → waiting' q = waiting q) (hr : ∀ q, q ≠ pid → round' q = round q) :
    Filed la lf lr n roundMax waiting' round' (pid :: out) a f r := by
  obtain ⟨hlt, ha, -, hpr, -⟩ := h.lists.inHand
  have hne : ∀ {q : Nat} {l : List Nat}, pid ∉ l → q ∈ l → q ≠ pid := fun hp hq he => hp (he ▸ hq)
  refine ⟨h.lists, h.cap, fun q hq => ?_, fun q hq => ?_, fun q hq => ?_, fun q hq => ?_⟩
  · rw [hw q fun he => hq (he ▸ mem_cons_self)]
    exact h.waits q hq
  · rw [hr q (hne hpr hq)]
    exact h.rounds q hq
  · rw [hr q (hne ha hq)]
    exact h.fresh q hq
  · rw [hr q (by omega)]
    exact h.idle q hq

lemma waits_of_put
    (hw : waiting pid = false) (q : Nat) (hq : q ∉ out) : waiting q = true ↔ q ∈ f := by
  by_cases hqp : q = pid
  · rw [hqp, hw]
    exact ⟨nofun, fun hin => absurd hin h.lists.inHand.2.2.1⟩
  · exact h.waits q fun hmem => (mem_cons.mp hmem).elim hqp hq

lemma putAvailable (hw : waiting pid = false) (hr : round pid = 0) :
    Filed (la.addTailNrList pid) lf lr n roundMax waiting round out (a ++ [pid]) f r := by
  refine ⟨h.lists.put, h.cap, h.waits_of_put hw, h.rounds, fun q hq => ?_, h.idle⟩
  rcases mem_append.mp hq with hq | hq
  · exact h.fresh q hq
  · rw [mem_singleton.mp hq]
    exact hr

lemma putFeedback (hw : waiting pid = true) :
    Filed la (lf.addTailNrList pid) lr n roundMax waiting round out a (f ++ [pid]) r := by
  refine ⟨h.lists.rotate.put.rotate.rotate, h.cap, fun q hq => ?_, h.rounds, h.fresh, h.idle⟩
  rw [mem_append, mem_singleton]
  by_cases hqp : q = pid
  · rw [hqp, hw]
    exact ⟨fun _ => .inr rfl, fun _ => rfl⟩
  · refine (h.waits q fun hmem => (mem_cons.mp hmem).elim hqp hq).trans ?_
    exact ⟨.inl, fun hin => hin.resolve_right hqp⟩

lemma putRetrans (hw : waiting pid = false) (hr : 0 < round pid ∧ round pid < roundMax) :
    Filed la lf (lr.addTailNrList pid) n roundMax waiting round out a f (r ++ [pid]) := by
  refine ⟨h.lists.rotate.rotate.put.rotate, h.cap, h.waits_of_put hw, fun q hq => ?_, h.fresh, h.idle⟩
  rcases mem_append.mp hq with hq | hq
  · exact h.rounds q hq
  · rw [mem_singleton.mp hq]
    exact hr

end

lemma takeFeedback (h : Filed la lf lr n roundMax waiting round [] a (pid :: f) r) :
    ∃ l, lf.removeFrontNrList = some l ∧ Filed la l lr n roundMax waiting round [pid] a f r := by
  obtain ⟨l, hl, hlists⟩ := h.lists.rotate.takeFront
  refine ⟨l, hl, hlists.rotate.rotate, h.cap, fun q hq => ?_, h.rounds, h.fresh, h.idle⟩
  rw [h.waits q not_mem_nil, mem_cons]
  exact ⟨fun hin => hin.resolve_left fun he => hq (mem_singleton.mpr he), .inr⟩

lemma takeAvailable {l : NrList} {a' : List Nat} (h : Filed la lf lr n roundMax waiting round [] a f r)
    (hlists : Parted l lf lr n [pid] a' f r) (hsub : ∀ q ∈ a', q ∈ a) :
    Filed l lf lr n roundMax waiting round [pid] a' f r :=
  ⟨hlists, h.cap, fun q _ => h.waits q not_mem_nil, h.rounds, fun q hq => h.fresh q (hsub q hq), h.idle⟩

lemma takeRetrans {l : NrList} {r' : List Nat} (h : Filed la lf lr n roundMax waiting round [] a f r)
    (hlists : Parted la lf l n [pid] a f r') (hsub : ∀ q ∈ r', q ∈ r) :
    Filed la lf l n roundMax waiting round [pid] a f r' :=
  ⟨hlists, h.cap, fun q _ => h.waits q not_mem_nil, fun q hq => h.rounds q (hsub q hq), h.fresh, h.idle⟩

lemma reset {la' lf' lr' : NrList} (h : Filed la lf lr n roundMax waiting round [] a f r)
    (hlists : Parted la' lf' lr' n [] (a ++ f ++ r) [] [])
    (hbelow : ∀ q, q < nrMaxHarqProcesses → waiting' q = false ∧ round' q = 0)
    (habove : ∀ q, ¬ q < nrMaxHarqProcesses → waiting' q = waiting q ∧ round' q = round q) :
    Filed la' lf' lr' n roundMax waiting' round' [] (a ++ f ++ r) [] [] := by
  refine ⟨hlists, h.cap, fun q _ => ?_, nofun, fun q hq => ?_, fun q hq => ?_⟩
  · -- below 32 the flag is cleared; above, the process was never configured
    by_cases hq : q < nrMaxHarqProcesses
    · rw [(hbelow q hq).1]
      exact ⟨nofun, nofun⟩
    · have hnf : q ∉ f := fun hmem => hq (Nat.lt_of_lt_of_le (h.lists.rotate.exclusive hmem).1 h.cap)
      rw [(habove q hq).1, h.waits q not_mem_nil]
      exact ⟨fun hin => absurd hin hnf, nofun⟩
  · exact (hbelow q (Nat.lt_of_lt_of_le (hlists.exclusive hq).1 h.cap)).2
  · by_cases hlt : q < nrMaxHarqProcesses
    · exact (hbelow q hlt).2
    · rw [(habove q hlt).2]
      exact h.idle q hq

lemma grow (h : Filed la lf lr n roundMax waiting round [] a f r) {m : Nat} (hm : n < m)
    (hcap : m ≤ nrMaxHarqProcesses) :
    Filed (SchedCtrl.addIds (la.resizeNrList m) n m) (lf.resizeNrList m) (lr.resizeNrList m) m roundMax
      waiting round [] (a ++ List.range' n (m - n)) f r := by
  refine ⟨h.lists.grow hm, hcap, h.waits, h.rounds, fun q hq => ?_, fun q hq => h.idle q (by omega)⟩
  rcases mem_append.mp hq with hq | hq
  · exact h.fresh q hq
  · exact h.idle q (mem_range'_1.mp hq).1

end Filed

end NrStack.Mac
