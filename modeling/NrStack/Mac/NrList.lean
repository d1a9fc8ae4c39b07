/-
  `NR_list_t` (`gNB_scheduler_primitives.c`): a list of ids threaded through an array.

  PROGRAM   as the source writes it: `remove_nr_list` walks with two `int *`, here `Slot`s (the head
            field, or one entry of `next`).  `AssertFatal` and a walk that does not end are `none`.
  SPEC      `Repr l xs`: the structure `l` represents the list `xs` of distinct ids.
  RESULT    each operation computes the list operation it stands for.
-/
import Mathlib
import NrStack.Lib.Threaded

namespace NrStack.Mac

open List Threaded Function

/-- `NR_list_t`. -/
structure NrList where
  head : Int
  next : Nat → Int
  tail : Int
  len : Nat

namespace NrList

/-- The value an `int *` into the list may point to. -/
inductive Slot
  | head
  | next (i : Nat)

/-- What a slot points to. -/
def get (l : NrList) : Slot → Int
  | .head => l.head
  | .next i => l.next i

/-- Another pointer in a slot. -/
def set (l : NrList) (slot : Slot) (v : Int) : NrList :=
  match slot with
  | .head => { l with head := v }
  | .next i => { l with next := Function.update l.next i v }

/-- `create_nr_list` -/
def createNrList (len : Nat) : NrList := { head := -1, next := fun _ => -1, tail := -1, len := len }

/-- `resize_nr_list`, growing; entries beyond the old capacity become `-1`.  (Its shrinking
branch has no caller.) -/
def resizeNrList (l : NrList) (newLen : Nat) : NrList :=
  { l with next := fun i => if l.len ≤ i then -1 else l.next i, len := newLen }

/-- `add_tail_nr_list` -/
def addTailNrList (l : NrList) (id : Nat) : NrList :=
  let l1 := if l.tail < 0 then l.set .head id else l.set (.next l.tail.toNat) id
  { l1.set (.next id) (-1) with tail := id }

/-- `remove_front_nr_list`; `none` is a failed assertion. -/
def removeFrontNrList (l : NrList) : Option NrList :=
  if 0 ≤ l.head then
    let ohead := l.head.toNat
    let l1 := { l with head := l.next ohead, next := Function.update l.next ohead (-1) }
    some { l1 with tail := if l1.head < 0 then -1 else l1.tail }
  else none

/-- The walk of `remove_nr_list`: the slots `prev` and `cur` where it stops. -/
def findSlot (l : NrList) (id : Nat) : Nat → Slot → Slot → Option (Slot × Slot)
  | 0, _, _ => none
  | fuel + 1, prev, cur =>
    if l.get cur ≠ -1 ∧ l.get cur ≠ id then findSlot l id fuel cur (.next (l.get cur).toNat)
    else some (prev, cur)

/-- `remove_nr_list`; `none` is a failed assertion. -/
def removeNrList (l : NrList) (id : Nat) : Option NrList :=
  match l.findSlot id (l.len + 1) .head .head with
  | none => none
  | some (prev, cur) =>
    if l.get cur = -1 then none
    else
      let at_ := (l.get cur).toNat
      let l1 := (l.set cur (l.next at_)).set (.next at_) (-1)
      some { l1 with tail :=
        if 0 ≤ l1.get prev ∧ 0 ≤ l1.next (l1.get prev).toNat then l1.tail else l1.get prev }

/-- The ids in list order, read along the `next` entries. -/
def walk (next : Nat → Int) : Nat → Int → List Nat
  | 0, _ => []
  | fuel + 1, p => if p < 0 then [] else p.toNat :: walk next fuel (next p.toNat)

/-- The ids from the head on. -/
def toList (l : NrList) : List Nat := walk l.next l.len l.head

/-! ## Refinement -/

/-- The tail of a list of ids. -/
def tailOf (xs : List Nat) : Int := (xs.getLast?.map Int.ofNat).getD (-1)

/-- **`l` represents `xs`**: distinct ids below the capacity, threaded in this order. -/
structure Repr (l : NrList) (xs : List Nat) : Prop where
  seg : Seg l.next l.head xs (-1)
  tail : l.tail = tailOf xs
  nodup : xs.Nodup
  bound : ∀ x ∈ xs, x < l.len

lemma tailOf_nil : tailOf [] = -1 := rfl

lemma tailOf_concat (xs : List Nat) (x : Nat) : tailOf (xs ++ [x]) = x := by
  simp [tailOf]

lemma Repr.createNrList (len : Nat) : Repr (createNrList len) [] :=
  ⟨rfl, rfl, nodup_nil, nofun⟩

variable {l : NrList} {x id : Nat} {xs : List Nat}

lemma Repr.head_nil (h : Repr l []) : l.head = -1 := h.seg

lemma Repr.head_cons (h : Repr l (x :: xs)) : l.head = x := h.seg.1

lemma Repr.of_head (h : Repr l xs) (hh : 0 ≤ l.head) : ∃ rest, xs = l.head.toNat :: rest := by
  cases xs with
  | nil => rw [h.head_nil] at hh; omega
  | cons x rest => exact ⟨rest, by rw [h.head_cons]; rfl⟩

lemma Repr.length_le (h : Repr l xs) : xs.length ≤ l.len := by
  have hsub : xs ⊆ List.range l.len := fun x hx => mem_range.mpr (h.bound x hx)
  have := (subperm_of_subset h.nodup hsub).length_le
  rwa [length_range] at this

lemma walk_seg {next : Nat → Int} :
    ∀ {fuel : Nat} {p : Int}, Seg next p xs (-1) → xs.length ≤ fuel → walk next fuel p = xs := by
  induction xs with
  | nil =>
    intro fuel p h _
    cases fuel with
    | zero => rfl
    | succ n => rw [walk, if_pos (by rw [show p = -1 from h]; omega)]
  | cons x xs ih =>
    intro fuel p h hlen
    cases fuel with
    | zero => cases hlen
    | succ n =>
      obtain ⟨hp, h⟩ := h
      subst hp
      rw [walk, if_neg (by omega), Int.toNat_natCast, ih h (Nat.le_of_succ_le_succ hlen)]

lemma Repr.toList_eq (h : Repr l xs) : l.toList = xs :=
  walk_seg h.seg h.length_le

/-! ### The operations -/

lemma Repr.addTailNrList (h : Repr l xs) (hid : id ∉ xs) (hlen : id < l.len) :
    Repr (l.addTailNrList id) (xs ++ [id]) := by
  have hnodup : (xs ++ [id]).Nodup :=
    nodup_append.mpr ⟨h.nodup, pairwise_singleton _ _, fun a ha b hb hab => by
      rw [mem_singleton.mp hb] at hab
      exact hid (hab ▸ ha)⟩
  have hbound : ∀ n, n = l.len → ∀ x ∈ xs ++ [id], x < n := by
    rintro n rfl x hx
    rcases mem_append.mp hx with hx | hx
    · exact h.bound x hx
    · rw [mem_singleton.mp hx]; exact hlen
  rcases eq_nil_or_concat xs with rfl | ⟨ys, y, rfl⟩
  · -- the head slot is written
    have htail : l.tail < 0 := by rw [h.tail, tailOf_nil]; omega
    refine ⟨?_, (tailOf_concat _ _).symm, hnodup, hbound _ ?_⟩
    · simp only [NrList.addTailNrList, if_pos htail, set]
      exact ⟨rfl, by rw [update_self]; rfl⟩
    · simp only [NrList.addTailNrList, if_pos htail, set]
  · -- the `next` entry of the old tail is written
    rw [concat_eq_append] at *
    have htail : l.tail = y := by rw [h.tail, tailOf_concat]
    have hneg : ¬ l.tail < 0 := by omega
    obtain ⟨hys, hend⟩ := seg_concat.mp h.seg
    obtain ⟨hny, -, hdisj⟩ := nodup_append.mp h.nodup
    have hy : y ∉ ys := fun hmem => hdisj y hmem y (mem_singleton_self y) rfl
    have hidy : y ≠ id := fun he => hid (mem_append_right _ (he ▸ mem_singleton_self y))
    have hidys : id ∉ ys := fun hmem => hid (mem_append_left _ hmem)
    refine ⟨?_, (tailOf_concat _ _).symm, hnodup, hbound _ ?_⟩
    · simp only [NrList.addTailNrList, if_neg hneg, set]
      rw [htail, Int.toNat_natCast]
      refine seg_concat.mpr ⟨seg_concat.mpr ⟨(hys.update hy).update hidys, ?_⟩, ?_⟩
      · rw [update_of_ne hidy, update_self]
      · rw [update_self]
    · simp only [NrList.addTailNrList, if_neg hneg, set]

lemma addTailNrList_len (l : NrList) (id : Nat) : (l.addTailNrList id).len = l.len := by
  simp only [addTailNrList]
  split <;> rfl

lemma Repr.resizeNrList (h : Repr l xs) {m : Nat} (hm : l.len ≤ m) : Repr (l.resizeNrList m) xs :=
  ⟨h.seg.congr fun x hx => if_neg (Nat.not_le.mpr (h.bound x hx)), h.tail, h.nodup,
    fun x hx => Nat.lt_of_lt_of_le (h.bound x hx) hm⟩

lemma tailOf_cons (h : xs ≠ []) : tailOf (x :: xs) = tailOf xs := by
  obtain ⟨y, ys, rfl⟩ := exists_cons_of_ne_nil h
  simp [tailOf, getLast?_cons_cons]

lemma Repr.removeFrontNrList (h : Repr l (x :: xs)) :
    ∃ l', l.removeFrontNrList = some l' ∧ Repr l' xs ∧ l'.len = l.len := by
  obtain ⟨hx, hxs⟩ := nodup_cons.mp h.nodup
  have hhead := h.head_cons
  unfold NrList.removeFrontNrList
  rw [if_pos (by omega)]
  refine ⟨_, rfl, ⟨?_, ?_, hxs, fun y hy => h.bound y (mem_cons_of_mem _ hy)⟩, rfl⟩
  · simp only [hhead, Int.toNat_natCast]
    exact h.seg.2.update hx
  · simp only [hhead, Int.toNat_natCast]
    have hnext := h.seg.2
    cases xs with
    | nil => rw [if_pos (by rw [show l.next x = -1 from hnext]; omega), tailOf_nil]
    | cons y ys => rw [if_neg (by rw [hnext.1]; omega), h.tail, tailOf_cons (cons_ne_nil _ _)]

lemma removeFrontNrList_none (h : l.head < 0) : l.removeFrontNrList = none :=
  if_neg (by omega)

/-- The slot behind the ids. -/
def slotOf (pre : List Nat) : Slot :=
  match pre.getLast? with
  | none => .head
  | some p => .next p

lemma slotOf_concat (pre : List Nat) (p : Nat) : slotOf (pre ++ [p]) = .next p := by
  simp [slotOf]

lemma seg_slotOf (pre rest : List Nat) (h : Seg l.next l.head (pre ++ rest) (-1)) :
    Seg l.next (l.get (slotOf pre)) rest (-1) := by
  obtain ⟨r, hpre, hrest⟩ := seg_append.mp h
  rcases eq_nil_or_concat pre with rfl | ⟨ys, y, rfl⟩
  · have hr : l.head = r := hpre
    rw [← hr] at hrest
    exact hrest
  · rw [concat_eq_append] at *
    rw [slotOf_concat]
    obtain ⟨-, hr⟩ := seg_concat.mp hpre
    rw [show l.get (.next y) = r from hr]
    exact hrest

/-- The search stops at the slot that points to `id`, or at the end. -/
theorem findSlot_walk {todo rest : List Nat} (hid : id ∉ todo)
    (hstop : rest = [] ∨ ∃ post, rest = id :: post) :
    ∀ (pre : List Nat) (fuel : Nat), Seg l.next l.head (pre ++ (todo ++ rest)) (-1) →
      todo.length < fuel → l.findSlot id fuel (slotOf pre.dropLast) (slotOf pre)
        = some (slotOf (pre ++ todo).dropLast, slotOf (pre ++ todo)) := by
  induction todo with
  | nil =>
    intro pre fuel hseg hfuel
    obtain ⟨n, rfl⟩ : ∃ n, fuel = n + 1 := ⟨fuel - 1, by have := hfuel; simp at this; omega⟩
    have hcur := seg_slotOf _ _ hseg
    rw [append_nil, findSlot, if_neg]
    rintro ⟨h1, h2⟩
    rcases hstop with rfl | ⟨post, rfl⟩
    · exact h1 hcur
    · exact h2 hcur.1
  | cons t todo ih =>
    intro pre fuel hseg hfuel
    obtain ⟨n, rfl⟩ : ∃ n, fuel = n + 1 := ⟨fuel - 1, by have := hfuel; simp at this; omega⟩
    have hcur : l.get (slotOf pre) = t := (seg_slotOf _ _ hseg).1
    have hne : t ≠ id := fun he => hid (he ▸ mem_cons_self)
    rw [findSlot, if_pos (by rw [hcur]; omega), hcur, Int.toNat_natCast]
    have hstep := ih (fun hmem => hid (mem_cons_of_mem _ hmem)) (pre ++ [t]) n
      (by rw [append_assoc]; exact hseg) (by simpa using hfuel)
    rw [dropLast_concat, slotOf_concat] at hstep
    rw [hstep, append_assoc]
    rfl

lemma Repr.removeNrList_none (h : Repr l xs) (hid : id ∉ xs) : l.removeNrList id = none := by
  have hwalk := findSlot_walk hid (.inl rfl) [] (l.len + 1) (by simpa using h.seg)
    (Nat.lt_succ_of_le h.length_le)
  have hend : l.get (slotOf xs) = -1 := seg_slotOf xs [] (by simpa using h.seg)
  rw [nil_append] at hwalk
  unfold NrList.removeNrList
  rw [show l.findSlot id (l.len + 1) .head .head = _ from hwalk]
  simp [hend]

lemma Repr.removeNrList {pre post : List Nat} (h : Repr l (pre ++ id :: post)) :
    ∃ l', l.removeNrList id = some l' ∧ Repr l' (pre ++ post) ∧ l'.len = l.len := by
  obtain ⟨hpre, hpost', hdisj⟩ := nodup_append.mp h.nodup
  obtain ⟨hidpost, hpost⟩ := nodup_cons.mp hpost'
  have hidpre : id ∉ pre := fun hmem => hdisj id hmem id mem_cons_self rfl
  have hnodup : (pre ++ post).Nodup := nodup_append.mpr
    ⟨hpre, hpost, fun a ha b hb => hdisj a ha b (mem_cons_of_mem _ hb)⟩
  have hbound : ∀ x ∈ pre ++ post, x < l.len := by
    intro x hx
    apply h.bound x
    rcases mem_append.mp hx with hx | hx
    · exact mem_append_left _ hx
    · exact mem_append_right _ (mem_cons_of_mem _ hx)
  have hlen := h.length_le
  have hwalk := findSlot_walk hidpre (.inr ⟨post, rfl⟩) [] (l.len + 1)
    (by simpa using h.seg) (by simp at hlen; omega)
  rw [nil_append] at hwalk
  obtain ⟨hcur, hrest⟩ := seg_slotOf _ _ h.seg
  unfold NrList.removeNrList
  rw [show l.findSlot id (l.len + 1) .head .head = _ from hwalk]
  simp only
  rw [if_neg (by rw [hcur]; omega), hcur, Int.toNat_natCast]
  rcases eq_nil_or_concat pre with rfl | ⟨ys, p, rfl⟩
  · -- the first id: `prev` and `cur` are both the head field
    refine ⟨_, rfl, ⟨hrest.update hidpost, ?_, hnodup, hbound⟩, rfl⟩
    simp only [slotOf, set, get, getLast?_nil, dropLast_nil]
    cases post with
    | nil =>
      have hend : l.next id = -1 := hrest
      rw [if_neg (by rw [hend]; omega), hend]; rfl
    | cons q post =>
      have hq : l.next id = q := hrest.1
      have hqid : q ≠ id := fun he => hidpost (he ▸ mem_cons_self)
      rw [hq, Int.toNat_natCast, update_of_ne hqid]
      cases post with
      | nil =>
        have hend : l.next q = -1 := hrest.2
        rw [if_neg (by rw [hend]; omega)]; rfl
      | cons r post =>
        have hr : l.next q = r := hrest.2.1
        rw [if_pos ⟨by omega, by rw [hr]; omega⟩, h.tail]
        rfl
  · -- behind `p`: `cur` is its `next` entry, `prev` the slot that points to `p`
    rw [concat_eq_append] at *
    rw [slotOf_concat, dropLast_concat]
    obtain ⟨hys, -, hdp⟩ := nodup_append.mp hpre
    have hpys : p ∉ ys := fun hmem => hdp p hmem p (mem_singleton_self p) rfl
    have hpid : p ≠ id := fun he => hidpre (mem_append_right _ (he ▸ mem_singleton_self p))
    have hidys : id ∉ ys := fun hmem => hidpre (mem_append_left _ hmem)
    have hppost : p ∉ post := fun hmem =>
      hdisj p (mem_append_right _ (mem_singleton_self p)) p
        (mem_cons_of_mem _ hmem) rfl
    obtain ⟨r, hseg, -⟩ := seg_append.mp h.seg
    obtain ⟨hseg, -⟩ := seg_concat.mp hseg
    have hprev : ((l.set (.next p) (l.next id)).set (.next id) (-1)).get (slotOf ys) = p := by
      have hget : l.get (slotOf ys) = p :=
        (seg_slotOf ys (p :: id :: post) (by simpa using h.seg)).1
      rcases eq_nil_or_concat ys with rfl | ⟨zs, z, rfl⟩
      · exact hget
      · rw [concat_eq_append] at *
        rw [slotOf_concat] at hget ⊢
        have hzp : z ≠ p := fun he => hpys (mem_append_right _ (he ▸ mem_singleton_self z))
        have hzid : z ≠ id := fun he =>
          hidys (mem_append_right _ (he ▸ mem_singleton_self z))
        show Function.update (Function.update l.next p (l.next id)) id (-1) z = p
        rw [update_of_ne hzid, update_of_ne hzp]
        exact hget
    refine ⟨_, rfl, ⟨?_, ?_, hnodup, hbound⟩, rfl⟩
    · refine seg_append.mpr ⟨l.next id, ?_, (hrest.update hppost).update hidpost⟩
      refine seg_concat.mpr ⟨(hseg.update hpys).update hidys, ?_⟩
      show Function.update (Function.update l.next p (l.next id)) id (-1) p = l.next id
      rw [update_of_ne hpid, update_self]
    · simp only [hprev, Int.toNat_natCast]
      have hnp : ((l.set (.next p) (l.next id)).set (.next id) (-1)).next p = l.next id := by
        show Function.update (Function.update l.next p (l.next id)) id (-1) p = l.next id
        rw [update_of_ne hpid, update_self]
      rw [hnp]
      cases post with
      | nil =>
        have hend : l.next id = -1 := hrest
        rw [if_neg (by rw [hend]; omega), append_nil, tailOf_concat]
      | cons q post =>
        have hq : l.next id = q := hrest.1
        rw [if_pos ⟨by omega, by rw [hq]; omega⟩]
        show l.tail = _
        rw [h.tail]
        simp [tailOf, getLast?_append, getLast?_cons_cons]

end NrList

end NrStack.Mac
