/-
  RLC SDUs and SDU segments (`nr_rlc_sdu.c`).

  An SDU is shared by its segments through a pointer, here a handle into a `Heap`; so the shared fields are
  updated for all segments at once.  A list node is identified by its contents: the segments of one entity
  differ in SDU or offset.  `nr_rlc_sdu_segment_list_append` goes through the `end` pointer: what is behind
  its node is cut off.  A freed SDU keeps its entry in the heap.
-/
import Mathlib

namespace NrStack.Rlc

/-- `NR_SDU_MAX` -/
def nrSduMax : Nat := 16000

/-- `nr_rlc_sdu_t`; `sn` and `retxCount` are -1 until first set. -/
structure Sdu where
  sn : Int
  upperLayerId : Int
  data : List UInt8
  retxCount : Int
  refCount : Nat
  freeCount : Nat
  deriving DecidableEq, Repr

/-- The field `size`, set once to the number of bytes copied into `data`. -/
def Sdu.size (s : Sdu) : Nat := s.data.length

/-- `nr_rlc_sdu_segment_t`; `sdu` is the pointer to the shared SDU. -/
structure Seg where
  sdu : Nat
  size : Nat
  so : Nat
  isFirst : Bool
  isLast : Bool
  deriving DecidableEq, Repr

/-- The segment is not the last any more. -/
def Seg.clearLast (seg : Seg) : Seg := { seg with isLast := false }

/-- The SDUs allocated so far, `count` of them. -/
structure Heap where
  sdus : Nat → Sdu
  count : Nat

namespace Heap

/-- No SDU. -/
def empty : Heap := ⟨fun _ => ⟨-1, 0, [], -1, 0, 0⟩, 0⟩

/-- Writing through a pointer. -/
def modify (m : Heap) (h : Nat) (f : Sdu → Sdu) : Heap :=
  { m with sdus := fun i => if i = h then f (m.sdus i) else m.sdus i }

variable (m : Heap) (h : Nat) (buffer : List UInt8) (id : Int)

@[simp] lemma modify_self (f : Sdu → Sdu) :
    (m.modify h f).sdus h = f (m.sdus h) := if_pos rfl

lemma modify_of_ne {h i : Nat} (f : Sdu → Sdu) (hne : i ≠ h) :
    (m.modify h f).sdus i = m.sdus i := if_neg hne

lemma modify_keeps {α : Type} (p : Sdu → α) (m : Heap) (h : Nat) (f : Sdu → Sdu)
    (hf : ∀ s, p (f s) = p s) (i : Nat) : p ((m.modify h f).sdus i) = p (m.sdus i) := by
  by_cases hi : i = h
  · rw [hi, modify_self, hf]
  · rw [modify_of_ne m f hi]

/-- The bytes of an SDU. -/
def data (m : Heap) (h : Nat) : List UInt8 := (m.sdus h).data

/-- `sdu->sn = sn` -/
def setSn (m : Heap) (h : Nat) (sn : Nat) : Heap := m.modify h fun s => { s with sn := sn }

/-- `sdu->ref_count++` -/
def addRef (m : Heap) (h : Nat) : Heap := m.modify h fun s => { s with refCount := s.refCount + 1 }

/-- `sdu->free_count++` -/
def addFree (m : Heap) (h : Nat) : Heap :=
  m.modify h fun s => { s with freeCount := s.freeCount + 1 }

@[simp] lemma data_setSn (h sn : Nat) : (m.setSn h sn).data = m.data :=
  funext (modify_keeps Sdu.data m h _ fun _ => rfl)

@[simp] lemma data_addRef : (m.addRef h).data = m.data :=
  funext (modify_keeps Sdu.data m h _ fun _ => rfl)

@[simp] lemma data_addFree : (m.addFree h).data = m.data :=
  funext (modify_keeps Sdu.data m h _ fun _ => rfl)

lemma sn_setSn_self (h sn : Nat) : ((m.setSn h sn).sdus h).sn = sn := by
  rw [setSn, modify_self]

@[simp] lemma sn_addRef (h i : Nat) : ((m.addRef h).sdus i).sn = (m.sdus i).sn := by
  exact modify_keeps Sdu.sn m h _ (by intro s; rfl) i

@[simp] lemma sn_addFree (h i : Nat) : ((m.addFree h).sdus i).sn = (m.sdus i).sn := by
  exact modify_keeps Sdu.sn m h _ (by intro s; rfl) i

/-- `nr_rlc_new_sdu`: the SDU and its only segment. -/
def newSdu (m : Heap) (buffer : List UInt8) (upperLayerId : Int) : Heap × Seg :=
  (⟨fun i => if i = m.count then ⟨-1, upperLayerId, buffer, -1, 1, 0⟩ else m.sdus i, m.count + 1⟩,
    ⟨m.count, buffer.length, 0, true, true⟩)

lemma newSdu_self :
    (m.newSdu buffer id).1.sdus m.count = ⟨-1, id, buffer, -1, 1, 0⟩ := if_pos rfl

lemma newSdu_of_lt {i : Nat} (h : i < m.count) :
    (m.newSdu buffer id).1.sdus i = m.sdus i := if_neg (by omega)

lemma data_newSdu_self :
    (m.newSdu buffer id).1.data m.count = buffer := by rw [data, newSdu_self]

lemma data_newSdu_of_lt {i : Nat} (h : i < m.count) :
    (m.newSdu buffer id).1.data i = m.data i := by rw [data, newSdu_of_lt m buffer id h, data]

/-- `nr_rlc_free_sdu_segment`: counts the segment as freed; true when the SDU went with it. -/
def freeSduSegment (m : Heap) (seg : Seg) : Heap × Bool :=
  (m.addFree seg.sdu, decide ((m.sdus seg.sdu).freeCount + 1 = (m.sdus seg.sdu).refCount))

end Heap

/-- `nr_rlc_free_sdu_segment_list` -/
def freeSduSegmentList (heap : Heap) (list : List Seg) : Heap :=
  list.foldl (fun heap seg => (heap.freeSduSegment seg).1) heap

/-- The test `cur->sdu->upper_layer_id != sdu_id`. -/
def lacksId (heap : Heap) (sduId : Int) (seg : Seg) : Bool := (heap.sdus seg.sdu).upperLayerId != sduId

/-- `(*end)->next = sdu` on a list: the new node follows `e`, and nothing follows the new node. -/
def linkAfter (e seg : Seg) : List Seg → List Seg
  | [] => []
  | x :: rest => if x = e then [x, seg] else x :: linkAfter e seg rest

/-- `nr_rlc_sdu_segment_list_append`; `none` is a null `end` of a non-empty list. -/
def sduSegmentListAppend (list : List Seg) (tail : Option Seg) (seg : Seg) :
    Option (List Seg × Option Seg) :=
  if list = [] then some ([seg], some seg)
  else tail.map fun e => (linkAfter e seg list, some seg)

lemma linkAfter_getLast (seg : Seg) {list : List Seg} {e : Seg} (hnd : list.Nodup)
    (he : list.getLast? = some e) : linkAfter e seg list = list ++ [seg] := by
  induction list with
  | nil => cases he
  | cons x rest ih =>
    cases rest with
    | nil =>
      obtain rfl : x = e := Option.some.inj he
      rw [linkAfter, if_pos rfl]
      rfl
    | cons y rest =>
      have hlast : (y :: rest).getLast? = some e := by
        exact he
      have hne : x ≠ e := by
        intro hxe
        have hmem : e ∈ y :: rest := List.mem_of_getLast? hlast
        exact (List.nodup_cons.mp hnd).1 (hxe ▸ hmem)
      rw [linkAfter, if_neg hne, ih (List.nodup_cons.mp hnd).2 hlast]
      rfl

lemma sduSegmentListAppend_eq (seg : Seg) {list : List Seg} {tail : Option Seg}
    (hnd : list.Nodup) (htail : tail = list.getLast?) :
    sduSegmentListAppend list tail seg = some (list ++ [seg], some seg) := by
  unfold sduSegmentListAppend
  split
  · next hnil => rw [hnil]; rfl
  · next hne =>
    have hlast : list.getLast? = some (list.getLast hne) := List.getLast?_eq_some_getLast hne
    rw [htail, hlast, Option.map_some, linkAfter_getLast seg hnd hlast]

end NrStack.Rlc
