/-
  Reassembly of received segments: functions that `nr_rlc_entity_am.c` and `nr_rlc_entity_um.c` share word
  for word.  A byte outside the segment's own data is `none`; `last_byte + 1` of the source is `next`.

  For `Piece`s of one SDU in the order of their offsets, `sduFull` holds exactly when every byte is covered
  (`fullFrom_iff`), and then the loop yields the SDU (`reassembleLoop_covered`).
-/
import NrStack.Rlc.Pdu
import NrStack.Rlc.Sdu

namespace NrStack.Rlc

open List

/-! ## The functions -/

/-- The test `l->sn == sn`. -/
def hasSn (sn : Nat) (l : RxPdu) : Bool := l.sn == sn

/-- The test `l->sn != sn`. -/
def lacksSn (sn : Nat) (l : RxPdu) : Bool := l.sn != sn

/-- From the first entry of `sn`, the entries that follow with the same SN. -/
def segmentsOf (list : List RxPdu) (sn : Nat) : List RxPdu :=
  (list.dropWhile (lacksSn sn)).takeWhile (hasSn sn)

/-- The loop of `sdu_full`. -/
def fullFrom : Nat → List RxPdu → Bool
  | _, [] => false
  | next, l :: rest =>
    if l.so > next then false
    else if l.isLast then true
    else fullFrom (max next (l.so + l.size)) rest

/-- `sdu_full` -/
def sduFull (list : List RxPdu) (sn : Nat) : Bool :=
  match segmentsOf list sn with
  | [] => false
  | l :: rest => if l.data = none then false else fullFrom 0 (l :: rest)

/-- `sdu_delivered` -/
def sduDelivered (list : List RxPdu) (sn : Nat) : Bool :=
  match list.find? (hasSn sn) with
  | none => false
  | some l => l.data = none

/-- The loop of `sdu_has_missing_bytes`. -/
def missingFrom : Nat → List RxPdu → Bool
  | _, [] => false
  | next, l :: rest => if l.so > next then true else missingFrom (max next (l.so + l.size)) rest

/-- `sdu_has_missing_bytes` -/
def sduHasMissingBytes (list : List RxPdu) (sn : Nat) : Bool :=
  match segmentsOf list sn with
  | [] => false
  | l :: rest => if l.data = none then false else missingFrom 0 (l :: rest)

/-- The byte at an offset of a segment's data; `none` outside. -/
def byteAt (data : Option (List UInt8)) (offset : Int) : Option UInt8 :=
  if offset < 0 then none else (data.getD [])[offset.toNat]?

/-- `memcpy(sdu + so, data + offset, len)`, as the bytes copied. -/
def copyBytes (data : Option (List UInt8)) (offset len : Int) : List (Option UInt8) :=
  (List.range len.toNat).map fun (i : Nat) => byteAt data (offset + i)

/-- The copying loop of `reassemble_and_deliver`; `so` is the number of bytes in `sdu`, and the
second component is `bad_sdu`. -/
def reassembleLoop : List (Option UInt8) → Bool → List RxPdu → List (Option UInt8) × Bool
  | sdu, badSdu, [] => (sdu, badSdu)
  | sdu, badSdu, pdu :: rest =>
    let so : Int := sdu.length
    let len : Int := pdu.size - (so - pdu.so)
    let badSdu := badSdu || decide (so + len > nrSduMax)
    if badSdu = false ∧ len > 0 then
      reassembleLoop (sdu ++ copyBytes pdu.data (so - pdu.so) len) badSdu rest
    else reassembleLoop sdu badSdu rest

/-- `reassemble_and_deliver`: the buffer handed to `deliver_sdu`, `none` for a bad SDU. -/
def reassemble (list : List RxPdu) (sn : Nat) : Option (List (Option UInt8)) :=
  match reassembleLoop [] false (segmentsOf list sn) with
  | (sdu, false) => some sdu
  | (_, true) => none

/-- The list after `reassemble_and_deliver`: `free` is what it does to each entry of `sn`. -/
def freeSegments (free : RxPdu → RxPdu) (list : List RxPdu) (sn : Nat) : List RxPdu :=
  list.takeWhile (lacksSn sn) ++ (segmentsOf list sn).map free ++
    (list.dropWhile (lacksSn sn)).dropWhile (hasSn sn)

/-- What `reassemble_and_deliver` takes from `rx_size`. -/
def segmentsSize (list : List RxPdu) (sn : Nat) : Nat := ((segmentsOf list sn).map (·.size)).sum

/-- The loop `while (sdu_delivered(entity, sn)) sn = (sn + 1) % sn_modulus`.  It is left after at
most one step for each entry of the list, or never: `none`. -/
def skipDelivered (list : List RxPdu) (snModulus : Nat) : Nat → Nat → Option Nat
  | 0, _ => none
  | fuel + 1, sn =>
    if sduDelivered list sn then skipDelivered list snModulus fuel ((sn + 1) % snModulus)
    else some sn

lemma pduListAdd_perm (snCompare : Nat → Nat → Int) (list : List RxPdu) (pdu : RxPdu) :
    (pduListAdd snCompare list pdu).Perm (pdu :: list) := by
  induction list with
  | nil => exact .refl _
  | cons cur rest ih =>
    rw [pduListAdd]
    split
    · exact .refl _
    · exact (ih.cons cur).trans (.swap pdu cur rest)

/-! ## Walking a list whose entries of one SN stand together -/

section Walk

variable {pre run list : List RxPdu} {sn : Nat} {l : RxPdu}

lemma hasSn_iff : hasSn sn l = true ↔ l.sn = sn := beq_iff_eq

lemma lacksSn_iff : lacksSn sn l = true ↔ l.sn ≠ sn := bne_iff_ne

section

variable (hpre : ∀ l ∈ pre, l.sn ≠ sn) (hrun : ∀ l ∈ run, l.sn = sn)
include hpre hrun

lemma dropWhile_lacksSn :
    (pre ++ run).dropWhile (lacksSn sn) = run ∧ (pre ++ run).takeWhile (lacksSn sn) = pre := by
  have hp : ∀ l ∈ pre, lacksSn sn l = true := fun l hl => lacksSn_iff.mpr (hpre l hl)
  rw [dropWhile_append_of_pos hp, takeWhile_append_of_pos hp]
  cases run with
  | nil => exact ⟨rfl, append_nil pre⟩
  | cons l rest =>
    have hl : ¬ lacksSn sn l = true := fun h => lacksSn_iff.mp h (hrun l mem_cons_self)
    rw [dropWhile_cons_of_neg hl, takeWhile_cons_of_neg hl, append_nil]
    exact ⟨rfl, rfl⟩

lemma segmentsOf_append :
    segmentsOf (pre ++ run) sn = run := by
  rw [segmentsOf, (dropWhile_lacksSn hpre hrun).1]
  exact takeWhile_eq_self_iff.mpr fun l hl => hasSn_iff.mpr (hrun l hl)

end

lemma freeSegments_append (free : RxPdu → RxPdu) (hpre : ∀ l ∈ pre, l.sn ≠ sn)
    (hrun : ∀ l ∈ run, l.sn = sn) : freeSegments free (pre ++ run) sn = pre ++ run.map free := by
  obtain ⟨hdrop, htake⟩ := dropWhile_lacksSn hpre hrun
  have hnil : run.dropWhile (hasSn sn) = [] :=
    dropWhile_eq_nil_iff.mpr fun l hl => hasSn_iff.mpr (hrun l hl)
  rw [freeSegments, segmentsOf_append hpre hrun, hdrop, htake, hnil, append_nil]

lemma find_hasSn_none (h : ∀ l ∈ list, l.sn ≠ sn) : list.find? (hasSn sn) = none := by
  rw [find?_eq_none]
  intro l hl hd
  exact h l hl (hasSn_iff.mp hd)

lemma sduDelivered_of_absent (h : ∀ l ∈ list, l.sn ≠ sn) : sduDelivered list sn = false := by
  rw [sduDelivered, find_hasSn_none h]

lemma sduDelivered_append {rest : List RxPdu} (hpre : ∀ l ∈ pre, l.sn ≠ sn) (hl : l.sn = sn) :
    sduDelivered (pre ++ l :: rest) sn = decide (l.data = none) := by
  rw [sduDelivered, find?_append, find_hasSn_none hpre, Option.none_or,
    find?_cons_of_pos (hasSn_iff.mpr hl)]

lemma pduListAdd_last {snCompare : Nat → Nat → Int} {pdu : RxPdu}
    (h : ∀ l ∈ list, snCompare l.sn pdu.sn ≤ 0 ∧ (l.sn = pdu.sn → l.so ≤ pdu.so)) :
    pduListAdd snCompare list pdu = list ++ [pdu] := by
  induction list with
  | nil => rfl
  | cons cur rest ih =>
    obtain ⟨hcmp, hso⟩ := h cur mem_cons_self
    rw [pduListAdd, if_neg, ih fun l hl => h l (mem_cons_of_mem _ hl)]
    · rfl
    · rintro (hgt | ⟨heq, hgt⟩)
      · omega
      · have := hso heq
        omega

lemma not_of_mem_dropWhile {α : Type} {r : α → α → Prop} {p : α → Bool} {list : List α}
    (hsort : list.Pairwise r) (hclosed : ∀ x ∈ list, ∀ y ∈ list, r x y → p y = true → p x = true) :
    ∀ x ∈ list.dropWhile p, p x = false := by
  induction list with
  | nil => exact nofun
  | cons a rest ih =>
    by_cases ha : p a = true
    · rw [dropWhile_cons_of_pos ha]
      exact ih hsort.of_cons fun x hx y hy =>
        hclosed x (mem_cons_of_mem _ hx) y (mem_cons_of_mem _ hy)
    · rw [dropWhile_cons_of_neg ha]
      intro x hx
      by_contra hpx
      rcases mem_cons.mp hx with rfl | hx
      · exact hpx (Bool.not_eq_true _ ▸ ha)
      · exact ha (hclosed a mem_cons_self x (mem_cons_of_mem _ hx)
          (rel_of_pairwise_cons hsort hx) (Bool.not_eq_false _ ▸ hpx))

end Walk

/-! ## Segments of one SDU -/

/-- An entry that is a piece of the SDU `D`, not delivered yet. -/
structure Piece (D : List UInt8) (l : RxPdu) : Prop where
  data : l.data = some ((D.drop l.so).take l.size)
  pos : 0 < l.size
  within : l.so + l.size ≤ D.length
  last : l.isLast = true ↔ l.so + l.size = D.length

/-- Byte `b` is in a segment of the list. -/
def Covered (b : Nat) (list : List RxPdu) : Prop := ∃ l ∈ list, l.so ≤ b ∧ b < l.so + l.size

variable {l : RxPdu} {D : List UInt8} {list : List RxPdu} {next : Nat}

lemma covered_cons {b : Nat} {rest : List RxPdu} :
    Covered b (l :: rest) ↔ (l.so ≤ b ∧ b < l.so + l.size) ∨ Covered b rest := by
  constructor
  · rintro ⟨x, hx, hb⟩
    rcases mem_cons.mp hx with rfl | hx
    · exact .inl hb
    · exact .inr ⟨x, hx, hb⟩
  · rintro (hb | ⟨x, hx, hb⟩)
    · exact ⟨l, mem_cons_self, hb⟩
    · exact ⟨x, mem_cons_of_mem _ hx, hb⟩

lemma not_covered_of_lt {b : Nat} {rest : List RxPdu}
    (hsort : (l :: rest).Pairwise fun x y => x.so ≤ y.so) (h : b < l.so) :
    ¬ Covered b (l :: rest) := by
  rintro ⟨x, hx, hle, -⟩
  rcases mem_cons.mp hx with rfl | hx
  · omega
  · have := rel_of_pairwise_cons hsort hx
    omega

/-- The walk says full iff every byte is covered. -/
theorem fullFrom_iff (hp : ∀ l ∈ list, Piece D l) (hsort : list.Pairwise fun x y => x.so ≤ y.so)
    (hnext : next < D.length) :
    fullFrom next list = true ↔ ∀ b, next ≤ b → b < D.length → Covered b list := by
  induction list generalizing next with
  | nil =>
    constructor
    · intro h
      cases h
    · intro h
      obtain ⟨l, hl, -⟩ := h next (le_refl _) hnext
      cases hl
  | cons l rest ih =>
    have hl := hp l mem_cons_self
    unfold fullFrom
    split
    · next hgap =>
      -- a hole in front of the first entry is never filled
      constructor
      · intro h
        cases h
      · intro h
        exact absurd (h next (le_refl _) hnext) (not_covered_of_lt hsort hgap)
    · next hgap =>
      split
      · next hlast =>
        have hend := hl.last.mp hlast
        refine ⟨fun _ b hb hlt => covered_cons.mpr (.inl ⟨by omega, by omega⟩), fun _ => rfl⟩
      · next hlast =>
        have hend : l.so + l.size ≠ D.length := fun h => hlast (hl.last.mpr h)
        have hwithin := hl.within
        rw [ih (fun x hx => hp x (mem_cons_of_mem _ hx)) hsort.of_cons (by omega)]
        constructor
        · intro h b hb hlt
          rcases lt_or_ge b (max next (l.so + l.size)) with hlow | hhigh
          · exact covered_cons.mpr (.inl ⟨by omega, by omega⟩)
          · exact covered_cons.mpr (.inr (h b hhigh hlt))
        · intro h b hb hlt
          rcases covered_cons.mp (h b (by omega) hlt) with hin | hin
          · omega
          · exact hin

lemma copyBytes_piece {k : Nat} (hl : Piece D l) (hk : l.so ≤ k) (hlen : k < l.so + l.size) :
    copyBytes l.data ((k : Int) - l.so) ((l.size : Int) - ((k : Int) - l.so)) =
      ((D.drop k).take (l.so + l.size - k)).map some := by
  have hwithin := hl.within
  apply ext_getElem
  · simp only [copyBytes, length_map, length_range, length_take, length_drop]
    omega
  · intro i h₁ h₂
    simp only [copyBytes, length_map, length_range] at h₁
    simp only [copyBytes, getElem_map, getElem_range, byteAt, hl.data, Option.getD_some]
    rw [if_neg (by omega), show ((k : Int) - l.so + i).toNat = k - l.so + i by omega,
      getElem?_take_of_lt (by omega), getElem?_drop,
      show l.so + (k - l.so + i) = k + i by omega, getElem?_eq_getElem (by omega)]
    rw [getElem_take, getElem_drop]

theorem reassembleLoop_covered (hmax : D.length ≤ nrSduMax) (hp : ∀ l ∈ list, Piece D l)
    (hsort : list.Pairwise fun x y => x.so ≤ y.so) (hnext : next ≤ D.length)
    (hcov : ∀ b, next ≤ b → b < D.length → Covered b list) :
    reassembleLoop ((D.take next).map some) false list = (D.map some, false) := by
  induction list generalizing next with
  | nil =>
    have hall : next = D.length := by
      by_contra hne
      obtain ⟨l, hl, -⟩ := hcov next (le_refl _) (by omega)
      cases hl
    rw [hall, take_length]
    rfl
  | cons l rest ih =>
    have hl := hp l mem_cons_self
    have hwithin := hl.within
    have hlen : (((D.take next).map some).length : Int) = next := by
      rw [length_map, length_take, Nat.min_eq_left hnext]
    have hgood : ((next : Int) + ((l.size : Int) - ((next : Int) - l.so)) > nrSduMax) = False := by
      apply eq_false
      omega
    unfold reassembleLoop
    simp only [hlen, hgood, decide_false, Bool.or_false, true_and]
    by_cases hnew : (l.size : Int) - ((next : Int) - l.so) > 0
    · -- the entry brings new bytes, so it starts no later than where we are
      have hso : l.so ≤ next := by
        by_contra hgap
        exact not_covered_of_lt hsort (by omega) (hcov next (le_refl _) (by omega))
      rw [if_pos hnew, copyBytes_piece hl hso (by omega), ← map_append]
      have htake : D.take next ++ (D.drop next).take (l.so + l.size - next) =
          D.take (l.so + l.size) := by
        rw [← take_add, show next + (l.so + l.size - next) = l.so + l.size by omega]
      rw [htake]
      apply ih (fun x hx => hp x (mem_cons_of_mem _ hx)) hsort.of_cons hwithin
      intro b hb hlt
      rcases covered_cons.mp (hcov b (by omega) hlt) with hin | hin
      · omega
      · exact hin
    · rw [if_neg hnew]
      apply ih (fun x hx => hp x (mem_cons_of_mem _ hx)) hsort.of_cons hnext
      intro b hb hlt
      rcases covered_cons.mp (hcov b hb hlt) with hin | hin
      · omega
      · exact hin

theorem missingFrom_eq_false (hsort : list.Pairwise fun x y => x.so ≤ y.so) :
    missingFrom next list = false ↔
      ∀ l ∈ list, ∀ b, next ≤ b → b < l.so → Covered b list := by
  induction list generalizing next with
  | nil => exact ⟨nofun, fun _ => rfl⟩
  | cons l rest ih =>
    unfold missingFrom
    split
    · next hgap =>
      constructor
      · intro h
        cases h
      · intro h
        exact absurd (h l mem_cons_self next (le_refl _) hgap)
          (not_covered_of_lt hsort hgap)
    · next hgap =>
      rw [ih hsort.of_cons]
      constructor
      · intro h x hx b hb hlt
        rcases mem_cons.mp hx with rfl | hx
        · omega
        · rcases lt_or_ge b (max next (l.so + l.size)) with hlow | hhigh
          · exact covered_cons.mpr (.inl ⟨by omega, by omega⟩)
          · exact covered_cons.mpr (.inr (h x hx b hhigh hlt))
      · intro h x hx b hb hlt
        rcases covered_cons.mp (h x (mem_cons_of_mem _ hx) b (by omega) hlt) with hin | hin
        · omega
        · exact hin

end NrStack.Rlc
