/-
  The UM receiver along a lossless stream.

  A position (`Pos`) in the stream of accepted bytes is the next byte to come, byte `off` of SDU `sdu`,
  and the number `seq` of sequence numbers used up so far: only segmented SDUs use one.

  - `Hop p k pdu`: the PDU carries `k` bytes from `p` on;
  - `RxAt rx p`: the SDUs before `sdu` are delivered, in order, and the first `off` bytes of the next
    one wait in `rx_list`, behind entries of delivered SDUs that the window has not passed yet.
-/
import NrStack.Rlc.UmCodec
import Mathlib

namespace NrStack.Rlc.Um

open List

/-! ## Positions -/

/-- The next byte to come, and the number of sequence numbers used up. -/
structure Pos where
  sdu : Nat
  off : Nat
  seq : Nat

/-- The position `k` bytes further, inside one SDU `D`. -/
def Pos.advance (D : Nat → List UInt8) (p : Pos) (k : Nat) : Pos :=
  if p.off + k = (D p.sdu).length then ⟨p.sdu + 1, 0, if p.off = 0 then p.seq else p.seq + 1⟩
  else ⟨p.sdu, p.off + k, p.seq⟩

/-- The PDU carries `k` bytes from position `p` on. -/
structure Hop (cfg : Config) (D : Nat → List UInt8) (p : Pos) (k : Nat) (pdu : List UInt8) :
    Prop where
  pos : 0 < k
  within : p.off + k ≤ (D p.sdu).length
  small : (D p.sdu).length ≤ nrSduMax
  encodes : Encodes cfg.snFieldLength (decide (p.off = 0)) (decide (p.off + k = (D p.sdu).length))
    (p.seq % cfg.snModulus) p.off (((D p.sdu).drop p.off).take k) pdu

/-! ## The receiver -/

lemma Config.Legal.windowSize_ge {cfg : Config} (h : cfg.Legal) : 2 ≤ cfg.windowSize := by
  rcases h.cases with ⟨-, hW⟩ | ⟨-, hW⟩ <;> omega

lemma modulusRx_eq {cfg : Config} (hcfg : cfg.Legal) {rx : Rx} {n m : Nat}
    (hn : rx.rxNextHighest = n % cfg.snModulus) (hle : n ≤ m + cfg.windowSize)
    (hlt : m + cfg.windowSize < n + cfg.snModulus) :
    modulusRx cfg rx (m % cfg.snModulus) = (m : Int) + cfg.windowSize - n := by
  unfold modulusRx
  rw [hn]
  rcases hcfg.cases with ⟨hM, hW⟩ | ⟨hM, hW⟩
  all_goals
    rw [hM, hW] at hlt ⊢
    simp only
    split <;> rw [Int.tmod_eq_emod_of_nonneg (by omega)] <;> omega

/-- An entry that stays in `rx_list` after its SDU, of sequence number `m`, was delivered. -/
structure Stale (cfg : Config) (m : Nat) (l : RxPdu) : Prop where
  sn : l.sn = m % cfg.snModulus
  data : l.data = none
  size : l.size = 0

/-- The number behind the last one begun. -/
def Pos.highest (p : Pos) : Nat := if p.off = 0 then p.seq else p.seq + 1

/-- Everything before `p` has been received.  `old` are the stale entries with their counters,
`cur` the segments of the SDU in progress. -/
structure RxShape (cfg : Config) (D : Nat → List UInt8) (p : Pos) (old : List (Nat × RxPdu))
    (cur : List RxPdu) : Prop where
  stale : ∀ q ∈ old, Stale cfg q.1 q.2
  window : ∀ q ∈ old, p.highest ≤ q.1 + cfg.windowSize ∧ q.1 < p.seq
  sorted : old.Pairwise fun x y => x.1 ≤ y.1
  sn : ∀ l ∈ cur, l.sn = p.seq % cfg.snModulus
  piece : ∀ l ∈ cur, Piece (D p.sdu) l
  offsets : cur.Pairwise fun x y => x.so ≤ y.so
  covers : ∀ b, b < p.off ↔ Covered b cur
  total : (cur.map (·.size)).sum = p.off

/-- The receiver has got everything up to a position. -/
structure RxAt (cfg : Config) (D : Nat → List UInt8) (rx : Rx) (p : Pos) : Prop where
  delivered : rx.delivered = (List.range p.sdu).map fun h => (D h).map some
  timer : rx.tReassemblyStart = 0
  reassembly : rx.rxNextReassembly = p.seq % cfg.snModulus
  highest : rx.rxNextHighest = p.highest % cfg.snModulus
  size : rx.rxSize = p.off
  list : ∃ old cur, rx.rxList = old.map Prod.snd ++ cur ∧ RxShape cfg D p old cur

namespace RxShape

variable {cfg : Config} {D : Nat → List UInt8} {p : Pos} {old : List (Nat × RxPdu)}
  {cur : List RxPdu}

lemma cur_nil (h : RxShape cfg D p old cur) (hoff : p.off = 0) : cur = [] := by
  cases cur with
  | nil => rfl
  | cons l rest =>
    have hl := (h.piece l mem_cons_self).pos
    have := (h.covers l.so).mpr ⟨l, mem_cons_self, le_refl _, by omega⟩
    omega

lemma cur_end (h : RxShape cfg D p old cur) {l : RxPdu} (hl : l ∈ cur) :
    l.so + l.size ≤ p.off := by
  have hpos := (h.piece l hl).pos
  have := (h.covers (l.so + l.size - 1)).mpr ⟨l, hl, by omega, by omega⟩
  omega

lemma old_sn_ne (hcfg : cfg.Legal) (h : RxShape cfg D p old cur) {m : Nat} (hlow : p.seq ≤ m)
    (hhigh : m ≤ p.seq + 1) : ∀ l ∈ old.map Prod.snd, l.sn ≠ m % cfg.snModulus := by
  intro l hl heq
  obtain ⟨q, hq, rfl⟩ := mem_map.mp hl
  have hw := h.window q hq
  have hh : p.seq ≤ p.highest := by
    unfold Pos.highest
    split <;> omega
  rw [(h.stale q hq).sn] at heq
  rcases hcfg.cases with ⟨hM, hW⟩ | ⟨hM, hW⟩ <;> rw [hM] at heq <;> rw [hW] at hw <;> omega

lemma deliver (hcfg : cfg.Legal) (h : RxShape cfg D p old cur) (hoff : 0 < p.off)
    {run : List RxPdu} (hsn : ∀ l ∈ run, l.sn = p.seq % cfg.snModulus) :
    RxShape cfg D ⟨p.sdu + 1, 0, p.seq + 1⟩ (old ++ run.map fun l => (p.seq, freed l)) [] := by
  have hW := hcfg.windowSize_ge
  have hhigh : p.highest = p.seq + 1 := if_neg (by omega)
  refine ⟨?_, ?_, ?_, nofun, nofun, List.Pairwise.nil,
    ?_, rfl⟩
  · intro q hq
    rcases mem_append.mp hq with hq | hq
    · exact h.stale q hq
    · obtain ⟨l, hl, rfl⟩ := mem_map.mp hq
      exact ⟨hsn l hl, rfl, rfl⟩
  · intro q hq
    show p.seq + 1 ≤ q.1 + cfg.windowSize ∧ q.1 < p.seq + 1
    rcases mem_append.mp hq with hq | hq
    · have hw := h.window q hq
      omega
    · obtain ⟨l, hl, rfl⟩ := mem_map.mp hq
      omega
  · rw [pairwise_append]
    refine ⟨h.sorted, ?_, ?_⟩
    · rw [pairwise_map]
      exact pairwise_of_forall fun _ _ => le_refl _
    · intro x hx y hy
      obtain ⟨l, hl, rfl⟩ := mem_map.mp hy
      exact le_of_lt (h.window x hx).2
  · intro b
    constructor
    · intro hb
      exact absurd hb (Nat.not_lt_zero b)
    · rintro ⟨l, hl, -⟩
      cases hl

end RxShape

lemma timers_quiet {cfg : Config} (hcfg : cfg.Legal) (tCurrent : UInt64) {rx : Rx}
    {s h : Nat} (hstart : rx.tReassemblyStart = 0) (hr : rx.rxNextReassembly = s % cfg.snModulus)
    (hh : rx.rxNextHighest = h % cfg.snModulus) (hle : s ≤ h) (hlt : h ≤ s + 1)
    (hm : h = s + 1 → sduHasMissingBytes rx.rxList rx.rxNextReassembly = false) :
    startTReassembly cfg tCurrent (stopTReassembly cfg rx) = rx := by
  have hafter : (rx.rxNextReassembly + 1) % cfg.snModulus = (s + 1) % cfg.snModulus := by
    rw [hr, Nat.mod_add_mod]
  have hMW := hcfg.window
  have hW := hcfg.windowSize_ge
  have hcmp : snCompareRx cfg rx rx.rxNextHighest ((s + 1) % cfg.snModulus) ≤ 0 := by
    unfold snCompareRx
    rw [hh, modulusRx_eq hcfg hh (by omega) (by omega), modulusRx_eq hcfg hh (by omega) (by omega)]
    omega
  have hstay : ¬ (rx.tReassemblyStart = 0 ∧
      (snCompareRx cfg rx rx.rxNextHighest ((s + 1) % cfg.snModulus) > 0 ∨
        (rx.rxNextHighest = (s + 1) % cfg.snModulus ∧
          sduHasMissingBytes rx.rxList rx.rxNextReassembly = true))) := by
    rintro ⟨-, hgt | ⟨heq, hmiss⟩⟩
    · omega
    · -- the highest number is one ahead only with a segment in progress, and it has no hole
      rcases lt_or_ge s h with hsh | hsh
      · rw [hm (by omega)] at hmiss
        exact Bool.false_ne_true hmiss
      · have hhs : h = s := by omega
        rw [hh, hhs] at heq
        rcases hcfg.cases with ⟨hM, -⟩ | ⟨hM, -⟩ <;> rw [hM] at heq <;> omega
  have hstop : stopTReassembly cfg rx = rx := if_neg fun hc => hc.1 hstart
  rw [hstop, startTReassembly, hafter]
  exact if_neg hstay

section Segment

variable {cfg : Config} {D : Nat → List UInt8} {rx : Rx} {p : Pos} {k : Nat}
  {old : List (Nat × RxPdu)} {cur : List RxPdu}

/-- The entry a hop puts into `rx_list`. -/
def Pos.entry (cfg : Config) (D : Nat → List UInt8) (p : Pos) (k : Nat) : RxPdu :=
  newPdu (p.seq % cfg.snModulus) p.off (decide (p.off = 0))
    (decide (p.off + k = (D p.sdu).length)) (((D p.sdu).drop p.off).take k)

lemma length_slice (hwithin : p.off + k ≤ (D p.sdu).length) :
    (((D p.sdu).drop p.off).take k).length = k := by
  rw [length_take, length_drop]
  omega

lemma entry_size (hwithin : p.off + k ≤ (D p.sdu).length) : (p.entry cfg D k).size = k :=
  length_slice hwithin

lemma entry_piece (hpos : 0 < k) (hwithin : p.off + k ≤ (D p.sdu).length) :
    Piece (D p.sdu) (p.entry cfg D k) := by
  have hsize : (p.entry cfg D k).size = k := entry_size hwithin
  refine ⟨?_, by omega, ?_, ?_⟩
  · rw [hsize]
    rfl
  · rw [hsize]
    exact hwithin
  · rw [hsize]
    exact decide_eq_true_iff

lemma RxShape.append_entry (h : RxShape cfg D p old cur) (hpos : 0 < k)
    (hwithin : p.off + k ≤ (D p.sdu).length) :
    (∀ x ∈ cur ++ [p.entry cfg D k], x.sn = p.seq % cfg.snModulus) ∧
      (∀ x ∈ cur ++ [p.entry cfg D k], Piece (D p.sdu) x) ∧
      (cur ++ [p.entry cfg D k]).Pairwise (fun x y => x.so ≤ y.so) ∧
      (∀ b, b < p.off + k ↔ Covered b (cur ++ [p.entry cfg D k])) ∧
      ((cur ++ [p.entry cfg D k]).map (·.size)).sum = p.off + k := by
  have hsize : (p.entry cfg D k).size = k := entry_size hwithin
  have hso : (p.entry cfg D k).so = p.off := rfl
  refine ⟨?_, ?_, ?_, ?_, ?_⟩
  · exact forall_mem_append.mpr ⟨h.sn, forall_mem_singleton.mpr rfl⟩
  · exact forall_mem_append.mpr ⟨h.piece, forall_mem_singleton.mpr (entry_piece hpos hwithin)⟩
  · rw [pairwise_append]
    refine ⟨h.offsets, pairwise_singleton _ _, ?_⟩
    intro x hx y hy
    rw [mem_singleton.mp hy]
    have := h.cur_end hx
    omega
  · intro b
    constructor
    · intro hb
      rcases lt_or_ge b p.off with hlow | hhigh
      · obtain ⟨x, hx, hin⟩ := (h.covers b).mp hlow
        exact ⟨x, mem_append_left _ hx, hin⟩
      · exact ⟨_, mem_append_right _ mem_cons_self, by omega, by omega⟩
    · rintro ⟨x, hx, hle, hlt⟩
      rcases mem_append.mp hx with hx | hx
      · have := h.cur_end hx
        omega
      · rw [mem_singleton.mp hx] at hlt
        omega
  · rw [map_append, sum_append, h.total]
    exact congrArg (p.off + ·) hsize

lemma pduListAdd_entry (hcfg : cfg.Legal) (hrx : rx.rxNextHighest = p.highest % cfg.snModulus)
    (hlist : rx.rxList = old.map Prod.snd ++ cur) (h : RxShape cfg D p old cur) :
    pduListAdd (snCompareRx cfg rx) rx.rxList (p.entry cfg D k) =
      old.map Prod.snd ++ (cur ++ [p.entry cfg D k]) := by
  have hMW := hcfg.window
  have hh : p.seq ≤ p.highest ∧ p.highest ≤ p.seq + 1 := by
    unfold Pos.highest
    split <;> omega
  have hsn : (p.entry cfg D k).sn = p.seq % cfg.snModulus := rfl
  rw [hlist, pduListAdd_last, append_assoc]
  intro l hl
  rcases mem_append.mp hl with hl' | hl'
  · refine ⟨?_, fun heq => absurd heq ?_⟩
    · obtain ⟨q, hq, rfl⟩ := mem_map.mp hl'
      have hw := h.window q hq
      rw [hsn, (h.stale q hq).sn, snCompareRx, modulusRx_eq hcfg hrx hw.1 (by omega),
        modulusRx_eq hcfg hrx (by omega) (by omega)]
      omega
    · exact h.old_sn_ne hcfg (le_refl _) (by omega) l hl'
  · refine ⟨?_, fun _ => ?_⟩
    · rw [hsn, h.sn l hl', snCompareRx]
      omega
    · have := h.cur_end hl'
      show l.so ≤ p.off
      omega

lemma sduFull_entry (hcfg : cfg.Legal) (h : RxShape cfg D p old cur) (hpos : 0 < k)
    (hwithin : p.off + k ≤ (D p.sdu).length) :
    sduFull (old.map Prod.snd ++ (cur ++ [p.entry cfg D k])) (p.seq % cfg.snModulus) = true ↔
      p.off + k = (D p.sdu).length := by
  obtain ⟨hsn, hpiece, hsort, hcov, -⟩ := h.append_entry hpos hwithin
  have hseg := segmentsOf_append (h.old_sn_ne hcfg (le_refl p.seq) (by omega)) hsn
  obtain ⟨l, rest, hcons⟩ := exists_cons_of_ne_nil
    (append_ne_nil_of_right_ne_nil cur (cons_ne_nil (p.entry cfg D k) []))
  have hdata : ¬ l.data = none := by
    rw [(hpiece l (by rw [hcons]; exact mem_cons_self)).data]
    exact Option.some_ne_none _
  have hfull : sduFull (old.map Prod.snd ++ (cur ++ [p.entry cfg D k])) (p.seq % cfg.snModulus) =
      fullFrom 0 (cur ++ [p.entry cfg D k]) := by
    rw [sduFull, hseg, hcons]
    exact if_neg hdata
  rw [hfull, fullFrom_iff hpiece hsort (by omega)]
  constructor
  · intro hall
    by_contra hne
    have := (hcov (p.off + k)).mpr (hall _ (Nat.zero_le _) (by omega))
    omega
  · intro heq b _ hb
    exact (hcov b).mp (by omega)

lemma sduHasMissingBytes_false {pre run : List RxPdu} {sn n : Nat} (hpre : ∀ l ∈ pre, l.sn ≠ sn)
    (hrun : ∀ l ∈ run, l.sn = sn) (hsort : run.Pairwise fun x y => x.so ≤ y.so)
    (hpiece : ∀ l ∈ run, Piece (D p.sdu) l) (hcov : ∀ b, b < n ↔ Covered b run) :
    sduHasMissingBytes (pre ++ run) sn = false := by
  rw [sduHasMissingBytes, segmentsOf_append hpre hrun]
  cases run with
  | nil => rfl
  | cons l rest =>
    show (if l.data = none then false else missingFrom 0 (l :: rest)) = false
    split
    · rfl
    · rw [missingFrom_eq_false hsort]
      intro x hx b _ hb
      have hpos := (hpiece x hx).pos
      have hin := (hcov x.so).mpr ⟨x, hx, le_refl _, by omega⟩
      exact (hcov b).mp (by omega)

lemma snCompareRx_highest (hcfg : cfg.Legal) {n m : Nat}
    (hn : rx.rxNextHighest = n % cfg.snModulus) (hle : n ≤ m + cfg.windowSize)
    (hlt : m + cfg.windowSize < n + cfg.snModulus) :
    snCompareRx cfg rx (m % cfg.snModulus) rx.rxNextHighest = (m : Int) - n := by
  have hMW := hcfg.window
  unfold snCompareRx
  rw [modulusRx_eq hcfg hn hle hlt]
  conv_lhs => rw [hn]
  rw [modulusRx_eq hcfg hn (by omega) (by omega)]
  omega

lemma discardOutside_first (hcfg : cfg.Legal) {l : RxPdu} (hoff : p.off = 0)
    (hn : rx.rxNextHighest = (p.seq + 1) % cfg.snModulus)
    (hlist : rx.rxList = old.map Prod.snd ++ [l]) (hl : l.sn = p.seq % cfg.snModulus)
    (h : RxShape cfg D p old []) :
    ∃ old' : List (Nat × RxPdu), discardOutside cfg rx = { rx with rxList := old'.map Prod.snd ++ [l] } ∧
      old'.Sublist old ∧ ∀ q ∈ old', p.seq + 1 ≤ q.1 + cfg.windowSize := by
  have hMW := hcfg.window
  have hW := hcfg.windowSize_ge
  have hhigh : p.highest = p.seq := if_pos hoff
  have hkeep : outside cfg rx l = false := by
    rw [outside, hl, snCompareRx_highest hcfg hn (by omega) (by omega), decide_eq_false_iff_not]
    omega
  obtain ⟨out, hout⟩ : ∃ out : Nat × RxPdu → Bool, out = outside cfg rx ∘ Prod.snd := ⟨_, rfl⟩
  -- an entry is outside exactly when the window has passed it
  have hold : ∀ q ∈ old, out q = true ↔ q.1 + cfg.windowSize = p.seq := by
    intro q hq
    have hw := h.window q hq
    rw [hout, Function.comp_apply, outside, (h.stale q hq).sn, decide_eq_true_eq]
    rcases lt_or_ge p.seq (q.1 + cfg.windowSize) with hin | hout
    · rw [snCompareRx_highest hcfg hn (by omega) (by omega)]
      omega
    · rw [← Nat.add_mod_right, snCompareRx_highest hcfg hn (by omega) (by omega)]
      omega
  have hdrop : rx.rxList.dropWhile (outside cfg rx) = (old.dropWhile out).map Prod.snd ++ [l] := by
    rw [hlist, dropWhile_append, dropWhile_cons_of_neg (by rw [hkeep]; decide),
      dropWhile_map, ← hout]
    split
    · next hempty =>
      rw [List.isEmpty_iff] at hempty
      rw [hempty]
      rfl
    · rfl
  have hzero : ((rx.rxList.takeWhile (outside cfg rx)).map (·.size)).sum = 0 := by
    rw [List.sum_eq_zero_iff_forall_eq_nat]
    intro n hn
    obtain ⟨x, hx, rfl⟩ := mem_map.mp hn
    have hxo := mem_takeWhile_imp hx
    have hxl := (takeWhile_sublist _).subset hx
    rw [hlist] at hxl
    rcases mem_append.mp hxl with hxl | hxl
    · obtain ⟨q, hq, rfl⟩ := mem_map.mp hxl
      exact (h.stale q hq).size
    · rw [mem_singleton.mp hxl, hkeep] at hxo
      exact absurd hxo Bool.false_ne_true
  refine ⟨old.dropWhile out, ?_, dropWhile_sublist _, ?_⟩
  · rw [discardOutside, hdrop, hzero]
    show ({ rx with rxList := _, rxSize := rx.rxSize - 0 } : Rx) = _
    rw [Int.sub_zero]
  · intro q hq
    have hmem := (dropWhile_sublist _).subset hq
    have hclosed : ∀ x ∈ old, ∀ y ∈ old, x.1 ≤ y.1 → out y = true → out x = true := by
      intro x hx y hy hle hy'
      have hw := h.window x hx
      rw [hold x hx]
      rw [hold y hy] at hy'
      omega
    have hin := not_of_mem_dropWhile h.sorted hclosed q hq
    have hw := h.window q hmem
    by_contra hlow
    exact absurd ((hold q hmem).mpr (by omega)) (Bool.eq_false_iff.mp hin)

/-- The receiver with the new segment in its list, before `reception_actions`. -/
def Rx.stored (rx : Rx) (k : Nat) (list : List RxPdu) : Rx :=
  { rx with rxSize := rx.rxSize + k, rxList := list }

lemma highest_inside (hpos : 0 < p.off) : p.highest = p.seq + 1 := if_neg (by omega)

lemma rxAt_inside (hcfg : cfg.Legal) {q : Pos} (hpos : 0 < q.off)
    (hdel : rx.delivered = (List.range q.sdu).map fun h => (D h).map some)
    (htimer : rx.tReassemblyStart = 0) (hreas : rx.rxNextReassembly = q.seq % cfg.snModulus)
    (hhigh : rx.rxNextHighest = (q.seq + 1) % cfg.snModulus) (hsize : rx.rxSize = q.off)
    (hlist : rx.rxList = old.map Prod.snd ++ cur) (h : RxShape cfg D q old cur)
    (tCurrent : UInt64) :
    startTReassembly cfg tCurrent (stopTReassembly cfg rx) = rx ∧ RxAt cfg D rx q := by
  constructor
  · refine timers_quiet hcfg tCurrent htimer hreas hhigh (by omega) (le_refl _) ?_
    intro _
    rw [hlist, hreas]
    exact sduHasMissingBytes_false (h.old_sn_ne hcfg (le_refl _) (by omega)) h.sn h.offsets
      h.piece h.covers
  · exact ⟨hdel, htimer, hreas, by rw [highest_inside hpos]; exact hhigh, hsize, old, cur, hlist, h⟩

variable {tCurrent : UInt64} {rx₁ rx' : Rx} {x : Nat}

lemma receptionActions_partial
    (hfull : ¬ sduFull rx₁.rxList x = true) (hpart : receptionPartial cfg rx₁ x = some rx')
    (htimer : startTReassembly cfg tCurrent (stopTReassembly cfg rx') = rx') :
    receptionActions cfg tCurrent rx₁ x = some rx' := by
  rw [receptionActions, if_neg hfull, hpart, Option.map_some, htimer]

lemma receptionActions_full
    (hfull : sduFull rx₁.rxList x = true) (hstep : receptionFull cfg rx₁ x = some rx')
    (htimer : startTReassembly cfg tCurrent (stopTReassembly cfg rx') = rx') :
    receptionActions cfg tCurrent rx₁ x = some rx' := by
  rw [receptionActions, if_pos hfull, hstep, Option.map_some, htimer]

lemma receptionPartial_more (hcfg : cfg.Legal) (hrx : RxAt cfg D rx p) (h : RxShape cfg D p old cur) :
    ∃ old' : List (Nat × RxPdu), receptionPartial cfg (rx.stored k (old.map Prod.snd ++ (cur ++ [p.entry cfg D k])))
        (p.seq % cfg.snModulus) =
          some { rx.stored k (old'.map Prod.snd ++ (cur ++ [p.entry cfg D k])) with
            rxNextHighest := (p.seq + 1) % cfg.snModulus } ∧
      old'.Sublist old ∧ ∀ q ∈ old', p.seq + 1 ≤ q.1 + cfg.windowSize := by
  have hMW := hcfg.window
  have hW := hcfg.windowSize_ge
  rcases Nat.eq_zero_or_pos p.off with hoff | hoff
  · have hcur := h.cur_nil hoff
    subst hcur
    have hhigh : rx.rxNextHighest = p.seq % cfg.snModulus := by
      rw [hrx.highest, Pos.highest, if_pos hoff]
    have hmoved : ({ rx.stored k (old.map Prod.snd ++ ([] ++ [p.entry cfg D k])) with
      rxNextHighest := (p.seq + 1) % cfg.snModulus } : Rx).rxNextHighest = (p.seq + 1) % cfg.snModulus := rfl
    obtain ⟨old', hdisc, hsub, hwin⟩ := discardOutside_first hcfg hoff hmoved rfl rfl h
    refine ⟨old', ?_, hsub, hwin⟩
    rw [receptionPartial, if_pos, Nat.mod_add_mod, hdisc, pullReassembly, if_neg]
    · rfl
    · show ¬ snCompareRx cfg _ rx.rxNextReassembly _ ≥ 0
      rw [hrx.reassembly, snCompareRx_highest hcfg rfl (by omega) (by omega)]
      omega
    · show snCompareRx cfg _ (p.seq % cfg.snModulus) rx.rxNextHighest ≥ 0
      rw [hhigh, snCompareRx]
      omega
  · have hhigh : rx.rxNextHighest = (p.seq + 1) % cfg.snModulus := by
      rw [hrx.highest, highest_inside hoff]
    refine ⟨old, ?_, Sublist.refl old, fun q hq => highest_inside hoff ▸ (h.window q hq).1⟩
    rw [receptionPartial, if_neg, ← hhigh]
    · rfl
    · have hcmp := @snCompareRx_highest cfg
        (rx.stored k (old.map Prod.snd ++ (cur ++ [p.entry cfg D k])))
      rw [hcmp hcfg hhigh (by omega) (by omega)]
      omega

lemma receptionActions_more (hcfg : cfg.Legal) (tCurrent : UInt64) (hpos : 0 < k)
    (hmore : p.off + k < (D p.sdu).length) (hrx : RxAt cfg D rx p) (h : RxShape cfg D p old cur) :
    ∃ rx', receptionActions cfg tCurrent
        (rx.stored k (old.map Prod.snd ++ (cur ++ [p.entry cfg D k]))) (p.seq % cfg.snModulus) =
          some rx' ∧ RxAt cfg D rx' ⟨p.sdu, p.off + k, p.seq⟩ := by
  have hwithin : p.off + k ≤ (D p.sdu).length := by omega
  have hnotfull := (sduFull_entry hcfg h hpos hwithin).not.mpr (by omega)
  have hinside : 0 < (⟨p.sdu, p.off + k, p.seq⟩ : Pos).off := by show 0 < p.off + k; omega
  obtain ⟨old', hpart, hsub, hwin⟩ := receptionPartial_more (k := k) hcfg hrx h
  obtain ⟨hsn, hpiece, hsort, hcov, htotal⟩ := h.append_entry hpos hwithin
  have hshape : RxShape cfg D ⟨p.sdu, p.off + k, p.seq⟩ old' (cur ++ [p.entry cfg D k]) := by
    refine ⟨fun q hq => h.stale q (hsub.subset hq), fun q hq => ?_, h.sorted.sublist hsub, hsn, hpiece,
      hsort, hcov, htotal⟩
    rw [highest_inside hinside]
    exact ⟨hwin q hq, (h.window q (hsub.subset hq)).2⟩
  have hsize : rx.rxSize + (k : Int) = ((p.off + k : Nat) : Int) := by
    rw [hrx.size, Int.natCast_add]
  have hfin := @rxAt_inside cfg D { rx.stored k (old'.map Prod.snd ++ (cur ++ [p.entry cfg D k])) with
      rxNextHighest := (p.seq + 1) % cfg.snModulus }
    _ _ hcfg _ hinside hrx.delivered hrx.timer hrx.reassembly rfl hsize rfl hshape tCurrent
  exact ⟨_, receptionActions_partial hnotfull hpart hfin.1, hfin.2⟩

lemma receptionActions_last (hcfg : cfg.Legal) (tCurrent : UInt64) (hoff : 0 < p.off)
    (hpos : 0 < k) (hlast : p.off + k = (D p.sdu).length) (hmax : (D p.sdu).length ≤ nrSduMax)
    (hrx : RxAt cfg D rx p) (h : RxShape cfg D p old cur) :
    ∃ rx', receptionActions cfg tCurrent
        (rx.stored k (old.map Prod.snd ++ (cur ++ [p.entry cfg D k]))) (p.seq % cfg.snModulus) =
          some rx' ∧ RxAt cfg D rx' ⟨p.sdu + 1, 0, p.seq + 1⟩ := by
  have hwithin : p.off + k ≤ (D p.sdu).length := by omega
  have hfull := (sduFull_entry hcfg h hpos hwithin).mpr hlast
  have hhigh : rx.rxNextHighest = (p.seq + 1) % cfg.snModulus := by
    rw [hrx.highest, highest_inside hoff]
  obtain ⟨hsn, hpiece, hsort, hcov, htotal⟩ := h.append_entry hpos hwithin
  have hold := h.old_sn_ne hcfg (le_refl p.seq) (by omega)
  have hold' := h.old_sn_ne hcfg (Nat.le_succ p.seq) (le_refl _)
  obtain ⟨run, hrun⟩ : ∃ run, cur ++ [p.entry cfg D k] = run := ⟨_, rfl⟩
  have hne : run ≠ [] := by
    rw [← hrun]
    exact append_ne_nil_of_right_ne_nil _ (cons_ne_nil _ _)
  rw [hrun] at hsn hpiece hsort hcov htotal hfull ⊢
  have hseg := segmentsOf_append hold hsn
  -- the SDU is reassembled
  have hreas : reassemble (old.map Prod.snd ++ run) (p.seq % cfg.snModulus) =
      some ((D p.sdu).map some) := by
    have hloop := reassembleLoop_covered hmax hpiece hsort (Nat.zero_le (D p.sdu).length)
      (fun b _ hb => (hcov b).mp (by omega))
    rw [take_zero, map_nil] at hloop
    rw [reassemble, hseg, hloop]
  have hnext : (p.seq % cfg.snModulus + 1) % cfg.snModulus = (p.seq + 1) % cfg.snModulus :=
    Nat.mod_add_mod _ _ _
  -- its SN is delivered, the next is not
  have hdel : sduDelivered (old.map Prod.snd ++ run.map freed) (p.seq % cfg.snModulus) = true := by
    obtain ⟨l, rest, hcons⟩ := exists_cons_of_ne_nil hne
    rw [hcons, map_cons, sduDelivered_append hold
      (show (freed l).sn = _ from hsn l (by rw [hcons]; exact mem_cons_self))]
    rfl
  have hdel' : sduDelivered (old.map Prod.snd ++ run.map freed) ((p.seq + 1) % cfg.snModulus) = false := by
    apply sduDelivered_of_absent
    intro l hl
    rcases mem_append.mp hl with hl | hl
    · exact hold' l hl
    · obtain ⟨x, hx, rfl⟩ := mem_map.mp hl
      show x.sn ≠ _
      rw [hsn x hx]
      rcases hcfg.cases with ⟨hM, -⟩ | ⟨hM, -⟩ <;> rw [hM] <;> omega
  have hstep : receptionFull cfg (rx.stored k (old.map Prod.snd ++ run)) (p.seq % cfg.snModulus) =
      some { reassembleAndDeliver (rx.stored k (old.map Prod.snd ++ run)) (p.seq % cfg.snModulus) with
        rxNextReassembly := (p.seq + 1) % cfg.snModulus } := by
    have hlen := length_pos_iff.mpr hne
    obtain ⟨n, hn⟩ : ∃ n, (old.map Prod.snd ++ run.map freed).length + 1 = n + 2 :=
      ⟨old.length + run.length - 1, by rw [length_append, length_map, length_map]; omega⟩
    refine (if_pos hrx.reassembly.symm).trans ?_
    show (skipDelivered (freeSegments freed (old.map Prod.snd ++ run) _) _
      ((freeSegments freed (old.map Prod.snd ++ run) _).length + 1) rx.rxNextReassembly).map _ = _
    rw [freeSegments_append freed hold hsn, hn, hrx.reassembly, skipDelivered, if_pos hdel, hnext,
      skipDelivered, if_neg (by rw [hdel']; decide)]
    rfl
  have htimer := @timers_quiet cfg hcfg tCurrent { reassembleAndDeliver
    (rx.stored k (old.map Prod.snd ++ run)) (p.seq % cfg.snModulus) with
      rxNextReassembly := (p.seq + 1) % cfg.snModulus } _ _ hrx.timer rfl hhigh (le_refl _) (by omega)
    (by omega)
  refine ⟨_, receptionActions_full hfull hstep htimer, ?_, hrx.timer, rfl, hhigh, ?_,
    old ++ run.map fun l => (p.seq, freed l), [], ?_, h.deliver hcfg hoff hsn⟩
  · show rx.delivered ++ (reassemble (old.map Prod.snd ++ run) _).toList = _
    rw [hreas, hrx.delivered, range_succ, map_append]
    rfl
  · show rx.rxSize + k - (segmentsSize (old.map Prod.snd ++ run) _ : Nat) = ((0 : Nat) : Int)
    rw [segmentsSize, hseg, htotal, hrx.size]
    omega
  · show freeSegments freed (old.map Prod.snd ++ run) _ = _
    rw [freeSegments_append freed hold hsn, map_append, map_map, append_nil]
    rfl

end Segment

/-- The receiver follows a hop of the sender. -/
theorem recvPdu_hop {e : Entity} {D : Nat → List UInt8} {p : Pos} {k : Nat} {pdu : List UInt8}
    (hcfg : e.cfg.Legal) (hmax : (nrSduMax : Int) ≤ e.cfg.rxMaxsize) (hrx : RxAt e.cfg D e.rx p)
    (hop : Hop e.cfg D p k pdu) :
    ∃ rx', recvPdu e pdu = some { e with rx := rx' } ∧ RxAt e.cfg D rx' (p.advance D k) := by
  have hpos := hop.pos
  have hwithin := hop.within
  have hsmall := hop.small
  have hlen := length_slice hwithin
  have hM : 0 < e.cfg.snModulus := by
    rcases hcfg.cases with ⟨hM, -⟩ | ⟨hM, -⟩ <;> omega
  have henc := hop.encodes
  by_cases hwhole : p.off = 0 ∧ p.off + k = (D p.sdu).length
  · -- an SDU that was not segmented
    obtain ⟨hoff, hend⟩ := hwhole
    have hall : ((D p.sdu).drop p.off).take k = D p.sdu := by
      rw [hoff, drop_zero, take_of_length_le (by omega)]
    rw [decide_eq_true hoff, decide_eq_true hend, hall] at henc
    have hne : D p.sdu ≠ [] := by
      rw [← length_pos_iff]
      omega
    refine ⟨_, recvPdu_whole e hne henc, ?_⟩
    rw [Pos.advance, if_pos hend, if_pos hoff]
    obtain ⟨old, cur, hlist, h⟩ := hrx.list
    have hcur := h.cur_nil hoff
    subst hcur
    have hhigh : (⟨p.sdu + 1, 0, p.seq⟩ : Pos).highest = p.highest := by
      rw [Pos.highest, Pos.highest, if_pos hoff]
      rfl
    refine ⟨?_, hrx.timer, hrx.reassembly, by rw [hhigh]; exact hrx.highest,
      by show e.rx.rxSize = ((0 : Nat) : Int); rw [hrx.size, hoff], old, [], hlist, ?_⟩
    · show e.rx.delivered ++ _ = _
      rw [hrx.delivered, range_succ, map_append]
      rfl
    · have hcov := h.covers
      rw [hoff] at hcov
      exact ⟨h.stale, by rw [hhigh]; exact h.window, h.sorted, nofun,
        nofun, List.Pairwise.nil, hcov, rfl⟩
  · -- a segment
    have hseg : (decide (p.off = 0) && decide (p.off + k = (D p.sdu).length)) = false := by
      rw [← Bool.decide_and, decide_eq_false_iff_not]
      exact hwhole
    have hso : p.off < 2 ^ 16 := by
      have : nrSduMax < 2 ^ 16 := by decide
      omega
    rw [recvPdu_segment e hcfg hseg (by rw [← hcfg.modulus]; exact Nat.mod_lt _ hM) hso
      decide_eq_true_iff henc, recvSegment, hlen, if_neg (by omega), if_neg (by rw [hrx.size]; omega),
      if_neg (by rw [hrx.reassembly, snCompareRx]; omega)]
    obtain ⟨old, cur, hlist, h⟩ := hrx.list
    have hadd := pduListAdd_entry (k := k) hcfg hrx.highest hlist h
    have hacts : ∃ rx', receptionActions e.cfg e.tCurrent
        (e.rx.stored k (old.map Prod.snd ++ (cur ++ [p.entry e.cfg D k])))
          (p.seq % e.cfg.snModulus) = some rx' ∧ RxAt e.cfg D rx' (p.advance D k) := by
      rw [Pos.advance]
      rcases Nat.eq_or_lt_of_le hwithin with hend | hmore
      · have hoff : 0 < p.off := Nat.pos_of_ne_zero fun hz => hwhole ⟨hz, hend⟩
        rw [if_pos hend, if_neg (by omega)]
        exact receptionActions_last hcfg _ hoff hpos hend hsmall hrx h
      · rw [if_neg (by omega)]
        exact receptionActions_more hcfg _ hpos hmore hrx h
    obtain ⟨rx', hact, hat⟩ := hacts
    refine ⟨rx', ?_, hat⟩
    rw [← hadd] at hact
    show (receptionActions e.cfg e.tCurrent (e.rx.stored k (pduListAdd (snCompareRx e.cfg e.rx)
      e.rx.rxList (p.entry e.cfg D k))) (p.seq % e.cfg.snModulus)).map _ = _
    rw [hact]
    rfl

lemma setTime_quiet {e : Entity} {D : Nat → List UInt8} {p : Pos} (hrx : RxAt e.cfg D e.rx p)
    (now : UInt64) : setTime e now = some { e with tCurrent := now } := by
  have hcheck : checkTReassembly { e with tCurrent := now } = some e.rx := if_pos (.inl hrx.timer)
  rw [setTime, hcheck]
  rfl

end NrStack.Rlc.Um
