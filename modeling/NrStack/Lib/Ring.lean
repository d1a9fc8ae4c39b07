/-
  Walks around a ring of positions, and the loops that make them.

  * `Ring n skip i l j` — from position `i` of `n` the walk leads to `j`, round the end to 0, and takes the
    positions `l`, all it meets except those to be skipped.  Start and number determine it (`Ring.unique`).
  * `upTo`      — `for (; i < bound && go; i++)`: records the positions not skipped (`upTo_sweep`).
  * `whileLoop` — `while (go)`: ends when every round makes progress (`whileLoop_ends`).
-/
import Mathlib

namespace RingWalk

open List

/-! ## Walks -/

/-- A walk around a ring of `n` places that passes some of them and takes the others. -/
inductive Ring (n : Nat) (skip : Nat → Prop) : Nat → List Nat → Nat → Prop
  | stay (i : Nat) : Ring n skip i [] i
  | pass {i j : Nat} {l : List Nat} (hi : i < n) (hskip : skip i)
      (rest : Ring n skip ((i + 1) % n) l j) : Ring n skip i l j
  | take {i j : Nat} {l : List Nat} (hi : i < n) (hskip : ¬ skip i)
      (rest : Ring n skip ((i + 1) % n) l j) : Ring n skip i (i :: l) j

namespace Ring

variable {n : Nat} {skip : Nat → Prop}

variable {i j : Nat} {l : List Nat}

lemma trans {k : Nat} {l' : List Nat} (h : Ring n skip i l j) (h' : Ring n skip j l' k) :
    Ring n skip i (l ++ l') k := by
  induction h with
  | stay => exact h'
  | pass hi hskip _ ih => exact pass hi hskip (ih h')
  | take hi hskip _ ih => exact take hi hskip (ih h')

lemma mem (h : Ring n skip i l j) : ∀ x ∈ l, x < n ∧ ¬ skip x := by
  induction h with
  | stay => exact nofun
  | pass _ _ _ ih => exact ih
  | take hi hskip _ ih =>
    intro x hx
    rcases mem_cons.mp hx with rfl | hx
    · exact ⟨hi, hskip⟩
    · exact ih x hx

/-- Two walks of one length take the same indices. -/
theorem unique {j' : Nat} {l' : List Nat} (h : Ring n skip i l j) (h' : Ring n skip i l' j')
    (hlen : l.length = l'.length) : l = l' := by
  induction h generalizing l' with
  | stay => exact (length_eq_zero_iff.mp hlen.symm).symm
  | pass hi hskip rest ih =>
    cases h' with
    | stay => exact length_eq_zero_iff.mp hlen
    | pass _ _ rest' => exact ih rest' hlen
    | take _ hno _ => exact absurd hskip hno
  | take hi hskip rest ih =>
    cases h' with
    | stay => cases hlen
    | pass _ hyes _ => exact absurd hyes hskip
    | take _ _ rest' => rw [ih rest' (Nat.succ.inj hlen)]

lemma range {m : Nat} : ∀ {i : Nat}, i + m ≤ n → (∀ x, i ≤ x → x < i + m → ¬ skip x) →
    Ring n skip (i % n) (List.range' i m) ((i + m) % n) := by
  induction m with
  | zero => exact fun _ _ => stay _
  | succ m ih =>
    intro i hle hno
    have hrest := ih (i := i + 1) (by omega) fun x hx hx' => hno x (by omega) (by omega)
    rw [show i + 1 + m = i + (m + 1) by omega] at hrest
    rw [Nat.mod_eq_of_lt (by omega : i < n)]
    exact take (by omega) (hno i (le_refl i) (by omega)) hrest

lemma skips {m : Nat} : ∀ {i : Nat}, i + m ≤ n → (∀ x, i ≤ x → x < i + m → skip x) →
    Ring n skip (i % n) [] ((i + m) % n) := by
  induction m with
  | zero => exact fun _ _ => stay _
  | succ m ih =>
    intro i hle hskip
    have hrest := ih (i := i + 1) (by omega) fun x hx hx' => hskip x (by omega) (by omega)
    rw [show i + 1 + m = i + (m + 1) by omega] at hrest
    rw [Nat.mod_eq_of_lt (by omega : i < n)]
    exact pass (by omega) (hskip i (le_refl i) (by omega)) hrest

end Ring

/-! ## Loops -/

variable {σ : Type}

/-- `for (; i < i + m && go; i++) body`: where `i` stops, and the state there. -/
def upTo (go : σ → Bool) (body : Nat → σ → σ) : Nat → Nat → σ → Nat × σ
  | 0, i, s => (i, s)
  | m + 1, i, s => if go s then upTo go body m (i + 1) (body i s) else (i, s)

/-- `while (go) body`; `none` when the fuel does not suffice. -/
def whileLoop (go : σ → Bool) (body : σ → σ) : Nat → σ → Option σ
  | 0, s => if go s then none else some s
  | fuel + 1, s => if go s then whileLoop go body fuel (body s) else some s

variable {go : σ → Bool} {body : Nat → σ → σ} {s : σ} {P : σ → Prop}

lemma upTo_fst :
    ∀ {m i : Nat} {s : σ}, go (upTo go body m i s).2 = true → (upTo go body m i s).1 = i + m := by
  intro m
  induction m with
  | zero => exact fun _ => rfl
  | succ m ih =>
    intro i s hgo
    rw [upTo] at hgo ⊢
    split at hgo
    · next h =>
      rw [if_pos h, ih hgo]
      omega
    · next h => exact absurd hgo h

lemma upTo_of_not_go {m i : Nat} (hgo : go s = false) : upTo go body m i s = (i, s) := by
  cases m with
  | zero => rfl
  | succ m => rw [upTo, if_neg (Bool.eq_false_iff.mp hgo)]

lemma upTo_invariant (hbody : ∀ i s, go s = true → P s → P (body i s)) :
    ∀ {m i : Nat} {s : σ}, P s → P (upTo go body m i s).2 := by
  intro m
  induction m with
  | zero => exact fun h => h
  | succ m ih =>
    intro i s hs
    rw [upTo]
    split
    · next hgo => exact ih (hbody i s hgo hs)
    · exact hs

/-! ## Sweeps -/

/-- From `i` up to `bound`: the positions recorded become `tr'`, never more than `E`; short of `E`
everything is taken. -/
structure Sweep (n : Nat) (skip : Nat → Prop) (E i bound : Nat) (tr tr' : List Nat) : Prop where
  le : tr'.length ≤ E
  walk : ∃ l j, tr' = tr ++ l ∧ Ring n skip (i % n) l (j % n) ∧
    (tr'.length < E → j = bound ∧ ∀ x, i ≤ x → x < bound → ¬ skip x → x ∈ l)

namespace Sweep

variable {n E : Nat} {skip : Nat → Prop}

variable {i bound : Nat} {tr : List Nat}

lemma full (h : tr.length = E) : Sweep n skip E i bound tr tr :=
  ⟨h.le, [], i, (append_nil tr).symm, Ring.stay _, fun hlt => absurd h hlt.ne⟩

lemma skips (hle : tr.length ≤ E) (hib : i ≤ bound) (hbound : bound ≤ n)
    (hskip : ∀ x, i ≤ x → x < bound → skip x) : Sweep n skip E i bound tr tr := by
  have hwalk : Ring n skip (i % n) [] ((i + (bound - i)) % n) :=
    Ring.skips (by omega) fun x hx hx' => hskip x hx (by omega)
  rw [show i + (bound - i) = bound by omega] at hwalk
  exact ⟨hle, [], bound, (append_nil tr).symm, hwalk,
    fun _ => ⟨rfl, fun x hx hx' hno => absurd (hskip x hx hx') hno⟩⟩

lemma block {m : Nat} (hle : tr.length + m ≤ E) (hbound : i + m ≤ bound) (hn : bound ≤ n)
    (hno : ∀ x, i ≤ x → x < i + m → ¬ skip x) (hend : tr.length + m < E → i + m = bound) :
    Sweep n skip E i bound tr (tr ++ List.range' i m) := by
  have hlen : (tr ++ List.range' i m).length = tr.length + m := by
    rw [length_append, length_range']
  refine ⟨by omega, List.range' i m, i + m, rfl, Ring.range (by omega) hno, fun hlt => ?_⟩
  have heq := hend (by omega)
  exact ⟨heq, fun x hx hx' _ => mem_range'_1.mpr ⟨hx, by omega⟩⟩

lemma trans {b c : Nat} {tr' tr'' : List Nat} (h : Sweep n skip E i b tr tr')
    (h' : Sweep n skip E b c tr' tr'') : Sweep n skip E i c tr tr'' := by
  obtain ⟨hle, l, j, rfl, hwalk, hend⟩ := h
  obtain ⟨hle', l', j', rfl, hwalk', hend'⟩ := h'
  refine ⟨hle', ?_⟩
  rw [length_append] at hle' hend'
  by_cases hlt : (tr ++ l).length < E
  · obtain ⟨rfl, hall⟩ := hend hlt
    refine ⟨l ++ l', j', append_assoc _ _ _, hwalk.trans hwalk', fun hlt' => ?_⟩
    rw [length_append] at hlt'
    obtain ⟨rfl, hall'⟩ := hend' hlt'
    refine ⟨rfl, fun x hx hx' hno => mem_append.mpr ?_⟩
    by_cases hxb : x < j
    · exact .inl (hall x hx hxb hno)
    · exact .inr (hall' x (by omega) hx' hno)
  · -- the first sweep has taken all that is wanted
    obtain rfl : l' = [] := length_eq_zero_iff.mp (by omega)
    refine ⟨l, j, append_nil _, hwalk, fun hlt' => ?_⟩
    rw [append_nil] at hlt'
    exact absurd hlt' hlt

end Sweep

theorem upTo_sweep {n E : Nat} (skip : Nat → Prop) (trace : σ → List Nat)
    (hgo : ∀ s, P s → go s = decide ((trace s).length < E)) (hP : ∀ x s, P s → P (body x s))
    {m : Nat} :
    ∀ {i : Nat} {s : σ}, P s → (trace s).length ≤ E → i + m ≤ n →
      (∀ x s, i ≤ x → x < i + m → skip x → trace (body x s) = trace s) →
      (∀ x s, i ≤ x → x < i + m → ¬ skip x → trace (body x s) = trace s ++ [x]) →
      Sweep n skip E i (i + m) (trace s) (trace (upTo go body m i s).2) := by
  induction m with
  | zero =>
    intro i s _ hle hn _ _
    exact Sweep.skips hle (le_refl i) hn fun x hx hx' => absurd hx' (not_lt.mpr hx)
  | succ m ih =>
    intro i s hs hle hn hskip htake
    rw [upTo, hgo s hs]
    split
    · next hlt =>
      rw [decide_eq_true_eq] at hlt
      have hrest := fun hle' => ih (i := i + 1) (hP i s hs) hle' (by omega)
        (fun x s hx hx' => hskip x s (by omega) (by omega))
        (fun x s hx hx' => htake x s (by omega) (by omega))
      rw [show i + 1 + m = i + (m + 1) by omega] at hrest
      by_cases hi : skip i
      · rw [hskip i s (le_refl i) (by omega) hi] at hrest
        refine (Sweep.skips hle (Nat.le_succ i) (by omega) fun x hx hx' => ?_).trans (hrest hle)
        rwa [show x = i by omega]
      · rw [htake i s (le_refl i) (by omega) hi] at hrest
        refine Sweep.trans ?_ (hrest (by rw [length_append]; exact hlt))
        refine Sweep.block hlt (le_refl _) (by omega) (fun x hx hx' => ?_)
          fun _ => rfl
        rwa [show x = i by omega]
    · next hlt =>
      rw [decide_eq_true_eq] at hlt
      exact Sweep.full (by omega)

/-- Walks round the ring from `start`, again and again from position 0, until `E` positions are
taken. -/
structure Rounds (n : Nat) (skip : Nat → Prop) (start E : Nat) (tr : List Nat) : Prop where
  le : tr.length ≤ E
  walk : ∃ j, Ring n skip start tr j ∧ (tr.length < E → j = 0)

namespace Rounds

variable {n E start : Nat} {skip : Nat → Prop}

lemma first {tr : List Nat} (hstart : start < n) (h : Sweep n skip E start n [] tr) :
    Rounds n skip start E tr := by
  obtain ⟨hle, l, j, rfl, hwalk, hend⟩ := h
  rw [Nat.mod_eq_of_lt hstart] at hwalk
  refine ⟨hle, j % n, hwalk, fun hlt => ?_⟩
  rw [(hend hlt).1, Nat.mod_self]

lemma lap {tr tr' : List Nat} {x : Nat} (h : Rounds n skip start E tr) (hlt : tr.length < E)
    (hsweep : Sweep n skip E 0 n tr tr') (hx : x < n) (hno : ¬ skip x) :
    Rounds n skip start E tr' ∧ tr.length < tr'.length := by
  obtain ⟨-, j, hwalk, hj⟩ := h
  obtain ⟨hle', l, j', rfl, hwalk', hend⟩ := hsweep
  rw [hj hlt] at hwalk
  refine ⟨⟨hle', j' % n, hwalk.trans hwalk', fun hlt' => by rw [(hend hlt').1, Nat.mod_self]⟩, ?_⟩
  by_cases hlt' : (tr ++ l).length < E
  · have hpos := length_pos_of_mem ((hend hlt').2 x (Nat.zero_le x) hx hno)
    rw [length_append]
    omega
  · omega

end Rounds

/-! ## Loops that end and loops that do not -/

/-- A loop with a measure ends, and keeps the invariant. -/
theorem whileLoop_ends {body : σ → σ} {μ : σ → Nat}
    (hbody : ∀ s, go s = true → P s → P (body s) ∧ μ (body s) < μ s) :
    ∀ {fuel : Nat} {s : σ}, μ s ≤ fuel → P s →
      ∃ s', whileLoop go body fuel s = some s' ∧ P s' ∧ go s' = false := by
  intro fuel
  induction fuel with
  | zero =>
    intro s hμ hs
    have hgo : go s = false := by
      refine Bool.eq_false_iff.mpr fun hgo => ?_
      have := (hbody s hgo hs).2
      omega
    exact ⟨s, by rw [whileLoop, hgo]; rfl, hs, hgo⟩
  | succ fuel ih =>
    intro s hμ hs
    rw [whileLoop]
    split
    · next hgo =>
      obtain ⟨hkeep, hdec⟩ := hbody s hgo hs
      exact ih (by omega) hkeep
    · next hgo => exact ⟨s, rfl, hs, Bool.eq_false_iff.mpr hgo⟩

theorem whileLoop_rounds {n E start x fuel : Nat} {skip : Nat → Prop} {body : σ → σ} {Q : σ → Prop}
    {count : σ → Nat} (trace : σ → List Nat) (hcount : ∀ s, Q s → (trace s).length = count s)
    (hbody : ∀ s, Q s → count s < E → Q (body s) ∧ Sweep n skip E 0 n (trace s) (trace (body s)))
    (hx : x < n) (hno : ¬ skip x) (hfuel : E ≤ fuel) (hs : Q s)
    (hfirst : Rounds n skip start E (trace s)) :
    ∃ s', whileLoop (fun s => decide (count s < E)) body fuel s = some s' ∧ Q s' ∧
      Rounds n skip start E (trace s') ∧ (trace s').length = E := by
  have hround : ∀ s, decide (count s < E) = true → Q s ∧ Rounds n skip start E (trace s) →
      (Q (body s) ∧ Rounds n skip start E (trace (body s))) ∧ E - count (body s) < E - count s := by
    intro s hgo ⟨hQ, hrounds⟩
    have hlt : count s < E := of_decide_eq_true hgo
    obtain ⟨hQ', hsweep⟩ := hbody s hQ hlt
    obtain ⟨hrounds', hmore⟩ := hrounds.lap (by rw [hcount s hQ]; exact hlt) hsweep hx hno
    rw [hcount s hQ, hcount _ hQ'] at hmore
    exact ⟨⟨hQ', hrounds'⟩, by omega⟩
  obtain ⟨s', heq, ⟨hQ, hrounds⟩, hgo⟩ := whileLoop_ends
    (μ := fun s => E - count s) hround
    ((Nat.sub_le E _).trans hfuel) ⟨hs, hfirst⟩
  have hle := hrounds.le
  have hge : ¬ count s' < E := of_decide_eq_false hgo
  exact ⟨s', heq, hQ, hrounds, by rw [hcount s' hQ] at hle ⊢; omega⟩

lemma whileLoop_stuck {body : σ → σ} (hgo : go s = true) (hbody : body s = s) :
    ∀ fuel, whileLoop go body fuel s = none := by
  intro fuel
  induction fuel with
  | zero => rw [whileLoop, if_pos hgo]
  | succ fuel ih => rw [whileLoop, if_pos hgo, hbody, ih]

end RingWalk
