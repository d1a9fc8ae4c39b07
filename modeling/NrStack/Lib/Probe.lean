/-
  Computations that read a memory of bytes and record WHERE they read.

  * `Probe α`  — a value with the addresses read on the way to it; `Within n`: all below `n`.
  * `blocks`   — `while (len > 0) { .. p += n; len -= n; }`, the loop of every parser.
  * `Reached`  — the blocks the loop comes to.  It returns when every block has a length
    (`blocks_returns`), and stays within bounds exactly when the body does at every block reached
    (`within_blocks`).
-/
import Mathlib

namespace Probing

/-! ## Reads -/

/-- A value and the addresses read for it. -/
structure Probe (α : Type) where
  val : α
  reads : List Nat
  deriving DecidableEq

instance : Monad Probe where
  pure a := ⟨a, []⟩
  bind x f := ⟨(f x.val).val, x.reads ++ (f x.val).reads⟩

/-- Read one byte. -/
def read (mem : Nat → UInt8) (i : Nat) : Probe Nat := ⟨(mem i).toNat, [i]⟩

/-- Read the bytes at the addresses. -/
def readAll (mem : Nat → UInt8) (is : List Nat) : Probe (List Nat) :=
  ⟨is.map fun i => (mem i).toNat, is⟩

section Reads

variable {α β : Type} {n : Nat}

@[simp] lemma val_pure (a : α) : (pure a : Probe α).val = a := rfl

@[simp] lemma val_bind (x : Probe α) (f : α → Probe β) : (x >>= f).val = (f x.val).val := rfl

@[simp] lemma val_read (mem : Nat → UInt8) (i : Nat) : (read mem i).val = (mem i).toNat := rfl

@[simp] lemma val_readAll (mem : Nat → UInt8) (is : List Nat) :
    (readAll mem is).val = is.map fun i => (mem i).toNat := rfl

/-- All addresses read are below `n`. -/
def Within (n : Nat) (x : Probe α) : Prop := ∀ i ∈ x.reads, i < n
deriving Decidable

@[simp] lemma within_pure (a : α) : Within n (pure a : Probe α) := nofun

@[simp] lemma within_bind (x : Probe α) (f : α → Probe β) :
    Within n (x >>= f) ↔ Within n x ∧ Within n (f x.val) := by
  constructor
  · intro h
    exact ⟨fun i hi => h i (List.mem_append_left _ hi), fun i hi => h i (List.mem_append_right _ hi)⟩
  · rintro ⟨hx, hf⟩ i hi
    rcases List.mem_append.mp hi with hi | hi
    · exact hx i hi
    · exact hf i hi

@[simp] lemma within_read (mem : Nat → UInt8) (i : Nat) : Within n (read mem i) ↔ i < n := by
  simp [Within, read]

@[simp] lemma within_readAll (mem : Nat → UInt8) (is : List Nat) :
    Within n (readAll mem is) ↔ ∀ i ∈ is, i < n := Iff.rfl

end Reads

/-! ## A loop over blocks -/

/-- What a body says about the block it looked at: its length, or to stop. -/
inductive Next (ε : Type)
  | go (len : Nat)
  | stop (e : ε)
  deriving DecidableEq

variable {σ ε : Type}

/-- `while (rem > 0) { body; pos += len; rem -= len }`; `none` without fuel, else the reason to stop, if
any. -/
def blocks (body : Nat → Nat → σ → Probe (Next ε × σ)) :
    Nat → Nat → Nat → σ → Probe (Option (Option ε × σ))
  | 0, _, rem, s => pure (if rem = 0 then some (none, s) else none)
  | fuel + 1, pos, rem, s =>
    if rem = 0 then pure (some (none, s))
    else body pos rem s >>= fun r =>
      match r with
      | (.go len, s) => blocks body fuel (pos + len) (rem - len) s
      | (.stop e, s) => pure (some (some e, s))

/-- From one block the loop comes to another. -/
inductive Reached (body : Nat → Nat → σ → Probe (Next ε × σ)) :
    Nat → Nat → σ → Nat → Nat → σ → Prop
  | here {pos rem : Nat} {s : σ} (hrem : rem ≠ 0) : Reached body pos rem s pos rem s
  | next {pos rem len p r : Nat} {s s₁ s' : σ} (hrem : rem ≠ 0)
      (hgo : (body pos rem s).val = (.go len, s₁))
      (rest : Reached body (pos + len) (rem - len) s₁ p r s') : Reached body pos rem s p r s'

/-- A block that does not end the walk takes at least one byte. -/
def Progress (body : Nat → Nat → σ → Probe (Next ε × σ)) : Prop :=
  ∀ pos rem s len s', (body pos rem s).val = (.go len, s') → 0 < len

section Blocks

variable {body : Nat → Nat → σ → Probe (Next ε × σ)}

lemma blocks_zero {fuel pos : Nat} {s : σ} :
    blocks body fuel pos 0 s = pure (some (none, s)) := by
  cases fuel <;> rfl

/-- With progress the loop returns. -/
theorem blocks_returns (hprogress : Progress body) :
    ∀ {fuel pos rem : Nat} {s : σ}, rem ≤ fuel → (blocks body fuel pos rem s).val.isSome := by
  intro fuel
  induction fuel with
  | zero =>
    intro pos rem s hrem
    obtain rfl : rem = 0 := by omega
    rfl
  | succ fuel ih =>
    intro pos rem s hrem
    rw [blocks]
    split
    · rfl
    · rw [val_bind]
      cases hbody : (body pos rem s).val with
      | mk next s' =>
        cases next with
        | go len =>
          have := hprogress pos rem s len s' hbody
          exact ih (by omega)
        | stop e => rfl

lemma Reached.ne_zero {pos rem p r : Nat} {s s' : σ} (h : Reached body pos rem s p r s') :
    rem ≠ 0 := by
  cases h with
  | here hrem => exact hrem
  | next hrem => exact hrem

lemma forall_reached {pos rem : Nat} {s : σ} (hrem : rem ≠ 0) {R : Nat → Nat → σ → Prop} :
    (∀ p r s', Reached body pos rem s p r s' → R p r s') ↔
      R pos rem s ∧ ∀ len s₁, (body pos rem s).val = (.go len, s₁) →
        ∀ p r s', Reached body (pos + len) (rem - len) s₁ p r s' → R p r s' := by
  refine ⟨fun h => ⟨h _ _ _ (.here hrem), fun len s₁ hgo p r s' hreach =>
    h p r s' (.next hrem hgo hreach)⟩, fun ⟨hhere, hrest⟩ p r s' hreach => ?_⟩
  cases hreach with
  | here _ => exact hhere
  | next _ hgo rest => exact hrest _ _ hgo p r s' rest

/-- The loop reads inside iff every body that is reached does. -/
theorem within_blocks {n : Nat} (hprogress : Progress body) :
    ∀ {fuel pos rem : Nat} {s : σ}, rem ≤ fuel →
      (Within n (blocks body fuel pos rem s) ↔
        ∀ p r s', Reached body pos rem s p r s' → Within n (body p r s')) := by
  intro fuel
  induction fuel with
  | zero =>
    intro pos rem s hrem
    obtain rfl : rem = 0 := by omega
    exact iff_of_true (within_pure _) fun p r s' h => absurd rfl h.ne_zero
  | succ fuel ih =>
    intro pos rem s hrem
    by_cases hzero : rem = 0
    · subst hzero
      exact iff_of_true (within_pure _) fun p r s' h => absurd rfl h.ne_zero
    · rw [blocks, if_neg hzero, within_bind, forall_reached hzero]
      refine and_congr_right fun _ => ?_
      cases hbody : (body pos rem s).val with
      | mk next s₁ =>
        cases next with
        | stop e => exact iff_of_true (within_pure _) nofun
        | go len =>
          have hlen := hprogress pos rem s len s₁ hbody
          refine (ih (by omega)).trans ⟨fun h _ _ hgo => ?_, fun h => h len s₁ rfl⟩
          cases hgo
          exact h

lemma blocks_invariant {P : Nat → Nat → σ → Prop} {Q : σ → Prop}
    (hgo : ∀ pos rem s len s', rem ≠ 0 → P pos rem s → (body pos rem s).val = (.go len, s') →
      P (pos + len) (rem - len) s')
    (hstop : ∀ pos rem s e s', rem ≠ 0 → P pos rem s → (body pos rem s).val = (.stop e, s') → Q s')
    (hend : ∀ pos s, P pos 0 s → Q s) :
    ∀ {fuel pos rem : Nat} {s : σ} {r : Option ε × σ}, P pos rem s →
      (blocks body fuel pos rem s).val = some r → Q r.2 := by
  intro fuel
  induction fuel with
  | zero =>
    intro pos rem s r hP h
    rw [blocks, val_pure] at h
    split at h
    · next hzero =>
      cases h
      exact hend pos s (hzero ▸ hP)
    · cases h
  | succ fuel ih =>
    intro pos rem s r hP h
    rw [blocks] at h
    split at h
    · next hzero =>
      cases h
      exact hend pos s (hzero ▸ hP)
    · next hrem =>
      rw [val_bind] at h
      cases hbody : (body pos rem s).val with
      | mk next s' =>
        rw [hbody] at h
        cases next with
        | go len => exact ih (hgo pos rem s len s' hrem hP hbody) h
        | stop e =>
          cases h
          exact hstop pos rem s e s' hrem hP hbody

lemma log_blocks {β : Type} (hprogress : Progress body) {log : σ → List β}
    {out : Nat → Nat → List β} (hlog : ∀ p r s, log (body p r s).val.2 = log s ++ out p r)
    {P : β → Prop} :
    ∀ {fuel pos rem : Nat} {s : σ} {res : Option ε × σ}, rem ≤ fuel →
      (blocks body fuel pos rem s).val = some res →
      ((∀ x ∈ log res.2, P x) ↔ (∀ x ∈ log s, P x) ∧
        ∀ p r s', Reached body pos rem s p r s' → ∀ x ∈ out p r, P x) := by
  intro fuel
  induction fuel with
  | zero =>
    intro pos rem s res hrem hres
    obtain rfl : rem = 0 := by omega
    cases hres
    exact (and_iff_left fun p r s' h => absurd rfl h.ne_zero).symm
  | succ fuel ih =>
    intro pos rem s res hrem hres
    by_cases hzero : rem = 0
    · subst hzero
      cases hres
      exact (and_iff_left fun p r s' h => absurd rfl h.ne_zero).symm
    · rw [blocks, if_neg hzero, val_bind] at hres
      have hstep := hlog pos rem s
      rw [forall_reached hzero, ← and_assoc, ← List.forall_mem_append, ← hstep]
      cases hbody : (body pos rem s).val with
      | mk next s₁ =>
        rw [hbody] at hres
        cases next with
        | stop e =>
          cases hres
          exact (and_iff_left nofun).symm
        | go len =>
          have hlen := hprogress pos rem s len s₁ hbody
          rw [ih (by omega) hres]
          refine and_congr_right fun _ => ⟨fun h _ _ hgo => ?_, fun h => h len s₁ rfl⟩
          cases hgo
          exact h

end Blocks

/-! ## The blocks of an input -/

/-- The blocks of an input of `len` bytes: the first is at `start` and each next one at the end of one
that is not the last.  `t` is what the loop remembers. -/
inductive Boundary {τ : Type} (start len : Nat) (size : Nat → Nat) (stops : Nat → Prop)
    (upd : Nat → τ → τ) (t₀ : τ) : Nat → τ → Prop
  | first (hlen : start < len) : Boundary start len size stops upd t₀ start t₀
  | next {p : Nat} {t : τ} (prev : Boundary start len size stops upd t₀ p t) (hgo : ¬ stops p)
      (hlen : p + size p < len) : Boundary start len size stops upd t₀ (p + size p) (upd p t)

/-- The body goes on from `pos` exactly when the block there is within the input and none to stop at. -/
structure Follows {τ : Type} (body : Nat → Nat → σ → Probe (Next ε × σ)) (len : Nat)
    (size : Nat → Nat) (stops : Nat → Prop) (upd : Nat → τ → τ) (abs : σ → τ) : Prop where
  pos : ∀ p, 0 < size p
  goes : ∀ p s, p < len → ¬ stops p → p + size p < len →
    ∃ s', (body p (len - p) s).val = (.go (size p), s')
  only : ∀ p s n s', p < len → (body p (len - p) s).val = (.go n, s') →
    n = size p ∧ (p + size p < len → ¬ stops p) ∧ abs s' = upd p (abs s)

section Boundary

variable {body : Nat → Nat → σ → Probe (Next ε × σ)} {start len : Nat} {size : Nat → Nat}
  {τ : Type} {stops : Nat → Prop} {upd : Nat → τ → τ} {abs : σ → τ}

section

variable (h : Follows body len size stops upd abs)
include h

lemma Reached.boundary {t₀ : τ} {pos rem p r : Nat}
    {s s' : σ} (hreach : Reached body pos rem s p r s') (hrem : rem = len - pos)
    (hstart : Boundary start len size stops upd t₀ pos (abs s)) :
    r = len - p ∧ Boundary start len size stops upd t₀ p (abs s') := by
  induction hreach with
  | here => exact ⟨hrem, hstart⟩
  | @next pos rem n p r s s₁ s' hne hgo rest ih =>
    subst hrem
    obtain ⟨rfl, hstops, habs⟩ := h.only pos s n s₁ (by omega) hgo
    by_cases hlt : pos + size pos < len
    · exact ih (by omega) (habs ▸ Boundary.next hstart (hstops hlt) hlt)
    · -- nothing is left, and no block is reached
      have hne' := rest.ne_zero
      omega

lemma Boundary.reached {s : σ} {p : Nat} {t : τ}
    (hb : Boundary start len size stops upd (abs s) p t) :
    p < len ∧ ∃ s', abs s' = t ∧ ∀ {q r : Nat} {s'' : σ}, Reached body p (len - p) s' q r s'' →
      Reached body start (len - start) s q r s'' := by
  induction hb with
  | first hlen => exact ⟨hlen, s, rfl, fun hreach => hreach⟩
  | @next p t prev hgo hlt ih =>
    obtain ⟨hp, s', habs, hreach⟩ := ih
    obtain ⟨s'', hbody⟩ := h.goes p s' hp hgo hlt
    obtain ⟨-, -, habs'⟩ := h.only p s' _ s'' hp hbody
    refine ⟨hlt, s'', by rw [habs', habs], fun hrest => hreach (.next (by omega) hbody ?_)⟩
    rwa [show len - p - size p = len - (p + size p) by omega]

lemma reached_iff_boundary (s : σ)
    {R : Nat → Nat → σ → Prop} {W : Nat → τ → Prop}
    (hW : ∀ p s, p < len → (R p (len - p) s ↔ W p (abs s))) :
    (∀ p r s', Reached body start (len - start) s p r s' → R p r s') ↔
      ∀ p t, Boundary start len size stops upd (abs s) p t → W p t := by
  constructor
  · intro hall p t hb
    obtain ⟨hp, s', habs, hreach⟩ := hb.reached h
    have := hall p (len - p) s' (hreach (.here (by omega)))
    rwa [hW p s' hp, habs] at this
  · intro hall p r s' hreach
    have hne := hreach.ne_zero
    have hlen : start < len := by omega
    obtain ⟨rfl, hb⟩ := hreach.boundary h rfl (.first hlen)
    have hp := (Boundary.reached h hb).1
    exact (hW p s' hp).mpr (hall p _ hb)

theorem within_blocks_boundary {n fuel : Nat}
    (hfuel : len - start ≤ fuel) (hprogress : Progress body) (s : σ) {W : Nat → τ → Prop}
    (hW : ∀ p s, p < len → (Within n (body p (len - p) s) ↔ W p (abs s))) :
    Within n (blocks body fuel start (len - start) s) ↔
      ∀ p t, Boundary start len size stops upd (abs s) p t → W p t := by
  rw [within_blocks hprogress hfuel]
  exact reached_iff_boundary h s hW

end

theorem log_blocks_boundary {β : Type} (h : Follows body len size stops upd abs) {fuel : Nat}
    (hfuel : len - start ≤ fuel) (hprogress : Progress body) {s : σ} {res : Option ε × σ}
    (hres : (blocks body fuel start (len - start) s).val = some res) {log : σ → List β}
    {out : Nat → Nat → List β} (hlog : ∀ p r s, log (body p r s).val.2 = log s ++ out p r)
    {P : β → Prop} :
    (∀ x ∈ log res.2, P x) ↔ (∀ x ∈ log s, P x) ∧
      ∀ p t, Boundary start len size stops upd (abs s) p t → ∀ x ∈ out p (len - p), P x := by
  rw [log_blocks hprogress hlog hfuel hres,
    reached_iff_boundary h s (W := fun p _ => ∀ x ∈ out p (len - p), P x) fun _ _ _ => Iff.rfl]

end Boundary

end Probing
