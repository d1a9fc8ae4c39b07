/-
  Guarded transition machines: the run vocabulary of every stateful component.

  A machine takes an input in a state and moves, or stops the whole process (`none`).  The `guard` is what
  the ENVIRONMENT promises.  `Reach` is the set of states met along every guarded run, `Reach.invariant` the
  one induction that every safety result goes through.
-/
import Mathlib

namespace Machine

/-- A deterministic machine with inputs `ι`, a set of initial states and an environment guard. -/
structure Spec (σ ι : Type) where
  init : σ → Prop
  guard : σ → ι → Prop
  step : σ → ι → Option σ

variable {σ ι : Type}

/-- The states met along the guarded runs of `m`. -/
inductive Reach (m : Spec σ ι) : σ → Prop
  | start {s : σ} : m.init s → Reach m s
  | next {s s' : σ} {i : ι} : Reach m s → m.guard s i → m.step s i = some s' → Reach m s'

variable {m : Spec σ ι} {P : σ → ι → Prop} {s : σ}

/-- **The invariant rule.**  What holds initially and is kept by every guarded step from a
reachable state holds in every reachable state. -/
theorem Reach.invariant {P : σ → Prop} (hinit : ∀ s, m.init s → P s)
    (hstep : ∀ s i s', Reach m s → P s → m.guard s i → m.step s i = some s' → P s') (h : Reach m s) :
    P s := by
  induction h with
  | start h0 => exact hinit _ h0
  | next hr hg hs ih => exact hstep _ _ _ hr ih hg hs

/-- Running a list of inputs: `none` as soon as an input is not allowed or a step stops. -/
def Spec.run (m : Spec σ ι) [∀ s i, Decidable (m.guard s i)] : σ → List ι → Option σ
  | s, [] => some s
  | s, i :: is => if m.guard s i then (m.step s i).bind fun s' => run m s' is else none

lemma Reach.run [∀ s i, Decidable (m.guard s i)] (is : List ι) :
    ∀ {s s' : σ}, Reach m s → m.run s is = some s' → Reach m s' := by
  induction is with
  | nil =>
    intro s s' hr h
    cases h
    exact hr
  | cons i is ih =>
    intro s s' hr h
    simp only [Spec.run] at h
    split at h
    · rename_i hg
      obtain ⟨t, hstep, hrest⟩ := Option.bind_eq_some_iff.mp h
      exact ih (hr.next hg hstep) hrest
    · cases h

lemma Reach.exists_of_run [∀ s i, Decidable (m.guard s i)] {P : σ → Prop} [DecidablePred P]
    (hr : Reach m s) (is : List ι) (h : (m.run s is).any (fun s' => decide (P s')) = true) :
    ∃ s', Reach m s' ∧ P s' := by
  cases hrun : m.run s is with
  | none => rw [hrun] at h; cases h
  | some s' =>
    rw [hrun] at h
    exact ⟨s', hr.run is hrun, of_decide_eq_true h⟩

/-- Every input of a run, in the state it is taken in, as far as the steps return. -/
def Spec.Along (m : Spec σ ι) (P : σ → ι → Prop) : σ → List ι → Prop
  | _, [] => True
  | s, i :: is => P s i ∧ ∀ s', m.step s i = some s' → m.Along P s' is

instance Spec.Along.decidable (m : Spec σ ι) (P : σ → ι → Prop) [∀ s i, Decidable (P s i)] :
    ∀ s is, Decidable (m.Along P s is)
  | _, [] => isTrue trivial
  | s, i :: is =>
    have : ∀ s', Decidable (m.Along P s' is) := fun s' => Spec.Along.decidable m P s' is
    inferInstanceAs (Decidable (P s i ∧ ∀ s' ∈ m.step s i, m.Along P s' is))

/-- **A condition on the inputs of a run.** Where an invariant makes what a step is wanted to do
equivalent to a condition on its input, and a step that does it keeps the invariant, every step of a run
does it exactly when every input meets the condition. -/
theorem Spec.along_iff_of {Inv : σ → Prop} {G C : σ → ι → Prop}
    (hiff : ∀ s i, Inv s → G s i → (P s i ↔ C s i))
    (hinv : ∀ s i s', Inv s → G s i → P s i → m.step s i = some s' → Inv s') (is : List ι) :
    ∀ {s : σ}, Inv s → m.Along G s is → (m.Along P s is ↔ m.Along C s is) := by
  induction is with
  | nil => exact fun _ _ => Iff.rfl
  | cons i is ih =>
    intro s hs hg
    unfold Spec.Along
    rw [← hiff s i hs hg.1]
    refine and_congr_right fun hp => forall_congr' fun s' => forall_congr' fun hstep => ?_
    exact ih (hinv s i s' hs hg.1 hp hstep) (hg.2 s' hstep)

lemma Spec.along_of_forall (h : ∀ s i, P s i) (is : List ι) : ∀ s, m.Along P s is := by
  induction is with
  | nil => exact fun _ => trivial
  | cons i is ih => exact fun s => ⟨h s i, fun s' _ => ih s'⟩

lemma Spec.along_iff {Inv : σ → Prop} {C : σ → ι → Prop} (hiff : ∀ s i, Inv s → (P s i ↔ C s i))
    (hinv : ∀ s i s', Inv s → P s i → m.step s i = some s' → Inv s') (is : List ι) (hs : Inv s) :
    m.Along P s is ↔ m.Along C s is :=
  Spec.along_iff_of (G := fun _ _ => True) (fun s i h _ => hiff s i h)
    (fun s i s' h _ => hinv s i s' h) is hs (Spec.along_of_forall (fun _ _ => trivial) is s)

end Machine
