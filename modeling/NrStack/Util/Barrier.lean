/-
  The dynamic barrier (`common/utils/barrier/barrier.c`).

  PROGRAM   a join counts up; the update brings the number of joins to wait for and the callback.
            Either of them may come last, and the one that does runs the callback.
  SPEC      a round is an update and as many joins as it says, some before it and some after it.
  RESULT    `barrier_fires_once`: every call of a round but the last runs nothing, and the last runs
            the callback of its round.
-/
import Mathlib

namespace NrStack.Util

open List

/-- `dynamic_barrier_t`; `callback` is the callback with its argument, `none` for `NULL`. -/
structure DynamicBarrier (γ : Type) where
  completedJobs : Nat
  maxJoins : Nat
  callback : Option γ

/-- The calls, each made by some thread under the barrier's lock. -/
inductive BarrierCall (γ : Type)
  | join (thread : Nat)
  | update (thread maxJoins : Nat) (callback : γ)

variable {γ : Type}

namespace DynamicBarrier

/-- `dynamic_barrier_init`; `max_joins` stays as it was. -/
def init (maxJoins : Nat) : DynamicBarrier γ := ⟨0, maxJoins, none⟩

/-- `dynamic_barrier_join`: the callbacks it runs, and the barrier it leaves. -/
def join (b : DynamicBarrier γ) : List γ × DynamicBarrier γ :=
  let b := { b with completedJobs := b.completedJobs + 1 }
  match b.callback with
  | some c =>
    if b.completedJobs = b.maxJoins then ([c], { b with completedJobs := 0, callback := none })
    else ([], b)
  | none => ([], b)

/-- `dynamic_barrier_update` -/
def update (b : DynamicBarrier γ) (maxJoins : Nat) (callback : γ) : List γ × DynamicBarrier γ :=
  if b.completedJobs = maxJoins then ([callback], { b with completedJobs := 0 })
  else ([], { b with maxJoins := maxJoins, callback := some callback })

/-- One call: the callbacks that it makes, and the barrier it leaves. -/
def exec (b : DynamicBarrier γ) : BarrierCall γ → List γ × DynamicBarrier γ
  | .join _ => b.join
  | .update _ maxJoins callback => b.update maxJoins callback

/-- The callbacks run by each of the calls. -/
def run (b : DynamicBarrier γ) : List (BarrierCall γ) → List (List γ) × DynamicBarrier γ
  | [] => ([], b)
  | call :: calls => ((b.exec call).1 :: ((b.exec call).2.run calls).1, ((b.exec call).2.run calls).2)

end DynamicBarrier

/-- A round: the threads that join before and after the update. -/
structure Round (γ : Type) where
  before : List Nat
  after : List Nat
  updater : Nat
  maxJoins : Nat
  callback : γ
  pos : 1 ≤ maxJoins
  joins : before.length + after.length = maxJoins

/-- The calls of a round, in the order the lock is taken. -/
def Round.calls (r : Round γ) : List (BarrierCall γ) :=
  r.before.map .join ++ .update r.updater r.maxJoins r.callback :: r.after.map .join

variable {b : DynamicBarrier γ} {k m : Nat} {c : γ}

open DynamicBarrier

theorem run_append (xs ys : List (BarrierCall γ)) : b.run (xs ++ ys) =
    ((b.run xs).1 ++ ((b.run xs).2.run ys).1, ((b.run xs).2.run ys).2) := by
  induction xs generalizing b with
  | nil => rfl
  | cons x xs ih =>
    simp only [cons_append, run, ih]

/-- Joins without a callback are counted. -/
theorem run_joins_none (threads : List Nat) : (DynamicBarrier.mk k m none).run (threads.map .join) =
    (replicate threads.length ([] : List γ), ⟨k + threads.length, m, none⟩) := by
  induction threads generalizing k with
  | nil => rfl
  | cons t threads ih =>
    rw [map_cons, run, show (DynamicBarrier.mk k m none).exec (.join t) = ([], ⟨k + 1, m, none⟩) from rfl, ih,
      length_cons, Nat.add_right_comm]
    rfl

/-- The last of the joins that a callback waits for runs it. -/
theorem run_joins_some (threads : List Nat) (hm : k + (threads.length + 1) = m) (t : Nat) :
    (DynamicBarrier.mk k m (some c)).run ((t :: threads).map .join) =
      (replicate threads.length [] ++ [[c]], ⟨0, m, none⟩) := by
  induction threads generalizing k t with
  | nil =>
    have hlast : (DynamicBarrier.mk k m (some c)).exec (.join t) = ([c], ⟨0, m, none⟩) := if_pos hm
    rw [map_cons, run, hlast]
    rfl
  | cons t' threads ih =>
    rw [length_cons] at hm
    have hmore : (DynamicBarrier.mk k m (some c)).exec (.join t) = ([], ⟨k + 1, m, some c⟩) :=
      if_neg (show ¬ k + 1 = m by omega)
    rw [map_cons, run, hmore, ih (by omega)]
    rfl

/-- One round on an idle barrier. -/
theorem run_round (r : Round γ) : (init m).run r.calls =
    (replicate r.maxJoins [] ++ [[r.callback]], init (if r.after = [] then m else r.maxJoins)) := by
  have hjoins := r.joins
  rw [Round.calls, run_append, init, run_joins_none, zero_add, run]
  cases hafter : r.after with
  | nil =>
    rw [hafter, length_nil, add_zero] at hjoins
    rw [show (DynamicBarrier.mk r.before.length m none).exec (.update r.updater r.maxJoins r.callback) =
      ([r.callback], ⟨0, m, none⟩) from if_pos hjoins, hjoins]
    rfl
  | cons t threads =>
    rw [hafter, length_cons] at hjoins
    rw [show (DynamicBarrier.mk r.before.length m none).exec (.update r.updater r.maxJoins r.callback) =
      ([], ⟨r.before.length, r.maxJoins, some r.callback⟩) from
        if_neg (show ¬ r.before.length = r.maxJoins by omega),
      run_joins_some threads hjoins t, if_neg (cons_ne_nil _ _), ← hjoins, replicate_add,
      append_assoc]
    rfl

/-- **The barrier fires once per round**, at the last of the round's calls. -/
theorem barrier_fires_once (rounds : List (Round γ)) (m : Nat) :
    ((init m).run (rounds.flatMap Round.calls)).1 =
      rounds.flatMap fun r => replicate r.maxJoins [] ++ [[r.callback]] := by
  induction rounds generalizing m with
  | nil => rfl
  | cons r rounds ih =>
    rw [flatMap_cons, flatMap_cons, run_append, run_round]
    exact congrArg _ (ih _)

end NrStack.Util
