/-
  The downlink HARQ processes are partitioned.

  Every process id is in exactly one of the three lists, `is_waiting` marks the ones that wait for feedback,
  and the round says which of the other lists an id is in.  Between two lists an id is IN HAND: `Holds cfg s
  n out a f r` carries the ids `out` in hand, and every function is a chain of moves.  It breaks in
  `nr_generate_Msg4_MsgB` only:

  * a free process is taken, the PUCCH allocation fails, and the function returns with it in hand;
  * a retransmission takes the head of `retrans_dl_harq` but leaves it on that list.
-/
import NrStack.Lib.Machine
import NrStack.Mac.HarqLists

namespace NrStack.Mac

open List Machine NrList Option

/-! ## The invariant -/

/-- `a`, `f`, `r` are the contents of the three lists over `n` configured processes, `out` the ids
in hand. -/
structure Holds (cfg : HarqConfig) (s : SchedCtrl) (n : Nat) (out a f r : List Nat) : Prop where
  available : s.availableDlHarq.Repr a
  feedback : s.feedbackDlHarq.Repr f
  retrans : s.retransDlHarq.Repr r
  lens : s.availableDlHarq.len = n ∧ s.feedbackDlHarq.len = n ∧ s.retransDlHarq.len = n
  cap : n ≤ nrMaxHarqProcesses
  count : ∀ q, a.count q + f.count q + r.count q + out.count q = if q < n then 1 else 0
  waiting : ∀ q, q ∉ out → ((s.harqProcesses q).isWaiting = true ↔ q ∈ f)
  rounds : ∀ q ∈ r, 0 < (s.harqProcesses q).round ∧ (s.harqProcesses q).round < cfg.harqRoundMax
  fresh : ∀ q ∈ a, (s.harqProcesses q).round = 0
  idle : ∀ q, n ≤ q → (s.harqProcesses q).round = 0

/-- The NDI bits flipped and the `finish_nr_dl_harq` calls made between two states agree. -/
structure Flips (s s' : SchedCtrl) (new : List Nat) : Prop where
  log : s'.finished = s.finished ++ new
  ndi : ∀ q, (s'.harqProcesses q).ndi
    = if q ∈ new then (s.harqProcesses q).ndi ^^^ 1 else (s.harqProcesses q).ndi

lemma Flips.refl (s : SchedCtrl) : Flips s s [] := ⟨(append_nil _).symm, fun _ => rfl⟩

variable {s s' : SchedCtrl} {pid n : Nat} {cfg : HarqConfig} {a f r : List Nat} {ue ue' : UeInfo}

lemma Flips.trans {s'' : SchedCtrl} {new new' : List Nat} (h : Flips s s' new)
    (h' : Flips s' s'' new') (hd : ∀ q ∈ new, q ∉ new') : Flips s s'' (new ++ new') := by
  refine ⟨by rw [h'.log, h.log, append_assoc], fun q => ?_⟩
  rw [h'.ndi, h.ndi]
  by_cases hq : q ∈ new
  · rw [if_pos hq, if_neg (hd q hq), if_pos (mem_append_left _ hq)]
  · by_cases hq' : q ∈ new'
    · rw [if_neg hq, if_pos hq', if_pos (mem_append_right _ hq')]
    · have : q ∉ new ++ new' := fun hmem => (mem_append.mp hmem).elim hq hq'
      rw [if_neg hq, if_neg hq', if_neg this]

lemma setHarq_self (s : SchedCtrl) (pid : Nat) (f : Harq → Harq) :
    (s.setHarq pid f).harqProcesses pid = f (s.harqProcesses pid) := Function.update_self ..

lemma setHarq_of_ne (s : SchedCtrl) {q : Nat} (f : Harq → Harq) (h : q ≠ pid) :
    (s.setHarq pid f).harqProcesses q = s.harqProcesses q := Function.update_of_ne h ..

lemma flips_of_ndi (hlog : s'.finished = s.finished)
    (hndi : ∀ q, (s'.harqProcesses q).ndi = (s.harqProcesses q).ndi) : Flips s s' [] :=
  ⟨by rw [hlog, append_nil], hndi⟩

lemma setHarq_ndi (s : SchedCtrl) (pid : Nat) (f : Harq → Harq) (hf : ∀ h, (f h).ndi = h.ndi)
    (q : Nat) : ((s.setHarq pid f).harqProcesses q).ndi = (s.harqProcesses q).ndi := by
  by_cases hq : q = pid
  · rw [hq, setHarq_self, hf]
  · rw [setHarq_of_ne s f hq]

/-! ## In hand -/

namespace Holds

variable {cfg : HarqConfig} {s : SchedCtrl} {n pid : Nat} {out a f r : List Nat}

lemma filed (h : Holds cfg s n out a f r) : Filed s.availableDlHarq s.feedbackDlHarq s.retransDlHarq n
    cfg.harqRoundMax (fun q => (s.harqProcesses q).isWaiting) (fun q => (s.harqProcesses q).round) out a f r :=
  ⟨⟨h.available, h.feedback, h.retrans, h.lens, h.count⟩, h.cap, h.waiting, h.rounds, h.fresh, h.idle⟩

lemma of_filed (h : Filed s.availableDlHarq s.feedbackDlHarq s.retransDlHarq n cfg.harqRoundMax
      (fun q => (s.harqProcesses q).isWaiting) (fun q => (s.harqProcesses q).round) out a f r) :
    Holds cfg s n out a f r :=
  ⟨h.lists.first, h.lists.second, h.lists.third, h.lists.lens, h.cap, h.lists.count, h.waits, h.rounds,
    h.fresh, h.idle⟩

section

variable (h : Holds cfg s n (pid :: out) a f r)
include h

lemma setHarq (g : Harq → Harq) :
    Holds cfg (s.setHarq pid g) n (pid :: out) a f r := by
  refine of_filed (h.filed.change (fun q hq => ?_) fun q hq => ?_)
  · rw [setHarq_of_ne s g hq]
  · rw [setHarq_of_ne s g hq]

lemma finish (hw : (s.harqProcesses pid).isWaiting = false) :
    Holds cfg (s.finishNrDlHarq pid) n out (a ++ [pid]) f r ∧
      Flips s (s.finishNrDlHarq pid) [pid] := by
  constructor
  · refine of_filed ((h.setHarq fun x => { x with ndi := x.ndi ^^^ 1, round := 0 }).filed.putAvailable ?_ ?_)
    · rw [setHarq_self]
      exact hw
    · rw [setHarq_self]
  · refine ⟨rfl, fun q => ?_⟩
    show ((s.setHarq pid fun x => { x with ndi := x.ndi ^^^ 1, round := 0 }).harqProcesses q).ndi = _
    by_cases hq : q = pid
    · subst hq
      rw [setHarq_self, if_pos (mem_singleton_self q)]
    · rw [setHarq_of_ne s _ hq, if_neg fun hmem => hq (mem_singleton.mp hmem)]

lemma await (pucch : SchedPucch) :
    Holds cfg (s.awaitFeedback pid pucch) n out a (f ++ [pid]) r ∧
      Flips s (s.awaitFeedback pid pucch) [] := by
  constructor
  · refine of_filed ((h.setHarq fun x =>
      { x with feedbackFrame := pucch.frame, feedbackSlot := pucch.ulSlot, isWaiting := true }).filed.putFeedback ?_)
    rw [setHarq_self]
  · refine flips_of_ndi rfl fun q => ?_
    simp only [SchedCtrl.awaitFeedback]
    exact setHarq_ndi _ pid _ (by intro h; rfl) q

end

lemma transmit (h : Holds cfg s n [pid] a f r)
    (hw : (s.harqProcesses pid).isWaiting = false) (pucch : Option SchedPucch) :
    ∃ a' f', Holds cfg (s.transmit pid pucch) n [] a' f' r ∧
      ∃ new, Flips s (s.transmit pid pucch) new := by
  cases pucch with
  | none => exact ⟨_, _, (h.finish hw).1, _, (h.finish hw).2⟩
  | some p => exact ⟨_, _, (h.await p).1, _, (h.await p).2⟩

lemma retry (h : Holds cfg s n (pid :: out) a f r)
    (hw : (s.harqProcesses pid).isWaiting = false)
    (hround : (s.harqProcesses pid).round + 1 < cfg.harqRoundMax) :
    Holds cfg (SchedCtrl.setHarq
        { s with retransDlHarq := s.retransDlHarq.addTailNrList pid } pid
        fun x => { x with round := (x.round + 1) % 2 ^ 8 }) n out a f (r ++ [pid]) := by
  have hmax := cfg.harqRoundMax_lt
  refine of_filed ((h.setHarq fun x => { x with round := (x.round + 1) % 2 ^ 8 }).filed.putRetrans ?_ ?_)
  · rw [setHarq_self]
    exact hw
  · rw [setHarq_self]
    rw [Nat.mod_eq_of_lt (by omega)]
    exact ⟨Nat.succ_pos _, hround⟩

theorem handle (h : Holds cfg s n [pid] a f r) (success : Bool) :
    ∃ a' r', Holds cfg (s.handleDlHarq cfg pid success) n [] a' f r' ∧
      ∃ new, Flips s (s.handleDlHarq cfg pid success) new ∧ ∀ q ∈ new, q = pid := by
  have hset := h.setHarq fun x => { x with feedbackSlot := 2 ^ 16 - 1, isWaiting := false }
  have hflip : Flips s (s.setHarq pid fun x =>
      { x with feedbackSlot := 2 ^ 16 - 1, isWaiting := false }) [] :=
    flips_of_ndi rfl (setHarq_ndi _ pid _ fun _ => rfl)
  have hw : ((s.setHarq pid fun x =>
      { x with feedbackSlot := 2 ^ 16 - 1, isWaiting := false }).harqProcesses pid).isWaiting
        = false := by rw [setHarq_self]
  simp only [SchedCtrl.handleDlHarq]
  generalize (s.setHarq pid fun x =>
    { x with feedbackSlot := 2 ^ 16 - 1, isWaiting := false }) = s1 at *
  have hfin := hset.finish hw
  have hdone : ∃ a' r', Holds cfg (s1.finishNrDlHarq pid) n [] a' f r' ∧
      ∃ new, Flips s (s1.finishNrDlHarq pid) new ∧ ∀ q ∈ new, q = pid :=
    ⟨_, _, hfin.1, _, hflip.trans hfin.2 nofun, fun q hq =>
      mem_singleton.mp hq⟩
  split
  · exact hdone
  · split
    · exact hdone
    · rename_i hround
      refine ⟨_, _, hset.retry hw (by omega), [], ?_, nofun⟩
      exact hflip.trans (flips_of_ndi rfl (setHarq_ndi _ pid _ fun _ => rfl)) nofun

end Holds

/-! ## Feedback -/

/-- A prefix of `feedback_dl_harq` is worked off, and the processes finished are among those. -/
def Handled (cfg : HarqConfig) (n : Nat) (s : SchedCtrl) (f : List Nat) (s' : SchedCtrl)
    (f' : List Nat) : Prop :=
  (∃ a' r', Holds cfg s' n [] a' f' r') ∧ (∃ done, f = done ++ f') ∧
    ∃ new, Flips s s' new ∧ ∀ q ∈ new, q ∈ f ∧ q ∉ f'

lemma Handled.refl (h : Holds cfg s n [] a f r) : Handled cfg n s f s f :=
  ⟨⟨a, r, h⟩, ⟨[], rfl⟩, [], .refl s, nofun⟩

lemma Handled.trans {s'' : SchedCtrl} {f' f'' : List Nat} (h : Handled cfg n s f s' f')
    (h' : Handled cfg n s' f' s'' f'') : Handled cfg n s f s'' f'' := by
  obtain ⟨-, ⟨done, hdone⟩, new, hflip, hnew⟩ := h
  obtain ⟨hholds, ⟨done', hdone'⟩, new', hflip', hnew'⟩ := h'
  refine ⟨hholds, ⟨done ++ done', by rw [hdone, hdone', append_assoc]⟩, new ++ new',
    hflip.trans hflip' fun q hq hq' => (hnew q hq).2 (hnew' q hq').1, fun q hq => ?_⟩
  rcases mem_append.mp hq with hq | hq
  · refine ⟨(hnew q hq).1, fun hmem => (hnew q hq).2 ?_⟩
    rw [hdone']; exact mem_append_right _ hmem
  · refine ⟨?_, (hnew' q hq).2⟩
    rw [hdone]; exact mem_append_right _ (hnew' q hq).1

lemma handled_head (h : Holds cfg s n [] a (pid :: f) r) (success : Bool) :
    ∃ l, s.feedbackDlHarq.removeFrontNrList = some l ∧ Handled cfg n s (pid :: f)
      (({ s with feedbackDlHarq := l } : SchedCtrl).handleDlHarq cfg pid success) f := by
  obtain ⟨l, hl, htake⟩ := h.filed.takeFeedback
  obtain ⟨a', r', hh, new, hflip, hnew⟩ :=
    Holds.handle (s := { s with feedbackDlHarq := l }) (.of_filed htake) success
  obtain ⟨-, -, hpf, -, -⟩ := htake.lists.inHand
  refine ⟨l, hl, ⟨a', r', hh⟩, ⟨[pid], rfl⟩, new, ⟨hflip.log, hflip.ndi⟩, fun q hq => ?_⟩
  rw [hnew q hq]
  exact ⟨mem_cons_self, hpf⟩

theorem findHarqLoop_handled (frame slot : Nat) :
    ∀ {fuel : Nat} {s : SchedCtrl} {a r : List Nat}, Holds cfg s n [] a f r → f.length < fuel →
      ∃ s' res f', SchedCtrl.findHarqLoop cfg frame slot fuel s = some (s', res) ∧
        Handled cfg n s f s' f' ∧ ∀ pid, res = some pid → ∃ rest, f' = pid :: rest := by
  induction f with
  | nil =>
    intro fuel s a r h hfuel
    obtain ⟨m, rfl⟩ : ∃ m, fuel = m + 1 := ⟨fuel - 1, by simp at hfuel; omega⟩
    refine ⟨s, none, [], ?_, .refl h, nofun⟩
    rw [SchedCtrl.findHarqLoop, if_pos (by rw [h.feedback.head_nil]; omega)]
  | cons pid f ih =>
    intro fuel s a r h hfuel
    obtain ⟨m, rfl⟩ : ∃ m, fuel = m + 1 := ⟨fuel - 1, by simp at hfuel; omega⟩
    have hhead := h.feedback.head_cons
    rw [SchedCtrl.findHarqLoop, if_neg (by omega)]
    simp only [hhead, Int.toNat_natCast]
    split
    · -- missed feedback: the process counts as not acknowledged
      obtain ⟨l, hl, hstep⟩ := handled_head h false
      obtain ⟨⟨a', r', hh⟩, -, -⟩ := id hstep
      obtain ⟨s', res, f', hrun, hhand, hres⟩ := ih hh (by simpa using hfuel)
      exact ⟨s', res, f', by rw [hl]; exact hrun, hstep.trans hhand, hres⟩
    · split
      · exact ⟨s, none, _, rfl, .refl h, nofun⟩
      · refine ⟨s, some pid, _, rfl, .refl h, fun q hq => ?_⟩
        cases hq
        exact ⟨f, rfl⟩

theorem harqBits_handled (frame slot : Nat) (bits : List Bool) :
    ∀ {s : SchedCtrl} {a f r : List Nat}, Holds cfg s n [] a f r →
      ∃ s' f', s.harqBits cfg frame slot bits = some s' ∧ Handled cfg n s f s' f' := by
  induction bits with
  | nil => exact fun h => ⟨_, _, rfl, .refl h⟩
  | cons success bits ih =>
    intro s a f r h
    obtain ⟨s1, res, f1, hfind, hhand, hres⟩ := findHarqLoop_handled frame slot h
      (Nat.lt_succ_of_le h.feedback.length_le)
    rw [SchedCtrl.harqBits, SchedCtrl.findHarq, hfind]
    cases res with
    | none => exact ⟨s1, f1, rfl, hhand⟩
    | some pid =>
      obtain ⟨rest, rfl⟩ := hres pid rfl
      obtain ⟨⟨a1, r1, h1⟩, -, -⟩ := id hhand
      have hw : (s1.harqProcesses pid).isWaiting = true :=
        (h1.waiting pid not_mem_nil).mpr mem_cons_self
      obtain ⟨l, hl, hstep⟩ := handled_head h1 success
      obtain ⟨⟨a2, r2, h2⟩, -, -⟩ := id hstep
      obtain ⟨s', f', hrun, hlast⟩ := ih h2
      refine ⟨s', f', ?_, (hhand.trans hstep).trans hlast⟩
      simp only [hw, if_true, hl]
      exact hrun

/-! ## Scheduled transmissions -/

lemma takeFirst_inHand {l : NrList} (h : Holds cfg s n [] a f r)
    (hl : s.availableDlHarq.removeFrontNrList = some l) :
    ∃ a', Holds cfg { s with availableDlHarq := l } n [s.availableDlHarq.head.toNat] a' f r := by
  have hhead : 0 ≤ s.availableDlHarq.head := by
    by_contra hneg
    rw [removeFrontNrList_none (by omega)] at hl
    cases hl
  obtain ⟨rest, rfl⟩ := h.available.of_head hhead
  obtain ⟨l', hl', hlists⟩ := h.filed.lists.takeFront
  cases hl.symm.trans hl'
  exact ⟨rest, .of_filed (h.filed.takeAvailable hlists fun _ hq => mem_cons_of_mem _ hq)⟩

lemma takeProcess_inHand (h : Holds cfg s n [] a f r) {wanted : Int}
    (htake : s.takeProcess wanted = some (s', pid)) :
    (∃ a' r', Holds cfg s' n [pid] a' f r') ∧ Flips s s' [] := by
  unfold SchedCtrl.takeProcess at htake
  split at htake
  · -- no process selected: the first free one
    obtain ⟨l, hl, heq⟩ := map_eq_some_iff.mp htake
    cases heq
    obtain ⟨a', hh⟩ := takeFirst_inHand h hl
    exact ⟨⟨a', r, hh⟩, flips_of_ndi rfl fun _ => rfl⟩
  split at htake
  · -- a new transmission on a selected process
    obtain ⟨l, hl, heq⟩ := map_eq_some_iff.mp htake
    cases heq
    by_cases hmem : wanted.toNat ∈ a
    · obtain ⟨l', pre, post, hl', rfl, hlists⟩ := h.filed.lists.takeId hmem
      cases hl.symm.trans hl'
      exact ⟨⟨_, r, .of_filed (h.filed.takeAvailable hlists fun _ => mem_of_take)⟩,
        flips_of_ndi rfl fun _ => rfl⟩
    · rw [h.available.removeNrList_none hmem] at hl
      cases hl
  · -- a retransmission
    obtain ⟨l, hl, heq⟩ := map_eq_some_iff.mp htake
    cases heq
    by_cases hmem : wanted.toNat ∈ r
    · obtain ⟨l', pre, post, hl', rfl, hlists⟩ := h.filed.lists.rotate.rotate.takeId hmem
      cases hl.symm.trans hl'
      exact ⟨⟨a, _, .of_filed (h.filed.takeRetrans hlists.rotate fun _ => mem_of_take)⟩,
        flips_of_ndi rfl fun _ => rfl⟩
    · rw [h.retrans.removeNrList_none hmem] at hl
      cases hl

/-- What every call keeps: the partition over some number of processes, and the NDI bookkeeping. -/
def Kept (cfg : HarqConfig) (s s' : SchedCtrl) : Prop :=
  (∃ n a f r, 0 < n ∧ Holds cfg s' n [] a f r) ∧ ∃ new, Flips s s' new

lemma nrScheduleUeSpec_kept (h : Holds cfg s n [] a f r) (hn : 0 < n) {sched : SchedPdsch}
    (hstep : s.nrScheduleUeSpec cfg sched = some s') : Kept cfg s s' := by
  unfold SchedCtrl.nrScheduleUeSpec at hstep
  split at hstep
  · cases hstep
    exact ⟨⟨n, a, f, r, hn, h⟩, [], .refl s⟩
  split at hstep
  · cases hstep
  rename_i s1 pid htake
  obtain ⟨⟨a1, r1, h1⟩, hflip1⟩ := takeProcess_inHand h htake
  split at hstep
  · cases hstep
  rename_i hw
  obtain ⟨a2, f2, h2, new, hflip2⟩ :=
    h1.transmit (Bool.eq_false_iff.mpr hw) sched.pucchAllocation
  dsimp only at hstep
  split at hstep
  · cases hstep
    exact ⟨⟨n, a2, f2, r1, hn, h2⟩, _, hflip1.trans hflip2 nofun⟩
  · cases hstep

/-! ## Reset and creation -/

theorem resetDlHarqList_kept (h : Holds cfg s n [] a f r) (hn : 0 < n) :
    ∃ s', s.resetDlHarqList = some s' ∧ Kept cfg s s' := by
  obtain ⟨fb, av, rt, av', hrun, hrun', hlists⟩ := h.filed.lists.drain
  unfold SchedCtrl.resetDlHarqList
  rw [hrun]
  simp only [hrun', map_some]
  refine ⟨_, rfl, ⟨n, a ++ f ++ r, [], [], hn, .of_filed (h.filed.reset hlists ?_ ?_)⟩, [],
    flips_of_ndi rfl ?_⟩
  · intro q hq
    simp [hq]
  · intro q hq
    simp [hq]
  · intro q
    dsimp only
    split <;> rfl

/-- Zeroed memory. -/
def SchedCtrl.zero : SchedCtrl where
  harqProcesses := fun _ => ⟨false, 0, 0, 0, 0⟩
  availableDlHarq := ⟨0, fun _ => 0, 0, 0⟩
  feedbackDlHarq := ⟨0, fun _ => 0, 0, 0⟩
  retransDlHarq := ⟨0, fun _ => 0, 0, 0⟩
  finished := []

lemma createDlHarqList_zero (hcap : n ≤ nrMaxHarqProcesses)
    (h : SchedCtrl.zero.createDlHarqList n = some s) :
    Holds cfg s n [] (List.range' 0 n) [] [] := by
  cases h
  refine .of_filed ⟨Parted.create n, hcap, fun q _ => ?_, nofun, fun _ _ => rfl, fun _ _ => rfl⟩
  exact ⟨nofun, nofun⟩

lemma createDlHarqList_kept {m : Nat} (h : Holds cfg s n [] a f r) (hn : 0 < n)
    (hcap : m ≤ nrMaxHarqProcesses) (hstep : s.createDlHarqList m = some s') : Kept cfg s s' := by
  obtain ⟨hla, hlf, hlr⟩ := h.lens
  unfold SchedCtrl.createDlHarqList at hstep
  rw [hla, hlf, hlr, if_pos ⟨rfl, rfl⟩, if_neg (by omega)] at hstep
  split at hstep
  · cases hstep
    exact ⟨⟨n, a, f, r, hn, h⟩, [], .refl s⟩
  split at hstep
  · next hlt =>
    cases hstep
    exact ⟨⟨m, _, f, r, by omega, .of_filed (h.filed.grow hlt hcap)⟩, [], flips_of_ndi rfl fun _ => rfl⟩
  · cases hstep

/-! ## Random access -/

/-- If the HARQ management is reached, either no process waits for retransmission and the free one taken
gets its PUCCH (or needs none), or one waits and the PUCCH allocation fails. -/
def UeInfo.Msg4Ok (cfg : HarqConfig) (ue : UeInfo) (env : Msg4Env) : Prop :=
  ue.Msg4Ready env → env.vrb = true →
    if ue.ctrl.retransDlHarq.head < 0 then
      cfg.feedbackDisabled ue.ctrl.availableDlHarq.head.toNat = true ∨ env.pucch ≠ none
    else cfg.feedbackDisabled ue.ctrl.retransDlHarq.head.toNat = false ∧ env.pucch = none
deriving Decidable

lemma nrGenerateMsg4MsgB_kept (h : Holds cfg ue.ctrl n [] a f r) (hn : 0 < n) {env : Msg4Env}
    (hok : ue.Msg4Ok cfg env) (hstep : ue.nrGenerateMsg4MsgB cfg env = some ue') :
    Kept cfg ue.ctrl ue'.ctrl := by
  have hsame : Kept cfg ue.ctrl ue.ctrl := ⟨⟨n, a, f, r, hn, h⟩, [], .refl _⟩
  unfold UeInfo.nrGenerateMsg4MsgB at hstep
  split at hstep
  · cases hstep; exact hsame
  rename_i hready
  split at hstep
  · cases hstep
  split at hstep
  · cases hstep; exact hsame
  rename_i hvrb
  have hok := hok (Decidable.not_not.mp hready) (by simpa using hvrb)
  unfold UeInfo.msg4Process at hstep
  split at hstep
  · cases hstep
  rename_i ctrl pid hproc
  split at hproc
  · -- a free process was taken
    rename_i hneg
    rw [if_pos hneg] at hok
    obtain ⟨l, hl, heq⟩ := map_eq_some_iff.mp hproc
    cases heq
    obtain ⟨a', hhand⟩ := takeFirst_inHand h hl
    split at hstep
    · rename_i hfail
      rcases hok with hdis | hpucch
      · rw [hdis] at hfail; cases hfail.1
      · exact absurd hfail.2 hpucch
    split at hstep
    · cases hstep
    rename_i hw
    have hsent := hhand.transmit (Bool.eq_false_iff.mpr hw)
    split at hstep
    · split at hstep
      · cases hstep
      · cases hstep
        obtain ⟨a', f', hh, new, hflip⟩ := hsent none
        exact ⟨⟨n, a', f', r, hn, hh⟩, new, hflip.log, hflip.ndi⟩
    · cases hstep
      obtain ⟨a', f', hh, new, hflip⟩ := hsent env.pucch
      exact ⟨⟨n, a', f', r, hn, hh⟩, new, hflip.log, hflip.ndi⟩
  · -- a process on the retransmission list: without a PUCCH nothing happens
    rename_i hneg
    rw [if_neg hneg] at hok
    cases hproc
    rw [if_pos hok] at hstep
    cases hstep
    exact hsame

lemma nrCheckMsg4MsgBAck_ctrl (h : Holds cfg ue.ctrl n [] a f r)
    (hstep : ue.nrCheckMsg4MsgBAck = some ue') : ue'.ctrl = ue.ctrl := by
  simp only [UeInfo.nrCheckMsg4MsgBAck] at hstep
  split at hstep
  · cases hstep; rfl
  split at hstep
  · rename_i hround
    split at hstep
    · obtain ⟨l, hl, rfl⟩ := map_eq_some_iff.mp hstep
      have hnot : ue.ra.harqPid ∉ r := fun hmem => by
        have := (h.rounds _ hmem).1
        omega
      rw [h.retrans.removeNrList_none hnot] at hl
      cases hl
    · cases hstep; rfl
  · cases hstep; rfl

/-! ## Whole runs -/

/-- What happens to the HARQ processes of a UE. -/
inductive HarqOp
  /-- Msg3 or MsgA was received: the procedure is ready for Msg4/MsgB -/
  | startRa (raType : RaType)
  | clearRa
  | nrScheduleRa (env : Msg4Env)
  | nrScheduleUeSpec (sched : SchedPdsch)
  | uciPucch01 (frame slot : Nat) (hasHarq : Bool) (harqValues : List Nat) (harqConfidence : Nat)
  | uciPucch234 (frame slot : Nat) (hasCsiMeasConfig hasHarq : Bool) (harqBitLen : Nat)
      (harqPayload : List UInt8) (harqCrc : Nat)
  | resetDlHarqList
  | createDlHarqList (nrofHarq : Nat)

namespace UeInfo

/-- One step; `none` is a failed assertion. -/
def step (cfg : HarqConfig) (ue : UeInfo) : HarqOp → Option UeInfo
  | .startRa raType => some { ue with ra := { ue.ra with raState := .msg4MsgB, raType := raType } }
  | .clearRa => some { ue with ra := Ra.clear }
  | .nrScheduleRa env => ue.nrScheduleRa cfg env
  | .nrScheduleUeSpec sched =>
    (ue.ctrl.nrScheduleUeSpec cfg sched).map fun ctrl => { ue with ctrl := ctrl }
  | .uciPucch01 frame slot hasHarq values confidence =>
    (ue.ctrl.handleNrUciPucch01 cfg frame slot hasHarq values confidence).map fun ctrl =>
      { ue with ctrl := ctrl }
  | .uciPucch234 frame slot hasCsi hasHarq bitLen payload crc =>
    (ue.ctrl.handleNrUciPucch234 cfg frame slot hasCsi hasHarq bitLen payload crc).map fun ctrl =>
      { ue with ctrl := ctrl }
  | .resetDlHarqList => ue.ctrl.resetDlHarqList.map fun ctrl => { ue with ctrl := ctrl }
  | .createDlHarqList n => (ue.ctrl.createDlHarqList n).map fun ctrl => { ue with ctrl := ctrl }

/-- The lists have just been made for `n` processes. -/
def Start (ue : UeInfo) : Prop :=
  ∃ n, 0 < n ∧ n ≤ nrMaxHarqProcesses ∧ SchedCtrl.zero.createDlHarqList n = some ue.ctrl

/-- No configuration asks for more processes than the UE context has. -/
def Configured : HarqOp → Prop
  | .createDlHarqList n => n ≤ nrMaxHarqProcesses
  | _ => True

/-- Every Msg4/MsgB generation is one that keeps the partition. -/
def Msg4OkOp (cfg : HarqConfig) (ue : UeInfo) : HarqOp → Prop
  | .nrScheduleRa env => ue.ra.raState = .msg4MsgB → ue.Msg4Ok cfg env
  | _ => True

end UeInfo

/-- One UE under arbitrary scheduler calls, indications and resets that meet `ok`. -/
def harqMachine (cfg : HarqConfig) (ok : UeInfo → HarqOp → Prop) : Spec UeInfo HarqOp where
  init := UeInfo.Start
  guard ue op := UeInfo.Configured op ∧ ok ue op
  step := UeInfo.step cfg

lemma step_kept (h : Holds cfg ue.ctrl n [] a f r) (hn : 0 < n) {op : HarqOp}
    (hcfg : UeInfo.Configured op) (hok : ue.Msg4OkOp cfg op) (hstep : ue.step cfg op = some ue') :
    Kept cfg ue.ctrl ue'.ctrl := by
  have hsame : Kept cfg ue.ctrl ue.ctrl := ⟨⟨n, a, f, r, hn, h⟩, [], .refl _⟩
  have hbits : ∀ frame slot bits s', ue.ctrl.harqBits cfg frame slot bits = some s' →
      Kept cfg ue.ctrl s' := by
    intro frame slot bits s' hs'
    obtain ⟨s1, f1, hrun, ⟨a1, r1, h1⟩, -, new, hflip, -⟩ := harqBits_handled frame slot bits h
    cases hs'.symm.trans hrun
    exact ⟨⟨n, a1, f1, r1, hn, h1⟩, new, hflip⟩
  cases op with
  | startRa raType => cases hstep; exact hsame
  | clearRa => cases hstep; exact hsame
  | nrScheduleRa env =>
    simp only [UeInfo.step, UeInfo.nrScheduleRa] at hstep
    cases hra : ue.ra.raState with
    | msg4MsgB =>
      rw [hra] at hstep
      exact nrGenerateMsg4MsgB_kept h hn (hok hra) hstep
    | waitMsg4MsgBAck =>
      rw [hra] at hstep
      rw [nrCheckMsg4MsgBAck_ctrl h hstep]
      exact hsame
    | other =>
      rw [hra] at hstep
      cases hstep
      exact hsame
  | nrScheduleUeSpec sched =>
    obtain ⟨s', hs', rfl⟩ := map_eq_some_iff.mp hstep
    exact nrScheduleUeSpec_kept h hn hs'
  | uciPucch01 frame slot hasHarq values confidence =>
    obtain ⟨s', hs', rfl⟩ := map_eq_some_iff.mp hstep
    unfold SchedCtrl.handleNrUciPucch01 at hs'
    split at hs'
    · exact hbits _ _ _ _ hs'
    · cases hs'; exact hsame
  | uciPucch234 frame slot hasCsi hasHarq bitLen payload crc =>
    obtain ⟨s', hs', rfl⟩ := map_eq_some_iff.mp hstep
    unfold SchedCtrl.handleNrUciPucch234 at hs'
    split at hs'
    · exact hbits _ _ _ _ hs'
    · cases hs'; exact hsame
  | resetDlHarqList =>
    obtain ⟨s', hs', rfl⟩ := map_eq_some_iff.mp hstep
    obtain ⟨s1, hrun, hkept⟩ := resetDlHarqList_kept h hn
    cases hs'.symm.trans hrun
    exact hkept
  | createDlHarqList m =>
    obtain ⟨s', hs', rfl⟩ := map_eq_some_iff.mp hstep
    exact createDlHarqList_kept h hn hcfg hs'

lemma reach_holds (h : Reach (harqMachine cfg fun ue op => ue.Msg4OkOp cfg op) ue) :
    ∃ n a f r, 0 < n ∧ Holds cfg ue.ctrl n [] a f r := by
  refine h.invariant (P := fun ue => ∃ n a f r, 0 < n ∧ Holds cfg ue.ctrl n [] a f r) ?_ ?_
  · rintro ue ⟨n, hn, hcap, hnew⟩
    exact ⟨n, _, _, _, hn, createDlHarqList_zero hcap hnew⟩
  · rintro ue op ue' _ ⟨n, a, f, r, hn, hh⟩ ⟨hcfg, hok⟩ hstep
    exact (step_kept hh hn hcfg hok hstep).1

/-- The HARQ partition of a state, together with what the next allowed call does to the NDIs. -/
structure PartitionClaim (cfg : HarqConfig) (ok : UeInfo → HarqOp → Prop) (ue : UeInfo) : Prop where
  exactlyOne : ∀ pid < ue.ctrl.availableDlHarq.len,
    (ue.ctrl.availableDlHarq.toList ++ ue.ctrl.feedbackDlHarq.toList
      ++ ue.ctrl.retransDlHarq.toList).count pid = 1
  waiting : ∀ pid < ue.ctrl.availableDlHarq.len,
    ((ue.ctrl.harqProcesses pid).isWaiting = true ↔ pid ∈ ue.ctrl.feedbackDlHarq.toList)
  retrans : ∀ pid ∈ ue.ctrl.retransDlHarq.toList,
    0 < (ue.ctrl.harqProcesses pid).round ∧ (ue.ctrl.harqProcesses pid).round < cfg.harqRoundMax
  available : ∀ pid ∈ ue.ctrl.availableDlHarq.toList, (ue.ctrl.harqProcesses pid).round = 0
  ndi : ∀ op ue', (harqMachine cfg ok).guard ue op → ue.step cfg op = some ue' → ∀ pid,
    ((ue'.ctrl.harqProcesses pid).ndi ≠ (ue.ctrl.harqProcesses pid).ndi ↔
      pid ∈ ue'.ctrl.finished.drop ue.ctrl.finished.length)

lemma Flips.changed_iff {new : List Nat} (h : Flips s s' new) (pid : Nat) :
    (s'.harqProcesses pid).ndi ≠ (s.harqProcesses pid).ndi ↔
      pid ∈ s'.finished.drop s.finished.length := by
  rw [h.log, drop_left, h.ndi]
  by_cases hmem : pid ∈ new
  · rw [if_pos hmem]
    refine ⟨fun _ => hmem, fun _ heq => ?_⟩
    have hxor := congrArg ((s.harqProcesses pid).ndi ^^^ ·) heq
    rw [← UInt8.xor_assoc, UInt8.xor_self, UInt8.zero_xor] at hxor
    exact absurd hxor (by decide)
  · rw [if_neg hmem]
    exact ⟨fun hne => absurd rfl hne, fun h => absurd h hmem⟩

/-- **The HARQ partition** along every run whose Msg4/MsgB generations are all of the good kind. -/
theorem partition_of_msg4Ok (cfg : HarqConfig) {ue : UeInfo}
    (h : Reach (harqMachine cfg fun ue op => ue.Msg4OkOp cfg op) ue) :
    PartitionClaim cfg (fun ue op => ue.Msg4OkOp cfg op) ue := by
  obtain ⟨n, a, f, r, hn, hh⟩ := reach_holds h
  refine ⟨?_, ?_, ?_, ?_, ?_⟩
  · intro pid hpid
    rw [hh.lens.1] at hpid
    have hc := hh.count pid
    rw [if_pos hpid, count_nil] at hc
    rw [hh.available.toList_eq, hh.feedback.toList_eq, hh.retrans.toList_eq, count_append,
      count_append]
    omega
  · intro pid _
    rw [hh.feedback.toList_eq]
    exact hh.waiting pid not_mem_nil
  · intro pid hpid
    rw [hh.retrans.toList_eq] at hpid
    exact hh.rounds pid hpid
  · intro pid hpid
    rw [hh.available.toList_eq] at hpid
    exact hh.fresh pid hpid
  · intro op ue' hg hstep pid
    obtain ⟨-, new, hflip⟩ := step_kept hh hn hg.1 hg.2 hstep
    exact hflip.changed_iff pid

/-- Four rounds, feedback for every process. -/
def fourRounds : HarqConfig where
  harqRoundMax := 4
  feedbackDisabled := fun _ => false
  harqRoundMax_lt := by decide

/-- A UE with two processes. -/
def twoProcesses : UeInfo where
  ctrl := (SchedCtrl.zero.createDlHarqList 2).get (by decide)
  ra := Ra.clear

lemma twoProcesses_start : twoProcesses.Start := ⟨2, by decide, by decide, by rfl⟩

/-- Everything that Msg4 needs is found. -/
def allFound (pucch : Option SchedPucch) : Msg4Env :=
  ⟨true, true, true, true, true, true, true, pucch⟩

instance (cfg : HarqConfig) (ue : UeInfo) :
    ∀ op, Decidable ((harqMachine cfg fun ue op => ue.Msg4OkOp cfg op).guard ue op)
  | .nrScheduleRa _ => inferInstanceAs (Decidable (True ∧ (_ → _)))
  | .createDlHarqList _ => inferInstanceAs (Decidable (_ ≤ _ ∧ True))
  | .startRa _ | .clearRa | .nrScheduleUeSpec _ | .uciPucch01 .. | .uciPucch234 ..
  | .resetDlHarqList => isTrue ⟨trivial, trivial⟩

theorem partition_of_msg4Ok_nack :
    ∃ ue, Reach (harqMachine fourRounds fun ue op => ue.Msg4OkOp fourRounds op) ue ∧
      (ue.ctrl.availableDlHarq.toList = [0] ∧ ue.ctrl.retransDlHarq.toList = [1]) ∧
      PartitionClaim fourRounds (fun ue op => ue.Msg4OkOp fourRounds op) ue := by
  obtain ⟨ue, hue, hlists⟩ := Reach.exists_of_run
    (P := fun ue => ue.ctrl.availableDlHarq.toList = [0] ∧ ue.ctrl.retransDlHarq.toList = [1])
    (m := harqMachine fourRounds fun ue op => ue.Msg4OkOp fourRounds op)
    (.start twoProcesses_start)
    [.startRa .fourStep, .nrScheduleRa (allFound (some ⟨1, 7⟩)), .uciPucch01 1 7 true [0] 0,
      .nrScheduleRa (allFound none), .nrScheduleUeSpec ⟨-1, 5, some ⟨2, 7⟩⟩,
      .uciPucch01 2 7 true [1] 0] (by decide)
  exact ⟨ue, hue, hlists, partition_of_msg4Ok fourRounds hue⟩

instance (cfg : HarqConfig) (ue : UeInfo) :
    ∀ op, Decidable ((harqMachine cfg fun _ _ => True).guard ue op)
  | .createDlHarqList _ => inferInstanceAs (Decidable (_ ≤ _ ∧ True))
  | .nrScheduleRa _ | .startRa _ | .clearRa | .nrScheduleUeSpec _ | .uciPucch01 ..
  | .uciPucch234 .. | .resetDlHarqList => isTrue ⟨trivial, trivial⟩

/-- **A process leaks**: Msg4 takes process 0, no PUCCH occasion is found, and process 0 is on
none of the three lists. -/
theorem partition_leaks : ¬ ∀ ue, Reach (harqMachine fourRounds fun _ _ => True) ue →
    PartitionClaim fourRounds (fun _ _ => True) ue := by
  intro h
  obtain ⟨ue, hue, hlen, hlost⟩ := Reach.exists_of_run
    (P := fun ue => 0 < ue.ctrl.availableDlHarq.len ∧
      (ue.ctrl.availableDlHarq.toList ++ ue.ctrl.feedbackDlHarq.toList
        ++ ue.ctrl.retransDlHarq.toList).count 0 = 0)
    (m := harqMachine fourRounds fun _ _ => True) (.start twoProcesses_start)
    [.startRa .fourStep, .nrScheduleRa (allFound none)] (by decide)
  have := (h ue hue).exactlyOne 0 hlen
  omega

-- the retransmission of a Msg4 leaves process 0 on two lists
example : ((harqMachine fourRounds fun _ _ => True).run twoProcesses
    [.startRa .fourStep, .nrScheduleRa (allFound (some ⟨1, 7⟩)), .uciPucch01 1 7 true [1] 0,
      .nrScheduleRa (allFound none), .nrScheduleRa (allFound (some ⟨2, 7⟩))]).map
    (fun ue => (ue.ctrl.feedbackDlHarq.toList, ue.ctrl.retransDlHarq.toList))
      = some ([0], [0]) := by decide

end NrStack.Mac
