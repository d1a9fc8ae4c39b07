/-
  The uplink HARQ processes are partitioned.

  `UlHolds` is the invariant: three lists and the ids in hand (`Parted`), and what the lists say about the
  processes on them.  `handle_nr_ul_harq` works through the feedback list in order (`skipUnexpected_spec`).
  `ul_harq_partition`, for whole runs: whatever the preprocessor selects, `nr_schedule_ulsch` ends in an
  assertion of the LIST primitives before it could end in one about `is_waiting` or `round`.
-/
import NrStack.Lib.Machine
import NrStack.Mac.HarqLists
import NrStack.Mac.UlHarq

namespace NrStack.Mac

open List Machine NrList Function

/-! ## The invariant -/

/-- `a`, `f`, `r` are the contents of the three lists over `n` configured processes, `out` the ids
in hand. -/
structure UlHolds (cfg : UlHarqConfig) (s : UlSchedCtrl) (n : Nat) (out a f r : List Nat) :
    Prop where
  lists : Parted s.availableUlHarq s.feedbackUlHarq s.retransUlHarq n out a f r
  cap : n ≤ nrMaxHarqProcesses
  waiting : ∀ q, q ∉ out → ((s.ulHarqProcesses q).isWaiting = true ↔ q ∈ f)
  rounds : ∀ q ∈ r, 0 < (s.ulHarqProcesses q).round ∧
    (s.ulHarqProcesses q).round < cfg.harqRoundMax
  fresh : ∀ q ∈ a, (s.ulHarqProcesses q).round = 0
  idle : ∀ q, n ≤ q → (s.ulHarqProcesses q).round = 0

lemma setUlHarq_self (s : UlSchedCtrl) (pid : Nat) (g : UlHarq → UlHarq) :
    (s.setHarq pid g).ulHarqProcesses pid = g (s.ulHarqProcesses pid) := update_self ..

lemma setUlHarq_of_ne (s : UlSchedCtrl) {pid q : Nat} (g : UlHarq → UlHarq) (h : q ≠ pid) :
    (s.setHarq pid g).ulHarqProcesses q = s.ulHarqProcesses q := update_of_ne h ..

open UlSchedCtrl

namespace UlHolds

variable {cfg : UlHarqConfig} {s : UlSchedCtrl} {n pid : Nat} {out a f r : List Nat}

lemma filed (h : UlHolds cfg s n out a f r) : Filed s.availableUlHarq s.feedbackUlHarq s.retransUlHarq n
    cfg.harqRoundMax (fun q => (s.ulHarqProcesses q).isWaiting) (fun q => (s.ulHarqProcesses q).round)
    out a f r := ⟨h.lists, h.cap, h.waiting, h.rounds, h.fresh, h.idle⟩

lemma of_filed (h : Filed s.availableUlHarq s.feedbackUlHarq s.retransUlHarq n cfg.harqRoundMax
      (fun q => (s.ulHarqProcesses q).isWaiting) (fun q => (s.ulHarqProcesses q).round) out a f r) :
    UlHolds cfg s n out a f r := ⟨h.lists, h.cap, h.waits, h.rounds, h.fresh, h.idle⟩

section

variable (h : UlHolds cfg s n (pid :: out) a f r)
include h

lemma setHarq (g : UlHarq → UlHarq) :
    UlHolds cfg (s.setHarq pid g) n (pid :: out) a f r := by
  refine of_filed (h.filed.change (fun q hq => ?_) fun q hq => ?_)
  · rw [setUlHarq_of_ne s g hq]
  · rw [setUlHarq_of_ne s g hq]

section

variable (hw : (s.ulHarqProcesses pid).isWaiting = false)
include hw

lemma finish :
    UlHolds cfg (s.finishNrUlHarq pid) n out (a ++ [pid]) f r := by
  refine of_filed ((h.setHarq UlHarq.restart).filed.putAvailable ?_ ?_)
  · rw [setUlHarq_self]
    exact hw
  · rw [setUlHarq_self]
    rfl

lemma abort :
    UlHolds cfg (s.abortNrUlHarq pid) n out (a ++ [pid]) f r :=
  have hfin := h.finish hw
  ⟨hfin.lists, hfin.cap, hfin.waiting, hfin.rounds, hfin.fresh, hfin.idle⟩

lemma retry (hround : (s.ulHarqProcesses pid).round + 1 < cfg.harqRoundMax) :
    UlHolds cfg { s.setHarq pid UlHarq.nextRound with
      retransUlHarq := s.retransUlHarq.addTailNrList pid } n out a f (r ++ [pid]) := by
  have hmax := cfg.harqRoundMax_lt
  refine of_filed ((h.setHarq UlHarq.nextRound).filed.putRetrans ?_ ?_)
  · rw [setUlHarq_self]
    exact hw
  · rw [setUlHarq_self, UlHarq.nextRound, Nat.mod_eq_of_lt (by omega)]
    exact ⟨Nat.succ_pos _, hround⟩

lemma retryOrAbort :
    ∃ a' r', UlHolds cfg (s.retryOrAbort cfg pid) n out a' f r' := by
  rw [UlSchedCtrl.retryOrAbort]
  split
  · exact ⟨_, _, h.abort hw⟩
  · exact ⟨_, _, h.retry hw (by omega)⟩

end

end

lemma takeFeedback (h : UlHolds cfg s n [] a (pid :: f) r) (g : UlHarq → UlHarq) :
    ∃ l, removeFront s.feedbackUlHarq = .ok l ∧
      UlHolds cfg (({ s with feedbackUlHarq := l } : UlSchedCtrl).setHarq pid g) n [pid] a f r := by
  obtain ⟨l, hl, htake⟩ := h.filed.takeFeedback
  exact ⟨l, by rw [removeFront, hl],
    UlHolds.setHarq (of_filed htake) g⟩

end UlHolds

/-! ## CRC indications -/

/-- What no CRC changes: the grants. -/
def SameGrants (s s' : UlSchedCtrl) : Prop :=
  s'.schedPusch = s.schedPusch ∧
    ∀ q, (s'.ulHarqProcesses q).schedPusch = (s.ulHarqProcesses q).schedPusch

variable {s s' : UlSchedCtrl} {cfg : UlHarqConfig} {n : Nat} {f a r : List Nat}

lemma SameGrants.trans {s'' : UlSchedCtrl} (h : SameGrants s s') (h' : SameGrants s' s'') :
    SameGrants s s'' := ⟨h'.1.trans h.1, fun q => (h'.2 q).trans (h.2 q)⟩

lemma setHarq_sameGrants (s : UlSchedCtrl) (pid : Nat) {g : UlHarq → UlHarq}
    (hg : ∀ x, (g x).schedPusch = x.schedPusch) : SameGrants s (s.setHarq pid g) := by
  refine ⟨rfl, fun q => ?_⟩
  by_cases hq : q = pid
  · rw [hq, setUlHarq_self, hg]
  · rw [setUlHarq_of_ne s g hq]

lemma finishNrUlHarq_sameGrants (s : UlSchedCtrl) (pid : Nat) :
    SameGrants s (s.finishNrUlHarq pid) :=
  setHarq_sameGrants s pid (g := UlHarq.restart) fun _ => rfl

lemma retryOrAbort_sameGrants (cfg : UlHarqConfig) (s : UlSchedCtrl) (pid : Nat) :
    SameGrants s (s.retryOrAbort cfg pid) := by
  rw [UlSchedCtrl.retryOrAbort]
  split
  · exact ⟨(finishNrUlHarq_sameGrants s pid).1, (finishNrUlHarq_sameGrants s pid).2⟩
  · exact ⟨rfl, (setHarq_sameGrants s pid (g := UlHarq.nextRound) fun _ => rfl).2⟩

theorem skipUnexpected_spec (harqId : Nat) :
    ∀ {fuel : Nat} {s : UlSchedCtrl} {a r : List Nat}, UlHolds cfg s n [] a f r →
      f.length < fuel → ∃ s' found skipped rest a' r',
        skipUnexpected cfg harqId fuel s = .ok (s', found) ∧ f = skipped ++ rest ∧
        harqId ∉ skipped ∧ UlHolds cfg s' n [] a' rest r' ∧ SameGrants s s' ∧
        ((found = none ∧ rest = []) ∨ (found = some harqId ∧ ∃ post, rest = harqId :: post)) := by
  induction f with
  | nil =>
    intro fuel s a r h hfuel
    obtain ⟨m, rfl⟩ : ∃ m, fuel = m + 1 := ⟨fuel - 1, by simp at hfuel; omega⟩
    refine ⟨s, none, [], [], a, r, ?_, rfl, not_mem_nil, h, ⟨rfl, fun _ => rfl⟩,
      .inl ⟨rfl, rfl⟩⟩
    rw [skipUnexpected, if_pos (by rw [h.lists.second.head_nil]; omega)]
  | cons pid f ih =>
    intro fuel s a r h hfuel
    obtain ⟨m, rfl⟩ : ∃ m, fuel = m + 1 := ⟨fuel - 1, by simp at hfuel; omega⟩
    have hhead := h.lists.second.head_cons
    rw [skipUnexpected, if_neg (by omega)]
    simp only [hhead, Int.toNat_natCast]
    by_cases hid : harqId = pid
    · rw [if_pos hid]
      refine ⟨s, some pid, [], pid :: f, a, r, rfl, rfl, not_mem_nil, h, ⟨rfl, fun _ => rfl⟩,
        .inr ?_⟩
      rw [hid]
      exact ⟨rfl, f, rfl⟩
    · rw [if_neg hid]
      obtain ⟨l, hl, htake⟩ := h.takeFeedback UlHarq.stopWaiting
      obtain ⟨a', r', hnext⟩ := htake.retryOrAbort (by rw [setUlHarq_self]; rfl)
      obtain ⟨s', found, skipped, rest, a'', r'', hrun, hsplit, hnot, hholds, hsame, hend⟩ :=
        ih hnext (by simpa using hfuel)
      refine ⟨s', found, pid :: skipped, rest, a'', r'', ?_, by rw [hsplit]; rfl, ?_, hholds, ?_,
        hend⟩
      · rw [hl]
        exact hrun
      · exact fun hin => (mem_cons.mp hin).elim hid hnot
      · refine SameGrants.trans ?_ ((retryOrAbort_sameGrants cfg _ pid).trans hsame)
        exact setHarq_sameGrants { s with feedbackUlHarq := l } pid
          fun _ => rfl

/-- A CRC takes the processes up to its own out of the feedback list. -/
theorem handleNrUlHarq_spec (h : UlHolds cfg s n [] a f r) (msg3 : Bool) (harqId : Nat)
    (crcStatus : Bool) :
    ∃ s' a' f' r', handleNrUlHarq cfg s msg3 harqId crcStatus = .ok s' ∧
      UlHolds cfg s' n [] a' f' r' ∧ SameGrants s s' ∧ (∃ gone, f = gone ++ f') ∧
      (cfg.disableHarq = false → msg3 = false → ∀ pre post, f = pre ++ harqId :: post →
        f' = post) := by
  have hstay : ∃ s' a' f' r', Except.ok (ε := Assertion) s = .ok s' ∧
      UlHolds cfg s' n [] a' f' r' ∧ SameGrants s s' ∧ ∃ gone, f = gone ++ f' :=
    ⟨s, a, f, r, rfl, h, ⟨rfl, fun _ => rfl⟩, [], rfl⟩
  rw [handleNrUlHarq]
  split
  · next hdis =>
    obtain ⟨s', a', f', r', heq, hh, hsame, hgone⟩ := hstay
    refine ⟨s', a', f', r', heq, hh, hsame, hgone, fun hen => ?_⟩
    rw [hdis] at hen
    cases hen
  split
  · next hmsg =>
    obtain ⟨s', a', f', r', heq, hh, hsame, hgone⟩ := hstay
    refine ⟨s', a', f', r', heq, hh, hsame, hgone, fun _ hno => ?_⟩
    rw [hmsg] at hno
    cases hno
  obtain ⟨s', found, skipped, rest, a', r', hrun, hsplit, hnot, hholds, hsame, hend⟩ :=
    skipUnexpected_spec harqId h (Nat.lt_succ_of_le h.lists.second.length_le)
  simp only [hrun, bind, Except.bind]
  rcases hend with ⟨rfl, rfl⟩ | ⟨rfl, post, rfl⟩
  · refine ⟨s', a', [], r', rfl, hholds, hsame, ⟨f, (append_nil f).symm⟩, ?_⟩
    intro _ _ pre post hf
    -- the process expected was not on the list
    refine absurd ?_ hnot
    rw [← append_nil skipped, ← hsplit, hf]
    exact mem_append_right _ mem_cons_self
  · have hw : (s'.ulHarqProcesses harqId).isWaiting = true :=
      (hholds.waiting harqId not_mem_nil).mpr mem_cons_self
    obtain ⟨l, hl, htake⟩ := hholds.takeFeedback UlHarq.received
    have hmove : ∃ a'' r'', UlHolds cfg (if crcStatus = true then
          (setHarq { s' with feedbackUlHarq := l } harqId UlHarq.received).retryOrAbort cfg harqId
        else (setHarq { s' with feedbackUlHarq := l } harqId UlHarq.received).finishNrUlHarq harqId)
        n [] a'' post r'' := by
      split
      · exact htake.retryOrAbort (by rw [setUlHarq_self]; rfl)
      · exact ⟨_, _, htake.finish (by rw [setUlHarq_self]; rfl)⟩
    obtain ⟨a'', r'', hfinal⟩ := hmove
    simp only [hl, hw, Bool.not_true, Bool.false_eq_true, if_false]
    refine ⟨_, a'', post, r'', rfl, hfinal, ?_, ⟨skipped ++ [harqId], ?_⟩, ?_⟩
    · refine hsame.trans ((setHarq_sameGrants { s' with feedbackUlHarq := l } harqId
        (g := UlHarq.received) fun _ => rfl).trans ?_)
      split
      · exact retryOrAbort_sameGrants cfg _ harqId
      · exact finishNrUlHarq_sameGrants _ harqId
    · rw [hsplit, append_assoc]
      rfl
    · intro _ _ pre post' hf
      -- the process expected is on the list once
      have hnodup := h.lists.second.nodup
      rw [hsplit] at hnodup
      have hpost : harqId ∉ post :=
        (nodup_cons.mp (nodup_append.mp hnodup).2.1).1
      have heq : skipped ++ harqId :: post = pre ++ harqId :: post' := hsplit.symm.trans hf
      exact ((append_cons_inj_of_notMem hnot hpost).mp heq).2.2

/-! ## Scheduled transmissions -/

/-- The process taken by `nr_schedule_ulsch`: in hand, not waiting, with a round that fits. -/
structure Taken (cfg : UlHarqConfig) (s : UlSchedCtrl) (n : Nat) (a f r : List Nat)
    (s' : UlSchedCtrl) (pid : Nat) : Prop where
  holds : ∃ a' r', UlHolds cfg s' n [pid] a' f r' ∧ (∀ q ∈ a', q ∈ a) ∧ ∀ q ∈ r', q ∈ r
  processes : s'.ulHarqProcesses = s.ulHarqProcesses
  schedPusch : s'.schedPusch = s.schedPusch
  from_ : pid ∈ a ∨ pid ∈ r

section Schedule

variable {cfg : UlHarqConfig} {s s' : UlSchedCtrl} {n pid : Nat} {a f r : List Nat}

section

variable (h : UlHolds cfg s n [] a f r)
include h

lemma UlHolds.takeAvailable {l : NrList} {a' : List Nat}
    (hlists : Parted l s.feedbackUlHarq s.retransUlHarq n [pid] a' f r) (hmem : pid ∈ a)
    (hsub : ∀ q ∈ a', q ∈ a) : Taken cfg s n a f r { s with availableUlHarq := l } pid := by
  exact ⟨⟨a', r, .of_filed (h.filed.takeAvailable hlists hsub), hsub, fun _ hq => hq⟩, rfl, rfl, .inl hmem⟩

lemma UlHolds.takeRetrans {l : NrList} {r' : List Nat}
    (hlists : Parted s.availableUlHarq s.feedbackUlHarq l n [pid] a f r') (hmem : pid ∈ r)
    (hsub : ∀ q ∈ r', q ∈ r) : Taken cfg s n a f r { s with retransUlHarq := l } pid := by
  exact ⟨⟨a, r', .of_filed (h.filed.takeRetrans hlists hsub), fun _ hq => hq, hsub⟩, rfl, rfl, .inr hmem⟩

/-- A process is taken, or one of two assertions fails. -/
theorem takeProcess_spec (wanted : Int) :
    (∃ s' pid, s.takeProcess wanted = .ok (s', pid) ∧ Taken cfg s n a f r s' pid ∧
      (0 ≤ wanted → pid = wanted.toNat)) ∨
    (s.takeProcess wanted = .error .noFreeProcess ∧ wanted < 0 ∧ a = []) ∨
    (s.takeProcess wanted = .error .idNotFound ∧ 0 ≤ wanted ∧ wanted.toNat ∉ a ∧
      wanted.toNat ∉ r) := by
  rw [UlSchedCtrl.takeProcess]
  split
  · next hneg =>
    cases a with
    | nil =>
      rw [if_pos (by rw [h.lists.first.head_nil]; omega)]
      exact .inr (.inl ⟨rfl, hneg, rfl⟩)
    | cons pid a =>
      have hhead := h.lists.first.head_cons
      obtain ⟨l, hl, hlists⟩ := h.lists.takeFront
      refine .inl ⟨_, pid, ?_, h.takeAvailable hlists mem_cons_self fun _ hq =>
        mem_cons_of_mem _ hq, fun hpos => by omega⟩
      rw [if_neg (by omega), removeFront, hl, hhead]
      rfl
  next hpos =>
  have hpos : 0 ≤ wanted := by omega
  by_cases ha : wanted.toNat ∈ a
  · rw [if_pos (h.fresh _ ha)]
    obtain ⟨l, pre, post, hl, rfl, hlists⟩ := h.lists.takeId ha
    refine .inl ⟨_, wanted.toNat, ?_, h.takeAvailable hlists ha fun _ => mem_of_take,
      fun _ => rfl⟩
    rw [removeId, hl]
    rfl
  by_cases hr : wanted.toNat ∈ r
  · have hround := (h.rounds _ hr).1
    rw [if_neg (by omega)]
    obtain ⟨l, pre, post, hl, rfl, hlists⟩ := h.lists.rotate.rotate.takeId hr
    refine .inl ⟨_, wanted.toNat, ?_, h.takeRetrans hlists.rotate hr fun _ => mem_of_take,
      fun _ => rfl⟩
    rw [removeId, hl]
    rfl
  · refine .inr (.inr ⟨?_, hpos, ha, hr⟩)
    rw [removeId, removeId, h.lists.first.removeNrList_none ha, h.lists.third.removeNrList_none hr]
    split
    · rfl
    · rfl

lemma Taken.notWaiting (ht : Taken cfg s n a f r s' pid) :
    (s'.ulHarqProcesses pid).isWaiting = false := by
  rw [ht.processes, Bool.eq_false_iff, ne_eq, h.waiting pid not_mem_nil]
  rcases ht.from_ with hin | hin
  · exact (h.lists.exclusive hin).2.1
  · exact (h.lists.rotate.rotate.exclusive hin).2.2.1

lemma Taken.round_lt (ht : Taken cfg s n a f r s' pid)
    (hmax : 0 < cfg.harqRoundMax) : (s'.ulHarqProcesses pid).round < cfg.harqRoundMax := by
  rw [ht.processes]
  rcases ht.from_ with hin | hin
  · rw [h.fresh pid hin]
    exact hmax
  · exact (h.rounds pid hin).2

end

lemma UlHolds.transmit {out : List Nat} (h : UlHolds cfg s n (pid :: out) a f r)
    (hw : (s.ulHarqProcesses pid).isWaiting = false) :
    ∃ a' f', UlHolds cfg (s.transmit cfg pid) n out a' f' r ∧
      (cfg.disableHarq = true ∧ a' = a ++ [pid] ∧ f' = f ∨
        cfg.disableHarq = false ∧ a' = a ∧ f' = f ++ [pid]) := by
  rw [UlSchedCtrl.transmit]
  split
  · next hdis => exact ⟨_, _, h.finish hw, .inl ⟨hdis, rfl, rfl⟩⟩
  · next hdis =>
    refine ⟨a, f ++ [pid], .of_filed ?_, .inr ⟨Bool.eq_false_iff.mpr hdis, rfl, rfl⟩⟩
    refine (h.filed.change (fun q hq => ?_) fun q hq => ?_).putFeedback ?_
    · simp only [UlSchedCtrl.setHarq, update_of_ne hq]
    · simp only [UlSchedCtrl.setHarq, update_of_ne hq]
    · simp [UlSchedCtrl.setHarq]

lemma UlHolds.saveGrant {out : List Nat} (h : UlHolds cfg s n out a f r) (pid : Nat) :
    UlHolds cfg { s.saveGrant pid with schedPusch := .zero } n out a f r := by
  have hsame : ∀ q, ((s.saveGrant pid).ulHarqProcesses q).isWaiting =
        (s.ulHarqProcesses q).isWaiting ∧
      ((s.saveGrant pid).ulHarqProcesses q).round = (s.ulHarqProcesses q).round := by
    intro q
    rw [UlSchedCtrl.saveGrant]
    split
    · by_cases hq : q = pid
      · subst hq
        simp only [UlSchedCtrl.setHarq, update_self]
        exact ⟨trivial, trivial⟩
      · simp only [UlSchedCtrl.setHarq, update_of_ne hq]
        exact ⟨trivial, trivial⟩
    · exact ⟨rfl, rfl⟩
  have hlists : Parted (s.saveGrant pid).availableUlHarq (s.saveGrant pid).feedbackUlHarq
      (s.saveGrant pid).retransUlHarq n out a f r := by
    rw [UlSchedCtrl.saveGrant]
    split <;> exact h.lists
  exact ⟨hlists, h.cap, fun q hq => ((hsame q).1 ▸ h.waiting q hq), fun q hq => ((hsame q).2 ▸ h.rounds q hq),
    fun q hq => (hsame q).2.trans (h.fresh q hq), fun q hq => (hsame q).2.trans (h.idle q hq)⟩

lemma transmit_round_le (cfg : UlHarqConfig) (s : UlSchedCtrl) (pid : Nat) :
    ((s.transmit cfg pid).ulHarqProcesses pid).round ≤ (s.ulHarqProcesses pid).round := by
  rw [UlSchedCtrl.transmit]
  split
  · simp only [UlSchedCtrl.finishNrUlHarq, UlSchedCtrl.setHarq, update_self]
    exact Nat.zero_le _
  · simp only [UlSchedCtrl.setHarq, update_self]
    exact Nat.le_refl _

theorem nrScheduleUlsch_spec (h : UlHolds cfg s n [] a f r) :
    (∃ s' a' f' r', nrScheduleUlsch cfg s = .ok s' ∧ UlHolds cfg s' n [] a' f' r') ∨
    (∃ e, nrScheduleUlsch cfg s = .error e ∧
      ((e = .noFreeProcess ∧ s.schedPusch.ulHarqPid < 0 ∧ a = []) ∨
        (e = .idNotFound ∧ 0 ≤ s.schedPusch.ulHarqPid ∧ s.schedPusch.ulHarqPid.toNat ∉ a ∧
          s.schedPusch.ulHarqPid.toNat ∉ r) ∨
        (e = .round ∧ cfg.harqRoundMax = 0))) := by
  rw [nrScheduleUlsch]
  split
  · exact .inl ⟨s, a, f, r, rfl, h⟩
  rcases takeProcess_spec h s.schedPusch.ulHarqPid with
    ⟨s', pid, htake, ht, -⟩ | ⟨herr, hneg, hnil⟩ | ⟨herr, hpos, hna, hnr⟩
  · simp only [htake, bind, Except.bind]
    rw [if_neg (by rw [ht.notWaiting h]; exact Bool.false_ne_true)]
    obtain ⟨a', r', hhand, -, -⟩ := ht.holds
    obtain ⟨a'', f'', hsent, -⟩ := hhand.transmit (ht.notWaiting h)
    by_cases hround : ((s'.transmit cfg pid).ulHarqProcesses pid).round < cfg.harqRoundMax
    · rw [if_pos hround]
      exact .inl ⟨_, a'', f'', r', rfl, hsent.saveGrant pid⟩
    · rw [if_neg hround]
      refine .inr ⟨.round, rfl, .inr (.inr ⟨rfl, ?_⟩)⟩
      by_contra hmax
      have hlt := ht.round_lt h (Nat.pos_of_ne_zero hmax)
      have hle := transmit_round_le cfg s' pid
      omega
  · simp only [herr, bind, Except.bind]
    exact .inr ⟨.noFreeProcess, rfl, .inl ⟨rfl, hneg, hnil⟩⟩
  · simp only [herr, bind, Except.bind]
    exact .inr ⟨.idNotFound, rfl, .inr (.inl ⟨rfl, hpos, hna, hnr⟩)⟩

end Schedule

/-! ## Reset and creation -/

theorem resetUlHarqList_spec (h : UlHolds cfg s n [] a f r) :
    ∃ s', s.resetUlHarqList = .ok s' ∧ UlHolds cfg s' n [] (a ++ f ++ r) [] [] := by
  obtain ⟨lf, la, lr, la', hrun, hrun', hlists⟩ := h.lists.drain
  rw [resetUlHarqList, hrun]
  simp only [hrun']
  refine ⟨_, rfl, .of_filed (h.filed.reset hlists ?_ ?_)⟩
  · intro q hq
    simp [hq]
  · intro q hq
    simp [hq]

/-- Zeroed memory. -/
def UlSchedCtrl.zero : UlSchedCtrl where
  ulHarqProcesses := fun _ => ⟨false, 0, 0, 0, .zero⟩
  availableUlHarq := ⟨0, fun _ => 0, 0, 0⟩
  feedbackUlHarq := ⟨0, fun _ => 0, 0, 0⟩
  retransUlHarq := ⟨0, fun _ => 0, 0, 0⟩
  schedPusch := .zero
  schedUlBytes := 0

lemma createUlHarqList_zero (hcap : n ≤ nrMaxHarqProcesses)
    (h : UlSchedCtrl.zero.createUlHarqList n = .ok s) :
    UlHolds cfg s n [] (List.range' 0 n) [] [] := by
  cases h
  refine ⟨Parted.create n, hcap, ?_, nofun, fun _ _ => rfl, fun _ _ => rfl⟩
  intro q _
  exact ⟨nofun, nofun⟩

lemma createUlHarqList_spec {m : Nat} (h : UlHolds cfg s n [] a f r) (hn : 0 < n)
    (hcap : m ≤ nrMaxHarqProcesses) (hstep : s.createUlHarqList m = .ok s') :
    ∃ n' a', 0 < n' ∧ UlHolds cfg s' n' [] a' f r := by
  have hlen := h.lists.lens.1
  rw [createUlHarqList, hlen, if_neg (by omega)] at hstep
  split at hstep
  · cases hstep
    exact ⟨n, a, hn, h⟩
  split at hstep
  · next hlt =>
    cases hstep
    exact ⟨m, _, by omega, .of_filed (h.filed.grow hlt hcap)⟩
  · cases hstep

/-! ## Whole runs -/

/-- What happens to the HARQ processes of a UE. -/
inductive UlHarqOp
  /-- the preprocessor left `sched` in `sched_pusch`, and `nr_schedule_ulsch` runs -/
  | schedule (sched : SchedPusch)
  | crc (msg3 : Bool) (harqId : Nat) (crcStatus : Bool)
  | resetUlHarqList
  | createUlHarqList (nrofHarq : Nat)

/-- One step. -/
def UlSchedCtrl.step (cfg : UlHarqConfig) (s : UlSchedCtrl) : UlHarqOp →
    Except Assertion UlSchedCtrl
  | .schedule sched => nrScheduleUlsch cfg { s with schedPusch := sched }
  | .crc msg3 harqId crcStatus => handleNrUlHarq cfg s msg3 harqId crcStatus
  | .resetUlHarqList => s.resetUlHarqList
  | .createUlHarqList n => s.createUlHarqList n

/-- One UE under arbitrary scheduling decisions, CRC indications, resets and reconfigurations, with
at most as many processes as the UE context has. -/
def ulHarqMachine (cfg : UlHarqConfig) : Spec UlSchedCtrl UlHarqOp where
  init s := ∃ n, 0 < n ∧ n ≤ nrMaxHarqProcesses ∧ UlSchedCtrl.zero.createUlHarqList n = .ok s
  guard _ op := match op with
    | .createUlHarqList n => n ≤ nrMaxHarqProcesses
    | _ => True
  step s op := (s.step cfg op).toOption

lemma toOption_eq_some {ε α : Type} {x : Except ε α} {y : α} (h : x.toOption = some y) :
    x = .ok y := by
  cases x with
  | error e => cases h
  | ok z =>
    cases h
    rfl

lemma UlHolds.setSched {out : List Nat} (h : UlHolds cfg s n out a f r) (sched : SchedPusch) :
    UlHolds cfg { s with schedPusch := sched } n out a f r :=
  ⟨h.lists, h.cap, h.waiting, h.rounds, h.fresh, h.idle⟩

lemma ulStep_holds (h : UlHolds cfg s n [] a f r) (hn : 0 < n) {op : UlHarqOp}
    (hguard : (ulHarqMachine cfg).guard s op) (hstep : s.step cfg op = .ok s') :
    ∃ n' a' f' r', 0 < n' ∧ UlHolds cfg s' n' [] a' f' r' := by
  cases op with
  | schedule sched =>
    rcases nrScheduleUlsch_spec (h.setSched sched) with
      ⟨t, a', f', r', hrun, hh⟩ | ⟨e, herr, -⟩
    · cases hstep.symm.trans hrun
      exact ⟨n, a', f', r', hn, hh⟩
    · exact nomatch hstep.symm.trans herr
  | crc msg3 harqId crcStatus =>
    obtain ⟨t, a', f', r', hrun, hh, -⟩ := handleNrUlHarq_spec h msg3 harqId crcStatus
    cases hstep.symm.trans hrun
    exact ⟨n, a', f', r', hn, hh⟩
  | resetUlHarqList =>
    obtain ⟨t, hrun, hh⟩ := resetUlHarqList_spec h
    cases hstep.symm.trans hrun
    exact ⟨n, _, _, _, hn, hh⟩
  | createUlHarqList m =>
    obtain ⟨n', a', hn', hh⟩ := createUlHarqList_spec h hn hguard hstep
    exact ⟨n', a', f, r, hn', hh⟩

/-- The HARQ partition of a state, and what the next call can and cannot do. -/
structure UlPartition (cfg : UlHarqConfig) (s : UlSchedCtrl) : Prop where
  exactlyOne : ∀ pid < s.availableUlHarq.len,
    (s.availableUlHarq.toList ++ s.feedbackUlHarq.toList ++ s.retransUlHarq.toList).count pid = 1
  waiting : ∀ pid < s.availableUlHarq.len,
    ((s.ulHarqProcesses pid).isWaiting = true ↔ pid ∈ s.feedbackUlHarq.toList)
  available : ∀ pid ∈ s.availableUlHarq.toList, (s.ulHarqProcesses pid).round = 0
  retrans : ∀ pid ∈ s.retransUlHarq.toList,
    1 ≤ (s.ulHarqProcesses pid).round ∧ (s.ulHarqProcesses pid).round ≤ cfg.harqRoundMax - 1
  /-- whatever is selected, the assertions on `is_waiting` and `round` hold -/
  asserts : ∀ sched, s.step cfg (.schedule sched) ≠ .error .isWaiting ∧
    (0 < cfg.harqRoundMax → s.step cfg (.schedule sched) ≠ .error .round)
  /-- a free process, or one that waits for retransmission, can be scheduled -/
  scheduled : 0 < cfg.harqRoundMax → ∀ sched : SchedPusch,
    (sched.ulHarqPid < 0 ∧ s.availableUlHarq.toList ≠ [] ∨ 0 ≤ sched.ulHarqPid ∧
      sched.ulHarqPid.toNat ∈ s.availableUlHarq.toList ++ s.retransUlHarq.toList) →
    ∃ s', s.step cfg (.schedule sched) = .ok s'
  /-- no CRC fails an assertion, and the processes in front of the one it is for have left -/
  crc : ∀ msg3 harqId crcStatus, ∃ s', s.step cfg (.crc msg3 harqId crcStatus) = .ok s' ∧
    (cfg.disableHarq = false → msg3 = false → ∀ pre post,
      s.feedbackUlHarq.toList = pre ++ harqId :: post → s'.feedbackUlHarq.toList = post ∧
        ∀ q ∈ pre, q ∉ s'.feedbackUlHarq.toList)
  reset : ∃ s', s.step cfg .resetUlHarqList = .ok s'

/-- **The uplink HARQ partition** in every state of every run. -/
theorem ul_harq_partition (cfg : UlHarqConfig) {s : UlSchedCtrl} (h : Reach (ulHarqMachine cfg) s) :
    UlPartition cfg s := by
  have hholds : ∃ n a f r, 0 < n ∧ UlHolds cfg s n [] a f r := by
    refine h.invariant (P := fun s => ∃ n a f r, 0 < n ∧ UlHolds cfg s n [] a f r) ?_ ?_
    · rintro s ⟨n, hn, hcap, hnew⟩
      exact ⟨n, _, _, _, hn, createUlHarqList_zero hcap hnew⟩
    · rintro s op s' _ ⟨n, a, f, r, hn, hh⟩ hguard hstep
      exact ulStep_holds hh hn hguard (toOption_eq_some hstep)
  obtain ⟨n, a, f, r, hn, hh⟩ := hholds
  have hla := hh.lists.first.toList_eq
  have hlf := hh.lists.second.toList_eq
  have hlr := hh.lists.third.toList_eq
  refine ⟨?_, ?_, ?_, ?_, ?_, ?_, ?_, ?_⟩
  · intro pid hpid
    rw [hh.lists.lens.1] at hpid
    rw [hla, hlf, hlr, count_append, count_append]
    exact hh.lists.cover hpid
  · intro pid _
    rw [hlf]
    exact hh.waiting pid not_mem_nil
  · intro pid hpid
    rw [hla] at hpid
    exact hh.fresh pid hpid
  · intro pid hpid
    rw [hlr] at hpid
    have := hh.rounds pid hpid
    omega
  · intro sched
    rw [UlSchedCtrl.step]
    rcases nrScheduleUlsch_spec (hh.setSched sched) with ⟨s', _, _, _, hrun, -⟩ | ⟨e, herr, hcases⟩
    · rw [hrun]
      exact ⟨nofun, nofun⟩
    · rw [herr]
      rcases hcases with ⟨rfl, -⟩ | ⟨rfl, -⟩ | ⟨rfl, hzero⟩
      · exact ⟨nofun, nofun⟩
      · exact ⟨nofun, nofun⟩
      · exact ⟨nofun, fun hmax => absurd hzero (Nat.ne_of_gt hmax)⟩
  · intro hmax sched hsel
    rw [hla, hlr] at hsel
    rcases nrScheduleUlsch_spec (hh.setSched sched) with ⟨s', _, _, _, hrun, -⟩ | ⟨e, -, hcases⟩
    · exact ⟨s', hrun⟩
    · exfalso
      rcases hcases with ⟨-, hneg, hnil⟩ | ⟨-, hpos, hna, hnr⟩ | ⟨-, hzero⟩
      · have hneg : sched.ulHarqPid < 0 := hneg
        rcases hsel with ⟨-, hfree⟩ | ⟨hpos, -⟩
        · exact hfree hnil
        · omega
      · have hpos : 0 ≤ sched.ulHarqPid := hpos
        rcases hsel with ⟨hneg, -⟩ | ⟨-, hmem⟩
        · omega
        · exact (mem_append.mp hmem).elim hna hnr
      · omega
  · intro msg3 harqId crcStatus
    obtain ⟨s', a', f', r', hrun, hh', -, -, hfront⟩ :=
      handleNrUlHarq_spec hh msg3 harqId crcStatus
    refine ⟨s', hrun, ?_⟩
    intro hen hno pre post hf
    rw [hlf] at hf
    have hpost := hfront hen hno pre post hf
    rw [hh'.lists.second.toList_eq]
    refine ⟨hpost, ?_⟩
    intro q hq hin
    have hnodup := hh.lists.second.nodup
    rw [hf] at hnodup
    rw [hpost] at hin
    exact (nodup_append.mp hnodup).2.2 q hq q (mem_cons_of_mem _ hin) rfl
  · obtain ⟨s', hrun, -⟩ := resetUlHarqList_spec hh
    exact ⟨s', hrun⟩

lemma four_lt_uint8 : 4 < 2 ^ 8 := by decide

/-- Four rounds, with HARQ. -/
def ulFourRounds : UlHarqConfig where
  harqRoundMax := 4
  disableHarq := false
  harqRoundMax_lt := four_lt_uint8

instance (cfg : UlHarqConfig) (s : UlSchedCtrl) : ∀ op, Decidable ((ulHarqMachine cfg).guard s op)
  | .createUlHarqList _ => inferInstanceAs (Decidable (_ ≤ _))
  | .schedule _ | .crc .. | .resetUlHarqList => isTrue trivial

/-- A grant of five RBs for a process yet to be chosen. -/
def newGrant : SchedPusch := { SchedPusch.zero with rbSize := 5, ulHarqPid := -1 }

theorem ul_harq_partition_crc : ∃ s, Reach (ulHarqMachine ulFourRounds) s ∧
    (s.availableUlHarq.toList = [1] ∧ s.feedbackUlHarq.toList = [2] ∧
      s.retransUlHarq.toList = [0]) ∧ UlPartition ulFourRounds s := by
  obtain ⟨s, hs, hlists⟩ := Reach.exists_of_run
    (P := fun s => s.availableUlHarq.toList = [1] ∧ s.feedbackUlHarq.toList = [2] ∧
      s.retransUlHarq.toList = [0])
    (m := ulHarqMachine ulFourRounds) (.start ⟨3, by decide, by decide, rfl⟩)
    [.schedule newGrant, .schedule newGrant, .schedule newGrant, .crc false 1 false] (by decide)
  exact ⟨s, hs, hlists, ul_harq_partition ulFourRounds hs⟩

end NrStack.Mac
