/-
  The two queues between PDCP and RLC (`nr_pdcp_oai_api.c`): `enqueue_rlc_data_req` with
  `rlc_data_req_thread`, `enqueue_pdcp_data_ind` with `pdcp_data_ind_thread`.

  PROGRAM   a ring under one mutex, with ONE condition variable for producers that find it full and for
            the thread that finds it empty.  The thread reads its item without the mutex, and takes it
            off the ring only afterwards.
  CRUX      no more producers sleep than there are items (`QueueInv.sleepers`): so a thread that sleeps,
            on an empty ring, sleeps alone, and the signal of the next producer is for it.
-/
import NrStack.Lib.Circular
import NrStack.Lib.Machine

namespace NrStack.Stack

open List Machine

/-- `RLC_DATA_REQ_QUEUE_SIZE` -/
def rlcDataReqQueueSize : Nat := 10000

/-- `PDCP_DATA_IND_QUEUE_SIZE` -/
def pdcpDataIndQueueSize : Nat := 10000

/-- Where the thread of a queue is: before the test of `length`, in `pthread_cond_wait`, with the index
it read under the mutex, or behind the call that handles the item. -/
inductive Worker
  | awake
  | asleep
  | took (i : Nat)
  | handled
  deriving DecidableEq

/-- `rlc_data_req_queue` and `pdcp_data_ind_queue`, with the thread and the number of producers in
`pthread_cond_wait`; `enqueued` and `handed` are histories.  A cell never written is `none`. -/
structure DataQueue (α : Type) where
  q : Nat → Option α
  start : Nat
  length : Nat
  worker : Worker
  sleepers : Nat
  enqueued : List α
  handed : List (Option α)

namespace DataQueue

variable {α : Type}

/-- `pthread_cond_signal` wakes one that waits, if any: `forWorker` is whom it prefers. -/
def signal (s : DataQueue α) (forWorker : Bool) : DataQueue α :=
  if s.worker = .asleep ∧ (forWorker = true ∨ s.sleepers = 0) then { s with worker := .awake }
  else { s with sleepers := s.sleepers - 1 }

/-- A producer with the mutex: it goes to sleep on a full ring, or writes its item and signals. -/
def enqueue (size : Nat) (s : DataQueue α) (item : α) (forWorker : Bool) : DataQueue α :=
  if s.length = size then { s with sleepers := s.sleepers + 1 }
  else signal { s with
    q := Function.update s.q ((s.start + s.length) % size) (some item)
    length := s.length + 1
    enqueued := s.enqueued ++ [item] } forWorker

/-- The next step of the thread. -/
def work (size : Nat) (s : DataQueue α) (forWorker : Bool) : DataQueue α :=
  match s.worker with
  | .awake => { s with worker := if s.length = 0 then .asleep else .took s.start }
  | .asleep => s
  | .took i => { s with handed := s.handed ++ [s.q i], worker := .handled }
  | .handled => signal { s with
      length := s.length - 1, start := (s.start + 1) % size, worker := .awake } forWorker

end DataQueue

/-- `rlc_data_req_queue_item`; of the context only the UE it names. -/
structure RlcDataReqItem where
  ue : Nat
  srbFlag : Bool
  mbmsFlag : Bool
  rbId : Int
  mui : Int
  confirm : Int
  sdu : List UInt8
  deriving DecidableEq

/-- `pdcp_data_ind_queue_item`. -/
structure PdcpDataIndItem where
  ue : Nat
  srbFlag : Bool
  mbmsFlag : Bool
  rbId : Int
  sduBuffer : List UInt8
  deriving DecidableEq

/-- `enqueue_rlc_data_req`, from the lock on to the signal or to `pthread_cond_wait`. -/
def enqueueRlcDataReq (s : DataQueue RlcDataReqItem) (item : RlcDataReqItem) (forWorker : Bool) :
    DataQueue RlcDataReqItem :=
  s.enqueue rlcDataReqQueueSize item forWorker

/-- `rlc_data_req_thread`, one stretch with or without the mutex. -/
def rlcDataReqThread (s : DataQueue RlcDataReqItem) (forWorker : Bool) : DataQueue RlcDataReqItem :=
  s.work rlcDataReqQueueSize forWorker

/-- `enqueue_pdcp_data_ind`. -/
def enqueuePdcpDataInd (s : DataQueue PdcpDataIndItem) (item : PdcpDataIndItem) (forWorker : Bool) :
    DataQueue PdcpDataIndItem :=
  s.enqueue pdcpDataIndQueueSize item forWorker

/-- `pdcp_data_ind_thread`. -/
def pdcpDataIndThread (s : DataQueue PdcpDataIndItem) (forWorker : Bool) : DataQueue PdcpDataIndItem :=
  s.work pdcpDataIndQueueSize forWorker

/-- A step of a producer or of the worker thread. -/
inductive QueueOp (α : Type)
  | enqueue (item : α) (forWorker : Bool)
  | work (forWorker : Bool)
  /-- a wake-up without a signal, of the thread or of a producer -/
  | spurious (ofWorker : Bool)

/-- A queue of `size` items and `producers` threads that enqueue: of those one that runs is not
asleep. -/
def queueMachine (α : Type) (size producers : Nat) : Spec (DataQueue α) (QueueOp α) where
  init s := s = ⟨fun _ => none, 0, 0, .awake, 0, [], []⟩
  guard s
    | .enqueue _ _ => s.sleepers < producers
    | .work _ | .spurious _ => True
  step s
    | .enqueue item forWorker => some (s.enqueue size item forWorker)
    | .work forWorker => some (s.work size forWorker)
    | .spurious true => some { s with worker := if s.worker = .asleep then .awake else s.worker }
    | .spurious false => some { s with sleepers := s.sleepers - 1 }

/-- The queue from PDCP to RLC. -/
def rlcDataReqMachine (producers : Nat) : Spec (DataQueue RlcDataReqItem) (QueueOp RlcDataReqItem) :=
  { queueMachine RlcDataReqItem rlcDataReqQueueSize producers with
    step := fun s op =>
      match op with
      | .enqueue item forWorker => some (enqueueRlcDataReq s item forWorker)
      | .work forWorker => some (rlcDataReqThread s forWorker)
      | op => (queueMachine RlcDataReqItem rlcDataReqQueueSize producers).step s op }

/-- The queue from RLC to PDCP. -/
def pdcpDataIndMachine (producers : Nat) : Spec (DataQueue PdcpDataIndItem) (QueueOp PdcpDataIndItem) :=
  { queueMachine PdcpDataIndItem pdcpDataIndQueueSize producers with
    step := fun s op =>
      match op with
      | .enqueue item forWorker => some (enqueuePdcpDataInd s item forWorker)
      | .work forWorker => some (pdcpDataIndThread s forWorker)
      | op => (queueMachine PdcpDataIndItem pdcpDataIndQueueSize producers).step s op }

lemma rlcDataReqMachine_eq (producers : Nat) :
    rlcDataReqMachine producers = queueMachine RlcDataReqItem rlcDataReqQueueSize producers := by
  have hstep : (rlcDataReqMachine producers).step =
      (queueMachine RlcDataReqItem rlcDataReqQueueSize producers).step := by
    funext s op
    cases op <;> rfl
  exact congrArg (Spec.mk _ _) hstep

lemma pdcpDataIndMachine_eq (producers : Nat) :
    pdcpDataIndMachine producers = queueMachine PdcpDataIndItem pdcpDataIndQueueSize producers := by
  have hstep : (pdcpDataIndMachine producers).step =
      (queueMachine PdcpDataIndItem pdcpDataIndQueueSize producers).step := by
    funext s op
    cases op <;> rfl
  exact congrArg (Spec.mk _ _) hstep

/-- The thread sleeps on an empty ring only, and works on its first item. -/
def DataQueue.WorkerOk {α : Type} (s : DataQueue α) : Worker → Prop
  | .awake => True
  | .asleep => s.length = 0
  | .took i => i = s.start ∧ 0 < s.length
  | .handled => 0 < s.length

/-- `n` items are off the ring, the next `length` of those enqueued are on it, each in its cell. -/
structure QueueInv {α : Type} (size : Nat) (s : DataQueue α) (n : Nat) : Prop where
  start : s.start = n % size
  room : s.length ≤ size
  count : s.enqueued.length = n + s.length
  cells : ∀ k, n ≤ k → k < n + s.length → s.q (k % size) = s.enqueued[k]?
  handed : s.handed = (s.enqueued.take (n + if s.worker = .handled then 1 else 0)).map some
  worker : s.WorkerOk s.worker
  sleepers : s.sleepers ≤ s.length

section

variable {α : Type} {size n : Nat} {s : DataQueue α}

/-- The new item goes behind the last one, into a cell that holds no item. -/
theorem QueueInv.enqueue_cells (h : QueueInv size s n) (hfull : s.length ≠ size) (item : α) (k : Nat)
    (hlow : n ≤ k) (hhigh : k < n + (s.length + 1)) :
    Function.update s.q ((s.start + s.length) % size) (some item) (k % size) =
      (s.enqueued ++ [item])[k]? := by
  have hroom := h.room
  have hcount := h.count
  rw [h.start, Nat.mod_add_mod]
  by_cases hk : k = n + s.length
  · rw [hk, Function.update_self, ← hcount, getElem?_concat_length]
  · have hne : k % size ≠ (n + s.length) % size := fun heq =>
      hk (Circular.eq_of_mod hlow (by omega) (by omega) (by omega) heq)
    rw [Function.update_of_ne hne, h.cells k hlow (by omega), getElem?_append_left (by omega)]

theorem QueueInv.handed_le (h : QueueInv size s n) :
    n + (if s.worker = .handled then 1 else 0) ≤ s.enqueued.length := by
  have hworker := h.worker
  rw [h.count]
  split
  · next hw =>
    rw [hw] at hworker
    exact Nat.add_le_add_left hworker n
  · exact Nat.le_add_right n _

theorem DataQueue.WorkerOk.longer {w : Worker} (h : s.WorkerOk w) (hw : w ≠ .asleep) {s' : DataQueue α}
    (hstart : s'.start = s.start) (hlength : s.length ≤ s'.length) : s'.WorkerOk w := by
  cases w with
  | awake => trivial
  | asleep => exact absurd rfl hw
  | took i => exact ⟨h.1.trans hstart.symm, h.2.trans_le hlength⟩
  | handled => exact lt_of_lt_of_le h hlength

theorem QueueInv.enqueue (h : QueueInv size s n) (item : α) (b : Bool) (hsleep : s.sleepers < size) :
    QueueInv size (s.enqueue size item b) n := by
  obtain ⟨hstart, hroom, hcount, -, hhanded, hworker, hsleepers⟩ := id h
  rw [DataQueue.enqueue]
  by_cases hfull : s.length = size
  · rw [if_pos hfull]
    exact { h with sleepers := show s.sleepers + 1 ≤ s.length by omega }
  have hroom' : s.length + 1 ≤ size := by omega
  have hlength : (s.enqueued ++ [item]).length = n + (s.length + 1) := by
    rw [length_append, hcount, length_singleton, Nat.add_assoc]
  have hhanded' : s.handed = ((s.enqueued ++ [item]).take _).map some :=
    hhanded.trans (congrArg _ (take_append_of_le_length h.handed_le).symm)
  rw [if_neg hfull, DataQueue.signal]
  by_cases hw : s.worker = .asleep
  · -- the ring was empty, so no producer sleeps and the signal is for the thread
    rw [hw] at hworker hhanded'
    have hzero : s.length = 0 := hworker
    rw [if_pos ⟨hw, .inr (show s.sleepers = 0 by omega)⟩]
    exact ⟨hstart, hroom', hlength, h.enqueue_cells hfull item, hhanded', trivial,
      hsleepers.trans (Nat.le_succ _)⟩
  · rw [if_neg fun hp => hw hp.1]
    exact ⟨hstart, hroom', hlength, h.enqueue_cells hfull item, hhanded',
      hworker.longer hw rfl (Nat.le_succ _), (Nat.sub_le _ _).trans (hsleepers.trans (Nat.le_succ _))⟩

/-- The item that is handed on is the next one, though its cell is read without the mutex. -/
theorem QueueInv.work (h : QueueInv size s n) (b : Bool) : ∃ n', QueueInv size (s.work size b) n' := by
  obtain ⟨hstart, hroom, hcount, hcells, hhanded, hworker, hsleepers⟩ := id h
  rw [DataQueue.work]
  cases hw : s.worker with
  | awake =>
    rw [hw] at hhanded
    by_cases hzero : s.length = 0
    · simp only [if_pos hzero]
      exact ⟨n, hstart, hroom, hcount, hcells, hhanded, hzero, hsleepers⟩
    · simp only [if_neg hzero]
      exact ⟨n, hstart, hroom, hcount, hcells, hhanded, ⟨rfl, Nat.pos_of_ne_zero hzero⟩, hsleepers⟩
  | asleep => exact ⟨n, h⟩
  | took i =>
    rw [hw] at hhanded hworker
    obtain ⟨rfl, hpos⟩ := hworker
    refine ⟨n, hstart, hroom, hcount, hcells, ?_, hpos, hsleepers⟩
    show s.handed ++ [s.q s.start] = (s.enqueued.take (n + 1)).map some
    rw [hstart, hcells n (le_refl n) (by omega), hhanded, take_add_one, map_append,
      getElem?_eq_getElem (by omega)]
    rfl
  | handled =>
    rw [hw] at hhanded hworker
    have hpos : 0 < s.length := hworker
    show ∃ n', QueueInv size (DataQueue.signal _ b) n'
    rw [DataQueue.signal, if_neg (by rintro ⟨⟨⟩, -⟩)]
    refine ⟨n + 1, ?_, ?_, ?_, fun k hlow hhigh => ?_, hhanded, trivial, ?_⟩
    · show (s.start + 1) % size = (n + 1) % size
      rw [hstart, Nat.mod_add_mod]
    · show s.length - 1 ≤ size
      omega
    · show s.enqueued.length = n + 1 + (s.length - 1)
      omega
    · have hhigh : k < n + 1 + (s.length - 1) := hhigh
      exact hcells k (by omega) (by omega)
    · show s.sleepers - 1 ≤ s.length - 1
      omega

theorem queueInv_reach {producers : Nat} (hproducers : producers ≤ size)
    (h : Reach (queueMachine α size producers) s) : ∃ n, QueueInv size s n := by
  refine h.invariant (P := fun s => ∃ n, QueueInv size s n) ?_ ?_
  · rintro s rfl
    exact ⟨0, (Nat.zero_mod _).symm, Nat.zero_le _, rfl, fun _ _ hk => absurd hk (Nat.not_lt_zero _), rfl,
      trivial, le_refl 0⟩
  · rintro s op s' - ⟨n, hinv⟩ hguard hstep
    cases op with
    | enqueue item b =>
      cases hstep
      exact ⟨n, hinv.enqueue item b (lt_of_lt_of_le hguard hproducers)⟩
    | work b =>
      cases hstep
      exact hinv.work b
    | spurious ofWorker =>
      cases ofWorker with
      | true =>
        cases hstep
        by_cases hw : s.worker = .asleep
        · have hhanded := hinv.handed
          rw [hw] at hhanded
          simp only [if_pos hw]
          exact ⟨n, hinv.start, hinv.room, hinv.count, hinv.cells, hhanded, trivial, hinv.sleepers⟩
        · simp only [if_neg hw]
          exact ⟨n, hinv⟩
      | false =>
        cases hstep
        exact ⟨n, { hinv with sleepers := le_trans (Nat.sub_le _ _) hinv.sleepers }⟩

end

/-- **The queues lose nothing.**  With at most as many producers as items on the ring, whatever the
interleaving: the items handed on are the first ones enqueued, in order, and only a ring full of them
is not handed on yet; a thread that sleeps has handed on everything, and no producer sleeps then; and
whoever finds room leaves the thread awake. -/
theorem data_queue_fifo {α : Type} {size producers : Nat} (hproducers : producers ≤ size)
    {s : DataQueue α} (h : Reach (queueMachine α size producers) s) :
    s.handed <+: s.enqueued.map some ∧ s.enqueued.length ≤ s.handed.length + size ∧
      (s.worker = .asleep → s.handed = s.enqueued.map some ∧ s.sleepers = 0) ∧
      ∀ item b, s.length ≠ size → (s.enqueue size item b).worker ≠ .asleep := by
  obtain ⟨n, hinv⟩ := queueInv_reach hproducers h
  obtain ⟨-, hroom, hcount, -, hhanded, hworker, hsleepers⟩ := hinv
  refine ⟨?_, ?_, fun hw => ?_, fun item b hfull hw => ?_⟩
  · rw [hhanded]
    exact IsPrefix.map some ⟨_, take_append_drop _ _⟩
  · rw [hhanded, length_map, length_take]
    omega
  · rw [hw] at hworker hhanded
    have hzero : s.length = 0 := hworker
    have hall : s.enqueued.length ≤ n := by omega
    exact ⟨hhanded.trans (congrArg _ (take_of_length_le hall)), by omega⟩
  · rw [DataQueue.enqueue, if_neg hfull, DataQueue.signal] at hw
    split at hw
    · cases hw
    · next hno =>
      have hw : s.worker = .asleep := hw
      rw [hw] at hworker
      have hzero : s.length = 0 := hworker
      exact hno ⟨hw, .inr (show s.sleepers = 0 by omega)⟩

instance (α : Type) (size producers : Nat) (s : DataQueue α) :
    ∀ op, Decidable ((queueMachine α size producers).guard s op)
  | .enqueue _ _ => inferInstanceAs (Decidable (_ < _))
  | .work _ | .spurious _ => .isTrue trivial

/-- Two SDUs of a DRB through either queue. -/
theorem data_queue_fifo_two :
    (∃ s, Reach (rlcDataReqMachine 2) s ∧
      s.handed = [some ⟨1, false, false, 1, 5, 0, [7]⟩, some ⟨1, false, false, 1, 6, 0, [8]⟩] ∧
      s.handed <+: s.enqueued.map some) ∧
    ∃ s, Reach (pdcpDataIndMachine 2) s ∧
      s.handed = [some ⟨1, false, false, 1, [7]⟩, some ⟨1, false, false, 1, [8]⟩] ∧
      s.handed <+: s.enqueued.map some := by
  rw [rlcDataReqMachine_eq, pdcpDataIndMachine_eq]
  constructor
  · obtain ⟨s, hs, hhanded⟩ := Reach.exists_of_run
      (P := fun s => s.handed = [some ⟨1, false, false, 1, 5, 0, [7]⟩, some ⟨1, false, false, 1, 6, 0, [8]⟩])
      (m := queueMachine RlcDataReqItem rlcDataReqQueueSize 2) (.start rfl)
      [.work true, .enqueue ⟨1, false, false, 1, 5, 0, [7]⟩ true, .work true,
        .enqueue ⟨1, false, false, 1, 6, 0, [8]⟩ false, .work true, .work true, .work true,
        .enqueue ⟨1, false, false, 1, 7, 0, [9]⟩ true, .work true] (by decide)
    exact ⟨s, hs, hhanded, (data_queue_fifo (by decide) hs).1⟩
  · obtain ⟨s, hs, hhanded⟩ := Reach.exists_of_run
      (P := fun s => s.handed = [some ⟨1, false, false, 1, [7]⟩, some ⟨1, false, false, 1, [8]⟩])
      (m := queueMachine PdcpDataIndItem pdcpDataIndQueueSize 2) (.start rfl)
      [.enqueue ⟨1, false, false, 1, [7]⟩ true, .work true, .enqueue ⟨1, false, false, 1, [8]⟩ false,
        .work true, .work true, .work true, .work true] (by decide)
    exact ⟨s, hs, hhanded, (data_queue_fifo (by decide) hs).1⟩

end NrStack.Stack
