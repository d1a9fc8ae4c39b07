/-
  nFAPI P7 reassembly: what is dispatched is what was sent.

  The receiver counts segments.  As long as none comes that the waiting message already has, the count is
  the number of filled slots (`EntryOk`); with a message of at most 65535 bytes the 16-bit length and
  offsets are exact, and the join gives the message back (`join_spec`).
-/
import NrStack.Nfapi.P7Datagrams

namespace NrStack.Nfapi

open List Gather Function

/-! ## Joining -/

/-- What the segment contributes: only the first keeps its header. -/
def part (data : Nat → List UInt8) (i : Nat) : List UInt8 :=
  if i > 0 then (data i).drop headerLength else data i

section Join

variable {segments : Nat → Option (List UInt8)} {data : Nat → List UInt8}

lemma joinedLength_eq :
    ∀ (is : List Nat) (length : Nat),
      (∀ i ∈ is, segments i = some (data i) ∧ headerLength ≤ (data i).length) →
      length + (is.flatMap (part data)).length < 65536 →
      joinedLength segments is length = length + (is.flatMap (part data)).length := by
  intro is
  induction is with
  | nil =>
    intro length _ _
    rfl
  | cons i is ih =>
    intro length hall hlt
    obtain ⟨hsome, hlen⟩ := hall i mem_cons_self
    have hpart : (part data i).length = (data i).length - if i > 0 then headerLength else 0 := by
      unfold part
      split
      · rw [length_drop]
      · rfl
    have hhead : (if i > 0 then headerLength else 0) ≤ (data i).length := by
      split <;> omega
    rw [flatMap_cons, length_append] at hlt ⊢
    have hlength : (length + 65536 + segmentLength segments i -
        if i > 0 then headerLength else 0) % 65536 = length + (part data i).length := by
      unfold segmentLength
      rw [hsome, hpart]
      change (length + 65536 + (data i).length - _) % 65536 = _
      omega
    rw [joinedLength, hlength, ih _ (fun j hj => hall j (mem_cons_of_mem i hj)) (by omega)]
    omega

lemma copySegments_eq :
    ∀ (is : List Nat) (written rest : List UInt8),
      (∀ i ∈ is, segments i = some (data i) ∧ headerLength ≤ (data i).length) →
      (is.flatMap (part data)).length ≤ rest.length →
      written.length + (is.flatMap (part data)).length < 65536 →
      copySegments segments is (written ++ rest) written.length =
        some (written ++ is.flatMap (part data) ++ rest.drop (is.flatMap (part data)).length) := by
  intro is
  induction is with
  | nil =>
    intro written rest _ _ _
    simp [copySegments]
  | cons i is ih =>
    intro written rest hall hfits hlt
    obtain ⟨hsome, hlen⟩ := hall i mem_cons_self
    rw [flatMap_cons, length_append] at hfits hlt
    have hcopy : copyTo (written ++ rest) written.length (part data i) =
        some ((written ++ part data i) ++ rest.drop (part data i).length) := by
      unfold copyTo
      rw [if_pos (by rw [length_append]; omega), take_left' rfl, ← drop_drop,
        drop_left' rfl]
    have hpart : (if i > 0 then (data i).drop headerLength else data i) = part data i := rfl
    rw [copySegments, hsome]
    simp only [Option.getD_some]
    rw [if_neg fun hc => not_lt.mpr hlen hc.2, hpart, hcopy]
    simp only
    have hoffset : (written.length + (part data i).length) % 65536 =
        (written ++ part data i).length := by
      rw [length_append]
      exact Nat.mod_eq_of_lt (by omega)
    rw [hoffset, ih _ _ (fun j hj => hall j (mem_cons_of_mem i hj))
      (by rw [length_drop]; omega) (by rw [length_append]; omega)]
    rw [flatMap_cons, drop_drop, length_append, append_assoc written]

end Join

section Message

variable {cfg : Config} {m : Message}

section

variable (hroom : headerLength < cfg.segmentSize) (hcount : segmentCount cfg m.pack ≤ 128)
  (hcut : IsCut cfg m)
include hroom hcount hcut

lemma flatMap_part :
    (List.range (segmentCount cfg m.pack)).flatMap (part (datagram cfg m)) =
      (datagram cfg m 0).take headerLength ++ m.body := by
  have hpos : 0 < segBodyLen cfg := Nat.sub_pos_of_lt hroom
  have hbody : 0 < m.body.length := by
    have hlong : m.pack.length > cfg.segmentSize := hcut
    rw [length_pack] at hlong
    omega
  obtain ⟨henough, -, hpos'⟩ := segmentCount_spec hpos hbody
  obtain ⟨k, hk⟩ : ∃ k, segmentCount cfg m.pack = k + 1 :=
    ⟨segmentCount cfg m.pack - 1, by omega⟩
  have hslices := flatMap_slice henough
  have hfirst := datagram_facts hcount hpos'
  rw [hk, range_succ_eq_map, flatMap_cons] at hslices ⊢
  -- behind the first, a part is a piece
  have hrest : (List.map Nat.succ (List.range k)).flatMap (part (datagram cfg m)) =
      (List.map Nat.succ (List.range k)).flatMap (slice (segBodyLen cfg) m.body) := by
    refine flatMap_congr fun i hi => ?_
    obtain ⟨j, hj, rfl⟩ := mem_map.mp hi
    have hlt : j + 1 < segmentCount cfg m.pack := by
      have := mem_range.mp hj
      omega
    exact (datagram_facts hcount hlt).body
  rw [hrest]
  conv_rhs => rw [← hslices, ← hfirst.body, ← append_assoc, take_append_drop]
  rfl

lemma sameMessage_joined :
    SameMessage m ((datagram cfg m 0).take headerLength ++ m.body) := by
  have htwo := two_le_segmentCount hcut hroom
  have hfirst := datagram_facts hcount (i := 0) (by omega)
  have hlen : ((datagram cfg m 0).take headerLength).length = headerLength := by
    rw [length_take, hfirst.length]
    omega
  refine ⟨?_, ?_, ?_, ?_⟩
  · rw [length_append, hlen, length_pack]
  · rw [take_append_of_le_length (by rw [hlen]; decide), take_take]
    exact hfirst.first
  · rw [byteAt_append_left (by rw [hlen]; decide), byteAt_take (by decide), (byteAt_pack_mss m).2]
    exact hfirst.sequence
  · rw [drop_append_of_le_length (by rw [hlen]; decide), hfirst.stamp]
    conv_rhs => rw [← take_append_drop headerLength m.pack, drop_pack]
    have hpack : (m.pack.take headerLength).length = headerLength := by rw [take_pack]; rfl
    rw [drop_append_of_le_length (by rw [hpack]; decide)]

/-- All segments joined are the message. -/
theorem join_spec (hshort : m.pack.length ≤ 65535)
    (rx : Rx) {msg : RxMessage} (hexpected : msg.numSegmentsExpected = segmentCount cfg m.pack)
    (hsegments : ∀ i < segmentCount cfg m.pack, msg.segments i = some (datagram cfg m i)) :
    ∃ buffer length, join rx msg = some (buffer, length) ∧ SameMessage m (buffer.take length) := by
  have hsame := sameMessage_joined hroom hcount hcut
  have hparts := flatMap_part hroom hcount hcut
  have hlen : ((List.range (segmentCount cfg m.pack)).flatMap (part (datagram cfg m))).length =
      m.pack.length := by
    rw [hparts, hsame.length]
  have hall : ∀ i ∈ List.range (segmentCount cfg m.pack),
      msg.segments i = some (datagram cfg m i) ∧ headerLength ≤ (datagram cfg m i).length := by
    intro i hi
    have hi' := mem_range.mp hi
    refine ⟨hsegments i hi', ?_⟩
    rw [(datagram_facts hcount hi').length]
    exact Nat.le_add_right _ _
  have hlength := joinedLength_eq _ 0 hall (by omega)
  rw [Nat.zero_add, hlen] at hlength
  have hroom' : m.pack.length ≤ (bufferFor rx.reassemblyBuffer m.pack.length).length := by
    unfold bufferFor
    split
    · rw [length_replicate]
    · split
      · rw [length_replicate]
      · omega
  have hcopy := copySegments_eq _ [] (bufferFor rx.reassemblyBuffer m.pack.length) hall
    (by omega) (by rw [length_nil]; omega)
  unfold join
  rw [hexpected, if_neg (by omega)]
  dsimp only
  rw [hlength]
  rw [nil_append, length_nil, nil_append, hparts] at hcopy
  rw [hcopy]
  refine ⟨_, _, rfl, ?_⟩
  rw [← hsame.length, take_left' rfl]
  exact hsame

end

end Message

/-! ## The queue -/

/-- The sequence numbers that wait. -/
def keys (queue : List RxMessage) : List Nat := queue.map RxMessage.sequenceNumber

lemma pending_cons (e : RxMessage) (queue : List RxMessage) (q : Nat) :
    pending (e :: queue) q = if e.sequenceNumber = q then some e else pending queue q := by
  unfold pending
  rw [find?_cons]
  by_cases h : e.sequenceNumber = q
  · rw [if_pos h, beq_iff_eq.mpr h]
  · rw [if_neg h, beq_eq_false_iff_ne.mpr h]

variable {queue : List RxMessage} {q : Nat}

lemma pending_mem {e : RxMessage} (h : pending queue q = some e) :
    e ∈ queue ∧ e.sequenceNumber = q := by
  have hkey := find?_some h
  exact ⟨mem_of_find?_eq_some h, beq_iff_eq.mp hkey⟩

lemma pending_eq_none : pending queue q = none ↔ q ∉ keys queue := by
  unfold pending keys
  rw [find?_eq_none, mem_map]
  constructor
  · rintro h ⟨e, he, rfl⟩
    exact h e he (beq_self_eq_true _)
  · intro h e he heq
    exact h ⟨e, he, beq_iff_eq.mp heq⟩

variable (msg : RxMessage)

lemma keys_writeBack (queue : List RxMessage) :
    keys (writeBack msg queue) = keys queue := by
  induction queue with
  | nil => rfl
  | cons e queue ih =>
    unfold writeBack
    split
    · rename_i h
      exact congrArg (fun x => x :: keys queue) h.symm
    · exact congrArg (List.cons e.sequenceNumber) ih

lemma pending_writeBack (h : msg.sequenceNumber ∈ keys queue) (q : Nat) :
    pending (writeBack msg queue) q =
      if msg.sequenceNumber = q then some msg else pending queue q := by
  induction queue with
  | nil => cases h
  | cons e queue ih =>
    unfold writeBack
    by_cases he : e.sequenceNumber = msg.sequenceNumber
    · rw [if_pos he, pending_cons, pending_cons, he]
      split <;> rfl
    · have hmem : msg.sequenceNumber ∈ keys queue :=
        (mem_cons.mp h).resolve_left fun heq => he heq.symm
      rw [if_neg he, pending_cons, pending_cons, ih hmem]
      split_ifs with hold hq
      · exact absurd (hold.trans hq.symm) he
      all_goals rfl

lemma keys_removeMsg_nodup (h : (keys queue).Nodup) (msg : RxMessage) :
    (keys (removeMsg queue msg)).Nodup :=
  h.sublist (List.Sublist.map _ (eraseP_sublist))

lemma pending_removeMsg (h : (keys queue).Nodup) (msg : RxMessage) (q : Nat) :
    pending (removeMsg queue msg) q =
      if msg.sequenceNumber = q then none else pending queue q := by
  unfold removeMsg
  induction queue with
  | nil => exact (ite_self _).symm
  | cons e queue ih =>
    have hnd := nodup_cons.mp h
    by_cases he : e.sequenceNumber = msg.sequenceNumber
    · have hhit : (e.sequenceNumber == msg.sequenceNumber) = true := beq_iff_eq.mpr he
      rw [eraseP_cons, hhit, cond_true, pending_cons, he]
      split
      next hq => exact pending_eq_none.mpr (hq ▸ he ▸ hnd.1)
      next => rfl
    · have hmiss : (e.sequenceNumber == msg.sequenceNumber) = false := beq_eq_false_iff_ne.mpr he
      rw [eraseP_cons, hmiss, cond_false, pending_cons, pending_cons, ih hnd.2]
      split_ifs with hold hq
      · exact absurd (hold.trans hq.symm) he
      all_goals rfl

lemma pending_removeOldMsgs (h : (keys queue).Nodup) (now delta q : Nat) :
    pending (removeOldMsgs queue now delta) q =
      (pending queue q).filter fun e => !decide (age now e.rxHrTime > delta) := by
  unfold removeOldMsgs
  induction queue with
  | nil => rfl
  | cons e queue ih =>
    have hnd := nodup_cons.mp h
    rw [filter_cons, pending_cons]
    by_cases hq : e.sequenceNumber = q
    · rw [if_pos hq, Option.filter_some]
      split
      · rw [pending_cons, if_pos hq]
      · refine pending_eq_none.mpr fun hmem => hnd.1 ?_
        rw [hq]
        exact (List.Sublist.map _ filter_sublist).subset hmem
    · rw [if_neg hq]
      split
      · rw [pending_cons, if_neg hq, ih hnd.2]
      · exact ih hnd.2

/-! ## A message that waits -/

/-- A message of `k` datagrams: the count is the number of filled slots, and what is in them are these
datagrams. -/
structure EntryOk (k : Nat) (data : Nat → List UInt8) (e : RxMessage) : Prop where
  slots : ∀ i d, e.segments i = some d → i < k ∧ d = data i
  received : e.numSegmentsReceived = filled e.segments k
  expected : e.numSegmentsExpected = if (e.segments (k - 1)).isSome then k else 255

section Entry

variable {k : Nat} {data : Nat → List UInt8}

variable {i : Nat}

lemma slots_update {P : Nat → List UInt8 → Prop} {segments : Nat → Option (List UInt8)}
    {d : List UInt8} (hi : P i d) (h : ∀ j x, segments j = some x → P j x) :
    ∀ j x, Function.update segments i (some d) j = some x → P j x := by
  intro j x hx
  by_cases hj : j = i
  · subst hj
    rw [update_self] at hx
    cases hx
    exact hi
  · rw [update_of_ne hj] at hx
    exact h j x hx

lemma expected_update (segments : Nat → Option (List UInt8)) {expected : Nat} (hk : k ≤ 128)
    (hi : i < k) (d : List UInt8) (h : expected = if (segments (k - 1)).isSome then k else 255) :
    (if !decide (i + 1 = k) then expected else (i + 1) % 256) =
      if (Function.update segments i (some d) (k - 1)).isSome then k else 255 := by
  by_cases hlast : i + 1 = k
  · have hat : k - 1 = i := by omega
    rw [hat, update_self, decide_eq_true hlast, hlast]
    simp only [Bool.not_true, Bool.false_eq_true, if_false, Option.isSome_some, if_true]
    omega
  · have hat : k - 1 ≠ i := by omega
    rw [update_of_ne hat, decide_eq_false hlast]
    exact h

theorem EntryOk.add {e : RxMessage} (h : EntryOk k data e) (hk : k ≤ 128) (hi : i < k)
    (hempty : e.segments i = none) : EntryOk k data (e.add i (!decide (i + 1 = k)) (data i)) := by
  have hfilled := filled_update hi hempty (data i)
  have hle := filled_le (Function.update e.segments i (some (data i))) k
  refine ⟨slots_update ⟨hi, rfl⟩ h.slots, ?_, expected_update _ hk hi _ h.expected⟩
  change (e.numSegmentsReceived + 1) % 256 = filled (Function.update e.segments i _) _
  rw [h.received, hfilled]
  exact Nat.mod_eq_of_lt (by omega)

lemma EntryOk.new (hk : k ≤ 128) (hi : i < k) (rxHrTime q : Nat) :
    EntryOk k data (newRxMessage rxHrTime q i (!decide (i + 1 = k)) (data i)) := by
  have hfilled : filled (Function.update (fun _ => none) i (some (data i))) k =
      filled (fun _ => (none : Option (List UInt8))) k + 1 := filled_update hi rfl (data i)
  have hexpected : 255 = if ((none : Option (List UInt8))).isSome then k else 255 := rfl
  refine ⟨slots_update ⟨hi, rfl⟩ nofun, ?_, expected_update (fun _ => none) hk hi (data i) hexpected⟩
  change 1 = filled (Function.update (fun _ => none) i _) _
  rw [hfilled, filled_none]

theorem EntryOk.complete_iff {e : RxMessage} (h : EntryOk k data e) (hk : k ≤ 128) (hpos : 0 < k) :
    e.numSegmentsReceived = e.numSegmentsExpected ↔ ∀ i < k, e.segments i = some (data i) := by
  have hle := filled_le e.segments k
  have hall : (∀ i < k, (e.segments i).isSome) ↔ ∀ i < k, e.segments i = some (data i) := by
    refine forall_congr' fun i => forall_congr' fun hi => ⟨fun hsome => ?_, fun heq => ?_⟩
    · obtain ⟨d, hd⟩ := Option.isSome_iff_exists.mp hsome
      rw [hd, (h.slots i d hd).2]
    · rw [heq]
      rfl
  rw [← hall, ← filled_eq_iff, h.received, h.expected]
  split
  · exact Iff.rfl
  · rename_i hlast
    refine ⟨fun heq => by omega, fun hfull => absurd ?_ hlast⟩
    exact filled_eq_iff.mp hfull _ (by omega)

end Entry

/-! ## One datagram -/

/-- The waiting message after a segment has been added. -/
def addedMessage (queue : List RxMessage) (rxHrTime q segment : Nat) (more : Bool)
    (data : List UInt8) : RxMessage :=
  match pending queue q with
  | some e => e.add segment more data
  | none => newRxMessage rxHrTime q segment more data

lemma addSegment_spec (hnodup : (keys queue).Nodup) (rxHrTime q segment : Nat) (more : Bool)
    (data : List UInt8) :
    let msg := addedMessage queue rxHrTime q segment more data
    (addSegment queue rxHrTime q segment more data).2 = msg ∧ msg.sequenceNumber = q ∧
    (keys (addSegment queue rxHrTime q segment more data).1).Nodup ∧
    ∀ x, pending (addSegment queue rxHrTime q segment more data).1 x =
      if q = x then some msg else pending queue x := by
  unfold addSegment addedMessage
  cases hp : pending queue q with
  | some e =>
    obtain ⟨hmem, hkey⟩ := pending_mem hp
    have hin : e.sequenceNumber ∈ keys queue := mem_map_of_mem hmem
    refine ⟨rfl, hkey, ?_, fun x => ?_⟩
    · dsimp only
      rw [keys_writeBack]
      exact hnodup
    · refine (pending_writeBack (e.add segment more data) hin x).trans ?_
      rw [show (e.add segment more data).sequenceNumber = q from hkey]
  | none =>
    exact ⟨rfl, rfl, nodup_cons.mpr ⟨pending_eq_none.mp hp, hnodup⟩, fun x =>
      pending_cons _ queue x⟩

section Step

variable {cfg : Config} {m : Message}

variable {i : Nat}

section

variable (hsend : Sendable cfg m) (hcut : IsCut cfg m) (hi : i < segmentCount cfg m.pack)
include hsend hcut hi

lemma datagram_not_whole : isWhole (datagram cfg m i) = false := by
  obtain ⟨hroom, hcount⟩ := hsend hcut
  have htwo := two_le_segmentCount hcut hroom
  have facts := datagram_facts hcount hi
  unfold isWhole
  rw [facts.more, facts.segment]
  by_cases hlast : i + 1 = segmentCount cfg m.pack
  · rw [decide_eq_true hlast, beq_eq_false_iff_ne.mpr (by omega)]
    rfl
  · rw [decide_eq_false hlast]
    rfl

lemma handle_cut (rx : Rx) (t : Nat) :
    handleP7Message cfg rx (datagram cfg m i) t =
      (handleSegment rx m.wireSequence i (!decide (i + 1 = segmentCount cfg m.pack))
        (datagram cfg m i) t).map fun r =>
          ({ r.1 with reassemblyQueue := removeOldMsgs r.1.reassemblyQueue t 10000 }, r.2) := by
  have facts := datagram_facts (hsend hcut).2 hi
  unfold handleP7Message
  rw [facts.accepted, datagram_not_whole hsend hcut hi, facts.sequence, facts.segment, facts.more]
  rfl

end

lemma handle_whole (m : Message) (rx : Rx) (t : Nat) :
    handleP7Message cfg rx (updateChecksum cfg m.pack) t =
      some ({ rx with reassemblyQueue := removeOldMsgs rx.reassemblyQueue t 10000 },
        [updateChecksum cfg m.pack]) := by
  obtain ⟨hacc, hwhole, -⟩ := whole_facts cfg m
  unfold handleP7Message
  rw [hacc, hwhole]
  rfl

end Step

/-! ## Runs -/

/-- The messages on the way, one for a sequence number. -/
structure Traffic (cfg : Config) (family : Nat → Option Message) : Prop where
  sequence : ∀ q m, family q = some m → m.wireSequence = q
  sendable : ∀ q m, family q = some m → Sendable cfg m

/-- A message that is cut has at most 65535 bytes. -/
def Short (cfg : Config) (family : Nat → Option Message) : Prop :=
  ∀ q m, family q = some m → IsCut cfg m → m.pack.length ≤ 65535

/-- **The condition on an arrival**: not a segment that the waiting message has already. -/
def Fresh (rx : Rx) (data : List UInt8) : Prop :=
  isWhole data = false → ∀ e, pending rx.reassemblyQueue (sequenceOf data) = some e →
    e.segments (segmentOf data) = none

/-- Every arrival brings a segment that is not there yet. -/
def EachFresh (cfg : Config) : Rx → List (List UInt8 × Nat) → Prop
  | _, [] => True
  | rx, (data, t) :: arrivals =>
    Fresh rx data ∧ ∀ rx' out, handleP7Message cfg rx data t = some (rx', out) →
      EachFresh cfg rx' arrivals

/-- Only segments of the messages arrive. -/
def Arrivals (cfg : Config) (family : Nat → Option Message) (arrivals : List (List UInt8 × Nat)) :
    Prop :=
  ∀ a ∈ arrivals, ∃ q m, family q = some m ∧ a.1 ∈ packAndSend cfg m.pack

/-- What waits are messages on the way, with datagrams that have come. -/
structure Waits (cfg : Config) (family : Nat → Option Message) (history : List (List UInt8))
    (rx : Rx) : Prop where
  nodup : (keys rx.reassemblyQueue).Nodup
  entries : ∀ q e, pending rx.reassemblyQueue q = some e → ∃ m, family q = some m ∧ IsCut cfg m ∧
    EntryOk (segmentCount cfg m.pack) (datagram cfg m) e ∧
    (∀ i d, e.segments i = some d → d ∈ history) ∧ ∃ i d, e.segments i = some d

section Run

variable {cfg : Config} {family : Nat → Option Message}

lemma keys_removeOldMsgs_nodup {queue : List RxMessage} (h : (keys queue).Nodup) (t delta : Nat) :
    (keys (removeOldMsgs queue t delta)).Nodup :=
  h.sublist (List.Sublist.map _ filter_sublist)

variable {history : List (List UInt8)} {rx : Rx} {m : Message} {d : List UInt8} {t₀ t : Nat}

section

variable (h : Waits cfg family history rx)
include h

lemma Waits.later (t : Nat) (buffer : Option (List UInt8))
    (d : List UInt8) :
    Waits cfg family (history ++ [d]) ⟨removeOldMsgs rx.reassemblyQueue t 10000, buffer⟩ := by
  refine ⟨keys_removeOldMsgs_nodup h.nodup t 10000, fun q e he => ?_⟩
  rw [pending_removeOldMsgs h.nodup] at he
  obtain ⟨m, hm, hcut, hok, hhist, hsome⟩ := h.entries q e (Option.filter_eq_some_iff.mp he).1
  exact ⟨m, hm, hcut, hok, fun i d hd => mem_append_left _ (hhist i d hd), hsome⟩

lemma addedMessage_slots (t q i : Nat) (more : Bool)
    (d : List UInt8) :
    (∀ j x, (addedMessage rx.reassemblyQueue t q i more d).segments j = some x →
      x ∈ history ++ [d]) ∧
    (addedMessage rx.reassemblyQueue t q i more d).segments i = some d := by
  have hnew : d ∈ history ++ [d] := mem_append_right _ (mem_singleton.mpr rfl)
  unfold addedMessage
  cases hp : pending rx.reassemblyQueue q with
  | some e =>
    obtain ⟨m, -, -, -, hhist, -⟩ := h.entries q e hp
    exact ⟨slots_update hnew fun j x hx => mem_append_left _ (hhist j x hx),
      update_self _ _ _⟩
  | none =>
    have hself : Function.update (fun _ => none) i (some d) i = some d := update_self _ _ _
    exact ⟨slots_update hnew nofun, hself⟩

lemma Waits.entry (hm : family m.wireSequence = some m)
    {e : RxMessage} (he : pending rx.reassemblyQueue m.wireSequence = some e) :
    EntryOk (segmentCount cfg m.pack) (datagram cfg m) e ∧
      (∀ i d, e.segments i = some d → d ∈ history) ∧ ∃ i d, e.segments i = some d := by
  obtain ⟨m', hm', -, hok⟩ := h.entries _ e he
  cases hm.symm.trans hm'
  exact hok

end

variable (htraffic : Traffic cfg family)

include htraffic

lemma Traffic.mem_packAndSend (hm : family m.wireSequence = some m) (hcut : IsCut cfg m) :
    d ∈ packAndSend cfg m.pack ↔ ∃ i < segmentCount cfg m.pack, datagram cfg m i = d := by
  rw [packAndSend_cut hcut (htraffic.sendable _ m hm hcut).1, mem_map]
  exact exists_congr fun i => and_congr_left' mem_range

variable (hshort : Short cfg family)

include hshort

theorem cut_step (hwaits : Waits cfg family history rx) (hm : family m.wireSequence = some m)
    (hcut : IsCut cfg m) {i : Nat} (hi : i < segmentCount cfg m.pack)
    (hfresh : Fresh rx (datagram cfg m i)) (t : Nat) :
    let msg := addedMessage rx.reassemblyQueue t m.wireSequence i
      (!decide (i + 1 = segmentCount cfg m.pack)) (datagram cfg m i)
    EntryOk (segmentCount cfg m.pack) (datagram cfg m) msg ∧
    ∃ (rx' : Rx) (out : List (List UInt8)), handleP7Message cfg rx (datagram cfg m i) t =
        some ({ rx' with reassemblyQueue := removeOldMsgs rx'.reassemblyQueue t 10000 }, out) ∧
      (keys rx'.reassemblyQueue).Nodup ∧
      (∀ x, x ≠ m.wireSequence →
        pending rx'.reassemblyQueue x = pending rx.reassemblyQueue x) ∧
      ((∃ b, out = [b] ∧ SameMessage m b ∧ pending rx'.reassemblyQueue m.wireSequence = none ∧
          ∀ j < segmentCount cfg m.pack, msg.segments j = some (datagram cfg m j)) ∨
        (out = [] ∧ pending rx'.reassemblyQueue m.wireSequence = some msg ∧
          ¬∀ j < segmentCount cfg m.pack, msg.segments j = some (datagram cfg m j))) := by
  have hsend := htraffic.sendable _ m hm
  obtain ⟨hroom, hcount⟩ := hsend hcut
  have facts := datagram_facts hcount hi
  have hpos : 0 < segmentCount cfg m.pack := Nat.zero_lt_of_lt hi
  have hempty := hfresh (datagram_not_whole hsend hcut hi)
  rw [facts.sequence, facts.segment] at hempty
  obtain ⟨hmsg, hkey, hnodup', hpending⟩ := addSegment_spec hwaits.nodup t m.wireSequence i
    (!decide (i + 1 = segmentCount cfg m.pack)) (datagram cfg m i)
  intro msg
  have hok : EntryOk (segmentCount cfg m.pack) (datagram cfg m) msg := by
    unfold msg addedMessage
    cases hp : pending rx.reassemblyQueue m.wireSequence with
    | some e => exact (hwaits.entry hm hp).1.add hcount hi (hempty e hp)
    | none => exact EntryOk.new hcount hi t m.wireSequence
  refine ⟨hok, ?_⟩
  rw [handle_cut hsend hcut hi]
  unfold handleSegment
  dsimp only
  rw [hmsg]
  by_cases hfull : msg.numSegmentsReceived = msg.numSegmentsExpected
  · have hall := (hok.complete_iff hcount hpos).mp hfull
    have hexpected : msg.numSegmentsExpected = segmentCount cfg m.pack := by
      rw [hok.expected, hall _ (by omega)]
      rfl
    obtain ⟨buffer, length, hjoin, hsame⟩ :=
      join_spec hroom hcount hcut (hshort _ m hm hcut) rx hexpected hall
    rw [if_pos hfull, hjoin]
    refine ⟨_, _, rfl, keys_removeMsg_nodup hnodup' msg, fun x hx => ?_, .inl
      ⟨_, rfl, hsame, ?_, hall⟩⟩
    · refine (pending_removeMsg hnodup' msg x).trans ?_
      rw [hkey, if_neg hx.symm, hpending, if_neg hx.symm]
    · refine (pending_removeMsg hnodup' msg _).trans ?_
      rw [hkey, if_pos rfl]
  · rw [if_neg hfull]
    refine ⟨_, _, rfl, hnodup', fun x hx => ?_, .inr ⟨rfl, ?_, fun hall => hfull ?_⟩⟩
    · exact (hpending x).trans (if_neg hx.symm)
    · exact (hpending _).trans (if_pos rfl)
    · exact (hok.complete_iff hcount hpos).mpr hall

theorem handle_sound (hwaits : Waits cfg family history rx) {q : Nat} (hm : family q = some m)
    (hd : d ∈ packAndSend cfg m.pack) (hfresh : Fresh rx d) (t : Nat) :
    ∃ rx' out, handleP7Message cfg rx d t = some (rx', out) ∧
      Waits cfg family (history ++ [d]) rx' ∧
      ∀ b ∈ out, SameMessage m b ∧ ∀ x ∈ packAndSend cfg m.pack, x ∈ history ++ [d] := by
  have hq := htraffic.sequence q m hm
  subst hq
  by_cases hcut : IsCut cfg m
  · obtain ⟨i, hi, rfl⟩ := (htraffic.mem_packAndSend hm hcut).mp hd
    obtain ⟨hok, rx', out, hhandle, hnodup, hother, hcase⟩ :=
      cut_step htraffic hshort hwaits hm hcut hi hfresh t
    obtain ⟨hslots, hslot⟩ := addedMessage_slots hwaits t m.wireSequence i
      (!decide (i + 1 = segmentCount cfg m.pack)) (datagram cfg m i)
    refine ⟨_, out, hhandle, ⟨keys_removeOldMsgs_nodup hnodup t 10000, fun x e he => ?_⟩,
      fun b hb => ?_⟩
    · rw [pending_removeOldMsgs hnodup] at he
      have he := (Option.filter_eq_some_iff.mp he).1
      by_cases hx : x = m.wireSequence
      · subst hx
        rcases hcase with ⟨b, -, -, hnone, -⟩ | ⟨-, hmsg, -⟩
        · rw [hnone] at he
          cases he
        · rw [hmsg] at he
          cases he
          exact ⟨m, hm, hcut, hok, hslots, i, _, hslot⟩
      · rw [hother x hx] at he
        obtain ⟨m', hm', hcut', hok', hhist, hsome⟩ := hwaits.entries x e he
        exact ⟨m', hm', hcut', hok', fun j y hy => mem_append_left _ (hhist j y hy), hsome⟩
    · rcases hcase with ⟨b', rfl, hsame, -, hall⟩ | ⟨rfl, -, -⟩
      · rw [mem_singleton.mp hb]
        refine ⟨hsame, fun x hx => ?_⟩
        obtain ⟨j, hj, rfl⟩ := (htraffic.mem_packAndSend hm hcut).mp hx
        exact hslots j _ (hall j hj)
      · cases hb
  · rw [packAndSend_whole hcut] at hd ⊢
    rw [mem_singleton.mp hd, handle_whole]
    exact ⟨_, _, rfl, hwaits.later t _ _, forall_mem_singleton.mpr ⟨(whole_facts cfg m).2.2,
      forall_mem_singleton.mpr (mem_append_right _ (mem_singleton.mpr rfl))⟩⟩

variable {arrivals : List (List UInt8 × Nat)}

/-- What is handed over was sent, with all its segments. -/
theorem receive_sound :
    ∀ {history : List (List UInt8)} {rx : Rx}, Waits cfg family history rx →
      Arrivals cfg family arrivals → EachFresh cfg rx arrivals →
      ∃ rx' log, receive cfg rx arrivals = some (rx', log) ∧
        Waits cfg family (history ++ arrivals.map Prod.fst) rx' ∧
        ∀ b ∈ log, ∃ q m, family q = some m ∧ SameMessage m b ∧
          ∀ d ∈ packAndSend cfg m.pack, d ∈ history ++ arrivals.map Prod.fst := by
  induction arrivals with
  | nil =>
    intro history rx hwaits _ _
    exact ⟨rx, [], rfl, by rw [map_nil, append_nil]; exact hwaits, nofun⟩
  | cons a arrivals ih =>
    intro history rx hwaits harr hfresh
    obtain ⟨d, t⟩ := a
    obtain ⟨q, m, hm, hd⟩ := harr _ mem_cons_self
    obtain ⟨rx₁, out, hhandle, hwaits₁, hout⟩ :=
      handle_sound htraffic hshort hwaits hm hd hfresh.1 t
    obtain ⟨rx', log, hrun, hwaits', hlog⟩ := ih hwaits₁
      (fun a ha => harr a (mem_cons_of_mem _ ha)) (hfresh.2 rx₁ out hhandle)
    have hcons : history ++ List.map Prod.fst ((d, t) :: arrivals) =
        history ++ [d] ++ arrivals.map Prod.fst := by
      rw [map_cons, append_assoc]
      rfl
    refine ⟨rx', out ++ log, by rw [receive, hhandle]; dsimp only; rw [hrun]; rfl,
      hcons ▸ hwaits', fun b hb => ?_⟩
    rw [hcons]
    rcases mem_append.mp hb with hb | hb
    · obtain ⟨hsame, hall⟩ := hout b hb
      exact ⟨q, m, hm, hsame, fun x hx => mem_append_left _ (hall x hx)⟩
    · exact hlog b hb

/-! ### A message is dispatched when it is there -/

omit htraffic hshort

lemma age_self (t : Nat) : age t t = 0 := by
  unfold age
  omega

/-- The message waits since `t₀`, with all of its datagrams that were seen, and not with all. -/
def Collecting (cfg : Config) (m : Message) (t₀ : Nat) (seen : List (List UInt8)) (rx : Rx) : Prop :=
  ∃ e, pending rx.reassemblyQueue m.wireSequence = some e ∧ e.rxHrTime = t₀ ∧
    (∀ i < segmentCount cfg m.pack, datagram cfg m i ∈ seen → (e.segments i).isSome) ∧
    ¬∀ i < segmentCount cfg m.pack, e.segments i = some (datagram cfg m i)

lemma Collecting.later {seen : List (List UInt8)} (h : Collecting cfg m t₀ seen rx)
    (hnodup : (keys rx.reassemblyQueue).Nodup) (hage : age t t₀ ≤ 10000)
    (buffer : Option (List UInt8)) :
    Collecting cfg m t₀ seen ⟨removeOldMsgs rx.reassemblyQueue t 10000, buffer⟩ := by
  obtain ⟨e, he, htime, hseen, hpart⟩ := h
  refine ⟨e, ?_, htime, hseen, hpart⟩
  rw [pending_removeOldMsgs hnodup, he, Option.filter_some, htime,
    decide_eq_false (not_lt.mpr hage)]
  rfl

lemma datagram_ne {m' : Message} (hsend : Sendable cfg m) (hcut : IsCut cfg m)
    (hsend' : Sendable cfg m') (hother : m'.wireSequence ≠ m.wireSequence ∨ ¬IsCut cfg m')
    (hd : d ∈ packAndSend cfg m'.pack) {i : Nat} (hi : i < segmentCount cfg m.pack) :
    datagram cfg m i ≠ d := by
  intro heq
  by_cases hcut' : IsCut cfg m'
  · rw [packAndSend_cut hcut' (hsend' hcut').1] at hd
    obtain ⟨j, hj, rfl⟩ := mem_map.mp hd
    have hseq := (datagram_facts (hsend hcut).2 hi).sequence
    rw [heq, (datagram_facts (hsend' hcut').2 (mem_range.mp hj)).sequence] at hseq
    exact hother.elim (fun hne => hne hseq) fun hnot => hnot hcut'
  · rw [packAndSend_whole hcut'] at hd
    have hwhole := datagram_not_whole hsend hcut hi
    rw [heq, mem_singleton.mp hd, (whole_facts cfg m').2.1] at hwhole
    cases hwhole

include htraffic hshort

section

variable (hwaits : Waits cfg family history rx) (hm : family m.wireSequence = some m)
  (hcut : IsCut cfg m) {seen : List (List UInt8)}
include hwaits hm hcut

variable {rx' : Rx} {out : List (List UInt8)}

theorem own_step (hcol : pending rx.reassemblyQueue m.wireSequence = none ∧ seen = [] ∧ t = t₀ ∨
      Collecting cfg m t₀ seen rx)
    (hage : age t t₀ ≤ 10000) (hd : d ∈ packAndSend cfg m.pack) (hfresh : Fresh rx d)
    (hhandle : handleP7Message cfg rx d t = some (rx', out)) :
    (∃ b ∈ out, SameMessage m b) ∨ Collecting cfg m t₀ (seen ++ [d]) rx' := by
  obtain ⟨i, hi, rfl⟩ := (htraffic.mem_packAndSend hm hcut).mp hd
  obtain ⟨-, rx₁, out₁, hhandle₁, hnodup, -, hcase⟩ :=
    cut_step htraffic hshort hwaits hm hcut hi hfresh t
  rw [hhandle₁] at hhandle
  cases hhandle
  rcases hcase with ⟨b, rfl, hb, -, -⟩ | ⟨rfl, hmsg, hnot⟩
  · exact .inl ⟨b, mem_singleton.mpr rfl, hb⟩
  have hslot := (addedMessage_slots hwaits t m.wireSequence i
    (!decide (i + 1 = segmentCount cfg m.pack)) (datagram cfg m i)).2
  -- the new datagram is in its slot, the others stay where they are
  have hnew : ∀ j < segmentCount cfg m.pack, datagram cfg m j = datagram cfg m i → j = i := by
    intro j hj heq
    have hcount := (htraffic.sendable _ m hm hcut).2
    rw [← (datagram_facts hcount hj).segment, heq, (datagram_facts hcount hi).segment]
  refine .inr (Collecting.later ⟨_, hmsg, ?_, fun j hj hmem => ?_, hnot⟩ hnodup hage _)
  · unfold addedMessage
    rcases hcol with ⟨hnone, -, rfl⟩ | ⟨e, he, htime, -⟩
    · rw [hnone]
      rfl
    · rw [he]
      exact htime
  · by_cases hji : j = i
    · rw [hji, hslot]
      rfl
    have hmem : datagram cfg m j ∈ seen :=
      (mem_append.mp hmem).resolve_right fun h => hji (hnew j hj (mem_singleton.mp h))
    rcases hcol with ⟨-, rfl, -⟩ | ⟨e, he, -, hseen, -⟩
    · cases hmem
    · unfold addedMessage
      rw [he]
      change (Function.update e.segments i _ j).isSome
      rw [update_of_ne hji]
      exact hseen j hj hmem

theorem collecting_step (hcol : Collecting cfg m t₀ seen rx)
    (hage : age t t₀ ≤ 10000) {q : Nat} {m' : Message} (hm' : family q = some m')
    (hd : d ∈ packAndSend cfg m'.pack) (hfresh : Fresh rx d)
    (hhandle : handleP7Message cfg rx d t = some (rx', out)) :
    (∃ b ∈ out, SameMessage m b) ∨ Collecting cfg m t₀ (seen ++ [d]) rx' := by
  have hsend := htraffic.sendable _ m hm
  have hq := htraffic.sequence q m' hm'
  subst hq
  have hsend' := htraffic.sendable _ m' hm'
  -- what another message leaves as it is
  have hskip : (m'.wireSequence ≠ m.wireSequence ∨ ¬IsCut cfg m') → ∀ e : RxMessage,
      (∀ i < segmentCount cfg m.pack, datagram cfg m i ∈ seen → (e.segments i).isSome) →
      ∀ i < segmentCount cfg m.pack, datagram cfg m i ∈ seen ++ [d] → (e.segments i).isSome := by
    intro hother e hseen i hi hmem
    rcases mem_append.mp hmem with hmem | hmem
    · exact hseen i hi hmem
    · exact absurd (mem_singleton.mp hmem) (datagram_ne hsend hcut hsend' hother hd hi)
  by_cases hcut' : IsCut cfg m'
  · by_cases hsame : m'.wireSequence = m.wireSequence
    · cases hm.symm.trans (hsame ▸ hm')
      exact own_step htraffic hshort hwaits hm hcut (.inr hcol) hage hd hfresh hhandle
    obtain ⟨i, hi, rfl⟩ := (htraffic.mem_packAndSend hm' hcut').mp hd
    obtain ⟨-, rx₁, out₁, hhandle₁, hnodup, hother, -⟩ :=
      cut_step htraffic hshort hwaits hm' hcut' hi hfresh t
    rw [hhandle₁] at hhandle
    cases hhandle
    obtain ⟨e, he, htime, hseen, hpart⟩ := hcol
    refine .inr (Collecting.later ⟨e, ?_, htime, ?_, hpart⟩ hnodup hage _)
    · rw [hother _ fun h => hsame h.symm]
      exact he
    · exact hskip (.inl hsame) e hseen
  · rw [packAndSend_whole hcut'] at hd
    rw [mem_singleton.mp hd, handle_whole] at hhandle
    cases hhandle
    obtain ⟨e, he, htime, hseen, hpart⟩ := hcol
    exact .inr (Collecting.later ⟨e, he, htime, hskip (.inr hcut') e hseen, hpart⟩
      hwaits.nodup hage _)

end

lemma collecting_run (hm : family m.wireSequence = some m) (hcut : IsCut cfg m) :
    ∀ {history seen : List (List UInt8)} {rx : Rx}, Waits cfg family history rx →
      Collecting cfg m t₀ seen rx → Arrivals cfg family arrivals → EachFresh cfg rx arrivals →
      (∀ a ∈ arrivals, age a.2 t₀ ≤ 10000) → ∀ {rx' : Rx} {log : List (List UInt8)},
      receive cfg rx arrivals = some (rx', log) →
      (∃ b ∈ log, SameMessage m b) ∨ Collecting cfg m t₀ (seen ++ arrivals.map Prod.fst) rx' := by
  induction arrivals with
  | nil =>
    intro history seen rx _ hcol _ _ _ rx' log hrun
    cases hrun
    rw [map_nil, append_nil]
    exact .inr hcol
  | cons a arrivals ih =>
    intro history seen rx hwaits hcol harr hfresh hage rx' log hrun
    obtain ⟨d, t⟩ := a
    obtain ⟨q, m', hm', hd⟩ := harr _ mem_cons_self
    obtain ⟨rx₁, out, hhandle, hwaits₁, -⟩ :=
      handle_sound htraffic hshort hwaits hm' hd hfresh.1 t
    rw [receive, hhandle] at hrun
    obtain ⟨⟨rx₂, log₂⟩, hrest, heq⟩ := Option.map_eq_some_iff.mp hrun
    cases heq
    rcases collecting_step htraffic hshort hwaits hm hcut hcol (hage _ mem_cons_self) hm' hd
      hfresh.1 hhandle with ⟨b, hb, hsame⟩ | hcol₁
    · exact .inl ⟨b, mem_append_left _ hb, hsame⟩
    · rcases ih hwaits₁ hcol₁ (fun a ha => harr a (mem_cons_of_mem _ ha))
        (hfresh.2 rx₁ out hhandle) (fun a ha => hage a (mem_cons_of_mem _ ha)) hrest
        with ⟨b, hb, hsame⟩ | hcol₂
      · exact .inl ⟨b, mem_append_right _ hb, hsame⟩
      · rw [append_assoc] at hcol₂
        exact .inr hcol₂

omit htraffic hshort

lemma receive_append (rx : Rx) (as bs : List (List UInt8 × Nat)) :
    receive cfg rx (as ++ bs) = (receive cfg rx as).bind fun r =>
      (receive cfg r.1 bs).map fun r' => (r'.1, r.2 ++ r'.2) := by
  induction as generalizing rx with
  | nil =>
    rw [nil_append, receive, Option.bind_some]
    cases receive cfg rx bs <;> rfl
  | cons a as ih =>
    obtain ⟨d, t⟩ := a
    rw [cons_append, receive, receive]
    cases handleP7Message cfg rx d t with
    | none => rfl
    | some r =>
      dsimp only
      rw [ih]
      cases receive cfg r.1 as with
      | none => rfl
      | some r₁ =>
        rw [Option.bind_some, Option.map_map, Option.map_some, Option.bind_some]
        congr 1
        funext r₂
        exact congrArg (Prod.mk r₂.1) (append_assoc _ _ _).symm

lemma eachFresh_append {as bs : List (List UInt8 × Nat)} (h : EachFresh cfg rx (as ++ bs)) :
    EachFresh cfg rx as ∧ ∀ rx' log, receive cfg rx as = some (rx', log) → EachFresh cfg rx' bs := by
  induction as generalizing rx with
  | nil =>
    refine ⟨trivial, fun rx' log hrun => ?_⟩
    cases hrun
    exact h
  | cons a as ih =>
    obtain ⟨d, t⟩ := a
    refine ⟨⟨h.1, fun rx' out hhandle => (ih (h.2 rx' out hhandle)).1⟩, fun rx' log hrun => ?_⟩
    rw [receive] at hrun
    cases hhandle : handleP7Message cfg rx d t with
    | none =>
      rw [hhandle] at hrun
      cases hrun
    | some r =>
      rw [hhandle] at hrun
      obtain ⟨⟨rx₂, log₂⟩, hrest, heq⟩ := Option.map_eq_some_iff.mp hrun
      cases heq
      exact (ih (h.2 r.1 r.2 hhandle)).2 rx₂ log₂ hrest

lemma waits_empty : Waits cfg family [] Rx.empty :=
  ⟨nodup_nil, nofun⟩

include htraffic hshort

/-- A message whose segments all come in time is handed over. -/
theorem receive_delivers (hm : family m.wireSequence = some m) {pre mid : List (List UInt8 × Nat)} {d₀ : List UInt8}
    (harr : Arrivals cfg family (pre ++ (d₀, t₀) :: mid))
    (hfresh : EachFresh cfg Rx.empty (pre ++ (d₀, t₀) :: mid))
    (hfirst : ∀ a ∈ pre, a.1 ∉ packAndSend cfg m.pack) (hd₀ : d₀ ∈ packAndSend cfg m.pack)
    (hage : ∀ a ∈ mid, age a.2 t₀ ≤ 10000)
    (hall : ∀ d ∈ packAndSend cfg m.pack, d = d₀ ∨ d ∈ mid.map Prod.fst) :
    ∃ rx log, receive cfg Rx.empty (pre ++ (d₀, t₀) :: mid) = some (rx, log) ∧
      ∃ b ∈ log, SameMessage m b := by
  obtain ⟨hfreshPre, hfreshRest⟩ := eachFresh_append hfresh
  have harrPre : Arrivals cfg family pre := fun a ha => harr a (mem_append_left _ ha)
  have harrMid : Arrivals cfg family mid := fun a ha =>
    harr a (mem_append_right _ (mem_cons_of_mem _ ha))
  obtain ⟨rx₁, log₁, hrun₁, hwaits₁, -⟩ :=
    receive_sound htraffic hshort waits_empty harrPre hfreshPre
  obtain ⟨hfresh₀, hfreshMid⟩ := hfreshRest rx₁ log₁ hrun₁
  obtain ⟨rx₂, out, hhandle, hwaits₂, -⟩ :=
    handle_sound htraffic hshort hwaits₁ hm hd₀ hfresh₀ t₀
  have hfreshMid := hfreshMid rx₂ out hhandle
  obtain ⟨rx₃, log₃, hrun₃, hwaits₃, -⟩ := receive_sound htraffic hshort hwaits₂ harrMid hfreshMid
  refine ⟨rx₃, log₁ ++ (out ++ log₃), ?_, ?_⟩
  · rw [receive_append, hrun₁, Option.bind_some, receive, hhandle]
    dsimp only
    rw [hrun₃]
    rfl
  -- it is enough that it was dispatched from its first datagram on
  suffices h : ∃ b ∈ out ++ log₃, SameMessage m b by
    obtain ⟨b, hb, hsame⟩ := h
    exact ⟨b, mem_append_right _ hb, hsame⟩
  by_cases hcut : IsCut cfg m
  · have hnone : pending rx₁.reassemblyQueue m.wireSequence = none := by
      cases hp : pending rx₁.reassemblyQueue m.wireSequence with
      | none => rfl
      | some e =>
        -- an entry has a datagram, and that would have come before the first
        obtain ⟨hok, hhist, i, d, hd⟩ := hwaits₁.entry hm hp
        obtain ⟨hi, rfl⟩ := hok.slots i d hd
        have hmem := hhist i _ hd
        obtain ⟨a, ha, heq⟩ := mem_map.mp hmem
        exact absurd ((htraffic.mem_packAndSend hm hcut).mpr ⟨i, hi, heq.symm⟩) (hfirst a ha)
    rcases own_step htraffic hshort hwaits₁ hm hcut (.inl ⟨hnone, rfl, rfl⟩)
      (by rw [age_self]; exact Nat.zero_le _) hd₀ hfresh₀ hhandle with ⟨b, hb, hsame⟩ | hcol
    · exact ⟨b, mem_append_left _ hb, hsame⟩
    · rcases collecting_run htraffic hshort hm hcut hwaits₂ hcol harrMid hfreshMid hage hrun₃ with
        ⟨b, hb, hsame⟩ | hcol
      · exact ⟨b, mem_append_right _ hb, hsame⟩
      · -- all slots are filled, and still it waits
        obtain ⟨e, he, -, hseen, hpart⟩ := hcol
        refine absurd (fun i hi => ?_) hpart
        have hcome : datagram cfg m i ∈ [d₀] ++ mid.map Prod.fst :=
          (hall _ ((htraffic.mem_packAndSend hm hcut).mpr ⟨i, hi, rfl⟩)).elim
            (fun h => mem_append_left _ (mem_singleton.mpr h)) (mem_append_right _)
        obtain ⟨d, hd⟩ := Option.isSome_iff_exists.mp (hseen i hi hcome)
        rw [hd, ((hwaits₃.entry hm he).1.slots i d hd).2]
  · rw [packAndSend_whole hcut] at hd₀
    rw [mem_singleton.mp hd₀, handle_whole] at hhandle
    cases hhandle
    exact ⟨_, mem_append_left _ (mem_singleton.mpr rfl), (whole_facts cfg m).2.2⟩

end Run

/-- **Segmentation and reassembly.** Messages with their own sequence numbers, those that are cut into 2
to 128 segments of at most 65535 bytes in all; their datagrams come in any order, none that the waiting
message already has.  Then the receiver stays within its memory; each buffer dispatched is one of these
messages, all of whose datagrams have come; and a message whose datagrams have all come within the
time-out of the first was dispatched. -/
theorem p7_reassembly (cfg : Config) (family : Nat → Option Message)
    (htraffic : Traffic cfg family) (hshort : Short cfg family)
    (arrivals : List (List UInt8 × Nat)) (harr : Arrivals cfg family arrivals)
    (hfresh : EachFresh cfg Rx.empty arrivals) :
    (∀ pre post, arrivals = pre ++ post → ∃ rx log, receive cfg Rx.empty pre = some (rx, log) ∧
      ∀ b ∈ log, ∃ q m, family q = some m ∧ SameMessage m b ∧
        ∀ d ∈ packAndSend cfg m.pack, d ∈ pre.map Prod.fst) ∧
    ∀ m pre d₀ t₀ mid post, family m.wireSequence = some m →
      arrivals = (pre ++ (d₀, t₀) :: mid) ++ post →
      (∀ a ∈ pre, a.1 ∉ packAndSend cfg m.pack) → d₀ ∈ packAndSend cfg m.pack →
      (∀ a ∈ mid, age a.2 t₀ ≤ 10000) →
      (∀ d ∈ packAndSend cfg m.pack, d = d₀ ∨ d ∈ mid.map Prod.fst) →
      ∃ rx log, receive cfg Rx.empty (pre ++ (d₀, t₀) :: mid) = some (rx, log) ∧
        ∃ b ∈ log, SameMessage m b := by
  refine ⟨fun pre post heq => ?_, fun m pre d₀ t₀ mid post hm heq hfirst hd₀ hage hall => ?_⟩
  · subst heq
    obtain ⟨rx, log, hrun, -, hlog⟩ := receive_sound htraffic hshort waits_empty
      (fun a ha => harr a (mem_append_left _ ha)) (eachFresh_append hfresh).1
    exact ⟨rx, log, hrun, hlog⟩
  · subst heq
    exact receive_delivers htraffic hshort hm (fun a ha => harr a (mem_append_left _ ha))
      (eachFresh_append hfresh).1 hfirst hd₀ hage hall

/-- Segments of one byte of body. -/
def tinySegments : Config := ⟨false, fun _ => 0, 19⟩

/-- A message of three segments. -/
def threeBytes : Message := ⟨1, 2, 5, 0, [10, 20, 30]⟩

theorem p7_reassembly_last_first :
    ∃ rx log, receive tinySegments Rx.empty
        [(datagram tinySegments threeBytes 2, 100), (datagram tinySegments threeBytes 0, 150),
          (datagram tinySegments threeBytes 1, 170)] = some (rx, log) ∧
      ∃ b ∈ log, SameMessage threeBytes b := by
  have hsent : packAndSend tinySegments threeBytes.pack =
      [datagram tinySegments threeBytes 0, datagram tinySegments threeBytes 1,
        datagram tinySegments threeBytes 2] := by decide +kernel
  have hfamily : ∀ q m, (if q = 5 then some threeBytes else none) = some m →
      q = 5 ∧ m = threeBytes := fun q m h => by
    split at h
    · cases h
      exact ⟨by assumption, rfl⟩
    · cases h
  refine (p7_reassembly tinySegments (fun q => if q = 5 then some threeBytes else none)
    ⟨fun q m h => ?_, fun q m h => ?_⟩ (fun q m h => ?_)
    [(datagram tinySegments threeBytes 2, 100), (datagram tinySegments threeBytes 0, 150),
      (datagram tinySegments threeBytes 1, 170)] (fun a ha => ?_) ?_).2 threeBytes [] _ _
    [(datagram tinySegments threeBytes 0, 150), (datagram tinySegments threeBytes 1, 170)] [] rfl rfl
    nofun ?_ (fun a ha => ?_) fun d hd => ?_
  · obtain ⟨rfl, rfl⟩ := hfamily q m h
    rfl
  · obtain ⟨rfl, rfl⟩ := hfamily q m h
    exact fun _ => ⟨by decide, by decide +kernel⟩
  · obtain ⟨rfl, rfl⟩ := hfamily q m h
    exact fun _ => by decide +kernel
  · refine ⟨5, threeBytes, rfl, ?_⟩
    rw [hsent]
    simp only [mem_cons, not_mem_nil, or_false] at ha ⊢
    rcases ha with rfl | rfl | rfl
    · exact .inr (.inr rfl)
    · exact .inl rfl
    · exact .inr (.inl rfl)
  · refine ⟨nofun, fun rx₁ out₁ h₁ => ?_⟩
    cases h₁
    refine ⟨fun _ e he => ?_, fun rx₂ out₂ h₂ => ?_⟩
    · cases he
      rfl
    · cases h₂
      refine ⟨fun _ e he => ?_, fun _ _ _ => trivial⟩
      cases he
      rfl
  · rw [hsent]
    exact mem_cons_of_mem _ (mem_cons_of_mem _ mem_cons_self)
  · simp only [mem_cons, not_mem_nil, or_false] at ha
    rcases ha with rfl | rfl <;> decide
  · rw [hsent] at hd
    simp only [mem_cons, not_mem_nil, or_false] at hd
    rcases hd with rfl | rfl | rfl
    · exact .inr mem_cons_self
    · exact .inr (mem_cons_of_mem _ mem_cons_self)
    · exact .inl rfl

lemma handleSegment_length {rx rx' : Rx} {segment t : Nat} {more : Bool} {data : List UInt8}
    {out : List (List UInt8)} (h : handleSegment rx q segment more data t = some (rx', out)) :
    ∀ b ∈ out, b.length < 65536 := by
  intro b hb
  have hmod : ∀ (segments : Nat → Option (List UInt8)) (is : List Nat) (length : Nat),
      length < 65536 → joinedLength segments is length < 65536 := by
    intro segments is
    induction is with
    | nil => exact fun length hlt => hlt
    | cons i is ih => exact fun length _ => ih _ (Nat.mod_lt _ (by decide))
  unfold handleSegment at h
  dsimp only at h
  split at h
  · split at h
    · cases h
    · rename_i buffer length hjoin
      cases h
      rw [mem_singleton.mp hb]
      unfold join at hjoin
      split at hjoin
      · cases hjoin
      · obtain ⟨b', -, heq⟩ := Option.map_eq_some_iff.mp hjoin
        cases heq
        exact lt_of_le_of_lt (length_take_le _ _) (hmod _ _ 0 (by decide))
  · cases h
    cases hb

/-- **Duplicates and long messages.** A segment that comes twice makes up for one that is missing: the
bytes 20 and 30 are dispatched though the first segment never came, or a segment that is not there is
copied.  Or nothing is dispatched though all three have come.  And a message of 65536 bytes is never
dispatched whole. -/
theorem p7_reassembly_broken :
    (receive tinySegments Rx.empty
        [(datagram tinySegments threeBytes 1, 0), (datagram tinySegments threeBytes 1, 0),
          (datagram tinySegments threeBytes 2, 0)]).map Prod.snd = some [[20, 30]] ∧
    (receive tinySegments Rx.empty
        [(datagram tinySegments threeBytes 0, 0), (datagram tinySegments threeBytes 0, 0),
          (datagram tinySegments threeBytes 2, 0)]).map Prod.snd = none ∧
    (receive tinySegments Rx.empty
        [(datagram tinySegments threeBytes 0, 0), (datagram tinySegments threeBytes 1, 0),
          (datagram tinySegments threeBytes 1, 0), (datagram tinySegments threeBytes 2, 0)]).map
      Prod.snd = some [] ∧
    ∀ rx q segment more data t rx' out,
      handleSegment rx q segment more data t = some (rx', out) →
      ∀ b ∈ out, ∀ m : Message, m.body.length = 65518 → ¬SameMessage m b := by
  refine ⟨by decide +kernel, by decide +kernel, by decide +kernel, ?_⟩
  intro rx q segment more data t rx' out h b hb m hm hsame
  have hlt := handleSegment_length h b hb
  rw [hsame.length, length_pack, hm] at hlt
  exact absurd hlt (by decide)

end NrStack.Nfapi
