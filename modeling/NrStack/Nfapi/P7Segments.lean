/-
  nFAPI P7: cutting a message into datagrams and putting it together again (`pnf_p7.c`).

  SENDER    every datagram starts with the 18 bytes of the message's header, with its own length, its
            number and the more flag written over.
  RECEIVER  the segments wait by sequence number; a message is joined when the NUMBER of segments received
            is the number expected, known from the last segment.

  `none` is an access outside the memory: a 129th segment, a `memcpy` of a segment that is not there
  (its length 0 minus the header's 18), or past the reassembly buffer.
-/
import Mathlib

namespace NrStack.Nfapi

/-! ## Bytes -/

/-- The low eight bits. -/
def byte (x : Nat) : UInt8 := UInt8.ofNat x

/-- `push16` -/
def push16 (x : Nat) : List UInt8 := [byte (x / 256), byte x]

/-- `push32` -/
def push32 (x : Nat) : List UInt8 :=
  [byte (x / 2 ^ 24), byte (x / 2 ^ 16), byte (x / 2 ^ 8), byte x]

/-- The byte at an index, as a number. -/
def byteAt (bytes : List UInt8) (i : Nat) : Nat := (bytes.getD i 0).toNat

/-- `pull32` -/
def pull32 (bytes : List UInt8) (i : Nat) : Nat :=
  byteAt bytes i * 2 ^ 24 + byteAt bytes (i + 1) * 2 ^ 16 + byteAt bytes (i + 2) * 2 ^ 8 + byteAt bytes (i + 3)

/-- `NFAPI_NR_P7_HEADER_LENGTH` -/
def headerLength : Nat := 18

/-- `NFAPI_P7_SET_MSS`: the old layout, in one byte. -/
def setMss (more segm sequ : Nat) : Nat := more % 2 * 128 + segm % 8 * 16 + sequ % 16

/-- A P7 message: the fields of its header and the packed body. -/
structure Message where
  phyId : Nat
  messageId : Nat
  sequenceNumber : Nat
  transmitTimestamp : Nat
  body : List UInt8

/-- `nfapi_nr_p7_message_pack`: the header around a packed body. -/
def Message.pack (m : Message) : List UInt8 :=
  push16 m.phyId ++ push16 m.messageId ++ push32 (headerLength + m.body.length) ++
    push16 (setMss 0 0 m.sequenceNumber) ++ push32 0 ++ push32 m.transmitTimestamp ++ m.body

/-! ## Checksum -/

/-- The configuration of a P7 end point: what both sides have to agree on, and the segment size. -/
structure Config where
  checksumEnabled : Bool
  crc32 : List UInt8 → BitVec 32
  segmentSize : Nat

/-- `nfapi_nr_calculate_checksum`: without the checksum and the timestamp. -/
def calculateChecksum (cfg : Config) (buffer : List UInt8) : Nat :=
  (~~~cfg.crc32 (buffer.take 10 ++ [0, 0, 0, 0] ++ buffer.drop headerLength)).toNat

/-- `nfapi_nr_p7_update_checksum` -/
def updateChecksum (cfg : Config) (buffer : List UInt8) : List UInt8 :=
  if cfg.checksumEnabled then
    buffer.take 10 ++ push32 (calculateChecksum cfg buffer) ++ buffer.drop 14
  else buffer

/-! ## Sender -/

/-- The header of a segment: the length in bytes 6 and 7, the more flag and the number in byte 8. -/
def segmentHeader (txBuf : List UInt8) (segmentSize segment : Nat) (last : Bool) : List UInt8 :=
  txBuf.take 6 ++
    [byte (segmentSize / 256), byte segmentSize, byte ((if last then 0 else 128) + segment)] ++
    (txBuf.take headerLength).drop 9

/-- The loop over the segments; `offset` is the running offset into the message. -/
def sendSegments (cfg : Config) (txBuf : List UInt8) (segmentCount : Nat) :
    Nat → Nat → Nat → List (List UInt8)
  | 0, _, _ => []
  | fuel + 1, segment, offset =>
    let segBodyLen := cfg.segmentSize - headerLength
    let last := decide (segment + 1 = segmentCount)
    let size := if last then (txBuf.length - headerLength) - segBodyLen * segment else segBodyLen
    updateChecksum cfg (segmentHeader txBuf (size + headerLength) segment last ++
        (txBuf.drop offset).take size) ::
      sendSegments cfg txBuf segmentCount fuel (segment + 1) (offset + size)

/-- `segment_count` of `pnf_nr_p7_pack_and_send_p7_message` -/
def segmentCount (cfg : Config) (txBuf : List UInt8) : Nat :=
  let msgBodyLen := txBuf.length - headerLength
  let segBodyLen := cfg.segmentSize - headerLength
  msgBodyLen / segBodyLen + if msgBodyLen % segBodyLen ≠ 0 then 1 else 0

/-- `pnf_nr_p7_pack_and_send_p7_message`: the datagrams of a packed message. -/
def packAndSend (cfg : Config) (txBuf : List UInt8) : List (List UInt8) :=
  if txBuf.length > cfg.segmentSize then
    sendSegments cfg txBuf (segmentCount cfg txBuf) (segmentCount cfg txBuf) 0 headerLength
  else [updateChecksum cfg txBuf]

/-! ## Receiver -/

/-- `pnf_p7_rx_message_t`; a segment that is not there is `none`. -/
structure RxMessage where
  sequenceNumber : Nat
  numSegmentsReceived : Nat
  numSegmentsExpected : Nat
  segments : Nat → Option (List UInt8)
  rxHrTime : Nat

/-- The message of a sequence number in the queue. -/
def pending (queue : List RxMessage) (sequenceNumber : Nat) : Option RxMessage :=
  queue.find? fun e => e.sequenceNumber == sequenceNumber

/-- A further segment of a message that waits. -/
def RxMessage.add (e : RxMessage) (segment : Nat) (more : Bool) (data : List UInt8) : RxMessage :=
  { e with
    segments := Function.update e.segments segment (some data)
    numSegmentsReceived := (e.numSegmentsReceived + 1) % 256
    numSegmentsExpected := if more then e.numSegmentsExpected else (segment + 1) % 256 }

/-- The first segment of a message. -/
def newRxMessage (rxHrTime sequenceNumber segment : Nat) (more : Bool) (data : List UInt8) :
    RxMessage where
  sequenceNumber := sequenceNumber
  numSegmentsReceived := 1
  numSegmentsExpected := if more then 255 else (segment + 1) % 256
  segments := Function.update (fun _ => none) segment (some data)
  rxHrTime := rxHrTime

/-- The queue with the entry changed in place. -/
def writeBack (msg : RxMessage) : List RxMessage → List RxMessage
  | [] => []
  | e :: queue =>
    if e.sequenceNumber = msg.sequenceNumber then msg :: queue else e :: writeBack msg queue

/-- `pnf_p7_rx_reassembly_queue_add_segment`: the queue, and the message of the segment. -/
def addSegment (queue : List RxMessage) (rxHrTime sequenceNumber segment : Nat) (more : Bool)
    (data : List UInt8) : List RxMessage × RxMessage :=
  match pending queue sequenceNumber with
  | some e => (writeBack (e.add segment more data) queue, e.add segment more data)
  | none =>
    let msg := newRxMessage rxHrTime sequenceNumber segment more data
    (msg :: queue, msg)

/-- `pnf_p7_rx_reassembly_queue_remove_msg` -/
def removeMsg (queue : List RxMessage) (msg : RxMessage) : List RxMessage :=
  queue.eraseP fun e => e.sequenceNumber == msg.sequenceNumber

/-- `rx_hr_time - iterator->rx_hr_time`, unsigned. -/
def age (now then_ : Nat) : Nat := (now + 4294967296 - then_ % 4294967296) % 4294967296

/-- `pnf_p7_rx_reassembly_queue_remove_old_msgs` -/
def removeOldMsgs (queue : List RxMessage) (rxHrTime delta : Nat) : List RxMessage :=
  queue.filter fun e => !decide (age rxHrTime e.rxHrTime > delta)

/-- `segments[i].length` -/
def segmentLength (segments : Nat → Option (List UInt8)) (i : Nat) : Nat :=
  ((segments i).getD []).length

/-- The sum of the lengths, in a `uint16_t`. -/
def joinedLength (segments : Nat → Option (List UInt8)) : List Nat → Nat → Nat
  | [], length => length
  | i :: is, length =>
    joinedLength segments is
      ((length + 65536 + segmentLength segments i - if i > 0 then headerLength else 0) % 65536)

/-- `memcpy(buffer + offset, part, part.length)` into what is allocated. -/
def copyTo (buffer : List UInt8) (offset : Nat) (part : List UInt8) : Option (List UInt8) :=
  if offset + part.length ≤ buffer.length then
    some (buffer.take offset ++ part ++ buffer.drop (offset + part.length))
  else none

/-- The bodies one after the other, the first with its header. -/
def copySegments (segments : Nat → Option (List UInt8)) :
    List Nat → List UInt8 → Nat → Option (List UInt8)
  | [], buffer, _ => some buffer
  | i :: is, buffer, offset =>
    let data := (segments i).getD []
    -- length - 18 as a size_t
    if i > 0 ∧ data.length < headerLength then none
    else
      let part := if i > 0 then data.drop headerLength else data
      match copyTo buffer offset part with
      | none => none
      | some buffer => copySegments segments is buffer ((offset + part.length) % 65536)

/-- `pnf_p7_t`, as far as reassembly goes. -/
structure Rx where
  reassemblyQueue : List RxMessage
  reassemblyBuffer : Option (List UInt8)

/-- The reassembly buffer, made anew when there is none or it is too small. -/
def bufferFor (buffer : Option (List UInt8)) (length : Nat) : List UInt8 :=
  match buffer with
  | none => List.replicate length 0
  | some bytes => if bytes.length < length then List.replicate length 0 else bytes

/-- A message with all its segments is joined: the buffer and the length that is dispatched. -/
def join (rx : Rx) (msg : RxMessage) : Option (List UInt8 × Nat) :=
  if msg.numSegmentsExpected > 128 then none
  else
    let indices := List.range msg.numSegmentsExpected
    let length := joinedLength msg.segments indices 0
    (copySegments msg.segments indices (bufferFor rx.reassemblyBuffer length) 0).map fun b =>
      (b, length)

/-- The segment branch of `pnf_nr_handle_p7_message`: the state and what was dispatched. -/
def handleSegment (rx : Rx) (sequenceNumber segment : Nat) (more : Bool) (data : List UInt8)
    (rxHrTime : Nat) : Option (Rx × List (List UInt8)) :=
  let added := addSegment rx.reassemblyQueue rxHrTime sequenceNumber segment more data
  if added.2.numSegmentsReceived = added.2.numSegmentsExpected then
    match join rx added.2 with
    | none => none
    | some (buffer, length) =>
      some (⟨removeMsg added.1 added.2, some buffer⟩, [buffer.take length])
  else some (⟨added.1, rx.reassemblyBuffer⟩, [])

/-- `NFAPI_P7_GET_SEQUENCE` -/
def sequenceOf (data : List UInt8) : Nat := byteAt data 9

/-- `NFAPI_P7_GET_SEGMENT` -/
def segmentOf (data : List UInt8) : Nat := byteAt data 8 % 128

/-- `NFAPI_P7_GET_MORE` -/
def moreOf (data : List UInt8) : Bool := decide (byteAt data 8 ≥ 128)

/-- The message is its only segment. -/
def isWhole (data : List UInt8) : Bool := !moreOf data && segmentOf data == 0

/-- The checks before a datagram is looked at: the header is there, and the checksum is right. -/
def accepted (cfg : Config) (data : List UInt8) : Bool :=
  decide (headerLength ≤ data.length) &&
    (!cfg.checksumEnabled || calculateChecksum cfg data == pull32 data 10)

/-- `pnf_nr_handle_p7_message`; `none`: an access outside the memory. -/
def handleP7Message (cfg : Config) (rx : Rx) (data : List UInt8) (rxHrTime : Nat) :
    Option (Rx × List (List UInt8)) :=
  if !accepted cfg data then some (rx, [])
  else
    let handled :=
      if isWhole data then some (rx, [data])
      else handleSegment rx (sequenceOf data) (segmentOf data) (moreOf data) data rxHrTime
    handled.map fun r =>
      ({ r.1 with reassemblyQueue := removeOldMsgs r.1.reassemblyQueue rxHrTime 10000 }, r.2)

/-- Datagrams that come in, with the time, and all that is dispatched. -/
def receive (cfg : Config) : Rx → List (List UInt8 × Nat) → Option (Rx × List (List UInt8))
  | rx, [] => some (rx, [])
  | rx, (data, rxHrTime) :: arrivals =>
    match handleP7Message cfg rx data rxHrTime with
    | none => none
    | some (rx', out) => (receive cfg rx' arrivals).map fun r => (r.1, out ++ r.2)

/-- A receiver that nothing has come to. -/
def Rx.empty : Rx := ⟨[], none⟩

end NrStack.Nfapi
