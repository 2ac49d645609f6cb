import LiveRelay.BufferPool
import LiveRelay.ChunkEncoder
import LiveRelay.Command
import LiveRelay.MediaFrame

/-!
# Outbound queues

Everything that a session is sent goes through its queue: its own replies and
the media of the streams it plays.  Putting a message into a queue never
waits.  The number of pending messages is counted beside the queue, so that
frames can be left out for a viewer that does not keep up.

A queue whose receiver has closed it takes no more messages, but those it
holds can still be received.  The counter goes down only when a message is
received; a receiver that goes away leaves it as it is.
-/

namespace LiveRelay

/-! ## Messages -/

inductive OutboundPayload where
  | shared (bytes : Bytes)
  /-- The message holds a claim on the buffer. -/
  | rented (buffer : RentedBuffer)
  deriving DecidableEq, Repr

structure OutboundMessage where
  chunkStream : UInt32
  timestamp : UInt32
  typeId : UInt8
  streamId : UInt32
  payload : OutboundPayload
  deriving DecidableEq, Repr

namespace OutboundPayload

def bytes : OutboundPayload → Bytes
  | .shared bytes => bytes
  | .rented buffer => buffer.content

def buffer? : OutboundPayload → Option RentedBuffer
  | .shared _ => none
  | .rented buffer => some buffer

end OutboundPayload

namespace OutboundMessage

/-- Control messages go on chunk stream 2 and belong to no stream. -/
def control (message : Message) : OutboundMessage :=
  let (typeId, payload) := message.write
  ⟨2, 0, typeId, 0, .shared payload⟩

def reply (reply : Reply) : OutboundMessage :=
  ⟨3, 0, 20, reply.streamId, .shared reply.write⟩

def data (message : DataMessage) (timestamp : UInt32) : OutboundMessage :=
  ⟨5, timestamp, 18, message.streamId, .shared message.write⟩

def media (kind : MediaKind) (streamId timestamp : UInt32)
    (buffer : RentedBuffer) : OutboundMessage :=
  match kind with
  | .audio => ⟨4, timestamp, 8, streamId, .rented buffer⟩
  | .video => ⟨6, timestamp, 9, streamId, .rented buffer⟩

def userControl (event : UserControlEvent) : OutboundMessage :=
  control (.userControl event)

def status (streamId : UInt32) (level code description : String) :
    OutboundMessage :=
  reply (.status streamId level code description)

/-- The chunk size that holds for what is sent after this message. -/
def chunkSizeChange? (message : OutboundMessage) : Option UInt32 :=
  if message.typeId = 1 ∧ message.chunkStream = 2 then
    (message.payload.bytes.split? 4).map fun (size, _) =>
      Message.masked (Bytes.word32 size)
  else none

def toWire (message : OutboundMessage) : WireMessage :=
  ⟨message.chunkStream, message.timestamp, message.typeId, message.streamId,
    message.payload.bytes⟩

end OutboundMessage

/-! ## Queues -/

structure OutboundQueue where
  /-- Oldest first. -/
  messages : List OutboundMessage := []
  isOpen : Bool := true
  pending : Nat := 0
  deriving DecidableEq, Repr

namespace OutboundQueue

def buffers (queue : OutboundQueue) : List RentedBuffer :=
  queue.messages.filterMap (·.payload.buffer?)

/-- The flag tells whether the message was taken.  One that was not gives up
its claim. -/
def send (queue : OutboundQueue) (pool : BufferPool) (message : OutboundMessage) :
    Bool × OutboundQueue × BufferPool :=
  if queue.isOpen then
    (true,
      { queue with
        messages := queue.messages ++ [message], pending := queue.pending + 1 },
      pool)
  else (false, queue, pool.releaseAll message.payload.buffer?.toList)

/-- The message comes with its claim. -/
def receive? (queue : OutboundQueue) : Option (OutboundMessage × OutboundQueue) :=
  match queue.messages with
  | [] => none
  | message :: messages =>
      some (message,
        { queue with messages := messages, pending := queue.pending - 1 })

def close (queue : OutboundQueue) : OutboundQueue :=
  { queue with isOpen := false }

/-- The receiver goes away with all that the queue holds. -/
def hangUp (queue : OutboundQueue) (pool : BufferPool) :
    OutboundQueue × BufferPool :=
  ({ queue with isOpen := false, messages := [] }, pool.releaseAll queue.buffers)

end OutboundQueue

/-! ## Writing to the connection -/

/-- What goes onto the connection: the bytes of messages in order, each in the
chunk size that the messages before it have announced. -/
structure OutboundWriter where
  encoder : ChunkEncoder := {}

/-- Why writing ends.  Either way all that waits is written first. -/
inductive WriterEnd where
  | queueClosed
  | shutdown
  deriving DecidableEq, Repr

namespace OutboundWriter

def write (writer : OutboundWriter) (message : OutboundMessage) :
    Bytes × OutboundWriter :=
  let (bytes, encoder) := writer.encoder.encode message.toWire
  match message.chunkSizeChange? with
  | some size => (bytes, ⟨encoder.setChunkSize size⟩)
  | none => (bytes, ⟨encoder⟩)

def writeAll (writer : OutboundWriter) :
    List OutboundMessage → Bytes × OutboundWriter
  | [] => ([], writer)
  | message :: messages =>
      let (bytes, writer) := writer.write message
      let (others, writer) := writer.writeAll messages
      (bytes ++ others, writer)

/-- Waiting messages join a batch as long as it has fewer than `limit` bytes.
The others are left. -/
def fill (limit : Nat) (writer : OutboundWriter) (collected : Bytes) :
    List OutboundMessage → Bytes × OutboundWriter × List OutboundMessage
  | [] => (collected, writer, [])
  | message :: messages =>
      if collected.reaches limit then (collected, writer, message :: messages)
      else
        let (bytes, writer) := writer.write message
        fill limit writer (collected ++ bytes) messages

/-- A batch has at least one message, unless none waits. -/
def batch (limit : Nat) (writer : OutboundWriter) :
    List OutboundMessage → Bytes × OutboundWriter × List OutboundMessage
  | [] => ([], writer, [])
  | message :: messages =>
      let (bytes, writer) := writer.write message
      fill limit writer bytes messages

theorem length_fill (limit : Nat) (writer : OutboundWriter) (collected : Bytes)
    (messages : List OutboundMessage) :
    (fill limit writer collected messages).2.2.length ≤ messages.length := by
  induction messages generalizing writer collected with
  | nil => simp [fill]
  | cons message messages ih =>
      rw [fill]
      split
      · simp
      · exact Nat.le_succ_of_le (ih _ _)

theorem length_batch_cons (limit : Nat) (writer : OutboundWriter)
    (message : OutboundMessage) (messages : List OutboundMessage) :
    (batch limit writer (message :: messages)).2.2.length <
      (message :: messages).length := by
  rw [batch]
  exact Nat.lt_succ_of_le (length_fill _ _ _ _)

/-- Batch after batch until nothing waits. -/
def batches (limit : Nat) (writer : OutboundWriter) :
    List OutboundMessage → List Bytes
  | [] => []
  | message :: messages =>
      let taken := batch limit writer (message :: messages)
      taken.1 :: batches limit taken.2.1 taken.2.2
  termination_by messages => messages.length
  decreasing_by exact length_batch_cons limit writer message messages

/-- What is written at a time, from the start to the end.  Messages arrive in
groups, and after each group has arrived a batch is taken. -/
def run (limit : Nat) (ending : WriterEnd) (writer : OutboundWriter)
    (waiting : List OutboundMessage) :
    (arrivals : List (List OutboundMessage)) → List Bytes
  | group :: groups =>
      let (bytes, writer, waiting) := batch limit writer (waiting ++ group)
      bytes :: run limit ending writer waiting groups
  | [] =>
      match ending with
      | .queueClosed => batches limit writer waiting
      | .shutdown => [(writer.writeAll waiting).1]

/-- How many bytes were written.  On a connection whose other end is gone the
first bytes to be written fail. -/
def outcome (isConnected : Bool) (written : List Bytes) : Except Error Nat :=
  if isConnected || written.all List.isEmpty then .ok written.flatten.length
  else .error .brokenPipe

end OutboundWriter

end LiveRelay
