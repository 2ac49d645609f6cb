import LiveRelay.ChunkHeader

/-!
# Reading chunks

The decoder takes one whole chunk at a time off the front of a buffer and
keeps, for each chunk stream, the last header and the payload collected so far.
Nothing of a chunk is consumed before all of it is there.  A header other than
a continued one starts a new message, and the unfinished one before it is given
up as soon as that header has been seen, complete chunk or not.

Every chunk has at least one byte, so a buffer is drained in finitely many
steps.
-/

namespace LiveRelay

/-! ## Collected payload -/

/-- Payload bytes in reverse order, with their number. -/
structure Collected where
  reversed : Bytes := []
  size : Nat := 0
  size_eq : reversed.length = size := by rfl

namespace Collected

def bytes (collected : Collected) : Bytes :=
  collected.reversed.reverse

def isEmpty (collected : Collected) : Bool :=
  collected.size == 0

def append (collected : Collected) (piece : Bytes) : Collected where
  reversed := piece.reverseAux collected.reversed
  size := collected.size + piece.length
  size_eq := by
    simp [List.reverseAux_eq, collected.size_eq, Nat.add_comm]

def ofBytes (bytes : Bytes) : Collected :=
  ({} : Collected).append bytes

@[simp] theorem bytes_empty : ({} : Collected).bytes = [] := rfl

@[simp] theorem bytes_append (collected : Collected) (piece : Bytes) :
    (collected.append piece).bytes = collected.bytes ++ piece := by
  simp [bytes, append, List.reverseAux_eq]

@[simp] theorem bytes_ofBytes (bytes : Bytes) : (ofBytes bytes).bytes = bytes := by
  simp [ofBytes]

theorem length_bytes (collected : Collected) :
    collected.bytes.length = collected.size := by
  simp [bytes, collected.size_eq]

end Collected

/-! ## State -/

structure InboundChunks where
  header : Option LastHeader := none
  collected : Collected := {}

instance : Inhabited InboundChunks := ⟨{}⟩

structure ChunkDecoder where
  chunkSize : UInt32 := 128
  /-- Longer messages are refused. -/
  maximum : UInt32 := 16777216
  streams : Table UInt32 InboundChunks := []

namespace ChunkDecoder

def stream (decoder : ChunkDecoder) (chunkStream : UInt32) : InboundChunks :=
  (decoder.streams.get? chunkStream).getD {}

def lastHeader (decoder : ChunkDecoder) (chunkStream : UInt32) :
    Option LastHeader :=
  (decoder.stream chunkStream).header

def setStream (decoder : ChunkDecoder) (chunkStream : UInt32)
    (chunks : InboundChunks) : ChunkDecoder :=
  { decoder with streams := decoder.streams.put chunkStream chunks }

/-- The unfinished message of a chunk stream is given up. -/
def abort (decoder : ChunkDecoder) (chunkStream : UInt32) : ChunkDecoder :=
  if (decoder.stream chunkStream).collected.isEmpty then decoder
  else
    decoder.setStream chunkStream
      { decoder.stream chunkStream with collected := {} }

/-! ## One chunk -/

inductive ChunkOutcome where
  /-- The next chunk is not complete. -/
  | starved
  | refused (error : ProtocolError)
  | taken (message : Option WireMessage) (rest : Bytes)

/-- How many bytes of payload the chunk with this header carries. -/
def pieceSize (decoder : ChunkDecoder) (chunkStream : UInt32)
    (change : HeaderChange) : Except ProtocolError Nat :=
  let chunks := decoder.stream chunkStream
  let length := change.length?.getD (chunks.header.getD {}).length
  if decoder.maximum < length then
    .error (.messageTooLarge length decoder.maximum)
  else .ok (min (length.toNat - chunks.collected.size) decoder.chunkSize.toNat)

/-- The chunk after a header that has been read: the piece of payload that it
carries is consumed with it, and a message that is then complete is handed
out. -/
def takePiece (decoder : ChunkDecoder) (chunkStream : UInt32)
    (change : HeaderChange) (rest : Bytes) : ChunkOutcome × ChunkDecoder :=
  match decoder.pieceSize chunkStream change with
  | .error error => (.refused error, decoder)
  | .ok size =>
      match rest.split? size with
      | none => (.starved, decoder)
      | some (piece, rest) =>
          let chunks := decoder.stream chunkStream
          let header := (chunks.header.getD {}).apply chunks.collected.isEmpty change
          let collected := chunks.collected.append piece
          if header.length.toNat ≤ collected.size then
            let message : WireMessage :=
              { chunkStream := chunkStream, timestamp := header.timestamp,
                typeId := header.typeId, streamId := header.streamId,
                payload := collected.bytes }
            (.taken (some message) rest, decoder.setStream chunkStream ⟨some header, {}⟩)
          else
            (.taken none rest, decoder.setStream chunkStream ⟨some header, collected⟩)

/-- The decoder after the header of a chunk has been seen. -/
def afterHeader (decoder : ChunkDecoder) (chunkStream : UInt32)
    (change : HeaderChange) : ChunkDecoder :=
  if change.isContinued then decoder else decoder.abort chunkStream

def takeChunk (decoder : ChunkDecoder) (buffer : Bytes) :
    ChunkOutcome × ChunkDecoder :=
  match ChunkHeader.read decoder.lastHeader buffer with
  | .error error => (.refused error, decoder)
  | .ok none => (.starved, decoder)
  | .ok (some (chunkStream, change, rest)) =>
      (decoder.afterHeader chunkStream change).takePiece chunkStream change rest

end ChunkDecoder

/-! ## Progress -/

namespace Bytes

theorem length_of_split? {count : Nat} {bytes taken rest : Bytes}
    (hsplit : bytes.split? count = some (taken, rest)) :
    bytes.length = taken.length + rest.length := by
  rw [(split?_eq_some_iff.mp hsplit).1, List.length_append]

theorem length_rest_le {count : Nat} {bytes taken rest : Bytes}
    (hsplit : bytes.split? count = some (taken, rest)) :
    rest.length ≤ bytes.length := by
  have := length_of_split? hsplit
  omega

end Bytes

namespace ChunkHeader

theorem length_basic? {buffer rest : Bytes} {format : Nat}
    {chunkStream : UInt32}
    (hbasic : basic? buffer = some (format, chunkStream, rest)) :
    rest.length < buffer.length := by
  unfold basic? at hbasic
  repeat' split at hbasic
  all_goals simp_all
  all_goals (obtain ⟨_, _, hrest⟩ := hbasic; subst hrest; try omega)

theorem length_time? {short bytes rest : Bytes} {field : TimeField}
    (htime : time? short bytes = some (field, rest)) :
    rest.length ≤ bytes.length := by
  simp only [time?] at htime
  split at htime
  · cases hsplit : bytes.split? 4 with
    | none => simp [hsplit] at htime
    | some pair =>
        simp only [hsplit, Option.map_some, Option.some.injEq,
          Prod.mk.injEq] at htime
        have := Bytes.length_rest_le hsplit
        rw [← htime.2]
        exact this
  · simp only [Option.some.injEq, Prod.mk.injEq] at htime
    exact Nat.le_of_eq (congrArg List.length htime.2.symm)

theorem length_change? {format : Nat} {lastExtended : Bool}
    {bytes rest : Bytes} {change : HeaderChange}
    (hchange : change? format lastExtended bytes = some (change, rest)) :
    rest.length ≤ bytes.length := by
  unfold change? at hchange
  split at hchange
  all_goals
    simp only [bind, Option.bind_eq_some_iff, Prod.exists, pure,
      Option.some.injEq, Prod.mk.injEq] at hchange
  · obtain ⟨_, _, hsplit, _, _, htime, _, hrest⟩ := hchange
    have := Bytes.length_rest_le hsplit
    have := length_time? htime
    subst hrest
    omega
  · obtain ⟨_, _, hsplit, _, _, htime, _, hrest⟩ := hchange
    have := Bytes.length_rest_le hsplit
    have := length_time? htime
    subst hrest
    omega
  · obtain ⟨_, _, hsplit, _, _, htime, _, hrest⟩ := hchange
    have := Bytes.length_rest_le hsplit
    have := length_time? htime
    subst hrest
    omega
  · obtain ⟨_, _, hsplit, _, hrest⟩ := hchange
    have := Bytes.length_rest_le hsplit
    subst hrest
    omega

theorem length_read {last : UInt32 → Option LastHeader} {buffer rest : Bytes}
    {chunkStream : UInt32} {change : HeaderChange}
    (hread : read last buffer = .ok (some (chunkStream, change, rest))) :
    rest.length < buffer.length := by
  unfold read at hread
  split at hread
  · simp at hread
  · rename_i hbasic
    split at hread
    · simp at hread
    · simp only [Except.ok.injEq, Option.map_eq_some_iff, Prod.exists,
        Prod.mk.injEq] at hread
      obtain ⟨_, _, hchange, _, _, hrest⟩ := hread
      have := length_basic? hbasic
      have := length_change? hchange
      subst hrest
      omega

end ChunkHeader

namespace ChunkDecoder

theorem length_takePiece {decoder next : ChunkDecoder} {chunkStream : UInt32}
    {change : HeaderChange} {bytes rest : Bytes} {message : Option WireMessage}
    (htaken : decoder.takePiece chunkStream change bytes =
      (.taken message rest, next)) :
    rest.length ≤ bytes.length := by
  simp only [takePiece] at htaken
  split at htaken
  · simp at htaken
  · split at htaken
    · simp at htaken
    · rename_i hsplit
      have := Bytes.length_rest_le hsplit
      split at htaken
      all_goals
        simp only [Prod.mk.injEq, ChunkOutcome.taken.injEq] at htaken
        rw [← htaken.1.2]
        exact this

/-- A chunk that is taken makes the buffer shorter. -/
theorem length_takeChunk {decoder next : ChunkDecoder} {buffer rest : Bytes}
    {message : Option WireMessage}
    (htaken : decoder.takeChunk buffer = (.taken message rest, next)) :
    rest.length < buffer.length := by
  unfold takeChunk at htaken
  split at htaken
  · simp at htaken
  · simp at htaken
  · rename_i hread
    have := ChunkHeader.length_read hread
    have := length_takePiece htaken
    omega

/-! ## Messages -/

/-- Chunks are taken until one completes a message or none can be taken. -/
def decode (decoder : ChunkDecoder) (buffer : Bytes) :
    Except ProtocolError (Option WireMessage) × ChunkDecoder × Bytes :=
  match _htaken : decoder.takeChunk buffer with
  | (.taken none rest, next) => next.decode rest
  | (.taken (some message) rest, next) => (.ok (some message), next, rest)
  | (.starved, next) => (.ok none, next, buffer)
  | (.refused error, next) => (.error error, next, buffer)
termination_by buffer.length
decreasing_by exact length_takeChunk _htaken

/-- A message, and what was behind it in the buffer. -/
structure DecodedMessage where
  message : WireMessage
  rest : Bytes
  deriving DecidableEq, Repr

/-- How many bytes of the buffer were left behind the message. -/
def DecodedMessage.left (decoded : DecodedMessage) : Nat :=
  decoded.rest.length

/-- The messages of a buffer, and the error that ends them if one does. -/
structure Found where
  decoded : List DecodedMessage := []
  error : Option ProtocolError := none

def Found.messages (found : Found) : List WireMessage :=
  found.decoded.map DecodedMessage.message

/-- What a buffer holds, and the decoder and the bytes that are left. -/
structure Drained extends Found where
  decoder : ChunkDecoder
  rest : Bytes

/-- All messages of a buffer, put before those already taken, last first. -/
def drainOnto (decoder : ChunkDecoder) (buffer : Bytes)
    (done : List DecodedMessage) : Drained :=
  match _htaken : decoder.takeChunk buffer with
  | (.taken (some message) rest, next) =>
      next.drainOnto rest (⟨message, rest⟩ :: done)
  | (.taken none rest, next) => next.drainOnto rest done
  | (.starved, next) => ⟨⟨done.reverse, none⟩, next, buffer⟩
  | (.refused error, next) => ⟨⟨done.reverse, some error⟩, next, buffer⟩
termination_by buffer.length
decreasing_by all_goals exact length_takeChunk _htaken

def drain (decoder : ChunkDecoder) (buffer : Bytes) : Drained :=
  decoder.drainOnto buffer []

/-- What is found when pieces come in one after the other, each put behind
what the ones before it have left. -/
def drainPieces (decoder : ChunkDecoder) (buffer : Bytes) :
    List Bytes → List Drained
  | [] => []
  | piece :: pieces =>
      let drained := decoder.drain (buffer ++ piece)
      drained :: drained.decoder.drainPieces drained.rest pieces

end ChunkDecoder

end LiveRelay
