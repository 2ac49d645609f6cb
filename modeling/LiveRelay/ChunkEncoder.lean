import LiveRelay.ChunkHeader

/-!
# Writing chunks

A message is cut into pieces of the chunk size, and each piece goes out behind
a header.  The first header is the smallest one that the last message on the
same chunk stream admits; the others are continued ones.  A message without
payload is one chunk without payload.
-/

namespace LiveRelay

structure ChunkEncoder where
  chunkSize : UInt32 := 128
  streams : Table UInt32 LastHeader := []

namespace ChunkEncoder

def largestChunkSize : UInt32 := 0x7FFFFFFF

/-- Sizes outside `1 .. largestChunkSize` are moved to the nearer end. -/
def setChunkSize (encoder : ChunkEncoder) (size : UInt32) : ChunkEncoder :=
  { encoder with chunkSize := min (max size 1) largestChunkSize }

/-! ## Pieces -/

/-- Pieces of `less + 1` bytes, the last one possibly shorter, put before those
already cut, last first. -/
def cutOnto (less : Nat) (bytes : Bytes) (done : List Bytes) : List Bytes :=
  match hrest : bytes.drop (less + 1) with
  | [] => (bytes :: done).reverse
  | next :: rest =>
      cutOnto less (next :: rest) (bytes.take (less + 1) :: done)
termination_by bytes.length
decreasing_by
  rw [← hrest, List.length_drop]
  have : bytes ≠ [] := by
    intro hnil
    simp [hnil] at hrest
  have := List.length_pos_iff.mpr this
  omega

/-- At least one piece, and none of them empty if there are several. -/
def pieces (size : Nat) (bytes : Bytes) : List Bytes :=
  cutOnto (size - 1) bytes []

/-! ## Headers -/

/-- The smallest header that tells a message from the last one on its chunk
stream. -/
def changeFor (last : Option LastHeader) (message : WireMessage) :
    HeaderChange :=
  let length := UInt32.ofNat message.payload.length
  let full :=
    HeaderChange.full (.ofValue message.timestamp) length message.typeId
      message.streamId
  match last with
  | none => full
  | some last =>
      let delta := message.timestamp - last.timestamp
      if message.streamId ≠ last.streamId ∨ message.timestamp < last.timestamp then
        full
      else if message.typeId ≠ last.typeId ∨ length ≠ last.length then
        .sameStream (.ofValue delta) length message.typeId
      else if delta = last.delta then .continued
      else .sameLength (.ofValue delta)

/-- The bytes of a header, and those of the continued headers after it. -/
def writeHeader (chunkStream : UInt32) (change : HeaderChange)
    (extension : Bytes) : Bytes :=
  ChunkHeader.writeBasic change.format chunkStream ++
    ChunkHeader.writeFields change ++ extension

/-- The extension that a message's chunks carry: that of its own time field or
the one that has stuck to the chunk stream. -/
def extensionFor (last : Option LastHeader) : HeaderChange → Bytes
  | .full time _ _ _ => time.extension
  | .sameStream delta _ _ => delta.extension
  | .sameLength delta => delta.extension
  | .continued =>
      let last := last.getD {}
      TimeField.extension ⟨last.delta, last.isExtended⟩

/-! ## Messages -/

def encode (encoder : ChunkEncoder) (message : WireMessage) :
    Bytes × ChunkEncoder :=
  let chunkStream := message.chunkStream
  let last := encoder.streams.get? chunkStream
  let change := changeFor last message
  let extension := extensionFor last change
  let header := (last.getD {}).apply true change
  let written :=
    match pieces encoder.chunkSize.toNat message.payload with
    | [] => []
    | first :: others =>
        writeHeader chunkStream change extension ++ first ++
          others.flatMap fun piece =>
            writeHeader chunkStream .continued extension ++ piece
  (written, { encoder with streams := encoder.streams.put chunkStream header })

/-- The written forms of messages that follow each other. -/
def encodeAll (encoder : ChunkEncoder) :
    List WireMessage → List Bytes × ChunkEncoder
  | [] => ([], encoder)
  | message :: messages =>
      let (written, encoder) := encoder.encode message
      let (others, encoder) := encoder.encodeAll messages
      (written :: others, encoder)

end ChunkEncoder

end LiveRelay
