import LiveRelay.Bytes
import LiveRelay.Errors
import LiveRelay.Table

/-!
# Chunk headers

Messages travel as chunks, so that several logical channels share one
connection.  A chunk starts with its format and its chunk stream, in one to
three bytes.  What follows depends on the format: a full header, or only what
changed since the last header on that chunk stream.  A time field of all ones
announces a field of four bytes behind the header, and this sticks: chunks
that repeat the last header repeat that field too.

Reader and writer describe a header by the same `HeaderChange`, and both sides
keep the same `LastHeader` for each chunk stream.
-/

namespace LiveRelay

/-- One complete message with the chunk stream it travels on. -/
structure WireMessage where
  chunkStream : UInt32
  timestamp : UInt32
  typeId : UInt8
  streamId : UInt32
  payload : Bytes
  deriving DecidableEq, BEq, ReflBEq, LawfulBEq, Inhabited, Repr

/-- What both sides remember of a chunk stream: the time of the message being
sent, or of the last one, and the fields that a compressed header leaves
out. -/
structure LastHeader where
  timestamp : UInt32 := 0
  delta : UInt32 := 0
  length : UInt32 := 0
  typeId : UInt8 := 0
  streamId : UInt32 := 0
  isExtended : Bool := false
  deriving DecidableEq, Inhabited, Repr

/-- A time, and whether it travels in the field of four bytes. -/
structure TimeField where
  value : UInt32
  isExtended : Bool
  deriving DecidableEq, Repr

/-- What a chunk says of its message, in the order of the four formats. -/
inductive HeaderChange where
  | full (time : TimeField) (length : UInt32) (typeId : UInt8) (streamId : UInt32)
  | sameStream (delta : TimeField) (length : UInt32) (typeId : UInt8)
  | sameLength (delta : TimeField)
  | continued
  deriving DecidableEq, Repr

namespace TimeField

def threshold : Nat := 0xFFFFFF

def ofValue (value : UInt32) : TimeField :=
  ⟨value, decide (threshold ≤ value.toNat)⟩

def short (field : TimeField) : Bytes :=
  Bytes.ofNumber 3 (if field.isExtended then threshold else field.value.toNat)

def extension (field : TimeField) : Bytes :=
  if field.isExtended then Bytes.ofWord32 field.value else []

end TimeField

namespace HeaderChange

def isContinued : HeaderChange → Bool
  | .continued => true
  | _ => false

/-- The length that the header gives, if it gives one. -/
def length? : HeaderChange → Option UInt32
  | .full _ length _ _ => some length
  | .sameStream _ length _ => some length
  | .sameLength _ => none
  | .continued => none

def format : HeaderChange → Nat
  | .full .. => 0
  | .sameStream .. => 1
  | .sameLength _ => 2
  | .continued => 3

end HeaderChange

/-- The header after a change.  A chunk without a header of its own moves the
time on only if it starts a message. -/
def LastHeader.apply (last : LastHeader) (starts : Bool) :
    HeaderChange → LastHeader
  | .full time length typeId streamId =>
      { timestamp := time.value, delta := time.value, length := length,
        typeId := typeId, streamId := streamId, isExtended := time.isExtended }
  | .sameStream delta length typeId =>
      { last with
        timestamp := last.timestamp + delta.value, delta := delta.value,
        length := length, typeId := typeId, isExtended := delta.isExtended }
  | .sameLength delta =>
      { last with
        timestamp := last.timestamp + delta.value, delta := delta.value,
        isExtended := delta.isExtended }
  | .continued =>
      if starts then { last with timestamp := last.timestamp + last.delta }
      else last

namespace ChunkHeader

/-! ## Reading -/

/-- Format and chunk stream, and what follows them. -/
def basic? : Bytes → Option (Nat × UInt32 × Bytes)
  | [] => none
  | first :: rest =>
      let format := first.toNat / 64
      match first.toNat % 64 with
      | 0 =>
          match rest with
          | low :: rest => some (format, UInt32.ofNat (64 + low.toNat), rest)
          | [] => none
      | 1 =>
          match rest with
          | low :: high :: rest =>
              some (format, UInt32.ofNat (64 + low.toNat + 256 * high.toNat), rest)
          | _ => none
      | chunkStream => some (format, UInt32.ofNat chunkStream, rest)

/-- The time whose three bytes are known, with the extension if they announce
one. -/
def time? (short : Bytes) (rest : Bytes) : Option (TimeField × Bytes) :=
  let value := Bytes.number short
  if TimeField.threshold ≤ value then
    (rest.split? 4).map fun (extension, rest) =>
      (⟨Bytes.word32 extension, true⟩, rest)
  else some (⟨UInt32.ofNat value, false⟩, rest)

/-- The rest of a header of the given format; a continued one repeats the
extension if the last header had one. -/
def change? (format : Nat) (lastExtended : Bool) (bytes : Bytes) :
    Option (HeaderChange × Bytes) :=
  match format with
  | 0 => do
      let (fields, rest) ← bytes.split? 11
      let (time, rest) ← time? (fields.take 3) rest
      let length := Bytes.word32 ((fields.drop 3).take 3)
      let typeId := UInt8.ofNat (Bytes.number ((fields.drop 6).take 1))
      let streamId := Bytes.word32 (fields.drop 7).reverse
      return (.full time length typeId streamId, rest)
  | 1 => do
      let (fields, rest) ← bytes.split? 7
      let (delta, rest) ← time? (fields.take 3) rest
      let length := Bytes.word32 ((fields.drop 3).take 3)
      let typeId := UInt8.ofNat (Bytes.number (fields.drop 6))
      return (.sameStream delta length typeId, rest)
  | 2 => do
      let (fields, rest) ← bytes.split? 3
      let (delta, rest) ← time? fields rest
      return (.sameLength delta, rest)
  | _ => do
      let (_, rest) ← bytes.split? (if lastExtended then 4 else 0)
      return (.continued, rest)

/-- The header at the start of a buffer, `none` if it is not complete.  A chunk
stream starts with a full header. -/
def read (last : UInt32 → Option LastHeader) (buffer : Bytes) :
    Except ProtocolError (Option (UInt32 × HeaderChange × Bytes)) :=
  match basic? buffer with
  | none => .ok none
  | some (format, chunkStream, rest) =>
      if format ≠ 0 ∧ (last chunkStream).isNone then
        .error (.missingChunkHeader chunkStream)
      else
        let lastExtended := ((last chunkStream).getD {}).isExtended
        .ok ((change? format lastExtended rest).map fun (change, rest) =>
          (chunkStream, change, rest))

/-! ## Writing -/

def writeBasic (format : Nat) (chunkStream : UInt32) : Bytes :=
  let tag := UInt8.ofNat (64 * format)
  let id := chunkStream.toNat
  if 320 ≤ id then
    [tag + 1, UInt8.ofNat (id - 64), UInt8.ofNat ((id - 64) / 256)]
  else if 64 ≤ id then [tag, UInt8.ofNat (id - 64)]
  else [tag + UInt8.ofNat id]

/-- The fields between the basic header and the extension. -/
def writeFields : HeaderChange → Bytes
  | .full time length typeId streamId =>
      time.short ++ Bytes.ofWord24 length ++ [typeId] ++
        (Bytes.ofWord32 streamId).reverse
  | .sameStream delta length typeId =>
      delta.short ++ Bytes.ofWord24 length ++ [typeId]
  | .sameLength delta => delta.short
  | .continued => []

end ChunkHeader

end LiveRelay
